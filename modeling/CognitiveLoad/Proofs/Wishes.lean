import CognitiveLoad.Proofs.Numerals
import CognitiveLoad.Proofs.Paths
import CognitiveLoad.Proofs.Precedence

/-!
Two ways to tell a run what it is asked for. The same wishes come to the same settings, or to the
same refusal, whether options or variables of the environment tell them (`options_or_variables`).
-/

namespace CognitiveLoad.CommandLine

/-- What a run is asked for. What is `none`, empty or off is not asked for. -/
structure Wishes where
  threshold : Option Int := none
  language : Option String := none
  ignore : List String := []
  recursive : Bool := false
  withoutOperators : Bool := false
  format : Option Format := none
  verbose : Bool := false

namespace Wishes

variable (w : Wishes)

def given {α : Type} : Option α → Given α
  | none => .absent
  | some a => .value a

/-- The options that tell the wishes, beside the path. -/
def options (path : Option String) : Options where
  path := path
  language := given w.language
  threshold := given w.threshold
  ignore := w.ignore.map .value
  recursive := w.recursive
  withoutOperators := w.withoutOperators
  format := given w.format
  verbose := w.verbose

/-- The text in the variable for a setting. -/
def value? : Setting → Option String
  | .threshold => w.threshold.map toString
  | .language => w.language
  | .ignore => if w.ignore.isEmpty then none else some (",".intercalate w.ignore)
  | .recursive => if w.recursive then some "true" else none
  | .operators => if w.withoutOperators then some "false" else none
  | .format => w.format.map Format.name
  | .verbose => if w.verbose then some "true" else none

/-- The variables that tell the wishes. -/
def environment : Environment :=
  Setting.all.filterMap fun s => (w.value? s).map (s.variableName, ·)

/-- The threshold that is asked for. -/
def thresholdAsked : Except SettingsError Nat :=
  match w.threshold with
  | none => .ok 0
  | some n => (Offer.plain (.int n)).threshold

/-- What the wishes come to with a threshold. -/
def settled (threshold : Nat) : Configuration where
  analysis :=
    { threshold := threshold
      language := w.language.bind languageName?
      ignore := w.ignore
      recursive := w.recursive
      countOperators := !w.withoutOperators }
  output := { format := w.format.getD .text, verbose := w.verbose }

/-- What the wishes come to. Only a threshold can be refused. -/
def configuration : Except SettingsError Configuration :=
  w.thresholdAsked.map w.settled

theorem lookup_filterMap (s : Setting) (l : List Setting) :
    (l.filterMap fun s' => (w.value? s').map (s'.variableName, ·)).lookup s.variableName =
      if s ∈ l then w.value? s else none := by
  induction l with
  | nil => rfl
  | cons s' rest ih =>
    by_cases heq : s = s'
    · subst heq
      cases hvalue : w.value? s with
      | none => simp [hvalue, ih]
      | some text => simp [hvalue]
    · have hname : s.variableName ≠ s'.variableName := mt Setting.variableName_injective heq
      cases hvalue : w.value? s' with
      | none => simp [hvalue, ih, heq]
      | some text => simp [hvalue, ih, heq, Roster.lookup_cons_ite, hname]

/-- Each variable has the text for its setting, where no other values are there. -/
theorem value?_environment (others : Environment)
    (hothers : ∀ s : Setting, others.value? s = none) (s : Setting) :
    (w.environment ++ others).value? s = w.value? s := by
  have hall : s ∈ Setting.all := by cases s <;> decide
  have hothers : others.lookup s.variableName = none := hothers s
  rw [Environment.value?, List.lookup_append, environment, lookup_filterMap, if_pos hall, hothers,
    Option.or_none]

end Wishes

/-- A pattern that can stand between commas. -/
structure IsListed (pattern : String) : Prop where
  not_blank : Text.isBlankText pattern = false
  no_comma : ',' ∉ pattern.toList
  trimmed : Text.trim pattern = pattern

instance (pattern : String) : Decidable (IsListed pattern) :=
  decidable_of_iff (Text.isBlankText pattern = false ∧ ',' ∉ pattern.toList ∧
      Text.trim pattern = pattern)
    ⟨fun h => ⟨h.1, h.2.1, h.2.2⟩, fun h => ⟨h.not_blank, h.no_comma, h.trimmed⟩⟩

theorem IsListed.ne_empty {pattern : String} (h : IsListed pattern) : pattern ≠ "" := by
  rintro rfl
  cases h.not_blank

/-- Patterns are found again between commas. -/
theorem patterns_intercalate {ps : List String} (hne : ps ≠ []) (h : ∀ p ∈ ps, IsListed p) :
    Environment.patterns (some (",".intercalate ps)) = ps := by
  have hsplit : Text.splitOn ',' (",".intercalate ps) = ps := by
    rw [Text.splitOn, Text.splitWhere_eq_splitOnP, ← List.splitOn_eq_splitOnP,
      String.toList_intercalate]
    have hcut : List.splitOn ',' ([','].intercalate (ps.map String.toList)) =
        ps.map String.toList := by
      apply List.splitOn_intercalate
      · intro l hl
        obtain ⟨p, hp, rfl⟩ := List.mem_map.mp hl
        exact (h p hp).no_comma
      · simpa using hne
    show (List.splitOn ',' ([','].intercalate _)).map _ = _
    rw [hcut]
    simp [Function.comp_def]
  have htrim : ps.map Text.trim = ps :=
    (List.map_congr_left fun p hp => (h p hp).trimmed).trans (List.map_id ps)
  simp only [Environment.patterns, hsplit, htrim]
  rw [List.filter_eq_self]
  intro p hp
  simpa using (h p hp).ne_empty

/-! ## By options -/

theorem checkOutput_name (f : Format) (verbose : Bool) :
    checkOutput f.name verbose = .ok ⟨f, verbose⟩ := by
  cases f <;> rfl

theorem textOr_given {α β : Type} (b : β) (set : α → β) (a : Option α) :
    textOr b set (Wishes.given a) = .ok ((a.map set).getD b) := by
  cases a <;> rfl

theorem patternsOf_value (ps : List String) : patternsOf (ps.map .value) = ps := by
  rw [patternsOf, List.filterMap_map]
  exact List.filterMap_some

/-- What wishes make of settings, with the threshold that comes of them. -/
def Wishes.over (w : Wishes) (base : Configuration) (threshold : Nat) : Configuration where
  analysis :=
    { threshold := threshold
      language := (w.language.or base.analysis.language).bind languageName?
      ignore := if w.ignore.isEmpty then base.analysis.ignore else w.ignore
      recursive := w.recursive || base.analysis.recursive
      countOperators := !w.withoutOperators && base.analysis.countOperators }
  output := ⟨w.format.getD base.output.format, w.verbose || base.output.verbose⟩

theorem override_options (base : Configuration) (w : Wishes) (path : Option String) :
    override base (w.options path) =
      (checked (thresholdOffer base.analysis.threshold (Wishes.given w.threshold)).threshold).map
        (w.over base) := by
  have hlanguage : (w.language.map some).getD base.analysis.language =
      w.language.or base.analysis.language := by
    cases w.language <;> rfl
  have hformat : (w.format.map id).getD base.output.format = w.format.getD base.output.format := by
    rw [Option.map_id, id]
  simp only [override, Wishes.options, textOr_given, hlanguage, hformat, checkOutput_name,
    patternsOf_value, List.isEmpty_map]
  cases (thresholdOffer base.analysis.threshold (Wishes.given w.threshold)).threshold <;> rfl

/-- With no variables the settings are the standard ones. -/
theorem configuration_of_none {env : Environment} (h : ∀ s : Setting, env.value? s = none) :
    env.configuration = .ok {} := by
  have hflag : ∀ (s : Setting) default, env.flag s.variableName default = default := by
    intro s default
    have hlookup : env.lookup s.variableName = none := h s
    rw [Environment.flag, hlookup]
  have hthreshold : env.thresholdSet = .ok 0 := by
    rw [Environment.thresholdSet, h]
    rfl
  have hformat : env.formatSet = .ok .text := by
    rw [Environment.formatSet, h]
    rfl
  rw [Environment.configuration_eq, hthreshold, hformat]
  simp [Environment.assemble, hflag, h, Environment.patterns]

theorem over_standard (w : Wishes) : w.over {} = w.settled := by
  funext threshold
  simp [Wishes.over, Wishes.settled]

theorem configure_options (w : Wishes) (path : Option String) {env : Environment}
    (h : ∀ s : Setting, env.value? s = none) :
    configure env (w.options path) = checked w.configuration := by
  have hthreshold : (thresholdOffer 0 (Wishes.given w.threshold)).threshold = w.thresholdAsked := by
    rw [Wishes.thresholdAsked]
    cases w.threshold <;> rfl
  rw [configure_eq, configuration_of_none h]
  show override {} (w.options path) = _
  rw [override_options, over_standard, hthreshold, Wishes.configuration]
  cases w.thresholdAsked <;> rfl

/-! ## By variables -/

/-- Settings from the environment pass the second check as they are. -/
theorem override_nothing {env : Environment} {base : Configuration}
    (h : env.configuration = .ok base) (path : Option String) :
    override base (Wishes.options {} path) = .ok base := by
  have hlanguage : base.analysis.language.bind languageName? = base.analysis.language := by
    rw [Environment.configuration_eq] at h
    split at h
    · cases h
    · split at h
      · cases h
      · cases h
        -- a name is trimmed and in lower case already
        cases hname : env.value? .language with
        | none => simp [Environment.assemble, hname]
        | some name => simp [Environment.assemble, hname, languageName?_again]
  have hover : Wishes.over {} base base.analysis.threshold = base := by
    simp [Wishes.over, hlanguage]
  rw [override_options]
  exact congrArg Except.ok hover

theorem configure_without_options (env : Environment) (path : Option String) :
    configure env (Wishes.options {} path) = checked env.configuration := by
  rw [configure_eq]
  cases hc : env.configuration with
  | error e => rfl
  | ok base => exact override_nothing hc path

/-- A variable that is there to switch a setting does so. -/
theorem flag_switched {env : Environment} {s : Setting} {asked : Bool} {text : String}
    (h : env.value? s = if asked then some text else none) {default : Bool}
    (htext : ["1", "true", "yes", "on"].contains (Text.lower (Text.trim text)) = !default) :
    env.flag s.variableName default = (asked ^^ default) := by
  have hlookup : env.lookup s.variableName = if asked then some text else none := h
  rw [Environment.flag, hlookup]
  cases asked with
  | false => simp
  | true =>
    rw [Bool.true_xor]
    exact htext

/-- The texts for the wishes are read as they were meant. -/
theorem configuration_environment {w : Wishes} {env : Environment}
    (henv : ∀ s : Setting, env.value? s = w.value? s)
    (hthreshold : ∀ n ∈ w.threshold, Text.digitCount n.natAbs ≤ Text.maxDigits)
    (hignore : ∀ p ∈ w.ignore, IsListed p) : env.configuration = w.configuration := by
  have hnumber : env.thresholdSet = w.thresholdAsked := by
    rw [Environment.thresholdSet, henv, Wishes.value?, Wishes.thresholdAsked]
    cases hn : w.threshold with
    | none => rfl
    | some n =>
      have hread : Text.integer? (toString n) = some n := Text.integer?_toString (hthreshold n hn)
      simp only [Option.map_some, Option.getD_some, Offer.threshold, Offer.integer, hread]
  have hformat : env.formatSet = .ok (w.format.getD .text) := by
    rw [Environment.formatSet, henv, Wishes.value?]
    cases w.format with
    | none => rfl
    | some f => cases f <;> rfl
  have hpatterns : Environment.patterns (env.value? .ignore) = w.ignore := by
    rw [henv, Wishes.value?]
    cases hps : w.ignore with
    | nil => rfl
    | cons p rest =>
      rw [hps] at hignore
      exact patterns_intercalate (by simp) hignore
  have hrecursive : env.flag Setting.recursive.variableName false = w.recursive := by
    rw [flag_switched (henv .recursive) (by decide +kernel), Bool.xor_false]
  have hoperators : env.flag Setting.operators.variableName true = !w.withoutOperators := by
    rw [flag_switched (henv .operators) (by decide +kernel), Bool.xor_true]
  have hverbose : env.flag Setting.verbose.variableName false = w.verbose := by
    rw [flag_switched (henv .verbose) (by decide +kernel), Bool.xor_false]
  have hassemble : ∀ t, env.assemble t (w.format.getD .text) = w.settled t := by
    intro t
    simp only [Environment.assemble, Wishes.settled, henv .language, hpatterns, hrecursive,
      hoperators, hverbose, Wishes.value?]
  rw [Environment.configuration_eq, hnumber, hformat, Wishes.configuration]
  cases w.thresholdAsked with
  | error e => rfl
  | ok t => exact congrArg Except.ok (hassemble t)

/-- **Options and variables are two ways to tell the same.** Take any wishes: a threshold with no
more digits than are read, a name of a language, a format, switches, and patterns that are not
blank, have no blanks around them and no comma in them. The options for them, in an environment
without variables for settings, come to the same settings as the variables for them, without
options; or both are refused, with the same message. What else is in the environment makes no
difference. -/
theorem options_or_variables (w : Wishes)
    (hthreshold : ∀ n ∈ w.threshold, Text.digitCount n.natAbs ≤ Text.maxDigits)
    (hignore : ∀ p ∈ w.ignore, IsListed p) (others : Environment)
    (hothers : ∀ s : Setting, others.lookup s.variableName = none) (path path' : Option String) :
    configure others (w.options path) =
        configure (w.environment ++ others) (Wishes.options {} path') ∧
      configure others (w.options path) = checked w.configuration := by
  have hoptions := configure_options w path hothers
  have hvariables :=
    configuration_environment (w.value?_environment others hothers) hthreshold hignore
  constructor
  · rw [hoptions, configure_without_options, hvariables]
  · exact hoptions

/-- All settings at once, with a name of a language that has to be trimmed and lower-cased. -/
def fullWishes (threshold : Int) : Wishes where
  threshold := some threshold
  language := some " PyThOn "
  ignore := ["*.h", "a b/"]
  recursive := true
  withoutOperators := true
  format := some .json
  verbose := true

theorem options_or_variables_full :
    let told := fun n => configure [("HOME", "/")] ((fullWishes n).options (some "src"))
    let set := fun n => configure ((fullWishes n).environment ++ [("HOME", "/")])
      (Wishes.options {} (some "src"))
    told 12 = set 12 ∧ told (-7) = set (-7) ∧
      told 12 = .ok ⟨⟨12, some "python", ["*.h", "a b/"], true, false⟩, ⟨.json, true⟩⟩ ∧
      told (-7) = .error (.settings .negative) := by
  intro told set
  have hignore : ∀ p ∈ ["*.h", "a b/"], IsListed p := by decide +kernel
  have hothers : ∀ s : Setting,
      List.lookup s.variableName [("HOME", "/")] = none := by
    intro s
    cases s <;> decide
  have hpositive := options_or_variables (fullWishes 12)
    (by intro n hn; cases hn; decide) hignore [("HOME", "/")] hothers (some "src") (some "src")
  have hnegative := options_or_variables (fullWishes (-7))
    (by intro n hn; cases hn; decide) hignore [("HOME", "/")] hothers (some "src") (some "src")
  have hsettled : (fullWishes 12).settled 12 =
      ⟨⟨12, some "python", ["*.h", "a b/"], true, false⟩, ⟨.json, true⟩⟩ := by
    decide +kernel
  refine ⟨hpositive.1, hnegative.1, ?_, hnegative.2⟩
  rw [← hsettled]
  exact hpositive.2

end CognitiveLoad.CommandLine
