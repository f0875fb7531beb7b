import CognitiveLoad.CommandLine.Run
import CognitiveLoad.Proofs.Outcome

/-!
Settings from the environment with options in their place. An option makes a run independent of the
variable for the same setting, as long as the value of that variable is valid by itself; one that is
not valid ends the run (`options_take_precedence`).
-/

namespace CognitiveLoad

/-- What can be set both by an option and by a variable of the environment. -/
inductive Setting where
  | threshold
  | language
  | ignore
  | recursive
  | operators
  | format
  | verbose
  deriving DecidableEq, Repr

namespace Setting

def variableName : Setting → String
  | threshold => "COMPLEXITY_THRESHOLD"
  | language => "COMPLEXITY_LANGUAGE"
  | ignore => "COMPLEXITY_IGNORE"
  | recursive => "COMPLEXITY_RECURSIVE"
  | operators => "COMPLEXITY_BOOLEAN_OPERATORS"
  | format => "COMPLEXITY_FORMAT"
  | verbose => "COMPLEXITY_VERBOSE"

def all : List Setting :=
  [threshold, language, ignore, recursive, operators, format, verbose]

theorem variableName_injective {s s' : Setting} (h : s.variableName = s'.variableName) :
    s = s' := by
  cases s <;> cases s' <;> first | rfl | exact absurd h (by decide)

end Setting

/-! ## What the environment sets -/

namespace Environment

variable (env : Environment)

/-- The value of the variable for a setting. -/
def value? (s : Setting) : Option String :=
  env.lookup s.variableName

def thresholdSet : Except SettingsError Nat :=
  (Offer.plain (.text ((env.value? .threshold).getD "0"))).threshold

def formatSet : Except SettingsError Format :=
  checkFormat ((env.value? .format).getD "text")

/-- The settings of an environment, apart from those that may be refused. -/
def assemble (threshold : Nat) (format : Format) : Configuration where
  analysis :=
    { threshold := threshold
      language := (env.value? .language).bind languageName?
      ignore := patterns (env.value? .ignore)
      recursive := env.flag Setting.recursive.variableName false
      countOperators := env.flag Setting.operators.variableName true }
  output := { format := format, verbose := env.flag Setting.verbose.variableName false }

theorem configuration_eq :
    env.configuration =
      match env.thresholdSet with
      | .error e => .error e
      | .ok threshold =>
        match env.formatSet with
        | .error e => .error e
        | .ok format => .ok (env.assemble threshold format) := by
  have hsettings : env.settings = env.thresholdSet >>= fun threshold =>
      pure (env.assemble threshold .text).analysis := rfl
  have houtput : env.output = env.formatSet >>= fun format =>
      pure (env.assemble 0 format).output := rfl
  rw [configuration, hsettings, houtput]
  cases env.thresholdSet with
  | error e => rfl
  | ok threshold =>
    cases env.formatSet <;> rfl

variable {env} {env' : Environment}

theorem flag_congr {s : Setting} (h : env.value? s = env'.value? s) (default : Bool) :
    env.flag s.variableName default = env'.flag s.variableName default := by
  have hlookup : env.lookup s.variableName = env'.lookup s.variableName := h
  rw [flag, flag, hlookup]

/-- Two environments that differ in the variable for one setting at most. -/
def AgreeBut (s : Setting) (env env' : Environment) : Prop :=
  ∀ name, name ≠ s.variableName → env.lookup name = env'.lookup name

theorem AgreeBut.value? {s s' : Setting} (h : AgreeBut s env env') (hne : s' ≠ s) :
    env.value? s' = env'.value? s' :=
  h s'.variableName fun heq => hne (Setting.variableName_injective heq)

/-- Whether the value of the variable for a setting is valid by itself. -/
def accepts (env : Environment) : Setting → Bool
  | .threshold => env.thresholdSet.isOk
  | .format => env.formatSet.isOk
  | _ => true

end Environment

/-! ## What is left of settings without one -/

/-- The settings with the standard value for one of them. -/
def Configuration.forget (c : Configuration) : Setting → Configuration
  | .threshold => { c with analysis := { c.analysis with threshold := 0 } }
  | .language => { c with analysis := { c.analysis with language := none } }
  | .ignore => { c with analysis := { c.analysis with ignore := [] } }
  | .recursive => { c with analysis := { c.analysis with recursive := false } }
  | .operators => { c with analysis := { c.analysis with countOperators := true } }
  | .format => { c with output := { c.output with format := .text } }
  | .verbose => { c with output := { c.output with verbose := false } }

namespace Environment

variable {env env' : Environment} {s : Setting}

theorem assemble_forget (h : AgreeBut s env env') {t t' : Nat} {f f' : Format}
    (ht : s ≠ .threshold → t = t') (hf : s ≠ .format → f = f') :
    (env.assemble t f).forget s = (env'.assemble t' f').forget s := by
  have hvalue : ∀ s', s' ≠ s → env.value? s' = env'.value? s' := fun s' => h.value?
  have hflag : ∀ s' default, s' ≠ s →
      env.flag s'.variableName default = env'.flag s'.variableName default :=
    fun s' default hne => flag_congr (hvalue s' hne) default
  cases s <;> simp [assemble, Configuration.forget, hvalue, hflag, ht, hf]

/-- Two readings that are the same, or that both succeed where a condition holds. -/
theorem refused_or_read {ε α : Type} {x x' : Except ε α} {P : Prop} (hsame : ¬ P → x = x')
    (hok : P → x.isOk = true ∧ x'.isOk = true) :
    (∃ e, x = .error e ∧ x' = .error e) ∨
      ∃ a a', x = .ok a ∧ x' = .ok a' ∧ (¬ P → a = a') := by
  by_cases hP : P
  · obtain ⟨hx, hx'⟩ := hok hP
    cases x with
    | error e => cases hx
    | ok a =>
      cases x' with
      | error e => cases hx'
      | ok a' => exact .inr ⟨a, a', rfl, rfl, fun hnot => absurd hP hnot⟩
  · have heq := hsame hP
    subst heq
    cases x with
    | error e => exact .inl ⟨e, rfl, rfl⟩
    | ok a => exact .inr ⟨a, a, rfl, rfl, fun _ => rfl⟩

/-- Valid values of one variable make a difference for its setting only. -/
theorem configuration_forget (h : AgreeBut s env env') (hv : env.accepts s = true)
    (hv' : env'.accepts s = true) :
    env.configuration.map (·.forget s) = env'.configuration.map (·.forget s) := by
  have hthreshold : s ≠ .threshold → env.thresholdSet = env'.thresholdSet := by
    intro hne
    rw [thresholdSet, thresholdSet, h.value? hne.symm]
  have hformat : s ≠ .format → env.formatSet = env'.formatSet := by
    intro hne
    rw [formatSet, formatSet, h.value? hne.symm]
  rw [configuration_eq, configuration_eq]
  rcases refused_or_read hthreshold (by rintro rfl; exact ⟨hv, hv'⟩) with
    ⟨e, ht, ht'⟩ | ⟨t, t', ht, ht', htt⟩
  · rw [ht, ht']
  · rcases refused_or_read hformat (by rintro rfl; exact ⟨hv, hv'⟩) with
      ⟨e, hf, hf'⟩ | ⟨f, f', hf, hf', hff⟩
    · rw [ht, ht', hf, hf']
    · rw [ht, ht', hf, hf']
      exact congrArg Except.ok (assemble_forget h htt hff)

/-- A value that is not valid by itself is refused, whatever else is set. -/
theorem configuration_refused (hv : env.accepts s = false) : ∃ e, env.configuration = .error e := by
  rw [configuration_eq]
  cases ht : env.thresholdSet with
  | error e => exact ⟨e, rfl⟩
  | ok t =>
    cases hf : env.formatSet with
    | error e => exact ⟨e, rfl⟩
    | ok f => cases s <;> simp [accepts, ht, hf, Except.isOk, Except.toBool] at hv

end Environment

namespace CommandLine

/-! ## Options in the place of settings -/

def Given.isGiven {α : Type} : Given α → Bool
  | absent => false
  | _ => true

/-- Whether the options tell a setting. -/
def Options.sets (o : Options) : Setting → Bool
  | .threshold => o.threshold.isGiven
  | .language => o.language.isGiven
  | .ignore => !o.ignore.isEmpty
  | .recursive => o.recursive
  | .operators => o.withoutOperators
  | .format => o.format.isGiven
  | .verbose => o.verbose

theorem thresholdOffer_of_given {g : Given Int} (h : g.isGiven = true) (n n' : Nat) :
    thresholdOffer n g = thresholdOffer n' g := by
  cases g with
  | absent => cases h
  | empty => rfl
  | value m => rfl

theorem textOr_of_given {α β : Type} {g : Given α} (h : g.isGiven = true) (b b' : β)
    (set : α → β) : textOr b set g = textOr b' set g := by
  cases g with
  | absent => cases h
  | empty => rfl
  | value a => rfl

/-- A setting that the options tell is not looked at. -/
theorem override_forget {o : Options} {s : Setting} (h : o.sets s = true) (c : Configuration) :
    override (c.forget s) o = override c o := by
  cases s with
  | threshold =>
    simp only [override, Configuration.forget,
      thresholdOffer_of_given h 0 c.analysis.threshold]
  | language =>
    simp only [override, Configuration.forget, textOr_of_given h none c.analysis.language]
  | ignore =>
    have hgiven : o.ignore.isEmpty = false := by simpa [Options.sets] using h
    simp only [override, Configuration.forget, hgiven]
    rfl
  | recursive =>
    have hgiven : o.recursive = true := h
    simp only [override, Configuration.forget, hgiven, Bool.true_or]
  | operators =>
    have hgiven : o.withoutOperators = true := h
    simp only [override, Configuration.forget, hgiven, Bool.not_true, Bool.false_and]
  | format =>
    simp only [override, Configuration.forget, textOr_of_given h .text c.output.format]
  | verbose =>
    have hgiven : o.verbose = true := h
    simp only [override, Configuration.forget, hgiven, Bool.true_or]

theorem configure_eq (env : Environment) (o : Options) :
    configure env o =
      match env.configuration with
      | .error e => .error (.settings e)
      | .ok base => override base o := by
  unfold configure
  cases env.configuration <;> rfl

/-- Settings do not depend on a variable whose setting the options tell, if its value is valid. -/
theorem configure_congr {env env' : Environment} {s : Setting} {o : Options}
    (h : Environment.AgreeBut s env env') (hsets : o.sets s = true) (hv : env.accepts s = true)
    (hv' : env'.accepts s = true) : configure env o = configure env' o := by
  have hforget := Environment.configuration_forget h hv hv'
  rw [configure_eq, configure_eq]
  cases hc : env.configuration with
  | error e =>
    cases hc' : env'.configuration with
    | error e' =>
      rw [hc, hc'] at hforget
      cases hforget
      rfl
    | ok base' =>
      rw [hc, hc'] at hforget
      cases hforget
  | ok base =>
    cases hc' : env'.configuration with
    | error e' =>
      rw [hc, hc'] at hforget
      cases hforget
    | ok base' =>
      rw [hc, hc'] at hforget
      have hbase : base.forget s = base'.forget s := Except.ok.inj hforget
      show override base o = override base' o
      rw [← override_forget hsets base, hbase, override_forget hsets base']

/-- **Options take precedence over the environment.** Take arguments whose options tell a setting,
and two environments that differ in the variable for that setting alone. If each has a value there
that is valid by itself, or none, both runs are the same. The environment is checked before the
options take their place, though: where the value is not valid, the run ends with a usage error.
Only thresholds and formats have values that are not valid. -/
theorem options_take_precedence (parsers : Parsers) (engine : Ignore.Engine) (ws : Workspace)
    (arguments : List String) (s : Setting) (env env' : Environment)
    (h : Environment.AgreeBut s env env')
    (hsets : ∀ path o, parse arguments = .ok (path, o) → o.sets s = true) :
    (env.accepts s = true → env'.accepts s = true →
      run parsers engine ws env arguments = run parsers engine ws env' arguments) ∧
    ((parse arguments).isOk = true → env.accepts s = false →
      ∃ message, run parsers engine ws env arguments = .ok ⟨2, "", some message, []⟩) := by
  cases hparse : parse arguments with
  | error stop =>
    constructor
    · intro _ _
      cases stop <;> simp only [run, hparse]
    · intro hok
      cases hok
  | ok parsed =>
    obtain ⟨path, o⟩ := parsed
    constructor
    · intro hv hv'
      simp only [run, hparse, configure_congr h (hsets path o hparse) hv hv']
    · intro _ hv
      obtain ⟨e, he⟩ := Environment.configuration_refused hv
      have hconfigure : configure env o = .error (.settings e) := by rw [configure_eq, he]
      refine ⟨e.message, ?_⟩
      simp only [run, hparse, hconfigure]
      rfl

/-- The threshold is told by an option. A variable with another number makes no difference, one with
no number ends the run. -/
theorem options_take_precedence_sample :
    let ending := fun env =>
      run Survey.sampleParsers Ignore.globs Survey.sampleWorkspace env ["-t3", "src/a.py"]
    ending [("COMPLEXITY_THRESHOLD", " 7 ")] = ending [] ∧
      ((ending []).toOption.map (·.code)) = some 0 ∧
      ∃ message, ending [("COMPLEXITY_THRESHOLD", "many")] = .ok ⟨2, "", some message, []⟩ := by
  have hparse : parse ["-t3", "src/a.py"] =
      .ok ("src/a.py", { path := some "src/a.py", threshold := .value 3 }) := rfl
  have hsets : ∀ path o, parse ["-t3", "src/a.py"] = .ok (path, o) →
      o.sets .threshold = true := by
    intro path o h
    cases hparse.symm.trans h
    rfl
  have hagree : ∀ value, Environment.AgreeBut .threshold [("COMPLEXITY_THRESHOLD", value)] [] := by
    intro value name hne
    exact (Roster.lookup_cons_ite ..).trans (if_neg hne)
  have h := fun value => options_take_precedence Survey.sampleParsers Ignore.globs
    Survey.sampleWorkspace ["-t3", "src/a.py"] .threshold [("COMPLEXITY_THRESHOLD", value)] []
    (hagree value) hsets
  refine ⟨(h " 7 ").1 (by decide +kernel) (by decide +kernel), by decide +kernel, ?_⟩
  exact (h "many").2 (by rw [hparse]; rfl) (by decide +kernel)

end CommandLine

end CognitiveLoad
