import CognitiveLoad.Ignore.Compile
import CognitiveLoad.Survey
import CognitiveLoad.Syntax.Preorder

/-!
What a survey finds, whatever it is asked about, and how the findings of two surveys compare that
work with the same files. Where the one reports of each function the finding of the other, revised
and held against a threshold, it does so for texts, files, directories, repositories and paths, and
it is refused where the other is.

* `Screened.findings_eq`: what is reported for one function decides what is reported for all;
* `outcome_threshold`: a higher threshold takes findings away and changes nothing else.
-/

namespace CognitiveLoad.Survey

/-! ## Questions -/

/-- What can be asked of a survey. -/
inductive Question where
  | text (text file : String) (asked : Option String)
  | file (p : Path)
  | directory (p : Path) (recursive : Option Bool)
  | repository (p : Path)
  | path (p : Path) (recursive : Option Bool)

def findings (s : Survey) (ws : Workspace) : Question → Except Failure (List Finding)
  | .text text file asked => (s.ofText text file asked).value
  | .file p => (s.ofFile ws p).value
  | .directory p recursive => (s.ofDirectory ws p recursive).value
  | .repository p => (s.ofRepository ws p).value
  | .path p recursive => (s.ofPath ws p recursive).value

/-- How a run from the settings on ends: the survey is made and asked. -/
def outcome (parsers : Parsers) (engine : Ignore.Engine) (catalog : Catalog) (settings : Settings)
    (ws : Workspace) (q : Question) : Except Failure (List Finding) :=
  match make parsers engine catalog settings with
  | .ok s => s.findings ws q
  | .error e => .error e

/-! ## One function -/

def reaches (threshold : Nat) (f : Finding) : Bool :=
  (threshold : Int) ≤ f.complexity

theorem reaches_iff {threshold : Nat} {f : Finding} :
    reaches threshold f = true ↔ (threshold : Int) ≤ f.complexity :=
  decide_eq_true_iff

/-- The finding of a routine, whether it reaches the threshold or not. -/
def candidate? (s : Survey) (r : Reader) (text file : String) (definitions : List Definition)
    (routine : Routine) : Option Finding :=
  (definitionAt? definitions routine.startByte).map fun d =>
    .ofRoutine routine ((s.scorer r.dialect).score text ⟨.missing, d.node⟩).value file r.language

theorem assess_value (s : Survey) (r : Reader) (text file : String) (definitions : List Definition)
    (routine : Routine) :
    (s.assess r text file definitions routine).value =
      (s.candidate? r text file definitions routine).filter (reaches s.settings.threshold) := by
  unfold assess candidate?
  cases definitionAt? definitions routine.startByte with
  | none => rfl
  | some d =>
    simp only [Traced.value_bind, Option.map_some, Option.filter_some, reaches, Finding.ofRoutine,
      decide_eq_true_eq]
    split <;> rfl

/-! ## Screened surveys -/

/-- What is left of findings that are revised one by one and held against a threshold. -/
def screen (revise : Finding → Finding) (threshold : Nat) (fs : List Finding) : List Finding :=
  (fs.map revise).filter (reaches threshold)

theorem screen_append (revise : Finding → Finding) (threshold : Nat) (fs gs : List Finding) :
    screen revise threshold (fs ++ gs) =
      screen revise threshold fs ++ screen revise threshold gs := by
  simp [screen]

/-- A survey works with the same files and readers as another, revises the findings of the other and
holds them against a threshold that is not easier to reach. -/
structure Screened (revise : Finding → Finding) (s s' : Survey) : Prop where
  parsers : s'.parsers = s.parsers
  catalog : s'.catalog = s.catalog
  ignore : s'.ignore = s.ignore
  language : s'.settings.language = s.settings.language
  recursive : s'.settings.recursive = s.settings.recursive
  candidate? : ∀ r text file definitions routine,
    s'.candidate? r text file definitions routine =
      (s.candidate? r text file definitions routine).map revise
  reaches : ∀ f, reaches s'.settings.threshold (revise f) = true →
    reaches s.settings.threshold f = true

namespace Screened

variable {revise : Finding → Finding} {s s' : Survey} (h : Screened revise s s')

include h

theorem assess_eq (r : Reader) (text file : String) (definitions : List Definition)
    (routine : Routine) :
    (s'.assess r text file definitions routine).value.toList =
      screen revise s'.settings.threshold
        (s.assess r text file definitions routine).value.toList := by
  rw [assess_value, assess_value, h.candidate?]
  cases s.candidate? r text file definitions routine with
  | none => rfl
  | some f =>
    -- what reaches the second threshold after revision has reached the first before it
    by_cases hr : Survey.reaches s'.settings.threshold (revise f) = true
    · simp [screen, Option.filter_some, hr, h.reaches f hr]
    · by_cases hf : Survey.reaches s.settings.threshold f = true <;>
        simp [screen, Option.filter_some, hr, hf]

theorem assessAll_eq (r : Reader) (text file : String) (definitions : List Definition)
    (routines : List Routine) :
    (s'.assessAll r text file definitions routines).value =
      screen revise s'.settings.threshold
        (s.assessAll r text file definitions routines).value := by
  induction routines with
  | nil => rfl
  | cons routine rest ih =>
    simp only [assessAll, Traced.value_bind, Traced.value_pure, screen_append, h.assess_eq, ih]

theorem ofTree_eq (r : Reader) (text file : String) (tree : Tree) :
    (s'.ofTree r text file tree).value =
      screen revise s'.settings.threshold (s.ofTree r text file tree).value := by
  simp only [ofTree, Traced.value_bind, Traced.value_pure]
  exact h.assessAll_eq ..

theorem ofText_eq (text file : String) (asked : Option String) :
    (s'.ofText text file asked).value =
      (s.ofText text file asked).value.map (screen revise s'.settings.threshold) := by
  have hlanguage : s'.languageFor file asked = s.languageFor file asked := by
    simp only [languageFor, h.language, h.catalog]
  simp only [ofText, Traced.value_bind, hlanguage, h.catalog, h.parsers]
  cases (s.catalog.create s.parsers ((s.languageFor file asked).getD "")).value with
  | error e => rfl
  | ok r? =>
    cases r? with
    | none => rfl
    | some r =>
      by_cases ht : text = ""
      · simp only [ht, if_true]
        rfl
      · simp only [ht, if_false, Traced.value_bind]
        cases (r.parse s.parsers text).value with
        | none => rfl
        | some tree =>
          simp only [Traced.value_map, h.ofTree_eq]
          rfl

theorem ofFile_eq (ws : Workspace) (p : Path) :
    (s'.ofFile ws p).value = (s.ofFile ws p).value.map (screen revise s'.settings.threshold) := by
  simp only [ofFile, Traced.value_bind]
  cases ws.read p with
  | ok text => exact h.ofText_eq ..
  | error e => cases e <;> rfl

theorem takes_eq (ignore : Ignore.Matcher) (p : Path) : s'.takes ignore p = s.takes ignore p := by
  simp only [takes, h.language, h.catalog]

theorem ofFilesUnder_eq (ws : Workspace) (ignore : Ignore.Matcher) (files : List Path) :
    (s'.ofFilesUnder ws ignore files).value =
      (s.ofFilesUnder ws ignore files).value.map fun (fs, n) =>
        (screen revise s'.settings.threshold fs, n) := by
  induction files with
  | nil => rfl
  | cons p rest ih =>
    simp only [ofFilesUnder, Traced.value_bind, h.takes_eq]
    cases (s.takes ignore p).value with
    | false => exact ih
    | true =>
      simp only [if_true, Traced.value_bind, h.ofFile_eq]
      cases (s.ofFile ws p).value with
      | error e => rfl
      | ok here =>
        simp only [Except.map, Traced.value_bind, ih]
        cases (s.ofFilesUnder ws ignore rest).value with
        | error e => rfl
        | ok others => simp only [Traced.value_pure, screen_append]

theorem ofFiles_eq (ws : Workspace) (files : List Path) (root : Path) :
    (s'.ofFiles ws files root).value =
      (s.ofFiles ws files root).value.map (screen revise s'.settings.threshold) := by
  simp only [ofFiles, Traced.value_bind, h.ignore, h.ofFilesUnder_eq]
  cases (s.ofFilesUnder ws (s.ignore.withRoot root) files).value <;> rfl

theorem ofDirectory_eq (ws : Workspace) (p : Path) (recursive : Option Bool) :
    (s'.ofDirectory ws p recursive).value =
      (s.ofDirectory ws p recursive).value.map (screen revise s'.settings.threshold) := by
  simp only [ofDirectory, Traced.value_bind, h.recursive]
  cases (ws.list p.toString (recursive.getD s.settings.recursive)).value with
  | error e => rfl
  | ok files => exact h.ofFiles_eq ..

theorem ofRepository_eq (ws : Workspace) (p : Path) :
    (s'.ofRepository ws p).value =
      (s.ofRepository ws p).value.map (screen revise s'.settings.threshold) := by
  simp only [ofRepository, Traced.value_bind]
  cases ws.isRepository p with
  | error e => rfl
  | ok isRepository =>
    cases isRepository with
    | false => rfl
    | true =>
      simp only [Traced.value_bind]
      cases (ws.listTracked p).value with
      | error e => rfl
      | ok files => exact h.ofFiles_eq ..

theorem ofPath_eq (ws : Workspace) (p : Path) (recursive : Option Bool) :
    (s'.ofPath ws p recursive).value =
      (s.ofPath ws p recursive).value.map (screen revise s'.settings.threshold) := by
  simp only [ofPath]
  cases ws.node? p with
  | error e => rfl
  | ok node? =>
    match node? with
    | none => rfl
    | some .special => rfl
    | some (.file _) => exact h.ofFile_eq ..
    | some (.directory _) =>
      cases ws.isRepository p with
      | error e => rfl
      | ok isRepository =>
        cases isRepository with
        | false => exact h.ofDirectory_eq ..
        | true => exact h.ofRepository_eq ..

/-- What is reported for one function decides what is reported for all. -/
theorem findings_eq (ws : Workspace) (q : Question) :
    s'.findings ws q = (s.findings ws q).map (screen revise s'.settings.threshold) := by
  cases q with
  | text text file asked => exact h.ofText_eq ..
  | file p => exact h.ofFile_eq ..
  | directory p recursive => exact h.ofDirectory_eq ..
  | repository p => exact h.ofRepository_eq ..
  | path p recursive => exact h.ofPath_eq ..

end Screened

/-- Settings with the same patterns make surveys alike or are refused alike. -/
theorem outcome_screened {revise : Finding → Finding} {parsers : Parsers} {catalog : Catalog}
    {settings settings' : Settings} (engine : Ignore.Engine)
    (h : ∀ ignore, Screened revise ⟨parsers, catalog, settings, ignore⟩
      ⟨parsers, catalog, settings', ignore⟩)
    (hignore : settings'.ignore = settings.ignore) (ws : Workspace) (q : Question) :
    outcome parsers engine catalog settings' ws q =
      (outcome parsers engine catalog settings ws q).map (screen revise settings'.threshold) := by
  simp only [outcome, make, hignore]
  cases Ignore.Matcher.make engine settings.ignore with
  | error e => rfl
  | ok ignore => exact (h ignore).findings_eq ws q

/-! ## Thresholds -/

theorem screened_threshold (parsers : Parsers) (catalog : Catalog) (settings : Settings)
    (ignore : Ignore.Matcher) {t₁ t₂ : Nat} (h : t₁ ≤ t₂) :
    Screened id ⟨parsers, catalog, { settings with threshold := t₁ }, ignore⟩
      ⟨parsers, catalog, { settings with threshold := t₂ }, ignore⟩ where
  parsers := rfl
  catalog := rfl
  ignore := rfl
  language := rfl
  recursive := rfl
  candidate? r text file definitions routine := by
    rw [Option.map_id]
    rfl
  reaches f hf := by
    rw [reaches_iff] at hf ⊢
    simp only [id_eq] at hf ⊢
    omega

theorem map_error_iff {ε α β : Type} (f : α → β) (x : Except ε α) (e : ε) :
    x.map f = .error e ↔ x = .error e := by
  cases x <;> simp [Except.map]

/-- **The threshold only filters.** Of two surveys whose settings differ in the threshold alone, the
one with the higher threshold reports what the other does, less the functions below its threshold,
and it stops where the other stops, for the same reason. -/
theorem outcome_threshold (parsers : Parsers) (engine : Ignore.Engine) (catalog : Catalog)
    (settings : Settings) (ws : Workspace) (q : Question) {t₁ t₂ : Nat} (h : t₁ ≤ t₂) :
    let at₁ := outcome parsers engine catalog { settings with threshold := t₁ } ws q
    let at₂ := outcome parsers engine catalog { settings with threshold := t₂ } ws q
    at₂ = at₁.map (List.filter fun f => (t₂ : Int) ≤ f.complexity) ∧
      ∀ e, at₂ = .error e ↔ at₁ = .error e := by
  intro at₁ at₂
  have hscreen : screen id t₂ = List.filter fun f => (t₂ : Int) ≤ f.complexity := by
    funext fs
    rw [screen, List.map_id]
    rfl
  have hfilter : at₂ = at₁.map (List.filter fun f => (t₂ : Int) ≤ f.complexity) := by
    rw [← hscreen]
    exact outcome_screened engine
      (fun ignore => screened_threshold parsers catalog settings ignore h) rfl ws q
  refine ⟨hfilter, fun e => ?_⟩
  rw [hfilter, map_error_iff]

/-- Three functions: `f` branches on a logical expression, the second is defined in its body and
branches in a loop, and another `f` has one loop. -/
def sampleTree : Tree :=
  .ofListing [some ⟨"module", true, none, 0, 3, 0, 5, 2⟩,
    some ⟨"function_definition", true, none, 0, 2, 0, 3, 2⟩,
    some ⟨"identifier", true, some "name", 0, 1, 0, 0, 0⟩,
    some ⟨"block", true, some "body", 1, 2, 1, 3, 2⟩,
    some ⟨"if_statement", true, none, 1, 1, 1, 1, 1⟩,
    some ⟨"boolean_operator", true, some "condition", 1, 1, 1, 1, 1⟩,
    some ⟨"and", false, some "operator", 1, 1, 1, 1, 0⟩,
    some ⟨"function_definition", true, none, 1, 2, 2, 3, 2⟩,
    some ⟨"identifier", true, some "name", 1, 2, 2, 2, 0⟩,
    some ⟨"block", true, some "body", 2, 2, 3, 3, 1⟩,
    some ⟨"while_statement", true, none, 2, 2, 3, 3, 1⟩,
    some ⟨"if_statement", true, none, 2, 2, 3, 3, 0⟩,
    some ⟨"function_definition", true, none, 2, 3, 4, 5, 2⟩,
    some ⟨"identifier", true, some "name", 2, 3, 4, 4, 0⟩,
    some ⟨"block", true, some "body", 3, 3, 5, 5, 1⟩,
    some ⟨"for_statement", true, none, 3, 3, 5, 5, 0⟩]

def sampleParsers : Parsers where
  tree? d text := if d = .python ∧ text = "fgf" then some sampleTree else none

def sampleCatalog : Catalog :=
  match (Catalog.standard sampleParsers).value with
  | .ok catalog => catalog
  | .error _ => {}

/-- A repository that tracks a source file and a text file. -/
def sampleWorkspace : Workspace where
  entries := [("src", .directory [(".git", .directory []), ("a.py", .file "fgf".toUTF8),
    ("b.txt", .file "fgf".toUTF8)])]
  tracked := [("src", .printed "b.txt\na.py\n")]

theorem outcome_threshold_sample :
    let at' := fun t => outcome sampleParsers Ignore.globs sampleCatalog { threshold := t }
      sampleWorkspace (.path (.ofString "src") none)
    1 ≤ 2 ∧ at' 2 = (at' 1).map (List.filter fun f => (2 : Int) ≤ f.complexity) ∧
      (at' 1).toOption.map (List.map (·.complexity)) = some [2, 3, 1] :=
  ⟨by decide, (outcome_threshold sampleParsers Ignore.globs sampleCatalog {} sampleWorkspace
    (.path (.ofString "src") none) (by decide)).1, by decide +kernel⟩

end CognitiveLoad.Survey
