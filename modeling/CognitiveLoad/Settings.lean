import CognitiveLoad.Binary
import CognitiveLoad.Report
import CognitiveLoad.Text.Basic
import CognitiveLoad.Text.Case
import CognitiveLoad.Text.Digit

/-!
What is analysed and how it is reported. Settings are checked when they are made: a threshold has
to be an integer that is not negative, a format has to be known, and the name of a language is
trimmed and lower-cased.
-/

namespace CognitiveLoad

/-- A value offered as a threshold, apart from floating-point numbers. -/
inductive Plain where
  | null
  | bool (b : Bool)
  | int (n : Int)
  | text (s : String)
  | list (items : List Plain)
  deriving Inhabited

mutual

/-- How a value is shown in a message. -/
def Plain.shown : Plain → String
  | .null => "None"
  | .bool true => "True"
  | .bool false => "False"
  | .int n => toString n
  | .text s => Text.quoted s
  | .list items => "[" ++ ", ".intercalate (Plain.shownAll items) ++ "]"

def Plain.shownAll : List Plain → List String
  | [] => []
  | v :: rest => v.shown :: Plain.shownAll rest

end

/-- A value offered as a threshold. -/
inductive Offer where
  | plain (v : Plain)
  | binary (x : Binary)

/-- Why settings are refused. -/
inductive SettingsError where
  | notInteger (shown : String)
  | negative
  | infinite
  | format (name : String)
  deriving DecidableEq, Repr

def SettingsError.message : SettingsError → String
  | notInteger shown => s!"Complexity threshold must be an integer, got {shown}"
  | negative => "Complexity threshold cannot be negative"
  | infinite => "cannot convert float infinity to integer"
  | format name => s!"Unsupported output format: {name} (expected text or json)"

namespace Offer

/-- The integer that a value stands for: the fraction of a number is cut off, and a text has to
spell an integer. -/
def integer : Offer → Except SettingsError Int
  | plain (.int n) => .ok n
  | plain (.bool b) => .ok (if b then 1 else 0)
  | plain (.text s) =>
    match Text.integer? s with
    | some n => .ok n
    | none => .error (.notInteger (Text.quoted s))
  | plain v => .error (.notInteger v.shown)
  | binary .nan => .error (.notInteger "nan")
  | binary (.infinite _) => .error .infinite
  | binary (.finite negative m e) =>
    .ok (if negative then -(Binary.magnitude m e : Int) else Binary.magnitude m e)

def threshold (v : Offer) : Except SettingsError Nat :=
  match v.integer with
  | .error e => .error e
  | .ok (.ofNat n) => .ok n
  | .ok (.negSucc _) => .error .negative

end Offer

/-- The name of a language, trimmed and lower-cased; a blank name is none. -/
def languageName? (s : String) : Option String :=
  let name := Text.lower (Text.trim s)
  if name = "" then none else some name

/-! ## What is analysed -/

structure Settings where
  threshold : Nat := 0
  language : Option String := none
  ignore : List String := []
  recursive : Bool := false
  countOperators : Bool := true
  deriving DecidableEq, Repr

/-- Settings as they are asked for, before they are checked. -/
structure Settings.Request where
  threshold : Offer := .plain (.int 0)
  language : Option String := none
  ignore : List String := []
  recursive : Bool := false
  countOperators : Bool := true

def Settings.Request.check (r : Settings.Request) : Except SettingsError Settings := do
  let threshold ← r.threshold.threshold
  return ⟨threshold, r.language.bind languageName?, r.ignore, r.recursive, r.countOperators⟩

/-! ## How it is reported -/

structure Output where
  format : Format := .text
  verbose : Bool := false
  deriving DecidableEq, Repr

def checkFormat (name : String) : Except SettingsError Format :=
  let name := Text.lower (Text.trim name)
  match Format.ofName? name with
  | some format => .ok format
  | none => .error (.format name)

def checkOutput (formatName : String) (verbose : Bool) : Except SettingsError Output := do
  let format ← checkFormat formatName
  return ⟨format, verbose⟩

/-! ## Settings from the environment -/

/-- The variables of the environment, by name. -/
abbrev Environment := List (String × String)

namespace Environment

def flag (env : Environment) (name : String) (default : Bool) : Bool :=
  match env.lookup name with
  | none => default
  | some value => ["1", "true", "yes", "on"].contains (Text.lower (Text.trim value))

/-- Patterns are separated by commas; blanks around them do not count. -/
def patterns (value : Option String) : List String :=
  match value with
  | none => []
  | some text => ((Text.splitOn ',' text).map Text.trim).filter (· ≠ "")

def settings (env : Environment) : Except SettingsError Settings :=
  Settings.Request.check
    { threshold := .plain (.text ((env.lookup "COMPLEXITY_THRESHOLD").getD "0"))
      language := env.lookup "COMPLEXITY_LANGUAGE"
      ignore := patterns (env.lookup "COMPLEXITY_IGNORE")
      recursive := flag env "COMPLEXITY_RECURSIVE" false
      countOperators := flag env "COMPLEXITY_BOOLEAN_OPERATORS" true }

def output (env : Environment) : Except SettingsError Output :=
  checkOutput ((env.lookup "COMPLEXITY_FORMAT").getD "text") (flag env "COMPLEXITY_VERBOSE" false)

end Environment

/-- All settings of a run. -/
structure Configuration where
  analysis : Settings := {}
  output : Output := {}
  deriving DecidableEq, Repr

def Environment.configuration (env : Environment) : Except SettingsError Configuration := do
  let analysis ← env.settings
  let output ← env.output
  return ⟨analysis, output⟩

end CognitiveLoad
