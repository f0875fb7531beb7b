import CognitiveLoad.CommandLine.Arguments
import CognitiveLoad.CommandLine.Help
import CognitiveLoad.Survey

/-!
A run of the command: options override the environment, the path has to exist, and its findings are
written as a report. A run ends in one of four ways, and only a run that is complete writes a
report. A run that breaks off has no outcome: an option that is read as a text has no value, or it
cannot be told whether the path exists. Output is a text here; in which code it is written is left
open.
-/

namespace CognitiveLoad.CommandLine

/-- Why a run breaks off. -/
inductive Fault where
  | emptyValue
  | file (e : FileError)
  deriving DecidableEq, Repr

def Fault.message : Fault → String
  | emptyValue => "'list' object has no attribute 'strip'"
  | file e => e.message

/-- Why there are no settings. -/
inductive ConfigurationError where
  | settings (e : SettingsError)
  | fault (e : Fault)
  deriving DecidableEq, Repr

/-- The threshold that an option offers. One without a value offers an empty list. -/
def thresholdOffer (standard : Nat) : Given Int → Offer
  | .absent => .plain (.int standard)
  | .empty => .plain (.list [])
  | .value n => .plain (.int n)

/-- What an option that is read as a text sets. -/
def textOr {α β : Type} (standard : β) (set : α → β) : Given α → Except ConfigurationError β
  | .absent => .ok standard
  | .empty => .error (.fault .emptyValue)
  | .value a => .ok (set a)

/-- The patterns that have a value. -/
def patternsOf (given : List (Given String)) : List String :=
  given.filterMap fun
    | .value pattern => some pattern
    | _ => none

def checked {α : Type} (x : Except SettingsError α) : Except ConfigurationError α :=
  x.mapError .settings

/-- Settings with the options in their place, checked once more. The threshold is checked before the
language, and the format last. -/
def override (base : Configuration) (o : Options) : Except ConfigurationError Configuration := do
  let threshold ← checked (thresholdOffer base.analysis.threshold o.threshold).threshold
  let language ← textOr base.analysis.language some o.language
  let analysis : Settings :=
    { threshold := threshold
      language := language.bind languageName?
      ignore := if o.ignore.isEmpty then base.analysis.ignore else patternsOf o.ignore
      recursive := o.recursive || base.analysis.recursive
      countOperators := !o.withoutOperators && base.analysis.countOperators }
  let format ← textOr base.output.format id o.format
  let output ← checked (checkOutput format.name (o.verbose || base.output.verbose))
  return ⟨analysis, output⟩

/-- The settings of a run: those of the environment, which have to be valid by themselves, with the
options in their place. -/
def configure (env : Environment) (o : Options) : Except ConfigurationError Configuration := do
  let base ← checked env.configuration
  override base o

/-- How a run ends. -/
inductive Outcome where
  | help
  | usage (message : String)
  | failed
  | report (text : String)
  deriving DecidableEq, Repr

def fail (message : String) : Traced Outcome := do
  Traced.note .error .command message
  return .failed

/-- A path at which nothing stands is reported as it is, other failures as errors. -/
def failWith (e : Failure) : Traced Outcome :=
  fail (if e.isAbsence then e.message else "An error occurred: " ++ e.message)

def unsupported (catalog : Catalog) (language : String) : String :=
  let names := ", ".intercalate (catalog.readers.names.mergeSort fun a b => !decide (b < a))
  s!"Unsupported language: {language} (supported: {names})"

/-- The report on a path at which something stands. -/
def reportOn (parsers : Parsers) (engine : Ignore.Engine) (ws : Workspace)
    (config : Configuration) (path : Path) : Traced Outcome := do
  match ← Catalog.standard parsers with
  | .error e => failWith (.parser e)
  | .ok catalog =>
    if config.analysis.language.all catalog.supports then
      match Survey.make parsers engine catalog config.analysis with
      | .error e => failWith e
      | .ok survey =>
        match ← survey.ofPath ws path (some config.analysis.recursive) with
        | .error e => failWith e
        | .ok findings =>
          return .report (Report.write config.output.verbose findings config.output.format)
    else return .usage (unsupported catalog (config.analysis.language.getD ""))

/-- The report on a path. -/
def report (parsers : Parsers) (engine : Ignore.Engine) (ws : Workspace)
    (config : Configuration) (path : Path) : Except Fault (Traced Outcome) :=
  match ws.exists? path with
  | .error e => .error (.file e)
  | .ok true => .ok (reportOn parsers engine ws config path)
  | .ok false => .ok (fail s!"Invalid input path: {path.toString}")

/-- What a run leaves: its exit code, what it writes to standard output, the usage error if that
is how it ends, and the messages that are shown. -/
structure Exit where
  code : Nat
  stdout : String
  usageError : Option String
  log : List Entry
  deriving DecidableEq, Repr

def Outcome.exit (log : List Entry) : Outcome → Exit
  | help => ⟨0, CommandLine.help, none, log⟩
  | usage message => ⟨2, "", some message, log⟩
  | failed => ⟨1, "", none, log⟩
  | report text => ⟨0, text, none, log⟩

/-- Messages below a warning are shown only by a verbose run. -/
def shownLevel (config : Configuration) : Level :=
  if config.output.verbose then .debug else .warning

def run (parsers : Parsers) (engine : Ignore.Engine) (ws : Workspace) (env : Environment)
    (arguments : List String) : Except Fault Exit :=
  match parse arguments with
  | .error .help => .ok (Outcome.help.exit [])
  | .error (.usage e) => .ok ((Outcome.usage e.message).exit [])
  | .ok (path, options) =>
    match configure env options with
    | .error (.settings e) => .ok ((Outcome.usage e.message).exit [])
    | .error (.fault e) => .error e
    | .ok config => do
      let r ← report parsers engine ws config (Path.ofString path)
      return r.value.exit (atLeast (shownLevel config) r.log)

end CognitiveLoad.CommandLine
