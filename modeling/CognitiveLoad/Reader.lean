import CognitiveLoad.Routine

/-!
Readers of source text, one for each supported language. A reader needs the grammar of its
language; where the grammar cannot be loaded, no reader can be started.
-/

namespace CognitiveLoad

/-- The parsers at hand: the tree of a text, and why the parser of a language cannot be built if
it cannot. -/
structure Parsers where
  tree? : Dialect → String → Option Tree
  failure? : Dialect → Option String := fun _ => none

/-- A reader and the grammar behind it. `label` and `language` are how the reader is called; a
grammar with a load limit can be loaded only so many times. -/
structure Reader where
  label : String
  dialect : Dialect
  language : String
  extensions : List String
  loadLimit : Option Nat := none
  deriving DecidableEq, Repr

/-- No reader can be started for a language. -/
structure ParserError where
  language : String
  cause : String
  deriving DecidableEq, Repr

def ParserError.message (e : ParserError) : String :=
  s!"Failed to initialize {e.language} parser: {e.cause}"

/-- The reader that comes with a language. -/
def Dialect.reader (d : Dialect) : Reader where
  label :=
    match d with
    | .python => "PythonFunctionExtractor"
    | .cpp => "CppFunctionExtractor"
  dialect := d
  language := d.name
  extensions := d.extensions

namespace Reader

variable (r : Reader)

/-- Why a reader whose grammar was loaded `loads` times before cannot be started. -/
def obstacle? (parsers : Parsers) (loads : Nat) : Option String :=
  if r.loadLimit.any (· ≤ loads) then some "grammar library missing"
  else parsers.failure? r.dialect

/-- Starts a fresh reader. -/
def start (parsers : Parsers) (loads : Nat := 0) : Traced (Except ParserError Reader) :=
  match r.obstacle? parsers loads with
  | none => pure (.ok r)
  | some cause => do
    let e : ParserError := ⟨r.language, cause⟩
    Traced.note .error .reader e.message
    return .error e

theorem start_value (parsers : Parsers) (loads : Nat) :
    (r.start parsers loads).value =
      match r.obstacle? parsers loads with
      | none => .ok r
      | some cause => .error ⟨r.language, cause⟩ := by
  unfold start
  cases r.obstacle? parsers loads <;> rfl

/-- The reader that comes with a language can be started unless its parser cannot be built. -/
theorem obstacle?_reader (d : Dialect) (parsers : Parsers) (loads : Nat) :
    d.reader.obstacle? parsers loads = parsers.failure? d := rfl

def parse (parsers : Parsers) (text : String) : Traced (Option Tree) :=
  match parsers.tree? r.dialect text with
  | some tree => pure (some tree)
  | none => do
    Traced.note .error .reader s!"Failed to parse {r.language} source: no tree"
    return none

end Reader

/-- How a file is called in messages. -/
def shownFile (file : String) : String :=
  if file = "" then "<string>" else file

/-- The routines of a text. -/
def Reader.routines (r : Reader) (parsers : Parsers) (text file : String) :
    Traced (List Routine) :=
  if text = "" then do
    Traced.note .warning .reader s!"Empty file content: {shownFile file}"
    return []
  else do
    Traced.note .debug .reader s!"Parsing file: {shownFile file}"
    match ← r.parse parsers text with
    | some tree => r.dialect.routines text tree
    | none =>
      Traced.note .error .reader s!"Failed to parse file: {shownFile file}"
      return []

end CognitiveLoad
