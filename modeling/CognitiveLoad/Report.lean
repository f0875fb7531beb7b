import CognitiveLoad.Finding

/-!
The two written forms of a list of findings: a block of lines per function with the total below
them, and a JSON document.
-/

namespace CognitiveLoad

/-- The written forms a report can take. -/
inductive Format where
  | text
  | json
  deriving DecidableEq, Repr

def Format.name : Format → String
  | text => "text"
  | json => "json"

def Format.ofName? : String → Option Format
  | "text" => some .text
  | "json" => some .json
  | _ => none

/-- A form in which no report can be written. -/
structure UnknownFormat where
  name : String
  deriving DecidableEq, Repr

def UnknownFormat.message (e : UnknownFormat) : String :=
  s!"Unsupported output format: {e.name}"

namespace Report

def factorLine (f : Factor) : String :=
  s!"  - {f.description} (line {f.line}, +{f.increment})"

/-- The lines of one function, with a blank line at the end. -/
def block (verbose : Bool) (f : Finding) : List String :=
  [s!"File: {f.file}", s!"Function: {f.function}", s!"Language: {f.language}",
    s!"Lines: {f.startLine}-{f.endLine}", s!"Complexity: {f.complexity}"] ++
    (if verbose && !f.factors.isEmpty then "Complexity Factors:" :: f.factors.map factorLine
      else []) ++
    [""]

def text (verbose : Bool) (fs : List Finding) : String :=
  "\n".intercalate (fs.flatMap (block verbose) ++ [s!"Total complexity: {Finding.total fs}"]) ++
    "\n"

def document (fs : List Finding) : Json :=
  .object [("total_complexity", .int (Finding.total fs)),
    ("results", .list (fs.map (·.toJson true)))]

def json (indent : Option Int) (fs : List Finding) : String :=
  (document fs).render (.ofIndent indent) ++ "\n"

/-- JSON reports are indented by two. -/
def write (verbose : Bool) (fs : List Finding) : Format → String
  | .text => text verbose fs
  | .json => json (some 2) fs

def writeAs (formatName : String) (verbose : Bool) (fs : List Finding) :
    Except UnknownFormat String :=
  match Format.ofName? formatName with
  | some format => .ok (write verbose fs format)
  | none => .error ⟨formatName⟩

end Report

end CognitiveLoad
