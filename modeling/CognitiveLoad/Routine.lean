import CognitiveLoad.Outline
import CognitiveLoad.Scorer
import CognitiveLoad.Text.Basic

/-!
Functions as units of analysis: a named definition with its lines, parameters and body. Several of
them can be scored together.
-/

namespace CognitiveLoad

structure Routine where
  name : String
  startLine : Int
  endLine : Int
  bodyText : String := ""
  parameters : List String := []
  startByte : Nat := 0
  body : Tree.Placed := ⟨.missing, .missing⟩

namespace Routine

def lineCount (r : Routine) : Int :=
  r.endLine - r.startLine + 1

/-- The last part of the dotted name. -/
def shortName (r : Routine) : String :=
  ((Text.splitOn '.' r.name).getLast?).getD ""

def toJson (r : Routine) : Json :=
  .object [("name", .text r.name), ("start_line", .int r.startLine), ("end_line", .int r.endLine),
    ("parameters", .list (r.parameters.map .text)), ("lines_of_code", .int r.lineCount)]

def ofDefinition (d : Dialect) (source : ByteArray) (definition : Definition) : Routine :=
  let node := definition.node
  let body := node.child d.vocabulary.bodyField
  { name := definition.name
    startLine := node.line
    endLine := node.endLine
    bodyText := body.text source
    parameters := d.parameters source node
    startByte := node.startByte
    body := ⟨node, body⟩ }

end Routine

/-- The routines of a tree that was read from `text`. -/
def Dialect.routines (d : Dialect) (text : String) (tree : Tree) : Traced (List Routine) := do
  let source := text.toUTF8
  let definitions ← Outline.definitions d source tree
  let routines := definitions.map (Routine.ofDefinition d source)
  Traced.note .debug .reader s!"Found {routines.length} functions"
  routines.forM fun r =>
    Traced.note .debug .reader s!"Function: {r.name} (lines {r.startLine}-{r.endLine})"
  return routines

/-- The scores of several bodies, merged under the names of their routines. -/
def Scorer.batchFrom (s : Scorer) (source : String) (sum : Score) :
    List Routine → Traced (Except NegativeIncrement Score)
  | [] => pure (.ok sum)
  | r :: rest => do
    let own ← s.score source r.body
    match sum.merge r.name own with
    | (.ok (), sum) => s.batchFrom source sum rest
    | (.error e, _) => return .error e

def Scorer.batch (s : Scorer) (source : String) (routines : List Routine) :
    Traced (Except NegativeIncrement Score) :=
  s.batchFrom source {} routines

end CognitiveLoad
