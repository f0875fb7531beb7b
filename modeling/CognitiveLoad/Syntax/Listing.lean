import CognitiveLoad.Syntax.Preorder
import CognitiveLoad.Text.Basic

/-!
Trees as text: a listing with one entry to a line. Tabs part the columns of a line: the type, `1`
for a named node and `0` for any other, the field or nothing, the first and last byte, the first
and last row, and the number of children. An empty line is an empty child position.
-/

namespace CognitiveLoad

namespace Listed

def readNamed? : String → Option Bool
  | "0" => some false
  | "1" => some true
  | _ => none

def readLine? (line : String) : Option (Option Listed) :=
  match Text.splitOn '\t' line with
  | [""] => some none
  | [type, named, field, startByte, endByte, startRow, endRow, arity] => do
    return some
      { type := type
        named := ← readNamed? named
        field := if field = "" then none else some field
        startByte := ← startByte.toNat?
        endByte := ← endByte.toNat?
        startRow := ← startRow.toNat?
        endRow := ← endRow.toNat?
        arity := ← arity.toNat? }
  | _ => none

end Listed

/-- The tree that a text lists, if each of its lines is an entry. -/
def Tree.read? (text : String) : Option Tree :=
  Tree.ofListing <$> (Text.lines text).mapM Listed.readLine?

end CognitiveLoad
