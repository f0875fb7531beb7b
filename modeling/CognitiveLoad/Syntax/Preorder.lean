import CognitiveLoad.Syntax.Tree

/-!
Trees as lists in document order. A listing names each node before its children and says how many
children it has; empty child positions are entries too, so the position of an entry identifies a
node.
-/

namespace CognitiveLoad

/-- An entry of a listing: a node, of which the next `arity` subtrees are the children. -/
structure Listed where
  type : String
  named : Bool
  field : Option String
  startByte : Nat
  endByte : Nat
  startRow : Nat
  endRow : Nat
  arity : Nat
  deriving DecidableEq, Repr

namespace Tree

/-- Puts an entry in front of the subtrees that follow it, of which it takes the first ones as its
children. -/
def gather (entry : Option Listed × Nat) (following : List Tree) : List Tree :=
  match entry with
  | (none, _) => missing :: following
  | (some e, id) =>
    node ⟨id, e.type, e.named, e.field, e.startByte, e.endByte, e.startRow, e.endRow⟩
      (following.take e.arity) :: following.drop e.arity

/-- The tree of a listing; nodes are numbered by their positions in it. -/
def ofListing (entries : List (Option Listed)) : Tree :=
  (entries.zipIdx.foldr gather []).headD missing

mutual

/-- All places of a tree in document order, empty child positions included. -/
def placesBelow (parent : Tree) : Tree → List Placed
  | missing => [⟨parent, missing⟩]
  | node info cs => ⟨parent, node info cs⟩ :: placesBelowAll (node info cs) cs

def placesBelowAll (parent : Tree) : List Tree → List Placed
  | [] => []
  | t :: rest => placesBelow parent t ++ placesBelowAll parent rest

end

def places (t : Tree) : List Placed :=
  placesBelow missing t

end Tree

end CognitiveLoad
