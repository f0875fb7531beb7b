import CognitiveLoad.Text.Utf8

/-!
Syntax trees as a parser hands them over. A child position may be empty; such a position holds the
tree `missing`, which also stands for "no node" wherever a node is looked up.
-/

namespace CognitiveLoad

/-- What a parser records about a node, its children apart. Bytes are offsets into the source,
rows count from zero, and `id` is the node's position in document order. -/
structure NodeInfo where
  id : Nat := 0
  type : String
  named : Bool := true
  field : Option String := none
  startByte : Nat := 0
  endByte : Nat := 0
  startRow : Nat := 0
  endRow : Nat := 0
  deriving DecidableEq, Repr

inductive Tree where
  | missing
  | node (info : NodeInfo) (children : List Tree)
  deriving Inhabited

namespace Tree

def isMissing : Tree → Bool
  | missing => true
  | node _ _ => false

def id? : Tree → Option Nat
  | missing => none
  | node info _ => some info.id

def type : Tree → String
  | missing => ""
  | node info _ => info.type

def children : Tree → List Tree
  | missing => []
  | node _ cs => cs

def isNamed : Tree → Bool
  | missing => false
  | node info _ => info.named

def hasField (f : String) : Tree → Bool
  | missing => false
  | node info _ => info.field == some f

def startByte : Tree → Nat
  | missing => 0
  | node info _ => info.startByte

/-- The line on which a node begins, counted from one. -/
def line : Tree → Nat
  | missing => 0
  | node info _ => info.startRow + 1

/-- The line on which a node ends, counted from one. -/
def endLine : Tree → Nat
  | missing => 0
  | node info _ => info.endRow + 1

def namedChildren (t : Tree) : List Tree :=
  t.children.filter isNamed

/-- The first child in the given field. -/
def child (t : Tree) (f : String) : Tree :=
  (t.children.find? (hasField f)).getD missing

/-- The text of a node: the bytes of its range, read leniently. A range that is reversed or reaches
past the source has no text. -/
def text (source : ByteArray) : Tree → String
  | missing => ""
  | node info _ =>
    if info.startByte ≤ info.endByte ∧ info.endByte ≤ source.size then
      Text.Utf8.decodeLenient (source.extract info.startByte info.endByte).data.toList
    else ""

/-- A node as it stands in a tree: with the node above it, `missing` for the root. -/
structure Placed where
  parent : Tree
  node : Tree

mutual

/-- A measure that exceeds that of the children by two, so that a walk may put one marker beside
the children of a node and still come to an end. -/
def size : Tree → Nat
  | missing => 1
  | node _ cs => sizeAll cs + 2

def sizeAll : List Tree → Nat
  | [] => 0
  | t :: rest => size t + sizeAll rest

end

theorem size_pos (t : Tree) : 0 < t.size := by
  cases t <;> simp [size]

@[simp] theorem sizeAll_append (xs ys : List Tree) :
    sizeAll (xs ++ ys) = sizeAll xs + sizeAll ys := by
  induction xs with
  | nil => simp [sizeAll]
  | cons t rest ih => simp [sizeAll, ih, Nat.add_assoc]

theorem size_le_sizeAll {t : Tree} {ts : List Tree} (h : t ∈ ts) : t.size ≤ sizeAll ts := by
  induction ts with
  | nil => simp at h
  | cons u rest ih =>
    rcases List.mem_cons.1 h with rfl | h
    · simp [sizeAll]
    · have := ih h
      simp [sizeAll]
      omega

theorem child_eq_missing_or_mem (t : Tree) (f : String) :
    t.child f = missing ∨ t.child f ∈ t.children := by
  unfold child
  cases h : t.children.find? (hasField f) with
  | none => simp
  | some c => exact .inr (List.mem_of_find?_eq_some h)

/-- Every look-up in a node goes down. -/
theorem size_child_lt (info : NodeInfo) (cs : List Tree) (f : String) :
    ((node info cs).child f).size < (node info cs).size := by
  rcases child_eq_missing_or_mem (node info cs) f with h | h
  · simp [h, size]
  · have := size_le_sizeAll h
    simp only [children] at this
    simp only [size]
    omega

end Tree

end CognitiveLoad
