import CognitiveLoad.Syntax.Tree

/-!
The roles that matter to a reader's effort, and the table by which a language assigns them to the
node types of its trees.
-/

namespace CognitiveLoad

inductive Role where
  | conditional
  | forLoop
  | rangeLoop
  | whileLoop
  | doWhile
  | handler
  | switch
  | elseBranch
  | elseIf
  | caseBranch
  | function
  | operator
  | other
  deriving DecidableEq, Repr

namespace Role

def all : List Role :=
  [conditional, forLoop, rangeLoop, whileLoop, doWhile, handler, switch, elseBranch, elseIf,
    caseBranch, function, operator, other]

/-- How a construct is called in the description of an increment. -/
def label : Role → String
  | conditional => "if"
  | forLoop => "for"
  | rangeLoop => "for-each"
  | whileLoop => "while"
  | doWhile => "do-while"
  | handler => "catch"
  | switch => "switch"
  | elseBranch => "else"
  | elseIf => "else if"
  | caseBranch => "case"
  | function => "function"
  | operator => "boolean operator"
  | other => "other"

/-- Whether all that stands inside the construct is one level deeper. -/
def nests : Role → Bool
  | conditional | forLoop | rangeLoop | whileLoop | doWhile | handler | switch => true
  | _ => false

/-- Whether the construct can add an increment of its own for steering the flow of control. -/
def isControl : Role → Bool
  | elseBranch | elseIf | caseBranch => true
  | r => r.nests

end Role

/-- The table of a language. A node with role `operator` counts only when the child in its
`operator` field is one of `operators`; a node of a wrapper type stands for the definition in its
`definition` field. -/
structure Vocabulary where
  name : String
  roles : List (String × Role)
  operators : List String := []
  wrappers : List String := []
  bodyField : String := "body"
  deriving DecidableEq, Repr

namespace Vocabulary

variable (v : Vocabulary)

def roleOf : Tree → Role
  | .missing => .other
  | .node info _ => (v.roles.lookup info.type).getD .other

def wraps : Tree → Bool
  | .missing => false
  | .node info _ => v.wrappers.contains info.type

def unwrapWithin : (fuel : Nat) → Tree → Tree
  | 0, t => t
  | fuel + 1, t => if v.wraps t then unwrapWithin fuel (t.child "definition") else t

/-- The node under all wrappers. Every step goes down the tree, so its size bounds the steps. -/
def unwrap (t : Tree) : Tree :=
  v.unwrapWithin t.size t

/-- The function definition that a node is or wraps. -/
def asFunction (t : Tree) : Tree :=
  let d := v.unwrap t
  if v.roleOf d = .function then d else .missing

/-- The operator of a logical expression. -/
def operator? (t : Tree) : Option String :=
  if v.roleOf t = .operator then
    let token := t.child "operator"
    if !token.isMissing && v.operators.contains token.type then some token.type else none
  else none

theorem unwrapWithin_of_size_le (t : Tree) :
    ∀ {m n : Nat}, t.size ≤ m → t.size ≤ n → v.unwrapWithin m t = v.unwrapWithin n t := by
  intro m
  induction m generalizing t with
  | zero =>
    intro n hm
    have := t.size_pos
    omega
  | succ m ih =>
    intro n hm hn
    cases n with
    | zero =>
      have := t.size_pos
      omega
    | succ n =>
      simp only [unwrapWithin]
      split
      · cases t with
        | missing => simp [wraps] at *
        | node info cs =>
          have := Tree.size_child_lt info cs "definition"
          exact ih _ (by omega) (by omega)
      · rfl

/-- Unwrapping takes the wrappers off one by one. -/
theorem unwrap_eq (t : Tree) :
    v.unwrap t = if v.wraps t then v.unwrap (t.child "definition") else t := by
  unfold unwrap
  cases t with
  | missing => simp [Tree.size, unwrapWithin, wraps]
  | node info cs =>
    have hlt := Tree.size_child_lt info cs "definition"
    obtain ⟨n, hn⟩ : ∃ n, (Tree.node info cs).size = n + 1 :=
      ⟨_, (Nat.succ_pred_eq_of_pos (Tree.size_pos _)).symm⟩
    rw [hn, unwrapWithin]
    split
    · exact v.unwrapWithin_of_size_le _ (by omega) (Nat.le_refl _)
    · rfl

end Vocabulary

end CognitiveLoad
