import CognitiveLoad.Log
import CognitiveLoad.Score
import CognitiveLoad.Vocabulary

/-!
The effort of reading one function body. Every control structure costs one, a nesting construct
inside others costs its depth more, the continuation of a conditional costs one and no more, and
each run of like logical operators costs one. Functions inside the body are left out: they are
scored on their own.

The body is walked in document order with an agenda of tasks. A construct that opens a level puts a
`leave` task behind its children, so the level goes back when they are done. `agenda_run` says that
the walk comes to its end.
-/

namespace CognitiveLoad

structure Scorer where
  vocabulary : Vocabulary
  countOperators : Bool := true
  deriving DecidableEq, Repr

namespace Scorer

variable (s : Scorer)

/-! ## What a single node adds -/

/-- Whether a conditional under this parent goes on with an earlier one. -/
def continues (parent : Tree) : Bool :=
  s.vocabulary.roleOf parent = .elseBranch || s.vocabulary.roleOf parent = .elseIf

/-- Whether a branch holds, comments apart, one conditional and nothing else. -/
def holdsOnlyConditional (node : Tree) : Bool :=
  match node.namedChildren.filter (·.type ≠ "comment") with
  | [statement] => s.vocabulary.roleOf statement = .conditional
  | _ => false

def controlFactors (level : Nat) (parent node : Tree) : List Factor :=
  let role := s.vocabulary.roleOf node
  if role = .elseIf || (role = .conditional && s.continues parent) then
    [⟨"else if (hybrid)", 1, node.line, .hybrid⟩]
  else if role = .elseBranch && s.holdsOnlyConditional node then []
  else
    ⟨s!"{role.label} (structural)", 1, node.line, .structural⟩ ::
      if role.nests && 0 < level then
        [⟨s!"nested {role.label} (nesting)", level, node.line, .nesting⟩]
      else []

/-- Only the outermost expression of a run of like operators counts. -/
def operatorFactors (source : ByteArray) (parent node : Tree) : List Factor :=
  match s.vocabulary.operator? node with
  | none => []
  | some o =>
    if s.vocabulary.operator? parent = some o then []
    else
      let written := (node.child "operator").text source
      let shown := if written = "" then o else written
      [⟨s!"boolean operator {shown} (fundamental)", 1, node.line, .fundamental⟩]

/-- The increments of one node, met at the given level under the given parent. -/
def factors (source : ByteArray) (level : Nat) (parent node : Tree) : List Factor :=
  let role := s.vocabulary.roleOf node
  if role = .operator then
    if s.countOperators then s.operatorFactors source parent node else []
  else if role.isControl then s.controlFactors level parent node
  else []

/-- Whether the children of a node are one level deeper than the node. -/
def opensLevel (parent node : Tree) : Bool :=
  let role := s.vocabulary.roleOf node
  role.nests && !(role = .conditional && s.continues parent)

/-! ## The walk -/

inductive Task where
  | visit (p : Tree.Placed)
  | leave

/-- What a walk has to tell, besides the score. -/
inductive Note where
  | added (f : Factor)
  | skipped (type : String) (line : Nat)
  deriving DecidableEq, Repr

structure Walk where
  agenda : List Task
  score : Score := {}
  notes : List Note := []

def below (node : Tree) : List Task :=
  node.children.map fun c => .visit ⟨node, c⟩

/-- Does the first task of the agenda. -/
def step (source : ByteArray) (w : Walk) : Walk :=
  match w.agenda with
  | [] => w
  | .leave :: rest =>
    { w with agenda := rest, score := { w.score with nesting := w.score.nesting - 1 } }
  | .visit ⟨parent, node⟩ :: rest =>
    if node.isMissing then { w with agenda := rest }
    else if s.vocabulary.roleOf node = .function then
      { w with agenda := rest, notes := w.notes ++ [.skipped node.type node.line] }
    else
      let fs := s.factors source w.score.nesting parent node
      let score := fs.foldl Score.push w.score
      let notes := w.notes ++ fs.map .added
      if s.opensLevel parent node then
        ⟨below node ++ .leave :: rest, { score with nesting := score.nesting + 1 }, notes⟩
      else ⟨below node ++ rest, score, notes⟩

def advance (source : ByteArray) : (steps : Nat) → Walk → Walk
  | 0, w => w
  | n + 1, w => advance source n (s.step source w)

/-- The node that a task looks at; a `leave` task looks at none. -/
def Task.node : Task → Tree
  | .visit p => p.node
  | .leave => .missing

def Walk.weight (w : Walk) : Nat :=
  Tree.sizeAll (w.agenda.map Task.node)

/-- Does all tasks of the agenda, which take at most as many steps as it weighs. -/
def run (source : ByteArray) (w : Walk) : Walk :=
  s.advance source w.weight w

theorem weight_below (node : Tree) :
    Tree.sizeAll ((below node).map Task.node) = Tree.sizeAll node.children := by
  simp [below, Task.node, Function.comp_def]

/-- Every step on a task makes the agenda lighter. -/
theorem weight_step_lt (source : ByteArray) (w : Walk) (h : w.agenda ≠ []) :
    (s.step source w).weight < w.weight := by
  unfold step
  split
  · contradiction
  · rename_i rest e
    simp [Walk.weight, e, Task.node, Tree.sizeAll, Tree.size]
  · rename_i parent node rest e
    cases node with
    | missing => simp [Walk.weight, e, Task.node, Tree.isMissing, Tree.sizeAll, Tree.size]
    | node info cs =>
      have hb := weight_below (.node info cs)
      simp only [Tree.children] at hb
      simp only [Tree.isMissing, Bool.false_eq_true, if_false]
      split
      · simp [Walk.weight, e, Task.node, Tree.sizeAll, Tree.size]
      · split
        · simp [Walk.weight, e, hb, Task.node, Tree.sizeAll, Tree.size]
          omega
        · simp [Walk.weight, e, hb, Task.node, Tree.sizeAll, Tree.size]

theorem agenda_advance (source : ByteArray) (n : Nat) (w : Walk) (h : w.weight ≤ n) :
    (s.advance source n w).agenda = [] := by
  induction n generalizing w with
  | zero =>
    cases hw : w.agenda with
    | nil => simp [advance, hw]
    | cons t rest =>
      have := t.node.size_pos
      simp [Walk.weight, hw, Tree.sizeAll] at h
      omega
  | succ n ih =>
    rw [advance]
    apply ih
    by_cases ha : w.agenda = []
    · have : s.step source w = w := by simp [step, ha]
      simp [this, Walk.weight, ha, Tree.sizeAll]
    · have := s.weight_step_lt source w ha
      omega

theorem agenda_run (source : ByteArray) (w : Walk) : (s.run source w).agenda = [] :=
  s.agenda_advance source _ w (Nat.le_refl _)

/-! ## Scores of functions -/

/-- What is walked for a node: the body of the definition that it is or wraps, or the node
itself. -/
def bodyOf (p : Tree.Placed) : Tree.Placed :=
  let d := s.vocabulary.asFunction p.node
  if d.isMissing then p else ⟨d, d.child s.vocabulary.bodyField⟩

def Note.entry : Note → Entry
  | .added f =>
    ⟨.debug, .scorer,
      s!"Added {f.category.name} complexity: +{f.increment} for {f.description} at line {f.line}"⟩
  | .skipped type line => ⟨.debug, .scorer, s!"Skipping nested {type} at line {line}"⟩

/-- The score of a function definition or of a body. -/
def score (source : String) (p : Tree.Placed) : Traced Score :=
  if p.node.isMissing then do
    Traced.note .debug .scorer "Received null node, nothing to score"
    return {}
  else
    let body := s.bodyOf p
    if body.node.isMissing then do
      Traced.note .debug .scorer
        s!"No {s.vocabulary.name} body found for {p.node.type} at line {p.node.line}"
      return {}
    else
      let w := s.run source.toUTF8 { agenda := [.visit body] }
      ⟨{ w.score with nesting := 0 },
        ⟨.debug, .scorer,
          s!"Scoring {s.vocabulary.name} {body.node.type} at line {body.node.line}"⟩ ::
          w.notes.map Note.entry⟩

end Scorer

end CognitiveLoad
