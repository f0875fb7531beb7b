import CognitiveLoad.Dialect

/-!
The function definitions of a tree, in document order, outer before inner. A definition is called
by its path: the names of the named definitions around it, then its own. A wrapper that leads to a
definition is followed to the definition only; a definition without a name is passed through and
adds nothing to the paths below it.
-/

namespace CognitiveLoad

/-- A named function definition. -/
structure Definition where
  node : Tree
  path : List String

/-- The path joined by dots. -/
def Definition.name (d : Definition) : String :=
  ".".intercalate d.path

namespace Outline

/-- A node yet to be looked at, with the names of the definitions around it. -/
structure Pending where
  scope : List String
  node : Tree

structure State where
  agenda : List Pending
  found : List Definition := []
  log : List Entry := []

def below (scope : List String) (node : Tree) : List Pending :=
  node.children.map (⟨scope, ·⟩)

/-- Looks at the first node of the agenda. -/
def step (d : Dialect) (source : ByteArray) (st : State) : State :=
  match st.agenda with
  | [] => st
  | ⟨scope, node⟩ :: rest =>
    let definition := d.vocabulary.asFunction node
    if definition.isMissing then { st with agenda := below scope node ++ rest }
    else
      let name := d.definitionName source definition
      match name.value with
      | some n =>
        let path := scope ++ [n]
        ⟨below path definition ++ rest, st.found ++ [⟨definition, path⟩], st.log ++ name.log⟩
      | none =>
        { agenda := below scope definition ++ rest
          found := st.found
          log := st.log ++ name.log ++ [⟨.debug, .reader,
            s!"Could not resolve function name at line {definition.line}, skipping"⟩] }

def advance (d : Dialect) (source : ByteArray) : (steps : Nat) → State → State
  | 0, st => st
  | n + 1, st => advance d source n (step d source st)

def State.weight (st : State) : Nat :=
  Tree.sizeAll (st.agenda.map (·.node))

/-- Looks at all nodes of the agenda, which takes at most as many steps as it weighs. -/
def run (d : Dialect) (source : ByteArray) (st : State) : State :=
  advance d source st.weight st

/-- The definitions at and below a node. -/
def definitions (d : Dialect) (source : ByteArray) (root : Tree) : Traced (List Definition) :=
  let st := run d source { agenda := [⟨[], root⟩] }
  ⟨st.found, st.log⟩

theorem weight_below (scope : List String) (node : Tree) :
    Tree.sizeAll ((below scope node).map (·.node)) = Tree.sizeAll node.children := by
  simp [below, Function.comp_def]

theorem sizeAll_children_lt (t : Tree) : Tree.sizeAll t.children < t.size := by
  cases t <;> simp [Tree.children, Tree.size, Tree.sizeAll]

theorem size_unwrap_le (v : Vocabulary) (n : Nat) (t : Tree) :
    (v.unwrapWithin n t).size ≤ t.size := by
  induction n generalizing t with
  | zero => simp [Vocabulary.unwrapWithin]
  | succ n ih =>
    simp only [Vocabulary.unwrapWithin]
    split
    · cases t with
      | missing => simp [Vocabulary.wraps] at *
      | node info cs =>
        have h := ih ((Tree.node info cs).child "definition")
        have := Tree.size_child_lt info cs "definition"
        omega
    · exact Nat.le_refl _

theorem size_asFunction_le (v : Vocabulary) (t : Tree) : (v.asFunction t).size ≤ t.size := by
  simp only [Vocabulary.asFunction]
  split
  · exact size_unwrap_le v _ t
  · exact Tree.size_pos t

/-- Every step on a node makes the agenda lighter. -/
theorem weight_step_lt (d : Dialect) (source : ByteArray) (st : State) (h : st.agenda ≠ []) :
    (step d source st).weight < st.weight := by
  unfold step
  split
  · contradiction
  · rename_i scope node rest e
    have h1 := sizeAll_children_lt node
    have h2 := sizeAll_children_lt (d.vocabulary.asFunction node)
    have h3 := size_asFunction_le d.vocabulary node
    simp only
    split
    · simp [State.weight, e, weight_below, Tree.sizeAll]
      omega
    · split <;> simp [State.weight, e, weight_below, Tree.sizeAll] <;> omega

theorem agenda_advance (d : Dialect) (source : ByteArray) (n : Nat) (st : State)
    (h : st.weight ≤ n) : (advance d source n st).agenda = [] := by
  induction n generalizing st with
  | zero =>
    cases hw : st.agenda with
    | nil => simp [advance, hw]
    | cons p rest =>
      have := p.node.size_pos
      simp [State.weight, hw, Tree.sizeAll] at h
      omega
  | succ n ih =>
    rw [advance]
    apply ih
    by_cases ha : st.agenda = []
    · have : step d source st = st := by simp [step, ha]
      simp [this, State.weight, ha, Tree.sizeAll]
    · have := weight_step_lt d source st ha
      omega

theorem agenda_run (d : Dialect) (source : ByteArray) (st : State) :
    (run d source st).agenda = [] :=
  agenda_advance d source _ st (Nat.le_refl _)

end Outline

end CognitiveLoad
