import CognitiveLoad.Proofs.Towers

/-!
The level of a walk, read off its agenda. A construct that opens a level puts the `leave` task that
takes the level back on the agenda, and nothing else touches the level or these tasks. So a walk is
always as many levels above the one it began at as it has `leave` tasks before it
(`Balanced.step`, `Balanced.advance`).

* `walk_balanced`: a walk from any node and any level ends at the level it began at, is never below
  it on the way, and adds no nesting increment but the level at that moment.
-/

namespace CognitiveLoad.Scorer

open CognitiveLoad.Metric

def Task.isLeave : Task → Bool
  | .leave => true
  | .visit _ => false

/-- The number of levels that the tasks of an agenda take back. -/
def leaves (tasks : List Task) : Nat :=
  tasks.countP Task.isLeave

@[simp] theorem leaves_leave (rest : List Task) : leaves (.leave :: rest) = leaves rest + 1 :=
  List.countP_cons_of_pos rfl

@[simp] theorem leaves_visit (p : Tree.Placed) (rest : List Task) :
    leaves (.visit p :: rest) = leaves rest :=
  List.countP_cons_of_neg (by simp [Task.isLeave])

@[simp] theorem leaves_visits (node : Tree) (cs : List Tree) (rest : List Task) :
    leaves ((cs.map fun c => .visit ⟨node, c⟩) ++ rest) = leaves rest := by
  induction cs with
  | nil => rfl
  | cons c cs ih => rw [List.map_cons, List.cons_append, leaves_visit, ih]

variable (s : Scorer) (source : ByteArray)

/-! ## One step -/

/-- An increment for nesting is the level around the node, and there is a level around it. -/
theorem nesting_of_mem_factors {level : Nat} {parent node : Tree} {f : Factor}
    (h : f ∈ s.factors source level parent node) (hf : f.category = .nesting) :
    f.increment = level ∧ 1 ≤ f.increment := by
  refine ⟨?_, (s.mem_factors source h).1⟩
  by_cases ho : Opening s.vocabulary parent node
  · rw [s.factors_of_opening source ho] at h
    rcases List.mem_cons.mp h with rfl | h
    · cases hf
    · split at h
      · rw [List.mem_singleton.mp h]
      · cases h
  · rw [s.factors_of_not_opening source ho] at h
    exact absurd hf (s.mem_factors_zero source h).2

/-- What a step that leaves no level does: it opens some levels and puts as many `leave` tasks on
the agenda, and it adds some increments. -/
structure Opens (w w' : Walk) (opened : Nat) (fs : List Factor) : Prop where
  level : w'.score.nesting = w.score.nesting + opened
  tasks : leaves w'.agenda = leaves w.agenda + opened
  factors : w'.score.factors = w.score.factors ++ fs
  nesting : ∀ f ∈ fs, f.category = .nesting → f.increment = w.score.nesting ∧ 1 ≤ f.increment

theorem opens_none {w w' : Walk} (hscore : w'.score = w.score)
    (hagenda : leaves w'.agenda = leaves w.agenda) : Opens w w' 0 [] where
  level := by rw [hscore, Nat.add_zero]
  tasks := hagenda
  factors := by rw [hscore, List.append_nil]
  nesting := by simp

/-- Every step does a `leave` task or leaves no level. -/
theorem step_cases (w : Walk) :
    (∃ rest, w.agenda = .leave :: rest ∧ (s.step source w).agenda = rest ∧
      (s.step source w).score = { w.score with nesting := w.score.nesting - 1 }) ∨
    ∃ opened fs, Opens w (s.step source w) opened fs := by
  obtain ⟨agenda, sc, notes⟩ := w
  match agenda with
  | [] =>
    rw [s.step_of_agenda_nil source rfl]
    exact .inr ⟨0, [], opens_none rfl rfl⟩
  | .leave :: rest => exact .inl ⟨rest, rfl, rfl, rfl⟩
  | .visit ⟨parent, .missing⟩ :: rest =>
    exact .inr ⟨0, [], opens_none rfl rfl⟩
  | .visit ⟨parent, .node info cs⟩ :: rest =>
    by_cases hf : s.vocabulary.roleOf (.node info cs) = .function
    · rw [s.step_visit_function source hf]
      exact .inr ⟨0, [], opens_none rfl rfl⟩
    · rw [s.step_visit_node source hf]
      simp only [Score.foldl_push]
      refine .inr ⟨if s.opensLevel parent (.node info cs) then 1 else 0,
        s.factors source sc.nesting parent (.node info cs), ?_, ?_, ?_,
        fun f hf hnesting => s.nesting_of_mem_factors source hf hnesting⟩
      · split <;> rfl
      · split <;> simp only [leaves_visits, leaves_leave, leaves_visit, Nat.add_zero]
      · split <;> rfl

/-! ## All steps -/

/-- The level of a walk that began at level `k` is `k`, but for what its agenda takes back. -/
def Balanced (k : Nat) (w : Walk) : Prop :=
  w.score.nesting = k + leaves w.agenda

variable {s source}

theorem Balanced.step {k : Nat} {w : Walk} (h : Balanced k w) : Balanced k (s.step source w) := by
  unfold Balanced at h ⊢
  rcases s.step_cases source w with ⟨rest, hagenda, hrest, hscore⟩ | ⟨opened, fs, hopens⟩
  · -- the `leave` task itself is one of those counted, so the level is not zero before the step
    rw [hagenda, leaves_leave] at h
    rw [hrest, hscore]
    simp only
    omega
  · rw [hopens.level, hopens.tasks]
    omega

theorem Balanced.advance {k : Nat} {w : Walk} (h : Balanced k w) (n : Nat) :
    Balanced k (s.advance source n w) := by
  induction n generalizing w with
  | zero => exact h
  | succ n ih => exact ih h.step

variable (s source)

theorem factors_step (w : Walk) :
    ∃ fs, (s.step source w).score.factors = w.score.factors ++ fs ∧
      ∀ f ∈ fs, f.category = .nesting → f.increment = w.score.nesting ∧ 1 ≤ f.increment := by
  rcases s.step_cases source w with ⟨rest, -, -, hscore⟩ | ⟨opened, fs, hopens⟩
  · exact ⟨[], by rw [hscore, List.append_nil], by simp⟩
  · exact ⟨fs, hopens.factors, hopens.nesting⟩

/-- **A walk is balanced.** Take a walk from any node, with any score to add to, whatever its level.
It does all its tasks and ends at the level it began at. At every moment of it

* the level is the one at the beginning and one more for each `leave` task on the agenda, so it is
  never below the one at the beginning;
* a `leave` task takes back exactly one level;
* a step adds to the increments, and what it adds for nesting is the level of that moment and at
  least one. -/
theorem walk_balanced (s : Scorer) (source : ByteArray) (root : Tree.Placed) (start : Score)
    (notes : List Note) :
    let first : Walk := ⟨[.visit root], start, notes⟩
    let w (n : Nat) : Walk := s.advance source n first
    ((s.run source first).agenda = [] ∧ (s.run source first).score.nesting = start.nesting) ∧
    ∀ n, (w n).score.nesting = start.nesting + leaves (w n).agenda ∧
      start.nesting ≤ (w n).score.nesting ∧
      (∀ rest, (w n).agenda = .leave :: rest →
        (w (n + 1)).score.nesting + 1 = (w n).score.nesting) ∧
      ∃ fs, (w (n + 1)).score.factors = (w n).score.factors ++ fs ∧
        ∀ f ∈ fs, f.category = .nesting → f.increment = (w n).score.nesting ∧ 1 ≤ f.increment := by
  intro first w
  have hfirst : Balanced start.nesting first := rfl
  have hbalanced (n : Nat) : (w n).score.nesting = start.nesting + leaves (w n).agenda :=
    hfirst.advance n
  have hnext (n : Nat) : w (n + 1) = s.step source (w n) := by
    simp only [w, advance_eq_iterate, Function.iterate_succ_apply']
  refine ⟨⟨s.agenda_run source first, ?_⟩, fun n => ⟨hbalanced n, ?_, fun rest hrest => ?_, ?_⟩⟩
  · have hend := hbalanced first.weight
    rwa [show (w first.weight).agenda = [] from s.agenda_run source first] at hend
  · rw [hbalanced n]
    exact Nat.le_add_right ..
  · have hlevel := hbalanced n
    have hlevel' := hbalanced (n + 1)
    have hagenda : (w (n + 1)).agenda = rest := by
      rw [hnext, step, hrest]
    rw [hrest, leaves_leave] at hlevel
    rw [hagenda] at hlevel'
    omega
  · rw [hnext]
    exact s.factors_step source (w n)

end CognitiveLoad.Scorer
