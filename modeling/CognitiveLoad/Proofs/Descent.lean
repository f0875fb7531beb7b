import Mathlib.Algebra.Ring.Int.Defs
import Mathlib.Logic.Function.Iterate
import CognitiveLoad.Proofs.Trail
import CognitiveLoad.Scorer

/-!
The walk of a body as a recursion over its tree. The agenda holds the subtrees still to be walked,
each at the level that the `leave` tasks in front of it will restore. While the first of them is
walked, the tasks behind it are not touched, so this stretch of the walk can be looked at on its
own: it comes to the places that `visited` lists and adds the increments that `charges` collects
(`passes_visit`). Two views of a whole walk follow:

* `score_value`: the score is made of the increments that the recursion collects;
* `visits_iff`: the nodes that come to the head of the agenda are those that no function is above.
-/

namespace CognitiveLoad

/-! ## Machines that come to rest -/

/-- A machine that either rests or gets lighter does not change any more once it has made as many
steps as it weighs. -/
theorem iterate_succ_of_weight_le {σ : Type} {step : σ → σ} {weight : σ → Nat}
    (h : ∀ x, step x = x ∨ weight (step x) < weight x) {n : Nat} {x : σ} (hn : weight x ≤ n) :
    step^[n + 1] x = step^[n] x := by
  induction n generalizing x with
  | zero =>
    rcases h x with hx | hx
    · exact hx
    · omega
  | succ n ih =>
    rcases h x with hx | hx
    · rw [Function.iterate_succ_apply, hx]
    · rw [Function.iterate_succ_apply, Function.iterate_succ_apply step n]
      exact ih (by omega)

/-- So the first step can be taken apart from the rest of a run. -/
theorem iterate_weight_step {σ : Type} {step : σ → σ} {weight : σ → Nat}
    (h : ∀ x, step x = x ∨ weight (step x) < weight x) (x : σ) :
    step^[weight x] x = step^[weight (step x)] (step x) := by
  rcases h x with hx | hx
  · rw [hx]
  · obtain ⟨k, hk⟩ := Nat.exists_eq_add_of_lt hx
    have hmore (m : Nat) :
        step^[weight (step x) + m] (step x) = step^[weight (step x)] (step x) := by
      induction m with
      | zero => rfl
      | succ m ih => rw [← Nat.add_assoc, iterate_succ_of_weight_le h (Nat.le_add_right _ _), ih]
    rw [hk, Function.iterate_succ_apply, hmore]

namespace Score

/-- Adding increments one by one adds their sum. -/
theorem foldl_push (fs : List Factor) (sc : Score) :
    fs.foldl push sc =
      { sc with
        factors := sc.factors ++ fs
        total := sc.total + (fs.map (·.increment)).sum } := by
  induction fs generalizing sc with
  | nil => simp
  | cons f rest ih => simp [ih, push, Int.add_assoc]

end Score

namespace Vocabulary

/-- No function is among these nodes. -/
def Clear (v : Vocabulary) (us : List Tree) : Prop :=
  ∀ u ∈ us, v.roleOf u ≠ .function

instance (v : Vocabulary) (us : List Tree) : Decidable (v.Clear us) :=
  inferInstanceAs (Decidable (∀ u ∈ us, v.roleOf u ≠ .function))

theorem asFunction_missing (v : Vocabulary) : v.asFunction .missing = .missing := by
  have h : v.unwrap .missing = .missing := by
    rw [unwrap_eq]
    rfl
  rw [asFunction, h]
  rfl

/-! ## Places that are visited -/

variable (v : Vocabulary)

/-- The places at and below a place that no function stands above, in document order. -/
def visited (p : Tree.Placed) : List Tree.Placed :=
  (p.node.trails.filter fun τ => v.Clear τ.above).map fun τ =>
    ⟨τ.above.headD p.parent, τ.node⟩

theorem clear_append_singleton (above : List Tree) (u : Tree) :
    v.Clear (above ++ [u]) ↔ v.Clear above ∧ v.roleOf u ≠ .function := by
  simp [Clear, or_imp, forall_and]

theorem visited_missing (parent : Tree) : v.visited ⟨parent, .missing⟩ = [] := rfl

/-- Of the places below a child, those count that no function stands above up to the child. -/
theorem visited_child {u : Tree} (h : v.roleOf u ≠ .function) (parent c : Tree) :
    ((c.trails.map (Tree.Trail.under [u])).filter fun τ => v.Clear τ.above).map
        (fun τ => (⟨τ.above.headD parent, τ.node⟩ : Tree.Placed)) =
      v.visited ⟨u, c⟩ := by
  rw [List.filter_map, List.map_map, visited]
  have hkept : (fun τ : Tree.Trail => decide (v.Clear τ.above)) ∘ Tree.Trail.under [u] =
      fun τ => decide (v.Clear τ.above) := by
    funext τ
    simp [Tree.Trail.under, clear_append_singleton, h]
  rw [hkept]
  apply List.map_congr_left
  intro τ _
  cases habove : τ.above <;> simp [Tree.Trail.under, habove]

theorem visited_node {info : NodeInfo} {cs : List Tree}
    (h : v.roleOf (.node info cs) ≠ .function) (parent : Tree) :
    v.visited ⟨parent, .node info cs⟩ =
      ⟨parent, .node info cs⟩ :: cs.flatMap fun c => v.visited ⟨.node info cs, c⟩ := by
  rw [visited, Tree.trails_node, List.filter_cons_of_pos (by simp [Clear]), List.map_cons,
    List.filter_flatMap, List.map_flatMap]
  simp only [v.visited_child h, List.headD_nil]

theorem visited_of_function {t : Tree} (h : v.roleOf t = .function) (parent : Tree) :
    v.visited ⟨parent, t⟩ = [⟨parent, t⟩] := by
  cases t with
  | missing => cases h
  | node info cs =>
    have hnone : (cs.flatMap fun c => c.trails.map (Tree.Trail.under [.node info cs])).filter
        (fun τ => v.Clear τ.above) = [] := by
      rw [List.filter_eq_nil_iff]
      intro τ hτ
      obtain ⟨c, -, hτ⟩ := List.mem_flatMap.mp hτ
      obtain ⟨σ, -, rfl⟩ := List.mem_map.mp hτ
      simp [Tree.Trail.under, clear_append_singleton, h]
    rw [visited, Tree.trails_node, List.filter_cons_of_pos (by simp [Clear]), hnone]
    rfl

theorem exists_visited_iff (p : Tree.Placed) (u : Tree) :
    (∃ q ∈ v.visited p, q.node = u) ↔
      ∃ τ ∈ p.node.trails, τ.node = u ∧ v.Clear τ.above := by
  constructor
  · rintro ⟨q, hq, rfl⟩
    obtain ⟨τ, hτ, rfl⟩ := List.mem_map.mp hq
    obtain ⟨hτ, hclear⟩ := List.mem_filter.mp hτ
    exact ⟨τ, hτ, rfl, by simpa using hclear⟩
  · rintro ⟨τ, hτ, rfl, hclear⟩
    have hkept : τ ∈ p.node.trails.filter fun τ => v.Clear τ.above :=
      List.mem_filter.mpr ⟨hτ, decide_eq_true hclear⟩
    exact ⟨_, List.mem_map_of_mem hkept, rfl⟩

end Vocabulary

namespace Scorer

variable (s : Scorer) (source : ByteArray)

/-! ## The increments of a subtree -/

mutual

/-- The increments of all nodes of a subtree that is met at the given level under the given parent,
in document order. A function adds nothing. -/
def charges (level : Nat) (parent : Tree) : Tree → List Factor
  | .missing => []
  | .node info cs =>
    if s.vocabulary.roleOf (.node info cs) = .function then []
    else
      s.factors source level parent (.node info cs) ++
        chargesAll (if s.opensLevel parent (.node info cs) then level + 1 else level)
          (.node info cs) cs

def chargesAll (level : Nat) (parent : Tree) : List Tree → List Factor
  | [] => []
  | t :: rest => charges level parent t ++ chargesAll level parent rest

end

theorem chargesAll_eq_flatMap (level : Nat) (parent : Tree) (ts : List Tree) :
    s.chargesAll source level parent ts = ts.flatMap (s.charges source level parent) := by
  induction ts with
  | nil => rfl
  | cons t rest ih => rw [chargesAll, ih, List.flatMap_cons]

theorem charges_of_function {t : Tree} (h : s.vocabulary.roleOf t = .function) (level : Nat)
    (parent : Tree) : s.charges source level parent t = [] := by
  cases t with
  | missing => rfl
  | node info cs => rw [charges, if_pos h]

theorem charges_node {info : NodeInfo} {cs : List Tree}
    (h : s.vocabulary.roleOf (.node info cs) ≠ .function) (level : Nat) (parent : Tree) :
    s.charges source level parent (.node info cs) =
      s.factors source level parent (.node info cs) ++
        cs.flatMap (s.charges source
          (if s.opensLevel parent (.node info cs) then level + 1 else level) (.node info cs)) := by
  rw [charges, if_neg h, chargesAll_eq_flatMap]

/-! ## Single increments -/

theorem mem_operatorFactors {parent node : Tree} {f : Factor}
    (h : f ∈ s.operatorFactors source parent node) :
    f.category = .fundamental ∧ f.increment = 1 := by
  unfold operatorFactors at h
  split at h
  next => simp at h
  next =>
    split at h
    next => simp at h
    next =>
      rw [List.mem_singleton.mp h]
      exact ⟨rfl, rfl⟩

theorem mem_controlFactors {level : Nat} {parent node : Tree} {f : Factor}
    (h : f ∈ s.controlFactors level parent node) :
    f.category ≠ .fundamental ∧ 1 ≤ f.increment := by
  simp only [controlFactors] at h
  split at h
  next =>
    rw [List.mem_singleton.mp h]
    simp
  next =>
    split at h
    next => simp at h
    next =>
      rcases List.mem_cons.mp h with rfl | h
      · simp
      · split at h
        next hl =>
          rw [List.mem_singleton.mp h]
          simp only [Bool.and_eq_true, decide_eq_true_eq] at hl
          exact ⟨by simp, by simp only; omega⟩
        next => simp at h

/-- Every increment is at least one, and that of a logical expression is one. -/
theorem mem_factors {level : Nat} {parent node : Tree} {f : Factor}
    (h : f ∈ s.factors source level parent node) :
    1 ≤ f.increment ∧ (f.category = .fundamental → f.increment = 1) := by
  simp only [factors] at h
  split at h
  next =>
    split at h
    next =>
      obtain ⟨-, hone⟩ := s.mem_operatorFactors source h
      exact ⟨by omega, fun _ => hone⟩
    next => simp at h
  next =>
    split at h
    next =>
      obtain ⟨hcategory, hone⟩ := s.mem_controlFactors h
      exact ⟨hone, fun hf => absurd hf hcategory⟩
    next => simp at h

theorem mem_charges {level : Nat} {parent t : Tree} {f : Factor}
    (h : f ∈ s.charges source level parent t) :
    1 ≤ f.increment ∧ (f.category = .fundamental → f.increment = 1) := by
  induction t using Tree.induct generalizing level parent with
  | missing => simp [charges] at h
  | node info cs ih =>
    by_cases hf : s.vocabulary.roleOf (.node info cs) = .function
    · simp [s.charges_of_function source hf] at h
    · rw [s.charges_node source hf, List.mem_append, List.mem_flatMap] at h
      rcases h with h | ⟨c, hc, h⟩
      · exact s.mem_factors source h
      · exact ih c hc h

/-! ## Runs -/

theorem step_of_agenda_nil {w : Walk} (h : w.agenda = []) : s.step source w = w := by
  simp [step, h]

theorem advance_eq_iterate (n : Nat) (w : Walk) :
    s.advance source n w = (s.step source)^[n] w := by
  induction n generalizing w with
  | zero => rfl
  | succ n ih => rw [advance, ih, Function.iterate_succ_apply]

theorem advance_of_agenda_nil (n : Nat) {w : Walk} (h : w.agenda = []) :
    s.advance source n w = w := by
  rw [advance_eq_iterate]
  exact Function.iterate_fixed (s.step_of_agenda_nil source h) n

theorem run_of_agenda_nil {w : Walk} (h : w.agenda = []) : s.run source w = w :=
  s.advance_of_agenda_nil source _ h

theorem run_step (w : Walk) : s.run source w = s.run source (s.step source w) := by
  simp only [run, advance_eq_iterate]
  apply iterate_weight_step
  intro w
  by_cases h : w.agenda = []
  · exact .inl (s.step_of_agenda_nil source h)
  · exact .inr (s.weight_step_lt source w h)

theorem step_leave (rest : List Task) (sc : Score) (notes : List Note) :
    s.step source ⟨.leave :: rest, sc, notes⟩ =
      ⟨rest, { sc with nesting := sc.nesting - 1 }, notes⟩ := rfl

theorem step_visit_function {t : Tree} (h : s.vocabulary.roleOf t = .function) (parent : Tree)
    (rest : List Task) (sc : Score) (notes : List Note) :
    s.step source ⟨.visit ⟨parent, t⟩ :: rest, sc, notes⟩ =
      ⟨rest, sc, notes ++ [.skipped t.type t.line]⟩ := by
  cases t with
  | missing => simp [Vocabulary.roleOf] at h
  | node info cs => simp [step, Tree.isMissing, h]

/-- A node that opens a level has a `leave` task put behind its children. -/
theorem step_visit_node {info : NodeInfo} {cs : List Tree}
    (h : s.vocabulary.roleOf (.node info cs) ≠ .function) (parent : Tree) (rest : List Task)
    (sc : Score) (notes : List Note) :
    s.step source ⟨.visit ⟨parent, .node info cs⟩ :: rest, sc, notes⟩ =
      let fs := s.factors source sc.nesting parent (.node info cs)
      let children := cs.map fun c => Task.visit ⟨.node info cs, c⟩
      if s.opensLevel parent (.node info cs) then
        ⟨children ++ .leave :: rest, { fs.foldl Score.push sc with nesting := sc.nesting + 1 },
          notes ++ fs.map .added⟩
      else ⟨children ++ rest, fs.foldl Score.push sc, notes ++ fs.map .added⟩ := by
  simp [step, Tree.isMissing, h, below, Tree.children, Score.foldl_push]

/-! ## Stretches of a walk -/

/-- The place at the head of the agenda, if the first task is to visit a node. -/
def Walk.place? (w : Walk) : Option Tree.Placed :=
  match w.agenda with
  | .visit p :: _ => if p.node.isMissing then none else some p
  | _ => none

/-- A walk gets to another by doing tasks that stand in front of the other's agenda, and comes to
the listed places on the way. -/
inductive Passes : Walk → List Tree.Placed → Walk → Prop
  | refl (w : Walk) : Passes w [] w
  | step {w w' : Walk} {met : List Tree.Placed} (task : Task) (front : List Task)
      (hagenda : w.agenda = task :: front ++ w'.agenda)
      (hrest : Passes (s.step source w) met w') : Passes w (w.place?.toList ++ met) w'

variable {s source}

/-- A stretch that leaves further tasks in front can be prolonged over them. -/
theorem Passes.trans {w₁ w₂ w₃ : Walk} {met met' : List Tree.Placed} (middle : List Task)
    (hmiddle : w₂.agenda = middle ++ w₃.agenda) (h : s.Passes source w₁ met w₂)
    (h' : s.Passes source w₂ met' w₃) : s.Passes source w₁ (met ++ met') w₃ := by
  induction h with
  | refl w => exact h'
  | step task front hagenda _ ih =>
    rw [List.append_assoc]
    refine .step task (front ++ middle) ?_ (ih hmiddle h')
    rw [hagenda, hmiddle, List.cons_append, List.cons_append, List.append_assoc]

/-- One step on the first task, if it leaves the tasks behind. -/
theorem Passes.single {w : Walk} {task : Task}
    (hagenda : w.agenda = task :: (s.step source w).agenda) :
    s.Passes source w w.place?.toList (s.step source w) := by
  have h := Passes.step task [] hagenda (.refl _)
  rwa [List.append_nil] at h

variable (s source)

/-- What is said of the stretch over one subtree: the places of the subtree are met in document
order, its increments are added, and level and further agenda are as before. -/
def CrossesOver (t : Tree) : Prop :=
  ∀ (parent : Tree) (rest : List Task) (sc : Score) (notes : List Note), ∃ notes',
    s.Passes source ⟨.visit ⟨parent, t⟩ :: rest, sc, notes⟩ (s.vocabulary.visited ⟨parent, t⟩)
      ⟨rest, (s.charges source sc.nesting parent t).foldl Score.push sc, notes'⟩

theorem passes_visits {ts : List Tree} (h : ∀ t ∈ ts, s.CrossesOver source t) (parent : Tree)
    (rest : List Task) (sc : Score) (notes : List Note) : ∃ notes',
    s.Passes source ⟨(ts.map fun c => .visit ⟨parent, c⟩) ++ rest, sc, notes⟩
      (ts.flatMap fun c => s.vocabulary.visited ⟨parent, c⟩)
      ⟨rest, (ts.flatMap (s.charges source sc.nesting parent)).foldl Score.push sc, notes'⟩ := by
  induction ts generalizing sc notes with
  | nil => exact ⟨notes, .refl _⟩
  | cons t ts ih =>
    obtain ⟨n₁, h₁⟩ := h t (List.mem_cons_self ..) parent
      ((ts.map fun c => .visit ⟨parent, c⟩) ++ rest) sc notes
    obtain ⟨n₂, h₂⟩ := ih (fun u hu => h u (List.mem_cons_of_mem _ hu))
      ((s.charges source sc.nesting parent t).foldl Score.push sc) n₁
    have hlevel : ((s.charges source sc.nesting parent t).foldl Score.push sc).nesting =
        sc.nesting := by
      rw [Score.foldl_push]
    rw [hlevel] at h₂
    refine ⟨n₂, ?_⟩
    rw [List.flatMap_cons, List.flatMap_cons, List.foldl_append]
    exact h₁.trans _ rfl h₂

/-- **Crossing lemma.** -/
theorem passes_visit (t : Tree) : s.CrossesOver source t := by
  induction t using Tree.induct with
  | missing =>
    intro parent rest sc notes
    exact ⟨notes, .single rfl⟩
  | node info cs ih =>
    intro parent rest sc notes
    by_cases hf : s.vocabulary.roleOf (.node info cs) = .function
    · have hstep := s.step_visit_function source hf parent rest sc notes
      refine ⟨notes ++ [.skipped (Tree.node info cs).type (Tree.node info cs).line], ?_⟩
      rw [s.vocabulary.visited_of_function hf, s.charges_of_function source hf, List.foldl_nil,
        ← hstep]
      exact .single (by rw [hstep])
    · have hstep := s.step_visit_node source hf parent rest sc notes
      rw [s.vocabulary.visited_node hf, s.charges_node source hf]
      by_cases ho : s.opensLevel parent (.node info cs)
      · simp only [ho, if_true] at hstep ⊢
        obtain ⟨n, hn⟩ := s.passes_visits source ih (.node info cs) (.leave :: rest)
          { (s.factors source sc.nesting parent (.node info cs)).foldl Score.push sc with
            nesting := sc.nesting + 1 }
          (notes ++ (s.factors source sc.nesting parent (.node info cs)).map .added)
        rw [← hstep] at hn
        -- the `leave` task behind the children takes back the level that they were walked at
        have hleave := hn.trans [.leave] rfl (.single rfl)
        refine ⟨n, ?_⟩
        simpa [Walk.place?, Tree.isMissing, step_leave, Score.foldl_push, Int.add_assoc] using
          Passes.step (.visit ⟨parent, .node info cs⟩) [] rfl hleave
      · simp only [ho, if_false, Bool.false_eq_true] at hstep ⊢
        obtain ⟨n, hn⟩ := s.passes_visits source ih (.node info cs) rest
          ((s.factors source sc.nesting parent (.node info cs)).foldl Score.push sc)
          (notes ++ (s.factors source sc.nesting parent (.node info cs)).map .added)
        rw [← hstep] at hn
        refine ⟨n, ?_⟩
        rw [List.foldl_append]
        simpa [Walk.place?, Tree.isMissing, Score.foldl_push] using
          Passes.step (.visit ⟨parent, .node info cs⟩) [] rfl hn

theorem Passes.run_eq {w w' : Walk} {met : List Tree.Placed} (h : s.Passes source w met w') :
    s.run source w = s.run source w' := by
  induction h with
  | refl w => rfl
  | step task front hagenda hrest ih => rw [run_step, ih]

/-- The score at the end of a walk that starts at any level. -/
theorem score_run_visit (p : Tree.Placed) (sc : Score) :
    (s.run source { agenda := [.visit p], score := sc }).score =
      (s.charges source sc.nesting p.parent p.node).foldl Score.push sc := by
  obtain ⟨notes, h⟩ := s.passes_visit source p.node p.parent [] sc []
  rw [h.run_eq, s.run_of_agenda_nil source rfl]

theorem bodyOf_of_missing {p : Tree.Placed} (h : p.node = .missing) :
    (s.bodyOf p).node = .missing := by
  rw [bodyOf, h, Vocabulary.asFunction_missing]
  exact h

/-- The score of a definition or a body is made of the increments found below its body. -/
theorem score_value (text : String) (p : Tree.Placed) :
    (s.score text p).value =
      let fs := s.charges text.toUTF8 0 (s.bodyOf p).parent (s.bodyOf p).node
      { total := (fs.map (·.increment)).sum, factors := fs } := by
  unfold score
  split
  next h =>
    rw [s.bodyOf_of_missing (Tree.isMissing_iff.mp h)]
    rfl
  next =>
    simp only
    split
    next h =>
      rw [Tree.isMissing_iff.mp h]
      rfl
    next =>
      rw [score_run_visit, Score.foldl_push]
      simp

theorem total_score (text : String) (p : Tree.Placed) :
    (s.score text p).value.total = ((s.score text p).value.factors.map (·.increment)).sum := by
  rw [score_value]

theorem one_le_increment {text : String} {p : Tree.Placed} {f : Factor}
    (h : f ∈ (s.score text p).value.factors) : 1 ≤ f.increment := by
  rw [score_value] at h
  exact (s.mem_charges text.toUTF8 h).1

/-! ## Visited nodes -/

/-- The node at the head of the agenda, if the first task is to visit one. -/
def Walk.current? (w : Walk) : Option Tree :=
  w.place?.map (·.node)

/-- A node comes to the head of the agenda at some time of a walk. -/
def Meets (w : Walk) (u : Tree) : Prop :=
  ∃ n, (s.advance source n w).current? = some u

/-- A node is visited while a definition or a body is scored. -/
def Visits (p : Tree.Placed) (u : Tree) : Prop :=
  s.Meets source { agenda := [.visit (s.bodyOf p)] } u

theorem meets_iff (w : Walk) (u : Tree) :
    s.Meets source w u ↔ w.current? = some u ∨ s.Meets source (s.step source w) u := by
  constructor
  · rintro ⟨n, h⟩
    cases n with
    | zero => exact .inl h
    | succ n => exact .inr ⟨n, h⟩
  · rintro (h | ⟨n, h⟩)
    · exact ⟨0, h⟩
    · exact ⟨n + 1, h⟩

theorem not_meets_of_agenda_nil {w : Walk} (h : w.agenda = []) (u : Tree) :
    ¬ s.Meets source w u := by
  rintro ⟨n, hn⟩
  rw [s.advance_of_agenda_nil source n h, Walk.current?, Walk.place?, h] at hn
  cases hn

/-- What a walk meets, it meets on a stretch or behind it. -/
theorem Passes.meets_iff {w w' : Walk} {met : List Tree.Placed} (h : s.Passes source w met w')
    (u : Tree) :
    s.Meets source w u ↔ (∃ q ∈ met, q.node = u) ∨ s.Meets source w' u := by
  induction h with
  | refl w => simp
  | @step w w' met task front hagenda hrest ih =>
    rw [Scorer.meets_iff, ih, ← or_assoc, Walk.current?]
    cases w.place? with
    | none => simp
    | some q => simp

/-- Scoring visits the nodes of the body that no function of the body stands above. -/
theorem visits_iff (p : Tree.Placed) (u : Tree) :
    s.Visits source p u ↔
      ∃ τ ∈ (s.bodyOf p).node.trails, τ.node = u ∧ s.vocabulary.Clear τ.above := by
  obtain ⟨notes, h⟩ := s.passes_visit source (s.bodyOf p).node (s.bodyOf p).parent [] {} []
  rw [Visits, h.meets_iff, or_iff_left (s.not_meets_of_agenda_nil source rfl u)]
  exact s.vocabulary.exists_visited_iff (s.bodyOf p) u

end Scorer

end CognitiveLoad
