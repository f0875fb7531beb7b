import Mathlib.Algebra.Order.Ring.Int
import CognitiveLoad.Proofs.Metric

/-!
The level at which a subtree is entered. A construct that opens a level adds, besides one, the level
around it; nothing else that is added depends on a level.

* `sum_charges`: a subtree costs, for every level more around it, one more for each construct in it
  that opens a level;
* `flat_charges`: nesting apart, its increments are the same at every level;
* `nesting_shift`: so a stretch of a walk compares with a walk of its own.
-/

namespace CognitiveLoad

open CognitiveLoad.Metric

namespace Vocabulary

variable (v : Vocabulary)

/-- The number of constructs that open a level among the places visited from a place on. -/
def openings (p : Tree.Placed) : Nat :=
  (v.visited p).countP fun q => Opening v q.parent q.node

theorem openings_of_function {t : Tree} (h : v.roleOf t = .function) (parent : Tree) :
    v.openings ⟨parent, t⟩ = 0 := by
  rw [openings, v.visited_of_function h]
  simp [Opening, h, Role.nests]

theorem openings_node {info : NodeInfo} {cs : List Tree}
    (h : v.roleOf (.node info cs) ≠ .function) (parent : Tree) :
    v.openings ⟨parent, .node info cs⟩ =
      (if Opening v parent (.node info cs) then 1 else 0) +
        (cs.map fun c => v.openings ⟨.node info cs, c⟩).sum := by
  rw [openings, v.visited_node h, List.countP_cons, List.countP_flatMap, Nat.add_comm]
  simp [openings, Function.comp_def]

end Vocabulary

namespace Scorer

variable (s : Scorer) (source : ByteArray)

/-! ## The level of a subtree -/

/-- The increments that do not come from nesting. -/
def flat (fs : List Factor) : List Factor :=
  fs.filter (·.category ≠ .nesting)

theorem flat_append (fs gs : List Factor) : flat (fs ++ gs) = flat fs ++ flat gs :=
  List.filter_append ..

theorem flat_flatMap {α : Type} (ts : List α) (f : α → List Factor) :
    flat (ts.flatMap f) = ts.flatMap fun t => flat (f t) :=
  List.filter_flatMap ..

theorem factors_of_opening {parent node : Tree} (h : Opening s.vocabulary parent node)
    (level : Nat) :
    s.factors source level parent node =
      ⟨s!"{(s.vocabulary.roleOf node).label} (structural)", 1, node.line, .structural⟩ ::
        if 0 < level then
          [⟨s!"nested {(s.vocabulary.roleOf node).label} (nesting)", level, node.line, .nesting⟩]
        else [] := by
  obtain ⟨hnests, hchained⟩ := h
  have hrole : s.vocabulary.roleOf node ≠ .elseIf ∧ s.vocabulary.roleOf node ≠ .elseBranch ∧
      (s.vocabulary.roleOf node).isControl = true := by
    cases hr : s.vocabulary.roleOf node <;> simp_all [Role.nests, Role.isControl]
  obtain ⟨helif, helse, hcontrol⟩ := hrole
  rw [← share_eq_factors]
  simp [share, Wrapping, hchained, hnests, helif, helse, hcontrol]

/-- A node that opens no level adds the same at every level. -/
theorem factors_of_not_opening {parent node : Tree} (h : ¬ Opening s.vocabulary parent node)
    (level : Nat) : s.factors source level parent node = s.factors source 0 parent node := by
  simp only [← share_eq_factors, share]
  by_cases hc : Chained s.vocabulary parent node
  · simp [hc]
  · have hnests : (s.vocabulary.roleOf node).nests = false := by
      simpa [Opening, hc] using h
    simp [hnests]

theorem sum_factors (level : Nat) (parent node : Tree) :
    ((s.factors source level parent node).map (·.increment)).sum =
      ((s.factors source 0 parent node).map (·.increment)).sum +
        level * (if Opening s.vocabulary parent node then 1 else 0 : Nat) := by
  by_cases h : Opening s.vocabulary parent node
  · rw [s.factors_of_opening source h, s.factors_of_opening source h]
    by_cases hl : 0 < level
    · simp [h, hl]
    · simp [h, Nat.eq_zero_of_not_pos hl]
  · rw [s.factors_of_not_opening source h level]
    simp [h]

theorem flat_factors (level : Nat) (parent node : Tree) :
    flat (s.factors source level parent node) = flat (s.factors source 0 parent node) := by
  by_cases h : Opening s.vocabulary parent node
  · rw [s.factors_of_opening source h, s.factors_of_opening source h]
    by_cases hl : 0 < level <;> simp [flat, hl]
  · rw [s.factors_of_not_opening source h level]

theorem sum_flatMap_shift {ts : List Tree} {f g : Tree → List Factor} {k : Tree → Nat} {more : Nat}
    (h : ∀ t ∈ ts, ((f t).map (·.increment)).sum = ((g t).map (·.increment)).sum + more * k t) :
    ((ts.flatMap f).map (·.increment)).sum =
      ((ts.flatMap g).map (·.increment)).sum + more * (ts.map k).sum := by
  induction ts with
  | nil => simp
  | cons t rest ih =>
    have ht := h t (List.mem_cons_self ..)
    have hrest := ih fun u hu => h u (List.mem_cons_of_mem _ hu)
    simp only [List.flatMap_cons, List.map_append, List.sum_append, List.map_cons, List.sum_cons,
      ht, hrest]
    push_cast
    rw [Int.mul_add]
    omega

/-- A subtree costs, for every level more around it, one more for each construct in it that opens a
level. -/
theorem sum_charges (level more : Nat) (parent t : Tree) :
    ((s.charges source (level + more) parent t).map (·.increment)).sum =
      ((s.charges source level parent t).map (·.increment)).sum +
        more * s.vocabulary.openings ⟨parent, t⟩ := by
  induction t using Tree.induct generalizing level parent with
  | missing => simp [charges, Vocabulary.openings, Vocabulary.visited_missing]
  | node info cs ih =>
    by_cases hf : s.vocabulary.roleOf (.node info cs) = .function
    · simp [s.charges_of_function source hf, s.vocabulary.openings_of_function hf]
    · have hinside : (if s.opensLevel parent (.node info cs) then level + more + 1
          else level + more) =
          (if s.opensLevel parent (.node info cs) then level + 1 else level) + more := by
        split <;> omega
      rw [s.charges_node source hf, s.charges_node source hf, s.vocabulary.openings_node hf,
        hinside]
      generalize (if s.opensLevel parent (.node info cs) then level + 1 else level) = inside
      have hbelow := sum_flatMap_shift (f := s.charges source (inside + more) (.node info cs))
        (g := s.charges source inside (.node info cs)) fun c hc => ih c hc inside _
      rw [List.map_append, List.map_append, List.sum_append, List.sum_append, hbelow,
        s.sum_factors source (level + more), s.sum_factors source level]
      push_cast
      rw [Int.mul_add, Int.add_mul]
      omega

theorem flat_charges (level level' : Nat) (parent t : Tree) :
    flat (s.charges source level parent t) = flat (s.charges source level' parent t) := by
  induction t using Tree.induct generalizing level level' parent with
  | missing => rfl
  | node info cs ih =>
    by_cases hf : s.vocabulary.roleOf (.node info cs) = .function
    · rw [s.charges_of_function source hf, s.charges_of_function source hf]
    · rw [s.charges_node source hf, s.charges_node source hf, flat_append, flat_append,
        s.flat_factors source level, s.flat_factors source level', flat_flatMap, flat_flatMap]
      congr 1
      apply List.flatMap_congr
      intro c hc
      exact ih c hc ..

/-! ## The shift law -/

/-- A node with no function in or under it is walked itself. -/
theorem bodyOf_of_no_function {p : Tree.Placed}
    (h : (s.vocabulary.asFunction p.node).isMissing = true) : s.bodyOf p = p := by
  simp [bodyOf, h]

/-- **Nesting shift.** Take any moment of the scoring of a definition or a body at which a node is
to be visited that neither is nor wraps a function. The walk then works on the tasks in front of the
others, comes to the places below the node that no function stands above, and has only the others
left. Between the two moments it adds what the node scores by itself, and the level at the first
moment once more for each of those places that opens a level. Apart from nesting, both have the same
increments in the same order. -/
theorem nesting_shift (s : Scorer) (text : String) (p n : Tree.Placed) (steps : Nat)
    (rest : List Task) :
    let w := s.advance text.toUTF8 steps { agenda := [.visit (s.bodyOf p)] }
    w.agenda = .visit n :: rest → (s.vocabulary.asFunction n.node).isMissing = true →
      ∃ w' fs, s.Passes text.toUTF8 w (s.vocabulary.visited n) w' ∧ w'.agenda = rest ∧
        w'.score.nesting = w.score.nesting ∧ w'.score.factors = w.score.factors ++ fs ∧
        w'.score.total = w.score.total + (fs.map (·.increment)).sum ∧
        (fs.map (·.increment)).sum =
          (s.score text n).value.total + w.score.nesting * s.vocabulary.openings n ∧
        flat fs = flat (s.score text n).value.factors := by
  intro w hagenda hn
  obtain ⟨parent, node⟩ := n
  obtain ⟨notes, hpass⟩ := s.passes_visit text.toUTF8 node parent rest w.score w.notes
  rw [← hagenda] at hpass
  refine ⟨_, s.charges text.toUTF8 w.score.nesting parent node, hpass, rfl, ?_, ?_, ?_, ?_, ?_⟩
  · rw [Score.foldl_push]
  · rw [Score.foldl_push]
  · rw [Score.foldl_push]
  · have hshift := s.sum_charges text.toUTF8 0 w.score.nesting parent node
    rw [Nat.zero_add] at hshift
    rw [hshift, score_value, s.bodyOf_of_no_function hn]
  · rw [score_value, s.bodyOf_of_no_function hn]
    exact s.flat_charges text.toUTF8 ..

/-- A loop with a conditional in it that goes on after its `else`. -/
def chainInLoop : Tree :=
  .ofListing [some ⟨"while_statement", true, none, 0, 0, 1, 1, 1⟩,
    some ⟨"if_statement", true, none, 0, 0, 2, 2, 1⟩,
    some ⟨"else_clause", true, none, 0, 0, 3, 3, 1⟩,
    some ⟨"if_statement", true, none, 0, 0, 3, 3, 0⟩]

/-- The loop as the only statement of a conditional. -/
def guardedLoop : Tree :=
  .node ⟨4, "if_statement", true, none, 0, 0, 0, 0⟩ [chainInLoop]

/-- Two constructs of the loop open a level: a level around it makes six out of a score of four. -/
theorem nesting_shift_guarded :
    let s : Scorer := ⟨Dialect.cpp.vocabulary, true⟩
    let n : Tree.Placed := ⟨guardedLoop, chainInLoop⟩
    let w := s.advance "".toUTF8 1 { agenda := [.visit (s.bodyOf ⟨.missing, guardedLoop⟩)] }
    (∃ w' fs, s.Passes "".toUTF8 w (s.vocabulary.visited n) w' ∧ w'.agenda = [.leave] ∧
      w'.score.nesting = w.score.nesting ∧ w'.score.factors = w.score.factors ++ fs ∧
      w'.score.total = w.score.total + (fs.map (·.increment)).sum ∧
      (fs.map (·.increment)).sum =
        (s.score "" n).value.total + w.score.nesting * s.vocabulary.openings n ∧
      flat fs = flat (s.score "" n).value.factors) ∧
    (s.score "" n).value.total = 4 ∧ w.score.nesting = 1 ∧ s.vocabulary.openings n = 2 := by
  refine ⟨nesting_shift ⟨Dialect.cpp.vocabulary, true⟩ "" ⟨.missing, guardedLoop⟩
    ⟨guardedLoop, chainInLoop⟩ 1 [.leave] (by rfl) (by decide +kernel), ?_⟩
  decide +kernel

end Scorer

end CognitiveLoad
