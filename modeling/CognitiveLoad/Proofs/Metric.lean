import CognitiveLoad.Dialect
import CognitiveLoad.Proofs.Descent

/-!
The metric as a sum over trails. What a node adds depends on the node, its parent and the number of
levels around it, and all of these can be read off the trail that leads to it; a trail that passes a
function adds nothing.

* `factors_eq_breakdown`: a score lists exactly what the trails of the body add, in document order;
* `breakdown_by_length_fails`: the levels around a node are not the nodes above it.
-/

namespace CognitiveLoad.Metric

/-! ## The rules -/

/-- A conditional that goes on with an earlier one. -/
def Chained (v : Vocabulary) (parent node : Tree) : Prop :=
  v.roleOf node = .conditional ∧ (v.roleOf parent = .elseBranch ∨ v.roleOf parent = .elseIf)

instance (v : Vocabulary) (parent node : Tree) : Decidable (Chained v parent node) :=
  inferInstanceAs (Decidable (_ ∧ _))

/-- A branch whose only named child, comments apart, is a conditional. -/
def Wrapping (v : Vocabulary) (node : Tree) : Prop :=
  v.roleOf node = .elseBranch ∧
    ∃ c, node.namedChildren.filter (·.type ≠ "comment") = [c] ∧ v.roleOf c = .conditional

/-- A construct inside of which all is one level deeper. -/
def Opening (v : Vocabulary) (parent node : Tree) : Prop :=
  (v.roleOf node).nests ∧ ¬ Chained v parent node

instance (v : Vocabulary) (parent node : Tree) : Decidable (Opening v parent node) :=
  inferInstanceAs (Decidable (_ ∧ _))

theorem holdsOnlyConditional_iff (s : Scorer) (node : Tree) :
    s.holdsOnlyConditional node = true ↔
      ∃ c, node.namedChildren.filter (·.type ≠ "comment") = [c] ∧
        s.vocabulary.roleOf c = .conditional := by
  unfold Scorer.holdsOnlyConditional
  split
  next c h =>
    constructor
    · intro hc
      exact ⟨c, h, by simpa using hc⟩
    · rintro ⟨c', hc', hrole⟩
      rw [h] at hc'
      cases hc'
      simpa using hrole
  next h =>
    constructor
    · simp
    · rintro ⟨c, hc, -⟩
      exact absurd hc (h c)

instance (v : Vocabulary) (node : Tree) : Decidable (Wrapping v node) :=
  decidable_of_iff
    (v.roleOf node = .elseBranch ∧ Scorer.holdsOnlyConditional ⟨v, true⟩ node = true)
    (and_congr_right fun _ => holdsOnlyConditional_iff ⟨v, true⟩ node)

/-- How many of the nodes above a node open a level. The nearest comes first, and `top` stands over
the last. -/
def levels (v : Vocabulary) (top : Tree) : List Tree → Nat
  | [] => 0
  | u :: above => levels v top above + if Opening v (above.headD top) u then 1 else 0

/-- What a node with `d` levels around it adds. -/
def share (s : Scorer) (source : ByteArray) (d : Nat) (parent node : Tree) : List Factor :=
  let role := s.vocabulary.roleOf node
  if role = .elseIf ∨ Chained s.vocabulary parent node then
    [⟨"else if (hybrid)", 1, node.line, .hybrid⟩]
  else if Wrapping s.vocabulary node then []
  else if role.isControl then
    ⟨s!"{role.label} (structural)", 1, node.line, .structural⟩ ::
      if role.nests ∧ 0 < d then
        [⟨s!"nested {role.label} (nesting)", d, node.line, .nesting⟩]
      else []
  else
    match s.vocabulary.operator? node with
    | none => []
    | some o =>
      if s.vocabulary.operator? parent ≠ some o ∧ s.countOperators then
        let written := (node.child "operator").text source
        let shown := if written = "" then o else written
        [⟨s!"boolean operator {shown} (fundamental)", 1, node.line, .fundamental⟩]
      else []

/-- What all nodes of a body add, in document order, where `d` counts the levels around a node from
the nodes above it. Only trails without a function count. -/
def breakdown (s : Scorer) (d : List Tree → Nat) (source : ByteArray) (body : Tree.Placed) :
    List Factor :=
  (body.node.trails.filter fun τ => s.vocabulary.Clear (τ.node :: τ.above)).flatMap fun τ =>
    share s source (d τ.above) (τ.above.headD body.parent) τ.node

/-! ## The walk follows the rules -/

theorem opensLevel_iff (s : Scorer) (parent node : Tree) :
    s.opensLevel parent node = true ↔ Opening s.vocabulary parent node := by
  by_cases hc : s.vocabulary.roleOf node = .conditional <;>
    simp [Scorer.opensLevel, Opening, Chained, Scorer.continues, hc]

theorem operator?_eq_none {v : Vocabulary} {t : Tree} (h : v.roleOf t ≠ .operator) :
    v.operator? t = none := by
  simp [Vocabulary.operator?, h]

theorem share_eq_controlFactors (s : Scorer) (source : ByteArray) (d : Nat) (parent node : Tree)
    (h : (s.vocabulary.roleOf node).isControl = true) :
    share s source d parent node = s.controlFactors d parent node := by
  have hwrap : Wrapping s.vocabulary node ↔
      s.vocabulary.roleOf node = .elseBranch ∧ s.holdsOnlyConditional node = true :=
    and_congr_right fun _ => (holdsOnlyConditional_iff s node).symm
  simp only [share, Scorer.controlFactors, Chained, Scorer.continues, hwrap, h, if_true,
    Bool.or_eq_true, Bool.and_eq_true, decide_eq_true_eq]

theorem share_eq_operatorFactors (s : Scorer) (source : ByteArray) (d : Nat) (parent node : Tree)
    (h : s.vocabulary.roleOf node = .operator) :
    share s source d parent node =
      if s.countOperators then s.operatorFactors source parent node else [] := by
  have hplain : share s source d parent node =
      match s.vocabulary.operator? node with
      | none => []
      | some o =>
        if s.vocabulary.operator? parent ≠ some o ∧ s.countOperators then
          let written := (node.child "operator").text source
          let shown := if written = "" then o else written
          [⟨s!"boolean operator {shown} (fundamental)", 1, node.line, .fundamental⟩]
        else [] := by
    simp [share, Chained, Wrapping, h, Role.isControl, Role.nests]
  rw [hplain, Scorer.operatorFactors]
  cases s.vocabulary.operator? node with
  | none => simp
  | some o =>
    by_cases hp : s.vocabulary.operator? parent = some o <;> cases s.countOperators <;> simp [hp]

/-- The walk adds for each node what the rules say. -/
theorem share_eq_factors (s : Scorer) (source : ByteArray) (d : Nat) (parent node : Tree) :
    share s source d parent node = s.factors source d parent node := by
  unfold Scorer.factors
  by_cases ho : s.vocabulary.roleOf node = .operator
  · rw [share_eq_operatorFactors s source d parent node ho]
    simp [ho]
  · by_cases hc : (s.vocabulary.roleOf node).isControl = true
    · rw [share_eq_controlFactors s source d parent node hc]
      simp [ho, hc]
    · have hother : s.vocabulary.roleOf node = .function ∨ s.vocabulary.roleOf node = .other := by
        cases hr : s.vocabulary.roleOf node <;> simp_all [Role.isControl, Role.nests]
      have hnone := operator?_eq_none ho
      rcases hother with hr | hr <;>
        simp [share, Chained, Wrapping, hr, hnone, Role.isControl, Role.nests]

/-- A function shuts off all trails below it. -/
theorem not_clear_of_function {v : Vocabulary} {t : Tree} (h : v.roleOf t = .function)
    {above : List Tree} {τ : Tree.Trail} (hτ : τ ∈ Tree.trailsBelow above t) :
    ¬ v.Clear (τ.node :: τ.above) := by
  rw [Tree.trailsBelow_eq_map] at hτ
  obtain ⟨σ, hσ, rfl⟩ := List.mem_map.mp hτ
  have hmem : t ∈ σ.node :: σ.above := by
    rcases Tree.trail_cases hσ with rfl | ⟨c, -, ρ, -, rfl⟩
    · simp
    · simp [Tree.Trail.under]
  intro hclear
  apply hclear t _ h
  simp only [Tree.Trail.under, List.mem_cons, List.mem_append] at hmem ⊢
  tauto

theorem charges_eq_shares (s : Scorer) (source : ByteArray) (top t : Tree) (above : List Tree)
    (habove : s.vocabulary.Clear above) :
    s.charges source (levels s.vocabulary top above) (above.headD top) t =
      ((Tree.trailsBelow above t).filter fun τ => s.vocabulary.Clear (τ.node :: τ.above)).flatMap
        fun τ => share s source (levels s.vocabulary top τ.above) (τ.above.headD top) τ.node := by
  induction t using Tree.induct generalizing above with
  | missing => rfl
  | node info cs ih =>
    by_cases hf : s.vocabulary.roleOf (.node info cs) = .function
    · have hnil : ((Tree.trailsBelow above (.node info cs)).filter
          fun τ => s.vocabulary.Clear (τ.node :: τ.above)) = [] := by
        rw [List.filter_eq_nil_iff]
        intro τ hτ
        simpa using not_clear_of_function hf hτ
      rw [s.charges_of_function source hf, hnil, List.flatMap_nil]
    · have hclear : s.vocabulary.Clear (.node info cs :: above) := by
        intro u hu
        rcases List.mem_cons.mp hu with rfl | hu
        · exact hf
        · exact habove u hu
      have hlevel : (if s.opensLevel (above.headD top) (.node info cs)
          then levels s.vocabulary top above + 1 else levels s.vocabulary top above) =
          levels s.vocabulary top (.node info cs :: above) := by
        simp only [opensLevel_iff, levels]
        split <;> rfl
      rw [s.charges_node source hf, hlevel, Tree.trailsBelow, Tree.trailsBelowAll_eq_flatMap,
        List.filter_cons_of_pos (by simpa using hclear), List.flatMap_cons, share_eq_factors,
        List.filter_flatMap, List.flatMap_assoc]
      congr 1
      apply List.flatMap_congr
      intro c hc
      exact ih c hc (.node info cs :: above) hclear

/-- The walk comes to its end, and the score of a definition or a body lists what the nodes of its
body add by the rules. -/
theorem factors_eq_breakdown (s : Scorer) (text : String) (p : Tree.Placed) :
    (s.run text.toUTF8 { agenda := [.visit (s.bodyOf p)] }).agenda = [] ∧
      (s.score text p).value.factors =
        breakdown s (levels s.vocabulary (s.bodyOf p).parent) text.toUTF8 (s.bodyOf p) := by
  refine ⟨s.agenda_run _ _, ?_⟩
  have hshares := charges_eq_shares s text.toUTF8 (s.bodyOf p).parent (s.bodyOf p).node []
    (fun u hu => absurd hu List.not_mem_nil)
  rw [Scorer.score_value]
  exact hshares

/-- A conditional in the block of a conditional. -/
def nestedConditionals : Tree :=
  .ofListing [some ⟨"if_statement", true, none, 0, 0, 0, 0, 1⟩,
    some ⟨"block", true, none, 0, 0, 0, 0, 1⟩, some ⟨"if_statement", true, none, 0, 0, 0, 0, 0⟩]

/-- Not all nodes above a node open a level: the block between two conditionals opens none. -/
theorem breakdown_by_length_fails :
    let s : Scorer := ⟨Dialect.python.vocabulary, true⟩
    let p : Tree.Placed := ⟨.missing, nestedConditionals⟩
    (s.score "" p).value.factors ≠ breakdown s List.length "".toUTF8 (s.bodyOf p) := by
  decide +kernel

end CognitiveLoad.Metric
