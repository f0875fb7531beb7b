import Mathlib.Data.List.Forall2
import CognitiveLoad.Proofs.Outline

/-!
The score of a definition does not depend on what stands in the functions inside it. Scoring looks
at a node, its parent and the children of both; `Tree.Agree` relates trees that are the same but for
what their functions hold, and none of these looks goes into a function.

* `Tree.Agree.factors_eq`: nodes that agree add the same increments under parents that agree;
* `Tree.Agree.charges_eq`: so do subtrees that agree;
* `score_eq_of_agreeInside`: definitions that agree inside have the same score.
-/

namespace CognitiveLoad

/-- A branch is a lone conditional if another one is whose statements have the same roles. -/
theorem Scorer.holdsOnlyConditional_congr (s : Scorer) {R : Tree → Tree → Prop}
    (hR : ∀ c d, R c d → s.vocabulary.roleOf c = s.vocabulary.roleOf d) {t u : Tree}
    (h : List.Forall₂ R (t.namedChildren.filter (·.type ≠ "comment"))
      (u.namedChildren.filter (·.type ≠ "comment"))) :
    s.holdsOnlyConditional t = s.holdsOnlyConditional u := by
  unfold holdsOnlyConditional
  generalize t.namedChildren.filter (·.type ≠ "comment") = xs at h ⊢
  generalize u.namedChildren.filter (·.type ≠ "comment") = ys at h ⊢
  cases h with
  | nil => rfl
  | @cons c d _ _ hc hrest =>
    cases hrest with
    | nil => simp only [hR c d hc]
    | cons _ _ => rfl

namespace Tree

/-- Two trees are the same but for the numbers of their nodes and for what functions hold. -/
inductive Agree (v : Vocabulary) : Tree → Tree → Prop
  | missing : Agree v missing missing
  | node {info : NodeInfo} {cs ds : List Tree} (n : Nat) (h : List.Forall₂ (Agree v) cs ds) :
      Agree v (node info cs) (node { info with id := n } ds)
  | function {info : NodeInfo} {cs ds : List Tree} (n : Nat)
      (h : v.roleOf (node info cs) = .function) :
      Agree v (node info cs) (node { info with id := n } ds)

/-- Two definitions are the same but for numbers and for what the functions strictly inside them
hold. A wrapper is taken for the definition that it wraps. -/
inductive AgreeInside (v : Vocabulary) : Tree → Tree → Prop
  | definition {info : NodeInfo} {cs ds : List Tree} (n : Nat)
      (hf : v.roleOf (node info cs) = .function) (hw : v.wraps (node info cs) = false)
      (h : List.Forall₂ (Agree v) cs ds) :
      AgreeInside v (node info cs) (node { info with id := n } ds)
  | wrapper {info : NodeInfo} {cs ds : List Tree} (n : Nat) (hw : v.wraps (node info cs) = true)
      (h : AgreeInside v ((node info cs).child "definition")
        ((node { info with id := n } ds).child "definition")) :
      AgreeInside v (node info cs) (node { info with id := n } ds)

namespace Agree

variable {v : Vocabulary} {t u : Tree}

/-! ## What agrees -/

theorem isMissing_eq (h : Agree v t u) : t.isMissing = u.isMissing := by
  cases h <;> rfl

theorem type_eq (h : Agree v t u) : t.type = u.type := by
  cases h <;> rfl

theorem isNamed_eq (h : Agree v t u) : t.isNamed = u.isNamed := by
  cases h <;> rfl

theorem hasField_eq (h : Agree v t u) (f : String) : t.hasField f = u.hasField f := by
  cases h <;> rfl

theorem line_eq (h : Agree v t u) : t.line = u.line := by
  cases h <;> rfl

theorem text_eq (h : Agree v t u) (source : ByteArray) : t.text source = u.text source := by
  cases h <;> rfl

theorem roleOf_eq (h : Agree v t u) : v.roleOf t = v.roleOf u := by
  cases h <;> rfl

/-- Outside functions the children agree as well. -/
theorem children (h : Agree v t u) (hf : v.roleOf t ≠ .function) :
    List.Forall₂ (Agree v) t.children u.children := by
  cases h with
  | missing => exact .nil
  | node n h => exact h
  | function n h => exact absurd h hf

theorem getD_find? {cs ds : List Tree} (h : List.Forall₂ (Agree v) cs ds) (f : String) :
    Agree v ((cs.find? (hasField f)).getD .missing) ((ds.find? (hasField f)).getD .missing) := by
  induction h with
  | nil => exact .missing
  | cons hc _ ih =>
    rw [List.find?_cons, List.find?_cons, ← hc.hasField_eq f]
    split
    · exact hc
    · exact ih

theorem child (h : List.Forall₂ (Agree v) t.children u.children) (f : String) :
    Agree v (t.child f) (u.child f) :=
  getD_find? h f

/-- A logical expression is no function, so its operator is not lost. -/
theorem operator?_eq (h : Agree v t u) : v.operator? t = v.operator? u := by
  have hrole := h.roleOf_eq
  by_cases hr : v.roleOf t = .operator
  · have htoken : Agree v (t.child "operator") (u.child "operator") :=
      child (h.children (by simp [hr])) "operator"
    simp only [Vocabulary.operator?, ← hrole, htoken.isMissing_eq, htoken.type_eq]
  · simp [Vocabulary.operator?, ← hrole, hr]

variable {s : Scorer} {p q : Tree}

theorem continues_eq (h : Agree s.vocabulary t u) : s.continues t = s.continues u := by
  simp only [Scorer.continues, h.roleOf_eq]

/-- The statements of a branch agree, so one is a lone conditional if the other is. -/
theorem holdsOnlyConditional_eq (h : Agree s.vocabulary t u)
    (hf : s.vocabulary.roleOf t ≠ .function) :
    s.holdsOnlyConditional t = s.holdsOnlyConditional u := by
  have hnamed : List.Forall₂ (Agree s.vocabulary) t.namedChildren u.namedChildren :=
    List.rel_filter (fun _ _ hc => by simp only [hc.isNamed_eq]) (h.children hf)
  have hstatements : List.Forall₂ (Agree s.vocabulary)
      (t.namedChildren.filter (·.type ≠ "comment")) (u.namedChildren.filter (·.type ≠ "comment")) :=
    List.rel_filter (fun _ _ hc => by simp only [hc.type_eq]) hnamed
  exact s.holdsOnlyConditional_congr (fun _ _ hc => hc.roleOf_eq) hstatements

/-! ## What is added -/

theorem controlFactors_eq (hp : Agree s.vocabulary p q) (h : Agree s.vocabulary t u)
    (hf : s.vocabulary.roleOf t ≠ .function) (level : Nat) :
    s.controlFactors level p t = s.controlFactors level q u := by
  simp only [Scorer.controlFactors, h.roleOf_eq, h.line_eq, hp.continues_eq,
    h.holdsOnlyConditional_eq hf]

theorem operatorFactors_eq (hp : Agree s.vocabulary p q) (h : Agree s.vocabulary t u)
    (hf : s.vocabulary.roleOf t ≠ .function) (source : ByteArray) :
    s.operatorFactors source p t = s.operatorFactors source q u := by
  have htoken : Agree s.vocabulary (t.child "operator") (u.child "operator") :=
    child (h.children hf) "operator"
  simp only [Scorer.operatorFactors, h.operator?_eq, hp.operator?_eq, htoken.text_eq source,
    h.line_eq]

theorem factors_eq (hp : Agree s.vocabulary p q) (h : Agree s.vocabulary t u)
    (hf : s.vocabulary.roleOf t ≠ .function) (source : ByteArray) (level : Nat) :
    s.factors source level p t = s.factors source level q u := by
  simp only [Scorer.factors, h.roleOf_eq, hp.controlFactors_eq h hf level,
    hp.operatorFactors_eq h hf source]

theorem opensLevel_eq (hp : Agree s.vocabulary p q) (h : Agree s.vocabulary t u) :
    s.opensLevel p t = s.opensLevel q u := by
  simp only [Scorer.opensLevel, h.roleOf_eq, hp.continues_eq]

theorem charges_eq (source : ByteArray) (level : Nat) (hp : Agree s.vocabulary p q)
    (h : Agree s.vocabulary t u) :
    s.charges source level p t = s.charges source level q u := by
  induction t using Tree.induct generalizing u p q level with
  | missing =>
    cases h
    rfl
  | node info cs ih =>
    by_cases hf : s.vocabulary.roleOf (.node info cs) = .function
    · rw [s.charges_of_function source hf, s.charges_of_function source (h.roleOf_eq ▸ hf)]
    · obtain ⟨info', ds, rfl⟩ : ∃ info' ds, u = .node info' ds := by
        cases h <;> exact ⟨_, _, rfl⟩
      rw [s.charges_node source hf, s.charges_node source (h.roleOf_eq ▸ hf),
        hp.factors_eq h hf, hp.opensLevel_eq h]
      congr 1
      -- the induction is on the tree, so each pair has to remember that it starts with a child
      have hpairs : List.Forall₂ (fun c d => c ∈ cs ∧ Agree s.vocabulary c d) cs ds :=
        (List.forall₂_and_left _ _).mpr ⟨fun c hc => hc, h.children hf⟩
      rw [List.flatMap_def, List.flatMap_def]
      congr 1
      rw [← List.forall₂_eq_eq_eq, List.forall₂_map_left_iff, List.forall₂_map_right_iff]
      exact hpairs.imp fun c d hcd => ih c hcd.1 _ h hcd.2

end Agree

/-! ## Definitions -/

variable {v : Vocabulary} {t u : Tree}

/-- The definitions behind the two nodes have children that agree. -/
theorem AgreeInside.exists_definition (h : AgreeInside v t u) :
    ∃ info n cs ds, v.asFunction t = .node info cs ∧
      v.asFunction u = .node { info with id := n } ds ∧ List.Forall₂ (Agree v) cs ds := by
  induction h with
  | @definition info cs ds n hf hw h =>
    have hfu : v.roleOf (.node { info with id := n } ds) = .function := hf
    have hwu : v.wraps (.node { info with id := n } ds) = false := hw
    refine ⟨info, n, cs, ds, ?_, ?_, h⟩
    · rw [v.asFunction_of_not_wraps hw, if_pos hf]
    · rw [v.asFunction_of_not_wraps hwu, if_pos hfu]
  | @wrapper info cs ds n hw h ih =>
    have hwu : v.wraps (.node { info with id := n } ds) = true := hw
    rw [v.asFunction_of_wraps hw, v.asFunction_of_wraps hwu]
    exact ih

end Tree

namespace Scorer

/-- **Isolation.** Two definitions that are the same but for what the functions strictly inside them
hold have the same score, wherever they stand. -/
theorem score_eq_of_agreeInside (s : Scorer) (text : String) (p q : Tree.Placed)
    (h : Tree.AgreeInside s.vocabulary p.node q.node) :
    (s.score text p).value = (s.score text q).value := by
  obtain ⟨info, n, cs, ds, hp, hq, hcs⟩ := h.exists_definition
  have hbody : Tree.Agree s.vocabulary ((Tree.node info cs).child s.vocabulary.bodyField)
      ((Tree.node { info with id := n } ds).child s.vocabulary.bodyField) :=
    Tree.Agree.child hcs s.vocabulary.bodyField
  have hbodyOf : s.bodyOf p =
      ⟨.node info cs, (Tree.node info cs).child s.vocabulary.bodyField⟩ := by
    simp [bodyOf, hp, Tree.isMissing]
  have hbodyOf' : s.bodyOf q = ⟨.node { info with id := n } ds,
      (Tree.node { info with id := n } ds).child s.vocabulary.bodyField⟩ := by
    simp [bodyOf, hq, Tree.isMissing]
  rw [s.score_value, s.score_value, hbodyOf, hbodyOf']
  simp only [(Tree.Agree.node n hcs).charges_eq text.toUTF8 0 hbody]

/-- A function whose conditional has a function on one side of its logical expression and another
one alone in its `else`. Each of the two holds the given entries. -/
def hostEntries (arity : Nat) (inside : List (Option Listed)) : List (Option Listed) :=
  [some ⟨"function_definition", true, none, 0, 9, 0, 3, 2⟩, none,
    some ⟨"block", true, some "body", 2, 9, 1, 3, 1⟩,
    some ⟨"if_statement", true, none, 2, 9, 1, 3, 2⟩,
    some ⟨"boolean_operator", true, some "condition", 2, 5, 1, 1, 3⟩,
    some ⟨"function_definition", true, some "left", 2, 3, 1, 1, arity⟩] ++ inside ++
  [some ⟨"and", false, some "operator", 3, 4, 1, 1, 0⟩,
    some ⟨"identifier", true, some "right", 4, 5, 1, 1, 0⟩,
    some ⟨"else_clause", true, some "alternative", 6, 9, 2, 3, 1⟩,
    some ⟨"function_definition", true, none, 7, 9, 3, 3, arity⟩] ++ inside

def emptyHost : Tree :=
  .ofListing (hostEntries 0 [])

/-- Both functions hold a conditional with a loop. -/
def fullHost : Tree :=
  .ofListing (hostEntries 1 [some ⟨"if_statement", true, none, 7, 9, 3, 3, 1⟩,
    some ⟨"while_statement", true, none, 8, 9, 3, 3, 0⟩])

theorem agreeInside_hosts : Tree.AgreeInside Dialect.python.vocabulary emptyHost fullHost :=
  .definition 0 rfl rfl
    (.cons .missing
      (.cons (.node 2 (.cons (.node 3 (.cons
        (.node 4 (.cons (.function 5 rfl) (.cons (.node 8 .nil) (.cons (.node 9 .nil) .nil))))
        (.cons (.node 10 (.cons (.function 11 rfl) .nil)) .nil))) .nil)) .nil))

theorem score_eq_of_agreeInside_hosts :
    let s : Scorer := ⟨Dialect.python.vocabulary, true⟩
    Tree.AgreeInside s.vocabulary emptyHost fullHost ∧
      (s.score "" ⟨.missing, emptyHost⟩).value = (s.score "" ⟨.missing, fullHost⟩).value ∧
      (s.score "" ⟨.missing, emptyHost⟩).value.total = 3 :=
  ⟨agreeInside_hosts,
    score_eq_of_agreeInside _ "" ⟨.missing, emptyHost⟩ ⟨.missing, fullHost⟩ agreeInside_hosts,
    by decide +kernel⟩

end Scorer

end CognitiveLoad
