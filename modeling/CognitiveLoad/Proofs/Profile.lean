import CognitiveLoad.Proofs.Metric

/-!
The profile of a subtree: kind and amount of each increment, without text and line.

* `profile_of_nests` and its neighbours: what a construct of each role adds, and at which level its
  children are met;
* `profile_shape`: a profile does not depend on where the nodes stand in the source.
-/

namespace CognitiveLoad

/-! ## Shapes -/

namespace Tree

mutual

/-- A tree without the numbers of its nodes, their places in the source, and the fields that no
score looks into. -/
def shape : Tree → Tree
  | missing => missing
  | node info cs =>
    node ⟨0, info.type, info.named, info.field.filter (· = "operator"), 0, 0, 0, 0⟩ (shapeAll cs)

def shapeAll : List Tree → List Tree
  | [] => []
  | t :: rest => shape t :: shapeAll rest

end

theorem shapeAll_eq_map (ts : List Tree) : shapeAll ts = ts.map shape := by
  induction ts with
  | nil => rfl
  | cons t rest ih => rw [shapeAll, ih, List.map_cons]

@[simp] theorem type_shape (t : Tree) : t.shape.type = t.type := by
  cases t <;> rfl

@[simp] theorem isMissing_shape (t : Tree) : t.shape.isMissing = t.isMissing := by
  cases t <;> rfl

@[simp] theorem isNamed_shape (t : Tree) : t.shape.isNamed = t.isNamed := by
  cases t <;> rfl

@[simp] theorem hasField_operator_shape (t : Tree) :
    t.shape.hasField "operator" = t.hasField "operator" := by
  cases t with
  | missing => rfl
  | node info cs =>
    cases hf : info.field with
    | none => simp [shape, hasField, hf]
    | some f => by_cases h : f = "operator" <;> simp [shape, hasField, hf, h]

@[simp] theorem children_shape (t : Tree) : t.shape.children = t.children.map shape := by
  cases t with
  | missing => rfl
  | node info cs => exact shapeAll_eq_map cs

theorem namedChildren_shape (t : Tree) : t.shape.namedChildren = t.namedChildren.map shape := by
  simp [namedChildren, List.filter_map, Function.comp_def]

theorem child_operator_shape (t : Tree) :
    t.shape.child "operator" = (t.child "operator").shape := by
  have hfield : hasField "operator" ∘ shape = hasField "operator" := by
    funext c
    exact c.hasField_operator_shape
  have hfind : t.shape.children.find? (hasField "operator") =
      (t.children.find? (hasField "operator")).map shape := by
    rw [children_shape, List.find?_map, hfield]
  rw [child, hfind, child]
  cases t.children.find? (hasField "operator") <;> rfl

end Tree

namespace Vocabulary

variable (v : Vocabulary)

@[simp] theorem roleOf_shape (t : Tree) : v.roleOf t.shape = v.roleOf t := by
  cases t <;> rfl

@[simp] theorem operator?_shape (t : Tree) : v.operator? t.shape = v.operator? t := by
  simp [operator?, Tree.child_operator_shape]

end Vocabulary

namespace Scorer

open CognitiveLoad.Metric

variable (s : Scorer) (source : ByteArray)

def profile (level : Nat) (parent t : Tree) : List (Category × Int) :=
  (s.charges source level parent t).map fun f => (f.category, f.increment)

/-- The profile of a construct that opens a level, its children apart. -/
def opening (level : Nat) : List (Category × Int) :=
  (.structural, 1) :: if 0 < level then [(.nesting, (level : Int))] else []

/-! ## One construct -/

section Constructs

variable {info : NodeInfo} {cs : List Tree} (level : Nat) (parent : Tree)

theorem profile_node (h : s.vocabulary.roleOf (.node info cs) ≠ .function) :
    s.profile source level parent (.node info cs) =
      ((share s source level parent (.node info cs)).map fun f => (f.category, f.increment)) ++
        cs.flatMap (s.profile source
          (if Opening s.vocabulary parent (.node info cs) then level + 1 else level)
          (.node info cs)) := by
  rw [profile, s.charges_node source h, List.map_append, List.map_flatMap, share_eq_factors]
  simp only [opensLevel_iff]
  rfl

theorem profile_of_other (h : s.vocabulary.roleOf (.node info cs) = .other) :
    s.profile source level parent (.node info cs) =
      cs.flatMap (s.profile source level (.node info cs)) := by
  have hnone : s.vocabulary.operator? (.node info cs) = none := operator?_eq_none (by simp [h])
  rw [profile_node s source level parent (by simp [h])]
  simp [share, Opening, Chained, Wrapping, h, hnone, Role.isControl, Role.nests]

/-- An expression with an operator that is not a logical one. -/
theorem profile_of_operator_none (h : s.vocabulary.roleOf (.node info cs) = .operator)
    (ho : s.vocabulary.operator? (.node info cs) = none) :
    s.profile source level parent (.node info cs) =
      cs.flatMap (s.profile source level (.node info cs)) := by
  rw [profile_node s source level parent (by simp [h])]
  simp [share, Opening, Chained, Wrapping, h, ho, Role.isControl, Role.nests]

/-- A construct that opens a level, and does not go on with an earlier one. -/
theorem profile_of_nests (h : (s.vocabulary.roleOf (.node info cs)).nests = true)
    (hc : ¬ Chained s.vocabulary parent (.node info cs)) :
    s.profile source level parent (.node info cs) =
      opening level ++ cs.flatMap (s.profile source (level + 1) (.node info cs)) := by
  have hrole : s.vocabulary.roleOf (.node info cs) ≠ .function ∧
      s.vocabulary.roleOf (.node info cs) ≠ .elseIf ∧
      s.vocabulary.roleOf (.node info cs) ≠ .elseBranch ∧
      (s.vocabulary.roleOf (.node info cs)).isControl = true := by
    cases hr : s.vocabulary.roleOf (.node info cs) <;> simp_all [Role.nests, Role.isControl]
  obtain ⟨hf, helif, helse, hcontrol⟩ := hrole
  rw [profile_node s source level parent hf]
  by_cases hl : 0 < level
  · simp [share, opening, Opening, Wrapping, h, hc, helif, helse, hcontrol, hl]
  · simp [share, opening, Opening, Wrapping, h, hc, helif, helse, hcontrol, hl]

/-- A conditional in an `else` or `else if` goes on at the level of that branch. -/
theorem profile_of_chained (h : Chained s.vocabulary parent (.node info cs)) :
    s.profile source level parent (.node info cs) =
      (.hybrid, 1) :: cs.flatMap (s.profile source level (.node info cs)) := by
  rw [profile_node s source level parent (by simp [h.1])]
  simp [share, Opening, h]

theorem profile_of_elseIf (h : s.vocabulary.roleOf (.node info cs) = .elseIf) :
    s.profile source level parent (.node info cs) =
      (.hybrid, 1) :: cs.flatMap (s.profile source level (.node info cs)) := by
  rw [profile_node s source level parent (by simp [h])]
  simp [share, Opening, h, Role.nests]

theorem profile_of_wrapping (h : Wrapping s.vocabulary (.node info cs)) :
    s.profile source level parent (.node info cs) =
      cs.flatMap (s.profile source level (.node info cs)) := by
  rw [profile_node s source level parent (by simp [h.1])]
  simp [share, Opening, Chained, h, h.1, Role.nests]

/-- A branch with a body of its own. -/
theorem profile_of_else (h : s.vocabulary.roleOf (.node info cs) = .elseBranch)
    (hw : ¬ Wrapping s.vocabulary (.node info cs)) :
    s.profile source level parent (.node info cs) =
      (.structural, 1) :: cs.flatMap (s.profile source level (.node info cs)) := by
  rw [profile_node s source level parent (by simp [h])]
  simp [share, Opening, Chained, h, hw, Role.nests, Role.isControl]

theorem profile_of_case (h : s.vocabulary.roleOf (.node info cs) = .caseBranch) :
    s.profile source level parent (.node info cs) =
      (.structural, 1) :: cs.flatMap (s.profile source level (.node info cs)) := by
  rw [profile_node s source level parent (by simp [h])]
  simp [share, Opening, Chained, Wrapping, h, Role.nests, Role.isControl]

/-- A logical expression counts unless its parent has the same operator. -/
theorem profile_of_operator {o : String} (h : s.vocabulary.operator? (.node info cs) = some o) :
    s.profile source level parent (.node info cs) =
      (if s.countOperators && s.vocabulary.operator? parent ≠ some o then [(.fundamental, 1)]
        else []) ++ cs.flatMap (s.profile source level (.node info cs)) := by
  have hr : s.vocabulary.roleOf (.node info cs) = .operator := by
    by_contra hr
    rw [operator?_eq_none hr] at h
    cases h
  rw [profile_node s source level parent (by simp [hr])]
  by_cases hp : s.vocabulary.operator? parent = some o <;> cases hc : s.countOperators <;>
    simp [share, Opening, Chained, Wrapping, hr, h, hp, hc, Role.nests, Role.isControl]

end Constructs

/-! ## Shapes are enough -/

theorem chained_shape (v : Vocabulary) (parent t : Tree) :
    Chained v parent.shape t.shape ↔ Chained v parent t := by
  simp [Chained]

theorem opening_shape (v : Vocabulary) (parent t : Tree) :
    Opening v parent.shape t.shape ↔ Opening v parent t := by
  simp [Opening, chained_shape]

theorem wrapping_shape (v : Vocabulary) (t : Tree) : Wrapping v t.shape ↔ Wrapping v t := by
  have hkept : t.shape.namedChildren.filter (·.type ≠ "comment") =
      (t.namedChildren.filter (·.type ≠ "comment")).map Tree.shape := by
    simp [Tree.namedChildren_shape, List.filter_map, Function.comp_def]
  simp only [Wrapping, hkept, Vocabulary.roleOf_shape]
  refine and_congr_right fun _ => ?_
  constructor
  · rintro ⟨c, hc, hrole⟩
    obtain ⟨c', hc', rfl⟩ := List.map_eq_singleton_iff.mp hc
    exact ⟨c', hc', by simpa using hrole⟩
  · rintro ⟨c, hc, hrole⟩
    exact ⟨c.shape, by rw [hc]; rfl, by simpa using hrole⟩

theorem share_shape (source' : ByteArray) (level : Nat) (parent t : Tree) :
    ((share s source level parent t).map fun f => (f.category, f.increment)) =
      (share s source' level parent.shape t.shape).map fun f => (f.category, f.increment) := by
  simp only [share, chained_shape, wrapping_shape, Vocabulary.roleOf_shape,
    Vocabulary.operator?_shape]
  split
  · rfl
  · split
    · rfl
    · split
      · split <;> rfl
      · cases s.vocabulary.operator? t with
        | none => rfl
        | some o =>
          simp only
          split <;> rfl

theorem profile_shape (source' : ByteArray) (level : Nat) (parent t : Tree) :
    s.profile source level parent t = s.profile source' level parent.shape t.shape := by
  induction t using Tree.induct generalizing level parent with
  | missing => rfl
  | node info cs ih =>
    have hshape : (Tree.node info cs).shape =
        .node ⟨0, info.type, info.named, info.field.filter (· = "operator"), 0, 0, 0, 0⟩
          (cs.map Tree.shape) := by
      rw [Tree.shape, Tree.shapeAll_eq_map]
    have hrole := s.vocabulary.roleOf_shape (.node info cs)
    by_cases hf : s.vocabulary.roleOf (.node info cs) = .function
    · rw [profile, profile, s.charges_of_function source hf,
        s.charges_of_function source' (hrole.trans hf)]
    · have hshare := s.share_shape source source' level parent (.node info cs)
      have hopen := opening_shape s.vocabulary parent (.node info cs)
      rw [hshape] at hrole hshare hopen ⊢
      rw [profile_node s source level parent hf,
        profile_node s source' level parent.shape (by rw [hrole]; exact hf), hshare]
      simp only [hopen, List.flatMap_map]
      congr 1
      apply List.flatMap_congr
      intro c hc
      rw [ih c hc _ (.node info cs), hshape]

theorem profile_eq_of_shape {t t' : Tree} (h : t.shape = t'.shape) (level : Nat) (parent : Tree) :
    s.profile source level parent t = s.profile source level parent t' := by
  rw [s.profile_shape source source level parent t, h, ← profile_shape]

end Scorer

end CognitiveLoad
