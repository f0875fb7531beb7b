import Mathlib.Data.List.Forall2
import CognitiveLoad.Proofs.Declarators
import CognitiveLoad.Proofs.Isolation

/-!
Comments put into a tree. `Commented` relates a tree to what becomes of it when comments are put in
as further children, anywhere and in any number. Whatever scores and outlines look for in a node is
found by its field, or by going over the children in order, and comments have no field and are
passed over.

* `Interspersed.flatMap`: what is gathered from the children is gathered from the same ones;
* `Commented.charges_eq`: subtrees that correspond add the same increments;
* `Commented.name?_eq`: declarators that correspond have the same name;
* `comments_change_nothing`: so comments change neither scores nor outlines.
-/

namespace CognitiveLoad

/-! ## Lists with further elements -/

/-- The elements of the first list correspond in order to elements of the second, and what else the
second holds has the property `P`. -/
inductive Interspersed {α β : Type} (R : α → β → Prop) (P : β → Prop) : List α → List β → Prop
  | nil : Interspersed R P [] []
  | keep {a : α} {b : β} {as : List α} {bs : List β} (h : R a b) (hrest : Interspersed R P as bs) :
      Interspersed R P (a :: as) (b :: bs)
  | insert {b : β} {as : List α} {bs : List β} (h : P b) (hrest : Interspersed R P as bs) :
      Interspersed R P as (b :: bs)

namespace Interspersed

variable {α β γ δ : Type} {R : α → β → Prop} {P : β → Prop} {as : List α} {bs : List β}

theorem filter (h : Interspersed R P as bs) {p : α → Bool} {q : β → Bool}
    (hR : ∀ a b, R a b → p a = q b) : Interspersed R P (as.filter p) (bs.filter q) := by
  induction h with
  | nil => exact .nil
  | @keep a b as bs h _ ih =>
    rw [List.filter_cons, List.filter_cons, hR a b h]
    split
    · exact .keep h ih
    · exact ih
  | @insert b as bs h _ ih =>
    rw [List.filter_cons]
    split
    · exact .insert h ih
    · exact ih

/-- Without further elements the lists correspond element by element. -/
theorem forall₂ (h : Interspersed R P as bs) (hP : ∀ b ∈ bs, ¬ P b) : List.Forall₂ R as bs := by
  induction h with
  | nil => exact .nil
  | keep h _ ih => exact .cons h (ih fun b hb => hP b (List.mem_cons_of_mem _ hb))
  | insert h _ _ => exact absurd h (hP _ (List.mem_cons_self ..))

/-- A search that passes over the further elements finds elements that correspond. -/
theorem getD_find? (h : Interspersed R P as bs) {p : α → Bool} {q : β → Bool}
    (hR : ∀ a b, R a b → p a = q b) (hP : ∀ b, P b → q b = false) {a₀ : α} {b₀ : β}
    (h₀ : R a₀ b₀) : R ((as.find? p).getD a₀) ((bs.find? q).getD b₀) := by
  induction h with
  | nil => exact h₀
  | @keep a b as bs h _ ih =>
    rw [List.find?_cons, List.find?_cons, hR a b h]
    split
    · exact h
    · exact ih
  | @insert b as bs h _ ih =>
    rw [List.find?_cons, hP b h]
    exact ih

theorem append {S : γ → δ → Prop} {Q : δ → Prop} {xs xs' : List γ} {ys ys' : List δ}
    (h : Interspersed S Q xs ys) (h' : Interspersed S Q xs' ys') :
    Interspersed S Q (xs ++ xs') (ys ++ ys') := by
  induction h with
  | nil => exact h'
  | keep h _ ih => exact .keep h ih
  | insert h _ ih => exact .insert h ih

theorem of_all {S : γ → δ → Prop} {Q : δ → Prop} {ys : List δ} (h : ∀ y ∈ ys, Q y) :
    Interspersed S Q [] ys := by
  induction ys with
  | nil => exact .nil
  | cons y ys ih =>
    exact .insert (h y (List.mem_cons_self ..)) (ih fun z hz => h z (List.mem_cons_of_mem _ hz))

/-- What is gathered from elements that correspond corresponds, and what is gathered from the
further ones is further. -/
theorem flatMap {S : γ → δ → Prop} {Q : δ → Prop} {f : α → List γ} {g : β → List δ}
    (h : Interspersed R P as bs) (hR : ∀ a ∈ as, ∀ b, R a b → Interspersed S Q (f a) (g b))
    (hP : ∀ b, P b → ∀ y ∈ g b, Q y) : Interspersed S Q (as.flatMap f) (bs.flatMap g) := by
  induction h with
  | nil => exact .nil
  | @keep a b as bs h _ ih =>
    rw [List.flatMap_cons, List.flatMap_cons]
    exact (hR a (List.mem_cons_self ..) b h).append
      (ih fun a' ha' => hR a' (List.mem_cons_of_mem _ ha'))
  | @insert b as bs h _ ih =>
    rw [List.flatMap_cons]
    exact (of_all (hP b h)).append (ih hR)

theorem flatMap_eq {f : α → List γ} {g : β → List γ} (h : Interspersed R P as bs)
    (hR : ∀ a ∈ as, ∀ b, R a b → f a = g b) (hP : ∀ b, P b → g b = []) :
    as.flatMap f = bs.flatMap g := by
  induction h with
  | nil => rfl
  | @keep a b as bs h _ ih =>
    rw [List.flatMap_cons, List.flatMap_cons, hR a (List.mem_cons_self ..) b h,
      ih fun a' ha' => hR a' (List.mem_cons_of_mem _ ha')]
  | @insert b as bs h _ ih => rw [List.flatMap_cons, hP b h, List.nil_append, ih hR]

end Interspersed

namespace Tree

/-! ## Trees with comments put in -/

/-- A comment that can be put in: it has no children and no field. -/
inductive IsComment : Tree → Prop
  | mk (info : NodeInfo) (htype : info.type = "comment") (hfield : info.field = none) :
      IsComment (.node info [])

/-- The second tree is the first one with comments put in. The numbers of its nodes are others, and
`ρ` relates the number of a node to the one that it has afterwards. -/
inductive Commented (ρ : Nat → Nat → Prop) : Tree → Tree → Prop
  | missing : Commented ρ .missing .missing
  | node {info : NodeInfo} {cs ds : List Tree} (n : Nat) (hn : ρ info.id n)
      (h : Interspersed (Commented ρ) IsComment cs ds) :
      Commented ρ (.node info cs) (.node { info with id := n } ds)

namespace IsComment

variable {t : Tree}

theorem type_eq (h : IsComment t) : t.type = "comment" := by
  obtain ⟨info, htype, -⟩ := h
  exact htype

theorem hasField_eq (h : IsComment t) (f : String) : t.hasField f = false := by
  obtain ⟨info, -, hfield⟩ := h
  simp [hasField, hfield]

theorem roleOf_eq (h : IsComment t) (d : Dialect) : d.vocabulary.roleOf t = .other := by
  obtain ⟨info, htype, -⟩ := h
  rw [Vocabulary.roleOf, htype]
  cases d <;> rfl

theorem wraps_eq (h : IsComment t) (d : Dialect) : d.vocabulary.wraps t = false := by
  obtain ⟨info, htype, -⟩ := h
  rw [Vocabulary.wraps, htype]
  cases d <;> rfl

theorem children_eq (h : IsComment t) : t.children = [] := by
  obtain ⟨info, -, -⟩ := h
  rfl

end IsComment

namespace Commented

variable {ρ : Nat → Nat → Prop} {t u : Tree}

/-! ## What is kept -/

theorem isMissing_eq (h : Commented ρ t u) : t.isMissing = u.isMissing := by
  cases h <;> rfl

theorem exists_node {info : NodeInfo} {cs : List Tree} (h : Commented ρ (.node info cs) u) :
    ∃ info' ds, u = .node info' ds := by
  cases h
  exact ⟨_, _, rfl⟩

theorem type_eq (h : Commented ρ t u) : t.type = u.type := by
  cases h <;> rfl

theorem isNamed_eq (h : Commented ρ t u) : t.isNamed = u.isNamed := by
  cases h <;> rfl

theorem hasField_eq (h : Commented ρ t u) (f : String) : t.hasField f = u.hasField f := by
  cases h <;> rfl

theorem line_eq (h : Commented ρ t u) : t.line = u.line := by
  cases h <;> rfl

theorem text_eq (h : Commented ρ t u) (source : ByteArray) : t.text source = u.text source := by
  cases h <;> rfl

theorem roleOf_eq (h : Commented ρ t u) (v : Vocabulary) : v.roleOf t = v.roleOf u := by
  cases h <;> rfl

theorem wraps_eq (h : Commented ρ t u) (v : Vocabulary) : v.wraps t = v.wraps u := by
  cases h <;> rfl

theorem children (h : Commented ρ t u) :
    Interspersed (Commented ρ) IsComment t.children u.children := by
  cases h with
  | missing => exact .nil
  | node n hn h => exact h

theorem namedChildren (h : Commented ρ t u) :
    Interspersed (Commented ρ) IsComment t.namedChildren u.namedChildren :=
  h.children.filter fun _ _ hc => hc.isNamed_eq

/-- A comment is in no field. -/
theorem child (h : Commented ρ t u) (f : String) : Commented ρ (t.child f) (u.child f) :=
  h.children.getD_find? (fun _ _ hc => hc.hasField_eq f) (fun _ hc => hc.hasField_eq f) .missing

end Commented

/-- Induction over the trees that a search can go on to. -/
theorem size_induct {motive : Tree → Prop}
    (h : ∀ t, (∀ u : Tree, u.size < t.size → motive u) → motive t) (t : Tree) : motive t :=
  h t fun u _ => size_induct h u
termination_by t.size

namespace Commented

variable {ρ : Nat → Nat → Prop} {t u p q : Tree}

/-! ## Wrappers and operators -/

theorem unwrap (h : Commented ρ t u) (v : Vocabulary) : Commented ρ (v.unwrap t) (v.unwrap u) := by
  induction t using size_induct generalizing u with
  | h t ih =>
    rw [v.unwrap_eq t, v.unwrap_eq u, ← h.wraps_eq v]
    split
    next hw =>
      have hpresent : t.isMissing = false := by
        cases t with
        | missing => cases hw
        | node info cs => rfl
      exact ih _ (size_child_lt_of_present hpresent "definition") (h.child "definition")
    next => exact h

theorem asFunction (h : Commented ρ t u) (v : Vocabulary) :
    Commented ρ (v.asFunction t) (v.asFunction u) := by
  have hunwrap := h.unwrap v
  simp only [Vocabulary.asFunction, ← hunwrap.roleOf_eq v]
  split
  · exact hunwrap
  · exact .missing

theorem operator?_eq (h : Commented ρ t u) (v : Vocabulary) : v.operator? t = v.operator? u := by
  have htoken := h.child "operator"
  simp only [Vocabulary.operator?, h.roleOf_eq v, htoken.isMissing_eq, htoken.type_eq]

/-! ## Scores -/

/-- Comments are no statements. -/
theorem holdsOnlyConditional_eq (h : Commented ρ t u) (s : Scorer) :
    s.holdsOnlyConditional t = s.holdsOnlyConditional u := by
  have hstatements : List.Forall₂ (Commented ρ) (t.namedChildren.filter (·.type ≠ "comment"))
      (u.namedChildren.filter (·.type ≠ "comment")) := by
    have hfilter := h.namedChildren.filter (p := fun c => decide (c.type ≠ "comment"))
      (q := fun c => decide (c.type ≠ "comment")) fun _ _ hc => by simp only [hc.type_eq]
    apply hfilter.forall₂
    intro c hc hcomment
    simpa [hcomment.type_eq] using (List.mem_filter.mp hc).2
  exact s.holdsOnlyConditional_congr (fun _ _ hc => hc.roleOf_eq _) hstatements

theorem continues_eq (h : Commented ρ t u) (s : Scorer) : s.continues t = s.continues u := by
  simp only [Scorer.continues, h.roleOf_eq]

theorem factors_eq (hp : Commented ρ p q) (h : Commented ρ t u) (s : Scorer) (source : ByteArray)
    (level : Nat) : s.factors source level p t = s.factors source level q u := by
  simp only [Scorer.factors, Scorer.controlFactors, Scorer.operatorFactors, h.roleOf_eq, h.line_eq,
    hp.continues_eq s, h.holdsOnlyConditional_eq s, h.operator?_eq, hp.operator?_eq,
    (h.child "operator").text_eq source]

theorem opensLevel_eq (hp : Commented ρ p q) (h : Commented ρ t u) (s : Scorer) :
    s.opensLevel p t = s.opensLevel q u := by
  simp only [Scorer.opensLevel, h.roleOf_eq, hp.continues_eq s]

end Commented

theorem IsComment.charges_eq {d : Dialect} {s : Scorer} (hs : s.vocabulary = d.vocabulary)
    {t : Tree} (h : IsComment t) (source : ByteArray) (level : Nat) (parent : Tree) :
    s.charges source level parent t = [] := by
  have hrole : s.vocabulary.roleOf t = .other := by
    rw [hs]
    exact h.roleOf_eq d
  have hnil : s.factors source level parent t = [] := by
    simp [Scorer.factors, hrole, Role.isControl, Role.nests]
  obtain ⟨info, htype, hfield⟩ := h
  rw [s.charges_node source (by simp [hrole]), hnil]
  rfl

theorem Commented.charges_eq {ρ : Nat → Nat → Prop} {d : Dialect} {s : Scorer}
    (hs : s.vocabulary = d.vocabulary) {t u p q : Tree} (hp : Commented ρ p q)
    (h : Commented ρ t u) (source : ByteArray) (level : Nat) :
    s.charges source level p t = s.charges source level q u := by
  induction t using Tree.induct generalizing u p q level with
  | missing =>
    cases h
    rfl
  | node info cs ih =>
    by_cases hf : s.vocabulary.roleOf (.node info cs) = .function
    · rw [s.charges_of_function source hf, s.charges_of_function source (h.roleOf_eq _ ▸ hf)]
    · obtain ⟨info', ds, rfl⟩ := h.exists_node
      rw [s.charges_node source hf, s.charges_node source (h.roleOf_eq _ ▸ hf),
        hp.factors_eq h, hp.opensLevel_eq h]
      congr 1
      -- Both nodes open a level or neither does, so the children are compared at the same level.
      exact h.children.flatMap_eq (fun c hc c' hcc' => ih c hc h hcc' _)
        fun c hc => hc.charges_eq hs source _ _

namespace Commented

variable {ρ : Nat → Nat → Prop} {t u : Tree}

/-! ## Names -/

open Declarator

/-- A comment leads to no name. -/
theorem inner (h : Commented ρ t u) : Commented ρ (inner t) (inner u) := by
  simp only [Declarator.inner, (h.child "declarator").isMissing_eq]
  split
  · apply h.namedChildren.getD_find? _ _ .missing
    · intro c c' hc
      rw [hc.type_eq]
    · intro c hc
      rw [hc.type_eq]
      decide
  · exact h.child "declarator"

theorem isName_eq (h : Commented ρ t u) : isName t = isName u := by
  rw [isName, h.type_eq, isName]

theorem isScoped_eq (h : Commented ρ t u) : isScoped t = isScoped u := by
  rw [isScoped, h.type_eq, isScoped]

theorem name?_eq (h : Commented ρ t u) (source : ByteArray) : name? source t = name? source u := by
  induction t using size_induct generalizing u with
  | h t ih =>
    rw [Declarator.name?_eq source t, Declarator.name?_eq source u, ← h.isMissing_eq, ← h.isName_eq,
      ← h.isScoped_eq, ← h.text_eq source]
    cases hm : t.isMissing with
    | true => rfl
    | false =>
      rw [ih _ (size_child_lt_of_present hm "name") (h.child "name"),
        ih _ (size_inner_lt_of_present hm) h.inner]

theorem ownName_eq (h : Commented ρ t u) (d : Dialect) (source : ByteArray) :
    d.ownName source t = d.ownName source u := by
  cases d with
  | python => simp only [Dialect.ownName, Dialect.definitionName, (h.child "name").text_eq source]
  | cpp =>
    have hdeclarator := h.child "declarator"
    simp only [Dialect.ownName, Dialect.definitionName, hdeclarator.isMissing_eq,
      hdeclarator.name?_eq source]

/-! ## Outlines -/

open Outline

theorem gate (h : Commented ρ t u) (d : Dialect) : Commented ρ (gate d t) (gate d u) := by
  have hfunction := h.asFunction d.vocabulary
  simp only [Outline.gate, hfunction.isMissing_eq]
  split
  · exact h
  · exact hfunction

theorem caption?_eq (h : Commented ρ t u) (d : Dialect) (source : ByteArray) :
    caption? d source t = caption? d source u := by
  have hfunction := h.asFunction d.vocabulary
  simp only [caption?, hfunction.isMissing_eq, hfunction.ownName_eq d source]

end Commented

theorem IsComment.listing_eq {t : Tree} (h : IsComment t) (d : Dialect) (source : ByteArray)
    (scope : List String) : Outline.listing d source scope t = [] := by
  have hnone : d.vocabulary.asFunction t = .missing := by
    rw [d.vocabulary.asFunction_of_not_wraps (h.wraps_eq d), if_neg (by simp [h.roleOf_eq d])]
  have hgate : Outline.gate d t = t := Outline.gate_of_not_wraps d (h.wraps_eq d)
  rw [Outline.listing_eq, Outline.findings, hgate, h.children_eq, Outline.caption?, hnone]
  rfl

/-- The same definition in both trees, with the same names around it and of its own. -/
def SameDefinition (ρ : Nat → Nat → Prop) (e f : Definition) : Prop :=
  Commented ρ e.node f.node ∧ e.path = f.path

theorem Commented.listing {ρ : Nat → Nat → Prop} {t u : Tree} (h : Commented ρ t u) (d : Dialect)
    (source : ByteArray) (scope : List String) :
    Interspersed (SameDefinition ρ) (fun _ => False) (Outline.listing d source scope t)
      (Outline.listing d source scope u) := by
  induction t using Outline.search_induct d generalizing u scope with
  | h t ih =>
    rw [Outline.listing_eq, Outline.listing_eq, Outline.findings, Outline.findings,
      ← h.caption?_eq d source]
    apply Interspersed.append
    · cases Outline.caption? d source t with
      | none => exact .nil
      | some n => exact .keep ⟨h.gate d, rfl⟩ .nil
    -- The search goes on below the definition that a wrapper leads to, not below the wrapper.
    · apply (h.gate d).children.flatMap
      · intro c hc c' hcc'
        exact ih c hc hcc' _
      · intro c hc e he
        rw [hc.listing_eq d source] at he
        cases he

/-! ## Places -/

/-- The same place in both trees. -/
structure Corresponds (ρ : Nat → Nat → Prop) (p q : Placed) : Prop where
  parent : Commented ρ p.parent q.parent
  node : Commented ρ p.node q.node

theorem placesBelowAll_eq (parent : Tree) (cs : List Tree) :
    placesBelowAll parent cs = cs.flatMap (placesBelow parent) := by
  induction cs with
  | nil => rfl
  | cons c cs ih => rw [placesBelowAll, List.flatMap_cons, ih]

theorem Commented.placesBelow {ρ : Nat → Nat → Prop} {t u p q : Tree} (hp : Commented ρ p q)
    (h : Commented ρ t u) :
    Interspersed (Corresponds ρ) (fun r => IsComment r.node) (placesBelow p t)
      (placesBelow q u) := by
  induction t using Tree.induct generalizing u p q with
  | missing =>
    cases h
    exact .keep ⟨hp, .missing⟩ .nil
  | node info cs ih =>
    obtain ⟨info', ds, rfl⟩ := h.exists_node
    rw [Tree.placesBelow, Tree.placesBelow, placesBelowAll_eq, placesBelowAll_eq]
    refine .keep ⟨hp, h⟩ (h.children.flatMap (fun c hc c' hcc' => ih c hc h hcc') ?_)
    intro c hc r hr
    obtain ⟨info, htype, hfield⟩ := hc
    obtain rfl := List.mem_singleton.mp hr
    exact ⟨info, htype, hfield⟩

theorem Corresponds.bodyOf {ρ : Nat → Nat → Prop} {p q : Placed} (h : Corresponds ρ p q)
    (s : Scorer) : Corresponds ρ (s.bodyOf p) (s.bodyOf q) := by
  have hfunction := h.node.asFunction s.vocabulary
  simp only [Scorer.bodyOf, hfunction.isMissing_eq]
  split
  · exact h
  · exact ⟨hfunction, hfunction.child _⟩

/-- When comments are put into a tree, the places that it had stay, in order, and the others are
those of the comments. At a place that stays, the score is the same and the same definitions are
found, in the same order and with the same names. -/
theorem comments_change_nothing (d : Dialect) (ρ : Nat → Nat → Prop) (t u : Tree)
    (h : Commented ρ t u) :
    Interspersed (Corresponds ρ) (fun r => IsComment r.node) t.places u.places ∧
      ∀ p q, Corresponds ρ p q →
        (∀ (countOperators : Bool) (text : String),
          (Scorer.score ⟨d.vocabulary, countOperators⟩ text p).value =
            (Scorer.score ⟨d.vocabulary, countOperators⟩ text q).value) ∧
        ∀ source : ByteArray, List.Forall₂ (SameDefinition ρ)
          (Outline.definitions d source p.node).value
          (Outline.definitions d source q.node).value := by
  refine ⟨Commented.placesBelow .missing h, fun p q hpq => ⟨?_, ?_⟩⟩
  · intro countOperators text
    have hbody := hpq.bodyOf ⟨d.vocabulary, countOperators⟩
    rw [Scorer.score_value, Scorer.score_value, hbody.parent.charges_eq rfl hbody.node]
  · intro source
    exact (hpq.node.listing d source []).forall₂ fun _ _ => id

/-- A function that returns a reference and holds an else-if. -/
def bareFunction : Tree :=
  .node { id := 0, type := "function_definition" }
    [.node { id := 1, type := "reference_declarator", field := some "declarator" }
        [.node { id := 2, type := "identifier", endByte := 1 } []],
      .node { id := 3, type := "compound_statement", field := some "body" }
        [.node { id := 4, type := "if_statement" }
          [.node { id := 5, type := "else_clause" }
            [.node { id := 6, type := "if_statement" } []]]]]

/-- The same function with comments in front of its name, of the inner `if` and at its end. -/
def commentedFunction : Tree :=
  .node { id := 0, type := "function_definition" }
    [.node { id := 1, type := "reference_declarator", field := some "declarator" }
        [.node { id := 2, type := "comment" } [],
          .node { id := 3, type := "identifier", endByte := 1 } []],
      .node { id := 4, type := "compound_statement", field := some "body" }
        [.node { id := 5, type := "if_statement" }
          [.node { id := 6, type := "else_clause" }
            [.node { id := 7, type := "comment" } [],
              .node { id := 8, type := "if_statement" } []]],
        .node { id := 9, type := "comment" } []]]

/-- Where the nodes of the bare function are found. -/
def renumbered (m n : Nat) : Prop :=
  (m, n) ∈ [(0, 0), (1, 1), (2, 3), (3, 4), (4, 5), (5, 6), (6, 8)]

instance : DecidableRel renumbered :=
  fun _ _ => inferInstanceAs (Decidable (_ ∈ _))

theorem commented_sample : Commented renumbered bareFunction commentedFunction := by
  have hcomment (n : Nat) : IsComment (.node { id := n, type := "comment" } []) := ⟨_, rfl, rfl⟩
  refine .node 0 (by decide) (.keep ?declarator (.keep ?body .nil))
  case declarator =>
    exact .node 1 (by decide) (.insert (hcomment 2) (.keep (.node 3 (by decide) .nil) .nil))
  case body =>
    refine .node 4 (by decide) (.keep (.node 5 (by decide) (.keep ?_ .nil)) ?_)
    · exact .node 6 (by decide) (.insert (hcomment 7) (.keep (.node 8 (by decide) .nil) .nil))
    · exact .insert (hcomment 9) .nil

theorem comments_change_nothing_sample :
    let scorer : Scorer := ⟨Dialect.cpp.vocabulary, true⟩
    Commented renumbered bareFunction commentedFunction ∧
      (scorer.score "f" ⟨.missing, commentedFunction⟩).value.total = 2 ∧
      List.Forall₂ (SameDefinition renumbered)
        (Outline.definitions .cpp "f".toUTF8 bareFunction).value
        (Outline.definitions .cpp "f".toUTF8 commentedFunction).value := by
  intro scorer
  obtain ⟨-, hsame⟩ := comments_change_nothing .cpp renumbered _ _ commented_sample
  obtain ⟨hscore, hdefinitions⟩ :=
    hsame ⟨.missing, bareFunction⟩ ⟨.missing, commentedFunction⟩ ⟨.missing, commented_sample⟩
  refine ⟨commented_sample, ?_, hdefinitions _⟩
  rw [← hscore true "f"]
  decide +kernel

end Tree

end CognitiveLoad
