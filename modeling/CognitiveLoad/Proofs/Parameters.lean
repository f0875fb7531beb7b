import CognitiveLoad.Proofs.Comments

/-!
Parameter lists and comments. In the C family a parameter list stays the same whatever comments are
put in. In the other dialect a wrapped parameter is called by its first named child, and a comment
is one.

* `parameterNode_eq`: one step of the search for the identifier of a parameter;
* `CutOff.parameterNode_eq`, `Commented.parameterNode`: a comment that comes first in a wrapper
  ends the search, and any other is passed by;
* `comment_cuts_off_name`: so a list loses exactly the names that a comment cuts off.
-/

namespace CognitiveLoad

namespace Interspersed

variable {α β γ : Type} {R : α → β → Prop} {P : β → Prop} {as : List α} {bs : List β}

theorem headD (h : Interspersed R P as bs) {a₀ : α} {b₀ : β} (h₀ : R a₀ b₀) :
    R (as.headD a₀) (bs.headD b₀) ∨ P (bs.headD b₀) := by
  cases h with
  | nil => exact .inl h₀
  | keep h _ => exact .inl h
  | insert h _ => exact .inr h

theorem filterMap_eq {f : α → Option γ} {g : β → Option γ} (h : Interspersed R P as bs)
    (hR : ∀ a b, R a b → f a = g b) (hP : ∀ b, P b → g b = none) :
    as.filterMap f = bs.filterMap g := by
  rw [List.filterMap_eq_flatMap_toList, List.filterMap_eq_flatMap_toList]
  apply h.flatMap_eq
  · intro a _ b hab
    rw [hR a b hab]
  · intro b hb
    rw [hP b hb]
    rfl

/-- Where the further elements add nothing, they can be left out. -/
theorem exists_kept {g : β → Option γ} (h : Interspersed R P as bs) (hP : ∀ b, P b → g b = none) :
    ∃ kept : List β, kept.Sublist bs ∧ List.Forall₂ R as kept ∧
      bs.filterMap g = kept.filterMap g := by
  induction h with
  | nil => exact ⟨[], .slnil, .nil, rfl⟩
  | @keep a b as bs h _ ih =>
    obtain ⟨kept, hsub, hkept, heq⟩ := ih
    refine ⟨b :: kept, hsub.cons_cons b, .cons h hkept, ?_⟩
    rw [List.filterMap_cons, List.filterMap_cons, heq]
  | @insert b as bs h _ ih =>
    obtain ⟨kept, hsub, hkept, heq⟩ := ih
    exact ⟨kept, hsub.cons b, hkept, by rw [List.filterMap_cons_none (hP b h), heq]⟩

end Interspersed

namespace Tree

/-! ## Lists of the C family -/

theorem Commented.parametersFrom {ρ : Nat → Nat → Prop} {t u before before' : Tree}
    (h : Commented ρ t u) (hbefore : Commented ρ before before') :
    Commented ρ (Declarator.parametersFrom before t) (Declarator.parametersFrom before' u) := by
  induction t using size_induct generalizing u before before' with
  | h t ih =>
    have hfound : Commented ρ (Declarator.found before t) (Declarator.found before' u) := by
      simp only [Declarator.found, h.type_eq]
      split
      · exact h.child "parameters"
      · exact hbefore
    rw [Declarator.parametersFrom_eq before t, Declarator.parametersFrom_eq before' u,
      ← h.isMissing_eq, ← h.isName_eq, ← h.isScoped_eq]
    split
    · exact hbefore
    next hm =>
      split
      · exact hfound
      · exact ih _ (Declarator.size_inner_lt_of_present (by simpa using hm)) h.inner hfound

theorem Commented.declaredParameters_eq {ρ : Nat → Nat → Prop} {t u : Tree} (h : Commented ρ t u)
    (source : ByteArray) : Dialect.cpp.parameters source t = Dialect.cpp.parameters source u := by
  have hlist : Commented ρ (Declarator.parameters (t.child "declarator"))
      (Declarator.parameters (u.child "declarator")) :=
    (h.child "declarator").parametersFrom .missing
  apply hlist.namedChildren.filterMap_eq
  · intro p q hpq
    rw [hpq.type_eq, (hpq.child "declarator").name?_eq source]
  · intro q hq
    rw [hq.type_eq]
    rfl

/-- The first named child. -/
def first (t : Tree) : Tree :=
  t.namedChildren.headD .missing

theorem size_first_lt {t : Tree} (h : t.isMissing = false) : t.first.size < t.size := by
  cases t with
  | missing => cases h
  | node info cs =>
    rw [first]
    cases hn : (Tree.node info cs).namedChildren with
    | nil => simp [size]
    | cons c rest =>
      have hmem : c ∈ (Tree.node info cs).children :=
        List.mem_of_mem_filter (hn ▸ List.mem_cons_self ..)
      have := size_le_sizeAll hmem
      simp only [children] at this
      simp only [List.headD_cons, size]
      omega

end Tree

namespace Dialect

open CognitiveLoad.Tree

/-! ## The identifier of a parameter -/

theorem descends_parameterNodeWithin : Descends parameterNodeWithin := by
  intro t
  by_cases hid : t.type = "identifier"
  · exact .inl fun m n => by simp [parameterNodeWithin, hid]
  · cases hn : namedParameterTypes.contains t.type with
    | true =>
      exact .inr ⟨t.child "name", id,
        size_child_lt_of_present (isMissing_of_type_mem hn (by decide)) "name",
        fun n => by simp only [parameterNodeWithin, hid, hn, reduceIte, id]⟩
    | false =>
      cases hw : wrappedParameterTypes.contains t.type with
      | true =>
        exact .inr ⟨t.first, id, size_first_lt (isMissing_of_type_mem hw (by decide)),
          fun n => by
            simp only [parameterNodeWithin, hid, hn, hw, first, Bool.false_eq_true, reduceIte, id]⟩
      | false =>
        exact .inl fun m n => by
          simp only [parameterNodeWithin, hid, hn, hw, Bool.false_eq_true, reduceIte]

theorem parameterNode_eq (t : Tree) :
    parameterNode t =
      if t.type = "identifier" then t
      else if namedParameterTypes.contains t.type then parameterNode (t.child "name")
      else if wrappedParameterTypes.contains t.type then parameterNode t.first
      else .missing := by
  obtain ⟨n, hn, hless⟩ := descends_parameterNodeWithin.first t
  rw [parameterNode, hn, parameterNodeWithin]
  split
  · rfl
  · split
    next hnamed =>
      exact hless _ (size_child_lt_of_present (isMissing_of_type_mem hnamed (by decide)) "name")
    next =>
      split
      next hwrapped => exact hless _ (size_first_lt (isMissing_of_type_mem hwrapped (by decide)))
      next => rfl

/-- A parameter whose name a comment cuts off: on the way to its identifier a wrapper has a comment
as its first named child. -/
inductive CutOff : Tree → Prop
  | here {t : Tree} (ht : wrappedParameterTypes.contains t.type = true)
      (hfirst : t.first.type = "comment") : CutOff t
  | named {t : Tree} (ht : namedParameterTypes.contains t.type = true)
      (h : CutOff (t.child "name")) : CutOff t
  | wrapped {t : Tree} (ht : wrappedParameterTypes.contains t.type = true) (h : CutOff t.first) :
      CutOff t

theorem parameterNode_of_named {t : Tree} (h : namedParameterTypes.contains t.type = true) :
    parameterNode t = parameterNode (t.child "name") := by
  have hall : ∀ x ∈ namedParameterTypes, x ≠ "identifier" := by decide
  rw [parameterNode_eq, if_neg (hall _ (List.contains_iff_mem.mp h)), if_pos h]

theorem parameterNode_of_wrapped {t : Tree} (h : wrappedParameterTypes.contains t.type = true) :
    parameterNode t = parameterNode t.first := by
  have hall : ∀ x ∈ wrappedParameterTypes,
      x ≠ "identifier" ∧ ¬ namedParameterTypes.contains x = true := by decide
  obtain ⟨hid, hnamed⟩ := hall _ (List.contains_iff_mem.mp h)
  rw [parameterNode_eq, if_neg hid, if_neg hnamed, if_pos h]

theorem parameterNode_of_comment {t : Tree} (h : t.type = "comment") :
    parameterNode t = .missing := by
  rw [parameterNode_eq, h]
  rfl

theorem CutOff.parameterNode_eq {t : Tree} (h : CutOff t) : parameterNode t = .missing := by
  induction h with
  | here ht hfirst => rw [parameterNode_of_wrapped ht, parameterNode_of_comment hfirst]
  | named ht _ ih => rw [parameterNode_of_named ht, ih]
  | wrapped ht _ ih => rw [parameterNode_of_wrapped ht, ih]

end Dialect

namespace Tree

open Dialect

theorem Commented.parameterNode {ρ : Nat → Nat → Prop} {t u : Tree} (h : Commented ρ t u)
    (hu : ¬ CutOff u) : Commented ρ (parameterNode t) (parameterNode u) := by
  induction t using size_induct generalizing u with
  | h t ih =>
    rw [parameterNode_eq t, parameterNode_eq u, ← h.type_eq]
    split
    · exact h
    · split
      next hnamed =>
        have hless := size_child_lt_of_present (isMissing_of_type_mem hnamed (by decide)) "name"
        exact ih _ hless (h.child "name") fun hc => hu (.named (h.type_eq ▸ hnamed) hc)
      next =>
        split
        next hwrapped =>
          have hwrapped' : wrappedParameterTypes.contains u.type = true := h.type_eq ▸ hwrapped
          -- This step goes by position, so here a comment can come in between.
          rcases h.namedChildren.headD .missing with hfirst | hcomment
          · exact ih _ (size_first_lt (isMissing_of_type_mem hwrapped (by decide))) hfirst
              fun hc => hu (.wrapped hwrapped' hc)
          · exact absurd (.here hwrapped' hcomment.type_eq) hu
        next => exact .missing

end Tree

namespace Dialect

open CognitiveLoad.Tree

/-! ## Names lost and kept -/

/-- The name of a parameter, if it has one. -/
def parameterName? (source : ByteArray) (p : Tree) : Option String :=
  if (parameterNode p).isMissing then none else some ((parameterNode p).text source)

/-- The parameter `q` is `p` with comments put in, and its name is that of `p` unless it is cut
off. -/
structure Survives (ρ : Nat → Nat → Prop) (source : ByteArray) (p q : Tree) : Prop where
  commented : Commented ρ p q
  lost : CutOff q → parameterName? source q = none
  kept : ¬ CutOff q → parameterName? source q = parameterName? source p

theorem survives_of_commented {ρ : Nat → Nat → Prop} {p q : Tree} (h : Commented ρ p q)
    (source : ByteArray) : Survives ρ source p q where
  commented := h
  lost hq := by
    rw [parameterName?, hq.parameterNode_eq]
    rfl
  kept hq := by
    have hnode := h.parameterNode hq
    simp only [parameterName?, hnode.isMissing_eq, hnode.text_eq source]

theorem filterMap_sublist_of_survives {ρ : Nat → Nat → Prop} {source : ByteArray}
    {ps qs : List Tree} (h : List.Forall₂ (Survives ρ source) ps qs) :
    (qs.filterMap (parameterName? source)).Sublist (ps.filterMap (parameterName? source)) := by
  induction h with
  | nil => exact .slnil
  | @cons p q ps qs h _ ih =>
    rw [List.filterMap_cons, List.filterMap_cons]
    by_cases hq : CutOff q
    · rw [h.lost hq]
      cases parameterName? source p with
      | none => exact ih
      | some n => exact ih.cons n
    · rw [h.kept hq]
      cases parameterName? source p with
      | none => exact ih
      | some n => exact ih.cons_cons n

/-- Nothing is lost just if what is cut off had no name before. -/
theorem filterMap_eq_iff_of_survives {ρ : Nat → Nat → Prop} {source : ByteArray}
    {ps qs : List Tree} (h : List.Forall₂ (Survives ρ source) ps qs) :
    qs.filterMap (parameterName? source) = ps.filterMap (parameterName? source) ↔
      List.Forall₂ (fun p q => CutOff q → parameterName? source p = none) ps qs := by
  induction h with
  | nil => simp
  | @cons p q ps qs h hrest ih =>
    rw [List.forall₂_cons, ← ih, List.filterMap_cons, List.filterMap_cons]
    by_cases hq : CutOff q
    · rw [h.lost hq]
      cases parameterName? source p with
      | none => simp
      | some n =>
        -- The name is gone, and the rest cannot make up for it: it has no more names than before.
        have hshort := (filterMap_sublist_of_survives hrest).length_le
        have hne : qs.filterMap (parameterName? source) ≠
            n :: ps.filterMap (parameterName? source) := by
          intro heq
          rw [heq, List.length_cons] at hshort
          omega
        simp [hq, hne]
    · rw [h.kept hq]
      cases parameterName? source p <;> simp [hq]

/-- **Names cut off.** Comments put into a definition change no parameter list of the C family. In
the other dialect the parameters stay, in order, and each keeps its name unless a comment that
comes first in a wrapper cuts it off. The list is the same just if no name was cut off. -/
theorem comment_cuts_off_name (source : ByteArray) (ρ : Nat → Nat → Prop) (t u : Tree)
    (h : Commented ρ t u) :
    Dialect.cpp.parameters source t = Dialect.cpp.parameters source u ∧
      ∃ kept : List Tree, kept.Sublist (u.child "parameters").namedChildren ∧
        List.Forall₂ (Survives ρ source) (t.child "parameters").namedChildren kept ∧
        Dialect.python.parameters source u = kept.filterMap (parameterName? source) ∧
        (Dialect.python.parameters source u = Dialect.python.parameters source t ↔
          List.Forall₂ (fun p q => CutOff q → parameterName? source p = none)
            (t.child "parameters").namedChildren kept) := by
  refine ⟨h.declaredParameters_eq source, ?_⟩
  have hcomment (q : Tree) (hq : IsComment q) : parameterName? source q = none := by
    rw [parameterName?, parameterNode_of_comment hq.type_eq]
    rfl
  obtain ⟨kept, hsub, hkept, heq⟩ := (h.child "parameters").namedChildren.exists_kept hcomment
  have hsurvives : List.Forall₂ (Survives ρ source) (t.child "parameters").namedChildren kept :=
    hkept.imp fun p q hpq => survives_of_commented hpq source
  have hu : Dialect.python.parameters source u = kept.filterMap (parameterName? source) := heq
  refine ⟨kept, hsub, hsurvives, hu, ?_⟩
  rw [hu, ← filterMap_eq_iff_of_survives hsurvives]
  rfl

/-- The identifier in the second parameter below, which takes the other arguments. -/
def splatName : Tree :=
  .node { type := "identifier", startByte := 1, endByte := 2 } []

/-- A definition with a parameter that has a default and one that takes the other arguments. -/
def plainParameters : Tree :=
  .node { type := "function_definition", endByte := 2 }
    [.node { type := "parameters", field := some "parameters", endByte := 2 }
      [.node { type := "default_parameter", endByte := 1 }
          [.node { type := "identifier", field := some "name", endByte := 1 } []],
        .node { type := "list_splat_pattern", startByte := 1, endByte := 2 } [splatName]]]

/-- The same definition with a comment in front of either identifier and one between the
parameters. -/
def commentedParameters : Tree :=
  .node { type := "function_definition", endByte := 2 }
    [.node { type := "parameters", field := some "parameters", endByte := 2 }
      [.node { type := "default_parameter", endByte := 1 }
          [.node { type := "comment" } [],
            .node { type := "identifier", field := some "name", endByte := 1 } []],
        .node { type := "comment" } [],
        .node { type := "list_splat_pattern", startByte := 1, endByte := 2 }
          [.node { type := "comment" } [], splatName]]]

theorem commented_parameters_sample : Commented Eq plainParameters commentedParameters := by
  have hcomment : IsComment (.node { type := "comment" } []) := ⟨_, rfl, rfl⟩
  refine .node 0 rfl (.keep (.node 0 rfl (.keep ?_ (.insert hcomment (.keep ?_ .nil)))) .nil)
  · exact .node 0 rfl (.insert hcomment (.keep (.node 0 rfl .nil) .nil))
  · exact .node 0 rfl (.insert hcomment (.keep (.node 0 rfl .nil) .nil))

/-- The second parameter loses its name, the first one does not. -/
theorem comment_cuts_off_name_sample :
    let source := "ab".toUTF8
    Commented Eq plainParameters commentedParameters ∧
      Dialect.python.parameters source plainParameters = ["a", "b"] ∧
      Dialect.python.parameters source commentedParameters = ["a"] ∧
      ∃ kept : List Tree, kept.Sublist (commentedParameters.child "parameters").namedChildren ∧
        List.Forall₂ (Survives Eq source) (plainParameters.child "parameters").namedChildren kept ∧
        ¬ List.Forall₂ (fun p q => CutOff q → parameterName? source p = none)
          (plainParameters.child "parameters").namedChildren kept := by
  intro source
  have hplain : Dialect.python.parameters source plainParameters = ["a", "b"] := by decide +kernel
  have hcommented : Dialect.python.parameters source commentedParameters = ["a"] := by
    decide +kernel
  obtain ⟨-, kept, hsub, hsurvives, -, hiff⟩ :=
    comment_cuts_off_name source Eq _ _ commented_parameters_sample
  refine ⟨commented_parameters_sample, hplain, hcommented, kept, hsub, hsurvives, fun hnone => ?_⟩
  have hsame := hiff.mpr hnone
  rw [hplain, hcommented] at hsame
  exact absurd hsame (by decide)

end Dialect

end CognitiveLoad
