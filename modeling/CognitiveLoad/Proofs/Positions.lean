import CognitiveLoad.Proofs.Declarators

/-!
Where the name of a declarator is read from. A search for the name goes down from node to node, and
the edges on its way tell whether it stays with what is declared: an edge does so if it leads to the
next declarator, to the name in a qualified or template name, or to a child that is in no field.

* `name?_eq_some_iff`: a name is found exactly where such a search ends;
* `inPosition_iff`: an edge leaves the declared name exactly if the search, for want of a next
  declarator, takes the first child that it can take and this child is in some other field;
* `declared_name_position`: this is so on every edge of a search, and an array without a name is
  called by its size.
-/

namespace CognitiveLoad

namespace Tree

/-- The field of a node in its parent. -/
def field? : Tree → Option String
  | missing => none
  | node info _ => info.field

theorem hasField_iff {t : Tree} {f : String} : t.hasField f = true ↔ t.field? = some f := by
  cases t with
  | missing => simp [hasField, field?]
  | node info cs => simp [hasField, field?]

theorem hasField_child {t : Tree} {f : String} (h : (t.child f).isMissing = false) :
    (t.child f).hasField f = true := by
  unfold child at h ⊢
  cases hfind : t.children.find? (hasField f) with
  | none =>
    rw [hfind] at h
    cases h
  | some c => exact List.find?_some hfind

theorem isMissing_child_iff {t : Tree} {f : String} :
    (t.child f).isMissing = true ↔ ∀ u ∈ t.children, u.hasField f = false := by
  unfold child
  cases hfind : t.children.find? (hasField f) with
  | none =>
    simp only [Option.getD_none, isMissing, true_iff]
    intro u hu
    simpa using List.find?_eq_none.mp hfind u hu
  | some c =>
    have hfield := List.find?_some hfind
    have hmem := List.mem_of_find?_eq_some hfind
    have hpresent : c.isMissing = false := by
      cases c with
      | missing => cases hfield
      | node info cs => rfl
    simp only [Option.getD_some, hpresent, Bool.false_eq_true, false_iff]
    intro hall
    rw [hall c hmem] at hfield
    cases hfield

/-- A way down a tree by its edges, each a node and one of its children. -/
inductive Route : Tree → List (Tree × Tree) → Tree → Prop
  | here (t : Tree) : Route t [] t
  | down {t c x : Tree} {edges : List (Tree × Tree)} (hc : c ∈ t.children)
      (h : Route c edges x) : Route t ((t, c) :: edges) x

end Tree

namespace Declarator

/-! ## The way of a search -/

/-- Where the search goes on from a node that is no name. -/
def next (t : Tree) : Tree :=
  if isScoped t then t.child "name" else inner t

/-- The search from a node ends at a name, with the edges on its way. -/
inductive Finds : Tree → List (Tree × Tree) → Tree → Prop
  | name {t : Tree} (h : isName t = true) : Finds t [] t
  | next {t x : Tree} {edges : List (Tree × Tree)} (ht : isName t = false)
      (h : Finds (next t) edges x) : Finds t ((t, next t) :: edges) x

theorem next_missing : next .missing = .missing := rfl

theorem Finds.present {t x : Tree} {edges : List (Tree × Tree)} (h : Finds t edges x) :
    t.isMissing = false := by
  cases t with
  | node info cs => rfl
  | missing =>
    -- from an empty position the search goes nowhere else, so it meets no name
    generalize hm : Tree.missing = m at h
    induction h with
    | name h =>
      subst hm
      cases h
    | next ht h ih =>
      subst hm
      exact ih next_missing.symm

theorem next_eq_missing_or_mem (t : Tree) : next t = .missing ∨ next t ∈ t.children := by
  unfold next
  split
  · exact t.child_eq_missing_or_mem "name"
  · exact inner_eq_missing_or_mem t

theorem size_next_lt {t : Tree} (h : t.isMissing = false) : (next t).size < t.size := by
  unfold next
  split
  · exact Tree.size_child_lt_of_present h "name"
  · exact size_inner_lt_of_present h

/-- The edges of a search lead down the tree. -/
theorem Finds.route {t x : Tree} {edges : List (Tree × Tree)} (h : Finds t edges x) :
    Tree.Route t edges x ∧ isName x = true := by
  induction h with
  | name h => exact ⟨.here _, h⟩
  | @next t x edges ht h ih =>
    have hpresent := h.present
    rcases next_eq_missing_or_mem t with hmissing | hmem
    · rw [hmissing] at hpresent
      cases hpresent
    · exact ⟨.down hmem ih.1, ih.2⟩

/-- There is no choice on the way. -/
theorem Finds.unique {t x x' : Tree} {edges edges' : List (Tree × Tree)} (h : Finds t edges x)
    (h' : Finds t edges' x') : edges' = edges ∧ x' = x := by
  induction h generalizing edges' x' with
  | name h =>
    cases h' with
    | name => exact ⟨rfl, rfl⟩
    | next ht => exact absurd h (by simp [ht])
  | next ht h ih =>
    cases h' with
    | name hn => exact absurd hn (by simp [ht])
    | next _ h' =>
      obtain ⟨rfl, rfl⟩ := ih h'
      exact ⟨rfl, rfl⟩

variable (source : ByteArray)

theorem name?_eq_next (t : Tree) :
    name? source t =
      if t.isMissing then none
      else if isName t then nonempty? (t.text source)
      else name? source (next t) := by
  rw [name?_eq, next]
  cases isScoped t <;> rfl

theorem nonempty?_eq_some {s n : String} : nonempty? s = some n ↔ s = n ∧ n ≠ "" := by
  unfold nonempty?
  split
  · rename_i hempty
    refine ⟨fun h => (by cases h), ?_⟩
    rintro ⟨rfl, hne⟩
    exact absurd hempty hne
  · rename_i hne
    rw [Option.some.injEq]
    refine ⟨?_, And.left⟩
    rintro rfl
    exact ⟨rfl, hne⟩

/-- What is found is the text of the name at which the search ends, if it is not empty. -/
theorem name?_eq_some_iff (t : Tree) (n : String) :
    name? source t = some n ↔ ∃ edges x, Finds t edges x ∧ x.text source = n ∧ n ≠ "" := by
  constructor
  · intro h
    induction hk : t.size using Nat.strongRecOn generalizing t with
    | _ k ih =>
      rw [name?_eq_next] at h
      cases hm : t.isMissing with
      | true => simp [hm] at h
      | false =>
        cases hn : isName t with
        | true =>
          simp only [hm, hn, if_true, Bool.false_eq_true, if_false] at h
          exact ⟨[], t, .name hn, nonempty?_eq_some.mp h⟩
        | false =>
          simp only [hm, hn, Bool.false_eq_true, if_false] at h
          obtain ⟨edges, x, hfinds, htext⟩ := ih _ (hk ▸ size_next_lt hm) (next t) h rfl
          exact ⟨_, x, .next hn hfinds, htext⟩
  · rintro ⟨edges, x, hfinds, htext⟩
    induction hfinds with
    | @name t h =>
      have hpresent := (Finds.name h).present
      rw [name?_eq_next, hpresent, h]
      exact nonempty?_eq_some.mpr htext
    | @next t x edges ht h ih =>
      have hpresent := (Finds.next ht h).present
      rw [name?_eq_next, hpresent, ht]
      exact ih htext

/-! ## Edges -/

/-- An edge that stays with the declared name. -/
def InPosition (t c : Tree) : Prop :=
  c.hasField "declarator" = true ∨ (isScoped t = true ∧ c.hasField "name" = true) ∨
    c.field? = none

/-- An edge to a child in some field, taken for want of a next declarator because the child is the
first that can lead to a name. -/
structure Strays (t c : Tree) : Prop where
  unscoped : isScoped t = false
  without : ∀ u ∈ t.children, u.hasField "declarator" = false
  first : t.namedChildren.find? (fun u => !besideName.contains u.type) = some c
  labelled : c.field?.isSome = true

/-- Every edge that a search takes is in position unless it strays. -/
theorem inPosition_iff {t : Tree} (h : (next t).isMissing = false) :
    InPosition t (next t) ↔ ¬ Strays t (next t) := by
  cases hs : isScoped t with
  | true =>
    have hnext : next t = t.child "name" := by simp [next, hs]
    rw [hnext] at h ⊢
    have hfield := Tree.hasField_child h
    refine ⟨fun _ hstrays => ?_, fun _ => .inr (.inl ⟨hs, hfield⟩)⟩
    cases hs.symm.trans hstrays.unscoped
  | false =>
    have hnext : next t = inner t := by simp [next, hs]
    rw [hnext] at h ⊢
    cases hd : (t.child "declarator").isMissing with
    | false =>
      have hfield := Tree.hasField_child hd
      rw [inner_of_labelled hd]
      refine ⟨fun _ hstrays => ?_, fun _ => .inl hfield⟩
      have hnone := Tree.isMissing_child_iff.mpr hstrays.without
      cases hd.symm.trans hnone
    | true =>
      have hwithout := Tree.isMissing_child_iff.mp hd
      have hfirst : t.namedChildren.find? (fun u => !besideName.contains u.type) =
          some (inner t) := by
        unfold inner at h ⊢
        simp only [hd, if_true] at h ⊢
        cases hfind : t.namedChildren.find? (fun u => !besideName.contains u.type) with
        | none =>
          rw [hfind] at h
          cases h
        | some c => rfl
      have hmem : inner t ∈ t.children :=
        (List.mem_filter.mp (List.mem_of_find?_eq_some hfirst)).1
      constructor
      · rintro (hfield | ⟨hscoped, -⟩ | hnone) hstrays
        · cases (hwithout _ hmem).symm.trans hfield
        · cases hs.symm.trans hscoped
        · have hsome := hstrays.labelled
          rw [hnone] at hsome
          cases hsome
      · intro hnot
        refine .inr (.inr ?_)
        cases hfield : (inner t).field? with
        | none => rfl
        | some f => exact absurd ⟨hs, hwithout, hfirst, by rw [hfield]; rfl⟩ hnot

theorem Finds.inPosition_iff {t x : Tree} {edges : List (Tree × Tree)} (h : Finds t edges x) :
    ∀ e ∈ edges, InPosition e.1 e.2 ↔ ¬ Strays e.1 e.2 := by
  induction h with
  | name h => simp
  | @next t x edges ht h ih =>
    intro e he
    rcases List.mem_cons.mp he with rfl | he
    · exact Declarator.inPosition_iff h.present
    · exact ih e he

/-! ## Arrays without a name -/

/-- The declarator of an array without a name, which holds an expression for its size and nothing
else. -/
structure IsSized (t size : Tree) : Prop where
  type : t.type = "abstract_array_declarator"
  only : t.namedChildren = [size]
  field : size.hasField "size" = true
  expression : besideName.contains size.type = false
  without : ∀ c ∈ t.children, c.hasField "declarator" = false

theorem IsSized.strays {t size : Tree} (h : IsSized t size) : Strays t size where
  unscoped := by
    rw [isScoped, h.type]
    decide
  without := h.without
  first := by
    rw [h.only, List.find?_cons, h.expression]
    rfl
  labelled := by
    rw [Tree.hasField_iff.mp h.field]
    rfl

/-- The search goes on into the size. -/
theorem IsSized.name?_eq {t size : Tree} (h : IsSized t size) :
    name? source t = name? source size := by
  have hpresent : t.isMissing = false := by
    cases t with
    | missing => exact absurd h.type (by decide)
    | node info cs => rfl
  have hname : isName t = false := by
    rw [isName, h.type]
    decide
  have hnext : next t = size := by
    have hnone := Tree.isMissing_child_iff.mpr h.without
    simp only [next, h.strays.unscoped, inner, hnone, h.strays.first]
    rfl
  rw [name?_eq_next, hpresent, hname, hnext]
  rfl

/-- **Where a declared name is read.** Take any tree.

* A name is found exactly if the search ends at a name node with a text, and it is that text.
* The way of the search is one way down the tree. Each edge of it leads to a declarator, to the name
  in a qualified or template name or to a child in no field, unless it strays: for want of a
  declarator the first child is taken that can lead to a name, and this child is in a field.
* An array without a name strays at once, and is called as its size is. -/
theorem declared_name_position (source : ByteArray) (t : Tree) :
    (∀ n, name? source t = some n ↔ ∃ edges x, Finds t edges x ∧ x.text source = n ∧ n ≠ "") ∧
      (∀ edges x, Finds t edges x →
        Tree.Route t edges x ∧ isName x = true ∧
        (∀ edges' x', Finds t edges' x' → edges' = edges ∧ x' = x) ∧
        ∀ e ∈ edges, InPosition e.1 e.2 ↔ ¬ Strays e.1 e.2) ∧
      ∀ size, IsSized t size → Strays t size ∧ name? source t = name? source size := by
  refine ⟨name?_eq_some_iff source t, ?_, ?_⟩
  · intro edges x h
    obtain ⟨hroute, hname⟩ := h.route
    exact ⟨hroute, hname, fun edges' x' h' => h.unique h', h.inPosition_iff⟩
  · intro size h
    exact ⟨h.strays, h.name?_eq source⟩

/-- The size in the array below. -/
def arraySize : Tree :=
  .node { type := "identifier", field := some "size", startByte := 1, endByte := 2 } []

/-- The declarator `[N]` of a parameter. -/
def sizedArray : Tree :=
  .node { type := "abstract_array_declarator", field := some "declarator", endByte := 3 }
    [.node { type := "[", named := false, endByte := 1 } [], arraySize,
      .node { type := "]", named := false, startByte := 2, endByte := 3 } []]

/-- A function with such a parameter only. -/
def sizedFunction : Tree :=
  .node { type := "function_definition", endByte := 4 }
    [.node { type := "function_declarator", field := some "declarator", endByte := 4 }
      [.node { type := "identifier", field := some "declarator", startByte := 3, endByte := 4 } [],
        .node { type := "parameter_list", field := some "parameters", endByte := 3 }
          [namedEntry sizedArray]]]

theorem declared_name_position_sized :
    let source := "[N]f".toUTF8
    Finds sizedArray [(sizedArray, arraySize)] arraySize ∧ Strays sizedArray arraySize ∧
      ¬ InPosition sizedArray arraySize ∧ name? source sizedArray = some "N" ∧
      Dialect.cpp.parameters source sizedFunction = ["N"] := by
  intro source
  have hsized : IsSized sizedArray arraySize := ⟨rfl, rfl, rfl, by decide, by decide⟩
  have hfinds : Finds sizedArray [(sizedArray, arraySize)] arraySize := .next rfl (.name rfl)
  obtain ⟨-, hway, harray⟩ := declared_name_position source sizedArray
  obtain ⟨hstrays, hname⟩ := harray arraySize hsized
  obtain ⟨-, -, -, hedges⟩ := hway _ _ hfinds
  refine ⟨hfinds, hstrays, fun hposition => ?_, hname.trans (by decide +kernel), by decide +kernel⟩
  exact (hedges _ (List.mem_singleton.mpr rfl)).mp hposition hstrays

end Declarator

end CognitiveLoad
