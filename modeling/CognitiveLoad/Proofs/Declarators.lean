import CognitiveLoad.Dialect

/-!
Declarators of the C family. A declarator is a name under layers of pointers, arrays, parameter
lists, references and parentheses. Two searches go inwards through the layers: one up to the name,
the other with the parameter list of the function declarator that it has met last.

* `name?_eq`, `parametersFrom_eq`: one step of either search;
* `inner_of_labelled`, `inner_of_unlabelled`: where a layer leads to;
* `innermost_function_declares`: the name and the parameters of a definition belong to the same
  function declarator, the innermost one.
-/

namespace CognitiveLoad

namespace Tree

/-- From every tree a search with fuel goes nowhere, or to a smaller tree whose answer it makes its
own by `k`. -/
def Descends {β : Type} (f : Nat → Tree → β) : Prop :=
  ∀ t, (∀ m n, f (m + 1) t = f (n + 1) t) ∨
    ∃ u, ∃ k : β → β, u.size < t.size ∧ ∀ n, f (n + 1) t = k (f n u)

/-- The size of a tree is fuel enough. -/
theorem Descends.eq_of_size_le {β : Type} {f : Nat → Tree → β} (hf : Descends f) (t : Tree)
    {m n : Nat} (hm : t.size ≤ m) (hn : t.size ≤ n) : f m t = f n t := by
  induction m generalizing t n with
  | zero =>
    have := t.size_pos
    omega
  | succ m ih =>
    cases n with
    | zero =>
      have := t.size_pos
      omega
    | succ n =>
      rcases hf t with h | ⟨u, k, hu, h⟩
      · exact h m n
      · have hless : f m u = f n u := ih u (by omega) (by omega)
        rw [h m, h n, hless]

/-- So a search can be taken one step at a time. -/
theorem Descends.first {β : Type} {f : Nat → Tree → β} (hf : Descends f) (t : Tree) :
    ∃ n, t.size = n + 1 ∧ ∀ u : Tree, u.size < t.size → f n u = f u.size u := by
  obtain ⟨n, hn⟩ : ∃ n, t.size = n + 1 := ⟨_, (Nat.succ_pred_eq_of_pos t.size_pos).symm⟩
  exact ⟨n, hn, fun u hu => hf.eq_of_size_le u (by omega) (Nat.le_refl _)⟩

theorem size_child_lt_of_present {t : Tree} (h : t.isMissing = false) (f : String) :
    (t.child f).size < t.size := by
  cases t with
  | missing => cases h
  | node info cs => exact size_child_lt info cs f

theorem isMissing_of_type_mem {t : Tree} {types : List String} (h : types.contains t.type = true)
    (hempty : types.contains "" = false) : t.isMissing = false := by
  cases t with
  | missing => exact absurd (hempty.symm.trans h) (by decide)
  | node info cs => rfl

end Tree

namespace Declarator

variable (source : ByteArray)

/-! ## The two searches -/

theorem size_inner_lt_of_present {t : Tree} (h : t.isMissing = false) :
    (inner t).size < t.size := by
  cases t with
  | missing => cases h
  | node info cs => exact size_inner_lt info cs

theorem descends_nameWithin : Tree.Descends (nameWithin source) := by
  intro t
  cases hm : t.isMissing with
  | true => exact .inl fun m n => by simp [nameWithin, hm]
  | false =>
    cases hn : isName t with
    | true => exact .inl fun m n => by simp [nameWithin, hm, hn]
    | false =>
      cases hs : isScoped t with
      | true =>
        exact .inr ⟨t.child "name", id, Tree.size_child_lt_of_present hm "name",
          fun n => by simp [nameWithin, hm, hn, hs]⟩
      | false =>
        exact .inr ⟨inner t, id, size_inner_lt_of_present hm,
          fun n => by simp [nameWithin, hm, hn, hs]⟩

theorem name?_eq (t : Tree) :
    name? source t =
      if t.isMissing then none
      else if isName t then nonempty? (t.text source)
      else if isScoped t then name? source (t.child "name")
      else name? source (inner t) := by
  obtain ⟨n, hn, hless⟩ := (descends_nameWithin source).first t
  rw [name?, hn, nameWithin]
  cases hm : t.isMissing with
  | true => rfl
  | false =>
    rw [hless _ (Tree.size_child_lt_of_present hm "name"), hless _ (size_inner_lt_of_present hm)]
    rfl

/-- The search for a parameter list from a tree on, with what was found further out. -/
def parametersFrom (found t : Tree) : Tree :=
  parametersWithin t.size found t

/-- A function declarator replaces what was found by its own list, also if it has none. -/
def found (before t : Tree) : Tree :=
  if t.type = "function_declarator" then t.child "parameters" else before

theorem descends_parametersWithin :
    Tree.Descends fun fuel t before => parametersWithin fuel before t := by
  intro t
  cases hm : t.isMissing with
  | true => exact .inl fun m n => by simp [parametersWithin, hm]
  | false =>
    by_cases hc : (isName t || isScoped t) = true
    · exact .inl fun m n => by simp [parametersWithin, hm, hc]
    · exact .inr ⟨inner t, fun answer before => answer (found before t),
        size_inner_lt_of_present hm, fun n => by simp [parametersWithin, hm, hc, found]⟩

theorem parametersFrom_eq (before t : Tree) :
    parametersFrom before t =
      if t.isMissing then before
      else if isName t || isScoped t then found before t
      else parametersFrom (found before t) (inner t) := by
  obtain ⟨n, hn, hless⟩ := descends_parametersWithin.first t
  rw [parametersFrom, hn, parametersWithin]
  cases hm : t.isMissing with
  | true => rfl
  | false =>
    have hinner := congrFun (hless _ (size_inner_lt_of_present hm)) (found before t)
    rw [parametersFrom, ← hinner]
    rfl

/-! ## Layers -/

/-- A node that carries a name: it is the name, or its `name` fields end in one. -/
inductive Carries : Tree → Tree → Prop
  | name {t : Tree} (h : isName t = true) : Carries t t
  | qualified {t n : Tree} (h : isScoped t = true) (hn : Carries (t.child "name") n) : Carries t n

/-- Layers with the next declarator in the `declarator` field. -/
def labelledTypes : List String :=
  ["pointer_declarator", "array_declarator", "function_declarator"]

/-- Layers with the next declarator among their named children. -/
def unlabelledTypes : List String :=
  ["reference_declarator", "parenthesized_declarator"]

/-- Qualifiers, attributes, calling conventions and comments, which may precede a declarator. -/
def modifierTypes : List String :=
  ["type_qualifier", "attribute_specifier", "attribute_declaration", "ms_call_modifier",
    "ms_pointer_modifier", "comment"]

/-- A declarator with its layers, from the outermost inwards, and the name at its core. -/
inductive Layered : Tree → List Tree → Tree → Prop
  | core {t n : Tree} (h : Carries t n) : Layered t [] n
  | labelled {t n : Tree} {layers : List Tree} (ht : t.type ∈ labelledTypes)
      (h : Layered (t.child "declarator") layers n) : Layered t (t :: layers) n
  | unlabelled {t inside n : Tree} {layers : List Tree} (before after : List Tree)
      (ht : t.type ∈ unlabelledTypes) (hchildren : t.children = before ++ inside :: after)
      (hfield : ∀ c ∈ t.children, c.hasField "declarator" = false)
      (hbefore : ∀ c ∈ before, c.isNamed = true → c.type ∈ modifierTypes)
      (hnamed : inside.isNamed = true) (h : Layered inside layers n) : Layered t (t :: layers) n

/-- The types of the nodes at which a declarator can start. -/
def declaratorTypes : List String :=
  nameTypes ++ scopedTypes ++ labelledTypes ++ unlabelledTypes

theorem Layered.type_mem {t n : Tree} {layers : List Tree} (h : Layered t layers n) :
    t.type ∈ declaratorTypes := by
  cases h with
  | core h =>
    cases h with
    | name h => simp_all [declaratorTypes, isName]
    | qualified h hn => simp_all [declaratorTypes, isScoped]
  | labelled ht h => simp_all [declaratorTypes]
  | unlabelled before after ht hchildren hfield hbefore hnamed h => simp_all [declaratorTypes]

theorem Layered.not_beside {t n : Tree} {layers : List Tree} (h : Layered t layers n) :
    besideName.contains t.type = false := by
  have hall : ∀ x ∈ declaratorTypes, besideName.contains x = false := by decide
  exact hall _ h.type_mem

theorem Layered.present {t n : Tree} {layers : List Tree} (h : Layered t layers n) :
    t.isMissing = false :=
  Tree.isMissing_of_type_mem (List.contains_iff_mem.mpr h.type_mem) (by decide)

/-- A layer is no core. -/
theorem not_core_of_layer {t : Tree} (h : t.type ∈ labelledTypes ∨ t.type ∈ unlabelledTypes) :
    isName t = false ∧ isScoped t = false := by
  have hall : ∀ x ∈ labelledTypes ++ unlabelledTypes,
      nameTypes.contains x = false ∧ scopedTypes.contains x = false := by decide
  exact hall _ (List.mem_append.mpr h)

/-! ## Where a layer leads to -/

theorem inner_of_labelled {t : Tree} (h : (t.child "declarator").isMissing = false) :
    inner t = t.child "declarator" := by
  simp [inner, h]

theorem inner_of_unlabelled {t inside : Tree} {before after : List Tree}
    (hchildren : t.children = before ++ inside :: after)
    (hfield : ∀ c ∈ t.children, c.hasField "declarator" = false)
    (hbefore : ∀ c ∈ before, c.isNamed = true → c.type ∈ modifierTypes)
    (hnamed : inside.isNamed = true) (hinside : besideName.contains inside.type = false) :
    inner t = inside := by
  have hmissing : t.child "declarator" = .missing := by
    have hnone : t.children.find? (Tree.hasField "declarator") = none := by
      rw [List.find?_eq_none]
      intro c hc
      simp [hfield c hc]
    rw [Tree.child, hnone]
    rfl
  have hmodifiers : ∀ x ∈ modifierTypes, besideName.contains x = true := by decide
  have hskipped : (before.filter Tree.isNamed).find? (fun c => !besideName.contains c.type) =
      none := by
    rw [List.find?_eq_none]
    intro c hc
    obtain ⟨hc, hn⟩ := List.mem_filter.mp hc
    have hbeside := hmodifiers _ (hbefore c hc hn)
    rw [hbeside]
    decide
  have hfound : t.namedChildren.find? (fun c => !besideName.contains c.type) = some inside := by
    rw [Tree.namedChildren, hchildren, List.filter_append, List.filter_cons_of_pos hnamed,
      List.find?_append, hskipped]
    simp only [List.find?_cons, hinside]
    rfl
  simp only [inner, hmissing, hfound]
  rfl

/-- From a layer both searches go on to the declarator in it. -/
theorem Layered.inwards {t u n : Tree} {layers : List Tree} (h : Layered t (u :: layers) n) :
    u = t ∧ isName t = false ∧ isScoped t = false ∧ Layered (inner t) layers n := by
  cases h with
  | labelled ht h =>
    obtain ⟨hname, hscoped⟩ := not_core_of_layer (.inl ht)
    rw [inner_of_labelled h.present]
    exact ⟨rfl, hname, hscoped, h⟩
  | unlabelled before after ht hchildren hfield hbefore hnamed h =>
    obtain ⟨hname, hscoped⟩ := not_core_of_layer (.inr ht)
    rw [inner_of_unlabelled hchildren hfield hbefore hnamed h.not_beside]
    exact ⟨rfl, hname, hscoped, h⟩

/-! ## What the searches find -/

theorem name?_of_carries {t n : Tree} (h : Carries t n) :
    name? source t = nonempty? (n.text source) := by
  have hpresent := (Layered.core h).present
  induction h with
  | @name t h => simp [name?_eq source t, hpresent, h]
  | @qualified t n h hn ih =>
    have hall : ∀ x ∈ scopedTypes, nameTypes.contains x = false := by decide
    have hname : isName t = false := hall _ (List.contains_iff_mem.mp h)
    rw [name?_eq, hpresent, hname, h]
    exact ih (Layered.core hn).present

/-- The name of a declarator is the one at its core. -/
theorem name?_of_layered {t n : Tree} {layers : List Tree} (h : Layered t layers n) :
    name? source t = nonempty? (n.text source) := by
  induction layers generalizing t with
  | nil =>
    cases h with
    | core h => exact name?_of_carries source h
  | cons u layers ih =>
    obtain ⟨-, hname, hscoped, hinner⟩ := h.inwards
    rw [name?_eq, h.present, hname, hscoped]
    exact ih hinner

/-- The function declarators among layers. -/
def functions (layers : List Tree) : List Tree :=
  layers.filter (·.type = "function_declarator")

theorem getLast?_functions_cons (before t : Tree) (layers : List Tree) :
    ((functions (t :: layers)).getLast?.map (·.child "parameters")).getD before =
      ((functions layers).getLast?.map (·.child "parameters")).getD (found before t) := by
  by_cases ht : t.type = "function_declarator"
  · rw [functions, List.filter_cons_of_pos (by simpa using ht), List.getLast?_cons, found,
      if_pos ht, functions]
    cases (layers.filter (·.type = "function_declarator")).getLast? <;> rfl
  · rw [functions, List.filter_cons_of_neg (by simpa using ht), found, if_neg ht, functions]

theorem found_of_carries {t n : Tree} (h : Carries t n) (before : Tree) :
    found before t = before ∧ (isName t || isScoped t) = true := by
  have hall : ∀ x ∈ nameTypes ++ scopedTypes, x ≠ "function_declarator" := by decide
  cases h with
  | name h =>
    refine ⟨if_neg (hall _ (List.mem_append_left _ (List.contains_iff_mem.mp h))), ?_⟩
    simp [h]
  | qualified h hn =>
    refine ⟨if_neg (hall _ (List.mem_append_right _ (List.contains_iff_mem.mp h))), ?_⟩
    simp [h]

/-- The search for parameters ends with the list of the innermost function declarator, or with none
if that has none. -/
theorem parametersFrom_of_layered {t n : Tree} {layers : List Tree} (h : Layered t layers n)
    (before : Tree) :
    parametersFrom before t =
      ((functions layers).getLast?.map (·.child "parameters")).getD before := by
  induction layers generalizing t before with
  | nil =>
    have hpresent := h.present
    cases h with
    | core h =>
      obtain ⟨hfound, hcore⟩ := found_of_carries h before
      rw [parametersFrom_eq, hpresent, hcore, hfound]
      rfl
  | cons u layers ih =>
    obtain ⟨rfl, hname, hscoped, hinner⟩ := h.inwards
    -- What this layer contributes is what the search has found when it goes on inwards.
    rw [parametersFrom_eq, h.present, hname, hscoped, getLast?_functions_cons]
    exact ih hinner (found before u)

/-- The entries of a parameter list that can have a name. -/
def entries (list : Tree) : List Tree :=
  list.namedChildren.filter (Dialect.declaredParameterTypes.contains ·.type)

theorem parameters_eq_entries (definition : Tree) :
    Dialect.cpp.parameters source definition =
      (entries (parametersFrom .missing (definition.child "declarator"))).filterMap fun e =>
        name? source (e.child "declarator") := by
  rw [entries, List.filterMap_filter]
  rfl

/-- **Innermost function.** Take a definition whose declarator is a name under any layers. It is
called by the text of that name, and its parameters are those that the innermost function
declarator among the layers lists, each called by the name in its own declarator. Without a
function declarator, or if the innermost one has no list, it has none. -/
theorem innermost_function_declares (source : ByteArray) (definition : Tree) (layers : List Tree)
    (n : Tree) (h : Layered (definition.child "declarator") layers n)
    (htext : n.text source ≠ "") :
    (Dialect.cpp.definitionName source definition).value = some (n.text source) ∧
      (Dialect.cpp.parameters source definition =
        match (functions layers).getLast? with
        | none => []
        | some f => (entries (f.child "parameters")).filterMap fun e =>
            name? source (e.child "declarator")) ∧
      ∀ e inside x, Layered (Tree.child e "declarator") inside x → x.text source ≠ "" →
        name? source (e.child "declarator") = some (x.text source) := by
  refine ⟨?_, ?_, ?_⟩
  · rw [Dialect.definitionName, h.present]
    change name? source (definition.child "declarator") = some (n.text source)
    rw [name?_of_layered source h, nonempty?, if_neg htext]
  · rw [parameters_eq_entries, parametersFrom_of_layered h]
    cases (functions layers).getLast? <;> rfl
  · intro e inside x he hx
    rw [name?_of_layered source he, nonempty?, if_neg hx]

/-- An entry of a parameter list. -/
def namedEntry (declarator : Tree) : Tree :=
  .node { type := "parameter_declaration" } [declarator]

/-- The name at the end of the declarator below. -/
def innerName : Tree :=
  .node { type := "identifier", field := some "name", endByte := 1 } []

/-- The inner function of the declarator below, with a reference as its parameter. -/
def innerFunction : Tree :=
  .node { type := "function_declarator", field := some "declarator", endByte := 2 }
    [.node { type := "qualified_identifier", field := some "declarator", endByte := 1 } [innerName],
      .node { type := "parameter_list", field := some "parameters", startByte := 1, endByte := 2 }
        [namedEntry
          (.node
            { type := "reference_declarator", field := some "declarator", startByte := 1,
              endByte := 2 }
            [.node { type := "identifier", startByte := 1, endByte := 2 } []])]]

/-- What the function returns: a pointer to a function, in parentheses with a calling convention. -/
def pointerLayer : Tree :=
  .node { type := "pointer_declarator", endByte := 2 } [innerFunction]

def parenthesesLayer : Tree :=
  .node { type := "parenthesized_declarator", field := some "declarator", endByte := 2 }
    [.node { type := "ms_call_modifier" } [], .node { type := "comment" } [], pointerLayer]

/-- The outer function, whose list does not count. -/
def outerFunction : Tree :=
  .node { type := "function_declarator", field := some "declarator", endByte := 3 }
    [parenthesesLayer,
      .node { type := "parameter_list", field := some "parameters", startByte := 2, endByte := 3 }
        [namedEntry
          (.node { type := "identifier", field := some "declarator", startByte := 2, endByte := 3 }
            [])]]

/-- A function `g` of `x` that returns a pointer to a function of `d`. -/
def pointerReturning : Tree :=
  .node { type := "function_definition", endByte := 3 }
    [.node { type := "primitive_type" } [], outerFunction]

theorem layered_pointerReturning :
    Layered (pointerReturning.child "declarator")
      [outerFunction, parenthesesLayer, pointerLayer, innerFunction] innerName := by
  have hinner : Layered pointerLayer [pointerLayer, innerFunction] innerName :=
    .labelled (by decide) (.labelled (by decide) (.core (.qualified rfl (.name rfl))))
  refine .labelled (by decide) (.unlabelled (parenthesesLayer.children.take 2) [] (by decide) rfl
    (by decide) (by decide) rfl hinner)

theorem innermost_function_declares_pointer :
    let source := "gxd".toUTF8
    Layered (pointerReturning.child "declarator")
        [outerFunction, parenthesesLayer, pointerLayer, innerFunction] innerName ∧
      (Dialect.cpp.definitionName source pointerReturning).value = some "g" ∧
      Dialect.cpp.parameters source pointerReturning = ["x"] := by
  intro source
  obtain ⟨hname, hparameters, -⟩ := innermost_function_declares source pointerReturning _ _
    layered_pointerReturning (by decide +kernel)
  refine ⟨layered_pointerReturning, hname.trans ?_, hparameters.trans ?_⟩
  · decide +kernel
  · decide +kernel

end Declarator

end CognitiveLoad
