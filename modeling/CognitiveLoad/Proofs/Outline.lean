import Mathlib.Data.List.Flatten
import Mathlib.Logic.Relation
import CognitiveLoad.Outline
import CognitiveLoad.Proofs.Descent

/-!
The outline of a tree lists its named definitions. The search keeps an agenda of nodes, each with
the names of the definitions around it; `listing_eq` says what it finds below one node, in terms of
what it finds below the children of that node or of the definition that the node wraps. From this
equation follow, each by induction over the search:

* `map_node_listing_sublist`: definitions come in document order;
* `reaches_of_mem_listing` and `mem_listing_of_reaches`: the listed nodes are the named functions to
  which the search leads (`Follows`);
* `exists_trail_of_mem_listing`: the path of a definition names the functions on its trail.

`definitions_exact` puts them together.
-/

namespace CognitiveLoad

/-! ## Wrappers -/

namespace Vocabulary

variable (v : Vocabulary)

/-- Only wrappers stand between a node and what it unwraps to. -/
theorem exists_unwrap_trail (t : Tree) (h : (v.unwrap t).isMissing = false) :
    ∃ above, ⟨above, v.unwrap t⟩ ∈ t.trails ∧ ∀ u ∈ above, v.wraps u = true := by
  induction t using Tree.induct with
  | missing =>
    rw [unwrap_eq] at h
    cases h
  | node info cs ih =>
    by_cases hw : v.wraps (.node info cs) = true
    · have hu : v.unwrap (.node info cs) = v.unwrap ((Tree.node info cs).child "definition") := by
        rw [unwrap_eq, if_pos hw]
      rw [hu] at h ⊢
      rcases Tree.child_eq_missing_or_mem (.node info cs) "definition" with hc | hc
      · rw [hc, unwrap_eq] at h
        cases h
      · obtain ⟨above, hτ, hall⟩ := ih _ hc h
        refine ⟨above ++ [.node info cs], ?_, ?_⟩
        · rw [Tree.trails_node]
          exact List.mem_cons_of_mem _
            (List.mem_flatMap.mpr ⟨_, hc, List.mem_map.mpr ⟨_, hτ, rfl⟩⟩)
        · intro u hu
          rcases List.mem_append.mp hu with hu | hu
          · exact hall u hu
          · rw [List.mem_singleton.mp hu]
            exact hw
    · rw [unwrap_eq, if_neg hw]
      exact ⟨[], by simp [Tree.trails_node], by simp⟩

theorem asFunction_of_not_wraps {t : Tree} (h : v.wraps t = false) :
    v.asFunction t = if v.roleOf t = .function then t else .missing := by
  have hu : v.unwrap t = t := by simp [unwrap_eq, h]
  simp only [asFunction, hu]

theorem asFunction_of_wraps {t : Tree} (h : v.wraps t = true) :
    v.asFunction t = v.asFunction (t.child "definition") := by
  have hu : v.unwrap t = v.unwrap (t.child "definition") := by rw [unwrap_eq, if_pos h]
  simp only [asFunction, hu]

theorem asFunction_eq_unwrap {t : Tree} (h : (v.asFunction t).isMissing = false) :
    v.asFunction t = v.unwrap t ∧ v.roleOf (v.unwrap t) = .function := by
  simp only [asFunction] at h ⊢
  split at h
  next hf => exact ⟨if_pos hf, hf⟩
  next => cases h

end Vocabulary

namespace Dialect

/-- The name that a definition has by itself. -/
def ownName (d : Dialect) (source : ByteArray) (u : Tree) : Option String :=
  (d.definitionName source u).value

theorem wraps_of_function (d : Dialect) {t : Tree} (h : d.vocabulary.roleOf t = .function) :
    d.vocabulary.wraps t = false := by
  cases t with
  | missing => rfl
  | node info cs =>
    cases d with
    | cpp => rfl
    | python =>
      by_contra hw
      have htype : info.type = "decorated_definition" := by
        simpa [Vocabulary.wraps, vocabulary] using hw
      rw [Vocabulary.roleOf, htype] at h
      revert h
      decide

theorem nonempty?_ne_empty {text n : String} (h : Declarator.nonempty? text = some n) :
    n ≠ "" := by
  unfold Declarator.nonempty? at h
  split at h
  next => cases h
  next ht =>
    cases h
    exact ht

theorem nameWithin_ne_empty (source : ByteArray) (fuel : Nat) (t : Tree) {n : String}
    (h : Declarator.nameWithin source fuel t = some n) : n ≠ "" := by
  induction fuel generalizing t with
  | zero => cases h
  | succ fuel ih =>
    rw [Declarator.nameWithin] at h
    split at h
    next => cases h
    next =>
      split at h
      next => exact nonempty?_ne_empty h
      next =>
        split at h
        next => exact ih _ h
        next => exact ih _ h

theorem ownName_ne_empty (d : Dialect) (source : ByteArray) (u : Tree) {n : String}
    (h : d.ownName source u = some n) : n ≠ "" := by
  cases d with
  | python => exact nonempty?_ne_empty h
  | cpp =>
    simp only [ownName, definitionName] at h
    split at h
    next => cases h
    next => exact nameWithin_ne_empty source _ _ h

end Dialect

/-! ## The search as a recursion -/

namespace Outline

variable (d : Dialect) (source : ByteArray)

/-- The node below which the search goes on: the definition that a node is or wraps, or else the
node. -/
def gate (t : Tree) : Tree :=
  if (d.vocabulary.asFunction t).isMissing then t else d.vocabulary.asFunction t

/-- The name that the search finds at a node, if there is one. -/
def caption? (t : Tree) : Option String :=
  if (d.vocabulary.asFunction t).isMissing then none
  else d.ownName source (d.vocabulary.asFunction t)

/-- What the search finds below a node that stands in a scope. -/
def listing (scope : List String) (t : Tree) : List Definition :=
  (run d source { agenda := [⟨scope, t⟩] }).found

theorem step_of_agenda_nil {st : State} (h : st.agenda = []) : step d source st = st := by
  simp [step, h]

/-- Every step takes the name at the node into the scope of what stands below. -/
theorem step_cons (p : Pending) (rest : List Pending) (found : List Definition)
    (log : List Entry) : ∃ log',
    step d source ⟨p :: rest, found, log⟩ =
      ⟨((gate d p.node).children.map
          (Pending.mk (p.scope ++ (caption? d source p.node).toList))) ++ rest,
        found ++ (caption? d source p.node).toList.map
          (fun n => ⟨gate d p.node, p.scope ++ [n]⟩), log'⟩ := by
  obtain ⟨scope, t⟩ := p
  by_cases hm : (d.vocabulary.asFunction t).isMissing = true
  · exact ⟨log, by simp [step, hm, gate, caption?, below]⟩
  · cases hn : (d.definitionName source (d.vocabulary.asFunction t)).value with
    | some n => exact ⟨_, by simp [step, hm, hn, gate, caption?, below, Dialect.ownName]; rfl⟩
    | none => exact ⟨_, by simp [step, hm, hn, gate, caption?, below, Dialect.ownName]; rfl⟩

theorem advance_eq_iterate (n : Nat) (st : State) :
    advance d source n st = (step d source)^[n] st := by
  induction n generalizing st with
  | zero => rfl
  | succ n ih => rw [advance, ih, Function.iterate_succ_apply]

theorem run_step (st : State) : run d source st = run d source (step d source st) := by
  simp only [run, advance_eq_iterate]
  apply iterate_weight_step
  intro st
  by_cases h : st.agenda = []
  · exact .inl (step_of_agenda_nil d source h)
  · exact .inr (weight_step_lt d source st h)

theorem run_of_agenda_nil {st : State} (h : st.agenda = []) : run d source st = st := by
  rw [run, advance_eq_iterate]
  exact Function.iterate_fixed (step_of_agenda_nil d source h) _

theorem size_lt_of_mem_gate {t c : Tree} (h : c ∈ (gate d t).children) : c.size < t.size := by
  have hgate : (gate d t).size ≤ t.size := by
    unfold gate
    split
    · exact Nat.le_refl _
    · exact size_asFunction_le d.vocabulary t
  have hc := Tree.size_le_sizeAll h
  have hall := sizeAll_children_lt (gate d t)
  omega

/-- Induction over the search: a node comes after all nodes that the search goes on to. -/
theorem search_induct {motive : Tree → Prop}
    (h : ∀ t, (∀ c ∈ (gate d t).children, motive c) → motive t) (t : Tree) : motive t :=
  h t fun c _ => search_induct h c
termination_by t.size
decreasing_by exact size_lt_of_mem_gate d ‹_›

/-- Searching below a node finds its listing, and leaves the rest of the agenda as it was. -/
def FindsThrough (t : Tree) : Prop :=
  ∀ (scope : List String) (rest : List Pending) (found : List Definition) (log : List Entry),
    ∃ log', run d source ⟨⟨scope, t⟩ :: rest, found, log⟩ =
      run d source ⟨rest, found ++ listing d source scope t, log'⟩

theorem run_pendings {ts : List Tree} (h : ∀ t ∈ ts, FindsThrough d source t)
    (scope : List String) (rest : List Pending) (found : List Definition) (log : List Entry) :
    ∃ log', run d source ⟨ts.map (Pending.mk scope) ++ rest, found, log⟩ =
      run d source ⟨rest, found ++ ts.flatMap (listing d source scope), log'⟩ := by
  induction ts generalizing found log with
  | nil => exact ⟨log, by simp⟩
  | cons t ts ih =>
    obtain ⟨l₁, h₁⟩ := h t (List.mem_cons_self ..) scope (ts.map (Pending.mk scope) ++ rest) found
      log
    obtain ⟨l₂, h₂⟩ := ih (fun u hu => h u (List.mem_cons_of_mem _ hu))
      (found ++ listing d source scope t) l₁
    refine ⟨l₂, ?_⟩
    rw [List.map_cons, List.cons_append, h₁, h₂, List.flatMap_cons, List.append_assoc]

/-- What is found at a node and below it. -/
def findings (scope : List String) (t : Tree) : List Definition :=
  (caption? d source t).toList.map (fun n => ⟨gate d t, scope ++ [n]⟩) ++
    (gate d t).children.flatMap (listing d source (scope ++ (caption? d source t).toList))

theorem run_cons {t : Tree} (ih : ∀ c ∈ (gate d t).children, FindsThrough d source c)
    (scope : List String) (rest : List Pending) (found : List Definition) (log : List Entry) :
    ∃ log', run d source ⟨⟨scope, t⟩ :: rest, found, log⟩ =
      run d source ⟨rest, found ++ findings d source scope t, log'⟩ := by
  obtain ⟨l₁, h₁⟩ := step_cons d source ⟨scope, t⟩ rest found log
  obtain ⟨l₂, h₂⟩ := run_pendings d source ih (scope ++ (caption? d source t).toList) rest
    (found ++ (caption? d source t).toList.map fun n => ⟨gate d t, scope ++ [n]⟩) l₁
  refine ⟨l₂, ?_⟩
  rw [run_step, h₁, h₂, List.append_assoc]
  rfl

theorem listing_eq_of_findsThrough {t : Tree}
    (ih : ∀ c ∈ (gate d t).children, FindsThrough d source c) (scope : List String) :
    listing d source scope t = findings d source scope t := by
  obtain ⟨l, h⟩ := run_cons d source ih scope [] [] []
  rw [listing, h, run_of_agenda_nil d source rfl, List.nil_append]

theorem findsThrough (t : Tree) : FindsThrough d source t := by
  induction t using search_induct d with
  | h t ih =>
    intro scope rest found log
    rw [listing_eq_of_findsThrough d source ih]
    exact run_cons d source ih scope rest found log

/-- **Recursion of the search.** -/
theorem listing_eq (scope : List String) (t : Tree) :
    listing d source scope t = findings d source scope t :=
  listing_eq_of_findsThrough d source (fun c _ => findsThrough d source c) scope

/-! ## Where the search leads -/

/-- The search leads from a wrapper around a function to that function, and from any other node to
its children. -/
inductive Follows (v : Vocabulary) : Tree → Tree → Prop
  | unwrapped {t : Tree} (hw : v.wraps t = true) (hf : (v.asFunction t).isMissing = false) :
      Follows v t (v.asFunction t)
  | child {t c : Tree} (hn : ¬ (v.wraps t = true ∧ (v.asFunction t).isMissing = false))
      (hc : c ∈ t.children) (hm : c.isMissing = false) : Follows v t c

/-- The search passes a node that leads to no function, and captions a function by its name. -/
theorem gate_cases (t : Tree) :
    (d.vocabulary.asFunction t).isMissing = true ∧ gate d t = t ∧ caption? d source t = none ∨
      (d.vocabulary.asFunction t).isMissing = false ∧ gate d t = d.vocabulary.asFunction t ∧
        d.vocabulary.roleOf (gate d t) = .function ∧
          caption? d source t = d.ownName source (gate d t) := by
  cases hm : (d.vocabulary.asFunction t).isMissing with
  | true => exact .inl ⟨rfl, by simp [gate, hm], by simp [caption?, hm]⟩
  | false =>
    obtain ⟨he, hrole⟩ := d.vocabulary.asFunction_eq_unwrap hm
    have hgate : gate d t = d.vocabulary.asFunction t := by simp [gate, hm]
    refine .inr ⟨rfl, hgate, ?_, ?_⟩
    · rw [hgate, he]
      exact hrole
    · simp [caption?, hm, hgate]

theorem gate_of_not_wraps {t : Tree} (h : d.vocabulary.wraps t = false) : gate d t = t := by
  rw [gate, Vocabulary.asFunction_of_not_wraps _ h]
  by_cases hf : d.vocabulary.roleOf t = .function
  · simp [hf]
  · simp [hf, Tree.isMissing]

/-- Only wrappers stand between a node and its gate. -/
theorem exists_gate_trail {t : Tree} (h : t.isMissing = false) :
    ∃ above, ⟨above, gate d t⟩ ∈ t.trails ∧ ∀ u ∈ above, d.vocabulary.wraps u = true := by
  rcases gate_cases d ByteArray.empty t with ⟨-, hg, -⟩ | ⟨hm, hg, -, -⟩
  · rw [hg]
    cases t with
    | missing => cases h
    | node info cs => exact ⟨[], by simp [Tree.trails_node], by simp⟩
  · obtain ⟨he, -⟩ := d.vocabulary.asFunction_eq_unwrap hm
    rw [hg, he]
    exact d.vocabulary.exists_unwrap_trail t (by rw [← he]; exact hm)

theorem reaches_gate (t : Tree) :
    Relation.ReflTransGen (Follows d.vocabulary) t (gate d t) := by
  cases hw : d.vocabulary.wraps t with
  | false =>
    rw [gate_of_not_wraps d hw]
  | true =>
    rcases gate_cases d ByteArray.empty t with ⟨-, hg, -⟩ | ⟨hm, hg, -, -⟩
    · rw [hg]
    · rw [hg]
      exact .single (.unwrapped hw hm)

theorem follows_gate {t c : Tree} (hc : c ∈ (gate d t).children) (hm : c.isMissing = false) :
    Follows d.vocabulary (gate d t) c := by
  refine .child ?_ hc hm
  rintro ⟨hw, hf⟩
  rcases gate_cases d ByteArray.empty t with ⟨hn, hg, -⟩ | ⟨-, -, hrole, -⟩
  · rw [hg, hn] at hf
    cases hf
  · rw [d.wraps_of_function hrole] at hw
    cases hw

theorem listing_missing (scope : List String) : listing d source scope .missing = [] := by
  have hg : gate d .missing = .missing := gate_of_not_wraps d rfl
  have hc : caption? d source .missing = none := by
    rw [caption?, Vocabulary.asFunction_missing]
    rfl
  rw [listing_eq, findings, hg, hc]
  rfl

/-! ## What is listed -/

theorem map_node_listing_sublist (scope : List String) (t : Tree) :
    ((listing d source scope t).map (·.node)).Sublist t.nodes := by
  induction t using search_induct d generalizing scope with
  | h t ih =>
    cases hm : t.isMissing with
    | true =>
      rw [Tree.isMissing_iff.mp hm, listing_missing]
      exact List.Sublist.refl _
    | false =>
      obtain ⟨above, hτ, -⟩ := exists_gate_trail d hm
      have hown : (((caption? d source t).toList.map
          fun n => (⟨gate d t, scope ++ [n]⟩ : Definition)).map (·.node)).Sublist [gate d t] := by
        cases caption? d source t with
        | none => exact List.nil_sublist _
        | some n => exact List.Sublist.refl _
      have hbelow : (((gate d t).children.flatMap
          (listing d source (scope ++ (caption? d source t).toList))).map (·.node)).Sublist
          ((gate d t).children.flatMap Tree.nodes) := by
        rw [List.map_flatMap]
        exact List.Sublist.flatMap_right _ fun c hc => ih c hc _
      have hgate : (gate d t).nodes = gate d t :: (gate d t).children.flatMap Tree.nodes := by
        cases hg : gate d t with
        | missing =>
          have := Tree.isMissing_of_mem_nodes (Tree.node_mem_nodes hτ)
          rw [hg] at this
          cases this
        | node info cs => exact Tree.nodes_node info cs
      refine List.Sublist.trans ?_ (Tree.nodes_sublist (Tree.node_mem_nodes hτ))
      rw [listing_eq, findings, List.map_append, hgate]
      exact hown.append hbelow

theorem eq_missing_of_reaches {v : Vocabulary} {u : Tree}
    (h : Relation.ReflTransGen (Follows v) .missing u) : u = .missing := by
  rcases h.cases_head with h | ⟨w, hw, -⟩
  · exact h.symm
  · cases hw with
    | unwrapped hw hf => cases hw
    | child hn hc hm => cases hc

/-- A listed node is a named function to which the search leads. -/
theorem reaches_of_mem_listing (scope : List String) (t : Tree) {e : Definition}
    (he : e ∈ listing d source scope t) :
    Relation.ReflTransGen (Follows d.vocabulary) t e.node ∧
      d.vocabulary.roleOf e.node = .function ∧ ∃ n, d.ownName source e.node = some n := by
  induction t using search_induct d generalizing scope with
  | h t ih =>
    rw [listing_eq, findings, List.mem_append] at he
    rcases he with he | he
    · obtain ⟨n, hn, rfl⟩ := List.mem_map.mp he
      rw [Option.mem_toList] at hn
      rcases gate_cases d source t with ⟨-, -, hc⟩ | ⟨-, -, hrole, hc⟩
      · rw [hc] at hn
        cases hn
      · exact ⟨reaches_gate d t, hrole, n, by rw [← hc]; exact hn⟩
    · obtain ⟨c, hc, he⟩ := List.mem_flatMap.mp he
      obtain ⟨hreach, hrole, hname⟩ := ih c hc _ he
      have hm : c.isMissing = false := by
        by_contra hm
        have hc' : c = .missing := Tree.isMissing_iff.mp (by simpa using hm)
        rw [hc'] at hreach
        rw [eq_missing_of_reaches hreach] at hrole
        cases hrole
      exact ⟨((reaches_gate d t).tail (follows_gate d hc hm)).trans hreach, hrole, hname⟩

theorem asFunction_of_function {t : Tree} (h : d.vocabulary.roleOf t = .function) :
    (d.vocabulary.asFunction t).isMissing = false := by
  rw [Vocabulary.asFunction_of_not_wraps _ (d.wraps_of_function h), if_pos h]
  cases t with
  | missing => cases h
  | node info cs => rfl

/-- Whatever function the search leads to is the gate or lies beyond it. -/
theorem gate_or_below_of_reaches {t u : Tree}
    (hreach : Relation.ReflTransGen (Follows d.vocabulary) t u)
    (hrole : d.vocabulary.roleOf u = .function) :
    u = gate d t ∨ ∃ c ∈ (gate d t).children, Relation.ReflTransGen (Follows d.vocabulary) c u := by
  rcases hreach.cases_head with rfl | ⟨w, hw, hreach⟩
  · exact .inl (gate_of_not_wraps d (d.wraps_of_function hrole)).symm
  · cases hw with
    | unwrapped hw hf =>
      rcases gate_cases d ByteArray.empty t with ⟨hm, -, -⟩ | ⟨-, hg, hgr, -⟩
      · rw [hm] at hf
        cases hf
      · rw [← hg] at hreach
        rcases hreach.cases_head with h | ⟨c, hc, hreach⟩
        · exact .inl h.symm
        · cases hc with
          | unwrapped hw _ =>
            rw [d.wraps_of_function hgr] at hw
            cases hw
          | child _ hc _ => exact .inr ⟨c, hc, hreach⟩
    | child hn hc _ =>
      have hg : gate d t = t := by
        rcases gate_cases d ByteArray.empty t with ⟨-, hg, -⟩ | ⟨hm, -, -, -⟩
        · exact hg
        · apply gate_of_not_wraps d
          simpa [hm] using hn
      rw [hg]
      exact .inr ⟨w, hc, hreach⟩

/-- A named function to which the search leads is listed. -/
theorem mem_listing_of_reaches (scope : List String) (t : Tree) {u : Tree} {n : String}
    (hreach : Relation.ReflTransGen (Follows d.vocabulary) t u)
    (hrole : d.vocabulary.roleOf u = .function) (hname : d.ownName source u = some n) :
    ∃ e ∈ listing d source scope t, e.node = u := by
  induction t using search_induct d generalizing scope with
  | h t ih =>
    rw [listing_eq, findings]
    rcases gate_or_below_of_reaches d hreach hrole with rfl | ⟨c, hc, hreach⟩
    · rcases gate_cases d source t with ⟨hm, hg, -⟩ | ⟨-, -, -, hc⟩
      · rw [hg] at hrole
        rw [asFunction_of_function d hrole] at hm
        cases hm
      · rw [hname] at hc
        refine ⟨⟨gate d t, scope ++ [n]⟩, List.mem_append_left _ ?_, rfl⟩
        simp [hc]
    · obtain ⟨e, he, rfl⟩ := ih c hc _ hreach
      exact ⟨e, List.mem_append_right _ (List.mem_flatMap.mpr ⟨c, hc, he⟩), rfl⟩

/-! ## Paths -/

/-- The name that a node on a trail contributes to the paths below it. -/
def nameOn? (u : Tree) : Option String :=
  if d.vocabulary.roleOf u = .function then d.ownName source u else none

theorem nameOn?_of_wraps {u : Tree} (h : d.vocabulary.wraps u = true) :
    nameOn? d source u = none := by
  rw [nameOn?, if_neg]
  intro hrole
  rw [d.wraps_of_function hrole] at h
  cases h

theorem nameOn?_gate (t : Tree) : nameOn? d source (gate d t) = caption? d source t := by
  rcases gate_cases d source t with ⟨hm, hg, hc⟩ | ⟨-, -, hrole, hc⟩
  · rw [hc, hg, nameOn?, if_neg]
    intro hrole
    rw [asFunction_of_function d hrole] at hm
    cases hm
  · rw [hc, nameOn?, if_pos hrole]

/-- The path of a listed definition names the functions on the trail that leads to it, and the
search leads to all of them. -/
theorem exists_trail_of_mem_listing (scope : List String) (t : Tree) {e : Definition}
    (he : e ∈ listing d source scope t) :
    ∃ above n, ⟨above, e.node⟩ ∈ t.trails ∧ d.ownName source e.node = some n ∧
      e.path = scope ++ above.reverse.filterMap (nameOn? d source) ++ [n] ∧
      ∀ u ∈ above, d.vocabulary.roleOf u = .function →
        Relation.ReflTransGen (Follows d.vocabulary) t u := by
  induction t using search_induct d generalizing scope with
  | h t ih =>
    have hm : t.isMissing = false := by
      by_contra hm
      have ht : t = .missing := Tree.isMissing_iff.mp (by simpa using hm)
      rw [ht, listing_missing] at he
      cases he
    obtain ⟨outer, hτ, hwraps⟩ := exists_gate_trail d hm
    have houter : outer.reverse.filterMap (nameOn? d source) = [] := by
      rw [List.filterMap_eq_nil_iff]
      intro u hu
      exact nameOn?_of_wraps d source (hwraps u (List.mem_reverse.mp hu))
    have hfunction : ∀ u ∈ outer, d.vocabulary.roleOf u ≠ .function := by
      intro u hu hrole
      have := hwraps u hu
      rw [d.wraps_of_function hrole] at this
      cases this
    rw [listing_eq, findings, List.mem_append] at he
    rcases he with he | he
    · obtain ⟨n, hn, rfl⟩ := List.mem_map.mp he
      rw [Option.mem_toList] at hn
      rcases gate_cases d source t with ⟨-, -, hc⟩ | ⟨-, -, -, hc⟩
      · rw [hc] at hn
        cases hn
      · refine ⟨outer, n, hτ, by rw [← hc]; exact hn, ?_, ?_⟩
        · rw [houter, List.append_nil]
        · intro u hu hrole
          exact absurd hrole (hfunction u hu)
    · obtain ⟨c, hc, he⟩ := List.mem_flatMap.mp he
      obtain ⟨inner, n, hσ, hn, hpath, hreach⟩ := ih c hc _ he
      have hcm : c.isMissing = false := by
        by_contra hm
        have hc' : c = .missing := Tree.isMissing_iff.mp (by simpa using hm)
        rw [hc', listing_missing] at he
        cases he
      have hdown := (reaches_gate d t).tail (follows_gate d hc hcm)
      refine ⟨inner ++ gate d t :: outer, n, Tree.under_mem_trails hτ hc hσ, hn, ?_, ?_⟩
      · have hgate : [gate d t].filterMap (nameOn? d source) = (caption? d source t).toList := by
          rw [← nameOn?_gate]
          cases h : nameOn? d source (gate d t) <;> simp [h]
        rw [hpath, List.reverse_append, List.reverse_cons, List.filterMap_append,
          List.filterMap_append, houter, hgate]
        simp
      · intro u hu hrole
        rcases List.mem_append.mp hu with hu | hu
        · exact hdown.trans (hreach u hu hrole)
        · rcases List.mem_cons.mp hu with rfl | hu
          · exact reaches_gate d t
          · exact absurd hrole (hfunction u hu)

/-- In a numbered tree the functions on a trail that have a name are those that are listed. -/
theorem nameOn?_eq_ite_listed {start u : Tree} (hd : start.Distinct) (hu : u ∈ start.nodes)
    (hreach : d.vocabulary.roleOf u = .function →
      Relation.ReflTransGen (Follows d.vocabulary) start u) :
    nameOn? d source u =
      if u.id? ∈ (listing d source [] start).map (·.node.id?) then d.ownName source u
      else none := by
  by_cases hl : u.id? ∈ (listing d source [] start).map (·.node.id?)
  · obtain ⟨e, he, hid⟩ := List.mem_map.mp hl
    have hmem : e.node ∈ start.nodes :=
      (map_node_listing_sublist d source [] start).subset (List.mem_map_of_mem he)
    obtain ⟨-, hrole, -⟩ := reaches_of_mem_listing d source [] start he
    rw [hd.node_eq hmem hu hid] at hrole
    rw [if_pos hl, nameOn?, if_pos hrole]
  · rw [if_neg hl]
    by_contra hsome
    obtain ⟨n, hn⟩ := Option.ne_none_iff_exists'.mp hsome
    rw [nameOn?] at hn
    split at hn
    next hrole =>
      obtain ⟨e, he, rfl⟩ := mem_listing_of_reaches d source [] start (hreach hrole) hrole hn
      exact hl (List.mem_map_of_mem he)
    next => cases hn

/-- A list of definitions is the outline of what stands at and below a node. -/
structure IsOutline (start : Tree) (found : List Definition) : Prop where
  /-- They come in document order, an outer one before those inside it. -/
  ordered : (found.map (·.node)).Sublist start.nodes
  /-- No node is listed twice. -/
  once : (found.map (·.node.id?)).Nodup
  /-- They are the functions with a name to which the search leads. -/
  complete : ∀ u, (∃ e ∈ found, e.node = u) ↔
    Relation.ReflTransGen (Follows d.vocabulary) start u ∧
      d.vocabulary.roleOf u = .function ∧ ∃ n, d.ownName source u = some n ∧ n ≠ ""
  /-- Each is called by the names of the listed definitions above it, from the outermost inwards,
  and its own. -/
  called : ∀ e ∈ found, ∃ above n, ⟨above, e.node⟩ ∈ start.trails ∧
    d.ownName source e.node = some n ∧
    e.name = ".".intercalate
      ((above.reverse.filter fun u => u.id? ∈ found.map (·.node.id?)).filterMap
        (d.ownName source) ++ [n])

theorem listing_isOutline {start : Tree} (hd : start.Distinct) :
    IsOutline d source start (listing d source [] start) where
  ordered := map_node_listing_sublist d source [] start
  once := by
    have := List.Nodup.sublist ((map_node_listing_sublist d source [] start).map Tree.id?) hd
    rwa [List.map_map] at this
  complete := by
    intro u
    constructor
    · rintro ⟨e, he, rfl⟩
      obtain ⟨hreach, hrole, n, hn⟩ := reaches_of_mem_listing d source [] start he
      exact ⟨hreach, hrole, n, hn, d.ownName_ne_empty source _ hn⟩
    · rintro ⟨hreach, hrole, n, hn, -⟩
      exact mem_listing_of_reaches d source [] start hreach hrole hn
  called := by
    intro e he
    obtain ⟨above, n, hτ, hn, hpath, hreach⟩ := exists_trail_of_mem_listing d source [] start he
    refine ⟨above, n, hτ, hn, ?_⟩
    rw [Definition.name, hpath, List.nil_append, List.filterMap_filter]
    congr 2
    apply List.filterMap_congr
    intro u hu
    have hu := List.mem_reverse.mp hu
    simpa using nameOn?_eq_ite_listed d source hd (Tree.mem_nodes_of_mem_above hτ hu)
      (hreach u hu)

/-- From any node of a listed tree, or from none, the search comes to its end and gives the
outline. -/
theorem definitions_exact (entries : List (Option Listed)) (start : Tree)
    (hstart : start = .missing ∨ start ∈ (Tree.ofListing entries).nodes) :
    (run d source { agenda := [⟨[], start⟩] }).agenda = [] ∧
      IsOutline d source start (definitions d source start).value := by
  have hdistinct : start.Distinct := by
    rcases hstart with rfl | hstart
    · simp [Tree.Distinct]
    · exact (Tree.ofListing_distinct entries).of_mem hstart
  exact ⟨agenda_run d source _, listing_isOutline d source hdistinct⟩

/-- A decorated function `f`, with a function in its decorator. In its body a class has the method
`m`, and a function without a name holds the function `g`. -/
def decoratedEntries : List (Option Listed) :=
  [some ⟨"decorated_definition", true, none, 0, 4, 0, 0, 2⟩,
    some ⟨"decorator", true, none, 0, 0, 0, 0, 1⟩,
    some ⟨"function_definition", true, none, 3, 4, 0, 0, 1⟩,
    some ⟨"identifier", true, some "name", 3, 4, 0, 0, 0⟩,
    some ⟨"function_definition", true, some "definition", 0, 3, 0, 0, 3⟩,
    some ⟨"identifier", true, some "name", 0, 1, 0, 0, 0⟩,
    none,
    some ⟨"block", true, some "body", 1, 3, 0, 0, 2⟩,
    some ⟨"class_definition", true, none, 1, 2, 0, 0, 1⟩,
    some ⟨"function_definition", true, none, 1, 2, 0, 0, 1⟩,
    some ⟨"identifier", true, some "name", 1, 2, 0, 0, 0⟩,
    some ⟨"function_definition", true, none, 2, 3, 0, 0, 1⟩,
    some ⟨"function_definition", true, none, 2, 3, 0, 0, 1⟩,
    some ⟨"identifier", true, some "name", 2, 3, 0, 0, 0⟩]

theorem definitions_exact_decorated :
    let source := "fmgh".toUTF8
    let start := Tree.ofListing decoratedEntries
    start ∈ (Tree.ofListing decoratedEntries).nodes ∧
      IsOutline .python source start (definitions .python source start).value ∧
      (definitions .python source start).value.map (·.name) = ["f", "f.m", "f.g"] := by
  have hmem : Tree.ofListing decoratedEntries ∈ (Tree.ofListing decoratedEntries).nodes :=
    Tree.self_mem_nodes rfl
  exact ⟨hmem, (definitions_exact .python _ decoratedEntries _ (.inr hmem)).2, by decide +kernel⟩

end Outline

end CognitiveLoad
