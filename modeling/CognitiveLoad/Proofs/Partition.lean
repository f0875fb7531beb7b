import CognitiveLoad.Proofs.Outline

/-!
Scoring the definitions of a tree parts its nodes among them. Every node has one trail from the
root, and the scoring of a definition visits the nodes below its body that no further function
stands above; so the definition that visits a node is the last function on the node's trail.

* `owner_unique`: no two functions visit the same node;
* `visits_partition`: the definitions of a listed tree share out the nodes of their bodies.
-/

namespace CognitiveLoad

namespace Scorer

/-- What is walked for a function is its body. -/
theorem bodyOf_of_function {d : Dialect} {s : Scorer} (hs : s.vocabulary = d.vocabulary)
    {p : Tree.Placed} (h : d.vocabulary.roleOf p.node = .function) :
    s.bodyOf p = ⟨p.node, p.node.child d.vocabulary.bodyField⟩ := by
  have hf : d.vocabulary.asFunction p.node = p.node := by
    rw [Vocabulary.asFunction_of_not_wraps _ (d.wraps_of_function h), if_pos h]
  have hm := Outline.asFunction_of_function d h
  rw [hf] at hm
  simp [bodyOf, hs, hf, hm]

/-- Scoring a function visits nodes that lie in one of its children, without a function between. -/
theorem exists_trail_of_visits {d : Dialect} {s : Scorer} (hs : s.vocabulary = d.vocabulary)
    {source : ByteArray} {p : Tree.Placed} {u : Tree}
    (h : d.vocabulary.roleOf p.node = .function) (hu : s.Visits source p u) :
    ∃ b ∈ p.node.children, ∃ above, ⟨above, u⟩ ∈ b.trails ∧ d.vocabulary.Clear above := by
  rw [visits_iff, bodyOf_of_function hs h, hs] at hu
  obtain ⟨τ, hτ, rfl, hclear⟩ := hu
  rcases p.node.child_eq_missing_or_mem d.vocabulary.bodyField with hb | hb
  · rw [hb] at hτ
    cases hτ
  · exact ⟨_, hb, τ.above, hτ, hclear⟩

end Scorer

namespace Tree

/-- Two functions that have the same node below them, with no function between, are one. -/
theorem Distinct.owner_unique {v : Vocabulary} {t f₁ f₂ b₁ b₂ u₁ u₂ : Tree}
    {above₁ above₂ : List Tree} (ht : t.Distinct) (hf₁ : f₁ ∈ t.nodes) (hf₂ : f₂ ∈ t.nodes)
    (hr₁ : v.roleOf f₁ = .function) (hr₂ : v.roleOf f₂ = .function)
    (hb₁ : b₁ ∈ f₁.children) (hb₂ : b₂ ∈ f₂.children)
    (hu₁ : ⟨above₁, u₁⟩ ∈ b₁.trails) (hu₂ : ⟨above₂, u₂⟩ ∈ b₂.trails)
    (hc₁ : v.Clear above₁) (hc₂ : v.Clear above₂) (hid : u₁.id? = u₂.id?) : f₁ = f₂ := by
  obtain ⟨over₁, ho₁⟩ := exists_trail hf₁
  obtain ⟨over₂, ho₂⟩ := exists_trail hf₂
  have heq := ht.trail_eq (under_mem_trails ho₁ hb₁ hu₁) (under_mem_trails ho₂ hb₂ hu₂) hid
  have habove : above₁ ++ f₁ :: over₁ = above₂ ++ f₂ :: over₂ := congrArg Trail.above heq
  -- the functions stand at one place of the trail, or one of them comes between
  rcases List.append_eq_append_iff.mp habove with ⟨mid, rfl, hmid⟩ | ⟨mid, rfl, hmid⟩
  · cases mid with
    | nil => exact (List.cons.inj hmid).1
    | cons w rest =>
      obtain rfl := (List.cons.inj hmid).1
      exact absurd hr₁ (hc₂ f₁ (by simp))
  · cases mid with
    | nil => exact (List.cons.inj hmid).1.symm
    | cons w rest =>
      obtain rfl := (List.cons.inj hmid).1
      exact absurd hr₂ (hc₁ f₂ (by simp))

/-- A node below a function that lies further down is not met without passing that function. -/
theorem Distinct.id?_ne_of_nested {v : Vocabulary} {t f b c u w : Tree} {above : List Tree}
    {σ : Trail} (ht : t.Distinct) (hf : f ∈ t.nodes) (hσ : σ ∈ f.trails) (hne : σ.above ≠ [])
    (hr : v.roleOf σ.node = .function) (hc : c ∈ σ.node.children) (hu : u ∈ c.nodes)
    (hb : b ∈ f.children) (hw : ⟨above, w⟩ ∈ b.trails) (hclear : v.Clear above) :
    w.id? ≠ u.id? := by
  intro hid
  obtain ⟨outer, ho⟩ := exists_trail hf
  obtain ⟨inner, hi⟩ := exists_trail hu
  rcases trail_cases hσ with rfl | ⟨b', hb', ρ, hρ, rfl⟩
  · exact hne rfl
  · have heq := ht.trail_eq (under_mem_trails ho hb hw)
      (under_mem_trails (under_mem_trails ho hb' hρ) hc hi) hid
    have habove : above ++ f :: outer = (inner ++ ρ.node :: ρ.above) ++ f :: outer := by
      simpa [Trail.under] using congrArg Trail.above heq
    have hpath : above = inner ++ ρ.node :: ρ.above := List.append_cancel_right habove
    exact hclear ρ.node (by simp [hpath]) hr

end Tree

namespace Outline

variable {d : Dialect} {source : ByteArray} {start : Tree} {found : List Definition}

theorem IsOutline.mem_nodes (h : IsOutline d source start found) {e : Definition}
    (he : e ∈ found) : e.node ∈ start.nodes :=
  h.ordered.subset (List.mem_map_of_mem he)

theorem IsOutline.roleOf_eq (h : IsOutline d source start found) {e : Definition}
    (he : e ∈ found) : d.vocabulary.roleOf e.node = .function :=
  ((h.complete e.node).mp ⟨e, he, rfl⟩).2.1

end Outline

namespace Scorer

theorem visits_of_clear {d : Dialect} {s : Scorer} (hs : s.vocabulary = d.vocabulary)
    (text : ByteArray) {p : Tree.Placed} (h : d.vocabulary.roleOf p.node = .function)
    {τ : Tree.Trail} (hτ : τ ∈ (p.node.child d.vocabulary.bodyField).trails)
    (hclear : d.vocabulary.Clear τ.above) : s.Visits text p τ.node := by
  rw [visits_iff, bodyOf_of_function hs h, hs]
  exact ⟨τ, hτ, rfl, hclear⟩

/-- Two functions visit different nodes. -/
theorem id?_ne_of_visits {d : Dialect} {s : Scorer} (hs : s.vocabulary = d.vocabulary)
    {text : ByteArray} {t u₁ u₂ : Tree} {p₁ p₂ : Tree.Placed} (ht : t.Distinct)
    (hp₁ : p₁.node ∈ t.nodes) (hp₂ : p₂.node ∈ t.nodes)
    (hr₁ : d.vocabulary.roleOf p₁.node = .function) (hr₂ : d.vocabulary.roleOf p₂.node = .function)
    (hne : p₁.node.id? ≠ p₂.node.id?) (hu₁ : s.Visits text p₁ u₁) (hu₂ : s.Visits text p₂ u₂) :
    u₁.id? ≠ u₂.id? := by
  intro hid
  obtain ⟨b₁, hb₁, above₁, hτ₁, hc₁⟩ := exists_trail_of_visits hs hr₁ hu₁
  obtain ⟨b₂, hb₂, above₂, hτ₂, hc₂⟩ := exists_trail_of_visits hs hr₂ hu₂
  have hsame := ht.owner_unique hp₁ hp₂ hr₁ hr₂ hb₁ hb₂ hτ₁ hτ₂ hc₁ hc₂ hid
  exact hne (congrArg Tree.id? hsame)

/-- The definitions of a tree part the nodes of their bodies: no node is visited for two of them,
each visits the nodes of its body that stand in no function of the body and no other definition
does, and what stands in a function inside a definition is not visited for that definition. -/
theorem visits_partition (entries : List (Option Listed)) (d : Dialect) (countOperators : Bool)
    (source text : ByteArray) (parent : Definition → Tree) :
    let found := (Outline.definitions d source (Tree.ofListing entries)).value
    let visits (e : Definition) := Visits ⟨d.vocabulary, countOperators⟩ text ⟨parent e, e.node⟩
    let body (e : Definition) := e.node.child d.vocabulary.bodyField
    found.Pairwise (fun e₁ e₂ => ∀ u₁ u₂, visits e₁ u₁ → visits e₂ u₂ → u₁.id? ≠ u₂.id?) ∧
      (∀ e ∈ found, ∀ τ ∈ (body e).trails, d.vocabulary.Clear (τ.node :: τ.above) →
        visits e τ.node ∧
          ∀ e' ∈ found, e'.node.id? ≠ e.node.id? → ∀ u, visits e' u → u.id? ≠ τ.node.id?) ∧
      ∀ e ∈ found, ∀ σ ∈ e.node.trails, σ.above ≠ [] → d.vocabulary.roleOf σ.node = .function →
        ∀ c ∈ σ.node.children, ∀ u ∈ c.nodes, ∀ w, visits e w → w.id? ≠ u.id? := by
  intro found visits body
  have hroot := Tree.ofListing_distinct entries
  have hfound : Outline.IsOutline d source (Tree.ofListing entries) found :=
    Outline.listing_isOutline d source hroot
  have hdisjoint : ∀ e₁ ∈ found, ∀ e₂ ∈ found, e₁.node.id? ≠ e₂.node.id? →
      ∀ u₁ u₂, visits e₁ u₁ → visits e₂ u₂ → u₁.id? ≠ u₂.id? := by
    intro e₁ he₁ e₂ he₂ hne u₁ u₂ hu₁ hu₂
    exact id?_ne_of_visits rfl hroot (hfound.mem_nodes he₁) (hfound.mem_nodes he₂)
      (hfound.roleOf_eq he₁) (hfound.roleOf_eq he₂) hne hu₁ hu₂
  refine ⟨?_, ?_, ?_⟩
  · have hnumbers := List.pairwise_map.mp hfound.once
    exact hnumbers.imp_of_mem fun he₁ he₂ hne => hdisjoint _ he₁ _ he₂ hne
  · intro e he τ hτ hclear
    have hvisit : visits e τ.node := visits_of_clear rfl text (hfound.roleOf_eq he) hτ
      fun w hw => hclear w (List.mem_cons_of_mem _ hw)
    exact ⟨hvisit, fun e' he' hne u hu => hdisjoint e' he' e he hne u τ.node hu hvisit⟩
  · intro e he σ hσ hne hr c hc u hu w hw
    obtain ⟨b, hb, above, hτ, hclear⟩ := exists_trail_of_visits rfl (hfound.roleOf_eq he) hw
    exact hroot.id?_ne_of_nested (hfound.mem_nodes he) hσ hne hr hc hu hb hτ hclear

end Scorer

end CognitiveLoad
