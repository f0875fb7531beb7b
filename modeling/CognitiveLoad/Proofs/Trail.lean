import Mathlib.Data.List.Nodup
import CognitiveLoad.Syntax.Preorder

/-!
The nodes of a tree in document order, each with the trail of nodes that leads down to it.

* `Tree.induct`: induction over a tree and the trees in its child positions;
* `under_mem_trails`: a trail in a child goes on from the trail of its parent;
* `Distinct.trail_eq`: where no two nodes have one number, a node has one trail;
* `ofListing_distinct`: the nodes of a listed tree have different numbers.
-/

namespace CognitiveLoad

namespace Tree

theorem induct {motive : Tree → Prop} (missing : motive missing)
    (node : ∀ info cs, (∀ c ∈ cs, motive c) → motive (node info cs)) : ∀ t, motive t
  | .missing => missing
  | .node info cs => node info cs fun c _ => induct missing node c

theorem isMissing_iff {t : Tree} : t.isMissing = true ↔ t = missing := by
  cases t <;> simp [isMissing]

/-! ## Trails -/

/-- A node with the nodes above it, the nearest first. -/
structure Trail where
  above : List Tree
  node : Tree

/-- The same trail from further up. -/
def Trail.under (above : List Tree) (τ : Trail) : Trail :=
  ⟨τ.above ++ above, τ.node⟩

mutual

/-- The trails of the nodes of a tree in document order, when `above` stands above the tree. Empty
child positions hold no node. -/
def trailsBelow (above : List Tree) : Tree → List Trail
  | missing => []
  | node info cs => ⟨above, node info cs⟩ :: trailsBelowAll (node info cs :: above) cs

def trailsBelowAll (above : List Tree) : List Tree → List Trail
  | [] => []
  | t :: rest => trailsBelow above t ++ trailsBelowAll above rest

end

/-- The trails from the root of a tree to its nodes. -/
def trails (t : Tree) : List Trail :=
  trailsBelow [] t

/-- The nodes of a tree in document order. -/
def nodes (t : Tree) : List Tree :=
  t.trails.map (·.node)

theorem trailsBelowAll_eq_flatMap (above : List Tree) (ts : List Tree) :
    trailsBelowAll above ts = ts.flatMap (trailsBelow above) := by
  induction ts with
  | nil => rfl
  | cons t rest ih => rw [trailsBelowAll, ih, List.flatMap_cons]

theorem trailsBelow_append (t : Tree) (above further : List Tree) :
    trailsBelow (above ++ further) t = (trailsBelow above t).map (Trail.under further) := by
  induction t using Tree.induct generalizing above with
  | missing => rfl
  | node info cs ih =>
    simp only [trailsBelow, trailsBelowAll_eq_flatMap, List.map_cons, List.map_flatMap]
    congr 1
    apply List.flatMap_congr
    intro c hc
    exact ih c hc (node info cs :: above)

theorem trailsBelow_eq_map (above : List Tree) (t : Tree) :
    trailsBelow above t = t.trails.map (Trail.under above) :=
  trailsBelow_append t [] above

@[simp] theorem trails_missing : missing.trails = [] := rfl

theorem trails_node (info : NodeInfo) (cs : List Tree) :
    (node info cs).trails =
      ⟨[], node info cs⟩ :: cs.flatMap fun c => c.trails.map (Trail.under [node info cs]) := by
  rw [trails, trailsBelow, trailsBelowAll_eq_flatMap]
  congr 2
  funext c
  exact trailsBelow_eq_map _ c

@[simp] theorem nodes_missing : missing.nodes = [] := rfl

theorem nodes_node (info : NodeInfo) (cs : List Tree) :
    (node info cs).nodes = node info cs :: cs.flatMap nodes := by
  have hn : ∀ c : Tree, (c.trails.map (Trail.under [node info cs])).map (·.node) = c.nodes := by
    intro c
    rw [List.map_map]
    rfl
  rw [nodes, trails_node, List.map_cons, List.map_flatMap]
  simp only [hn]

theorem self_mem_nodes {t : Tree} (h : t.isMissing = false) : t ∈ t.nodes := by
  cases t with
  | missing => simp [isMissing] at h
  | node info cs => simp [nodes_node]

theorem isMissing_of_mem_nodes {t u : Tree} (h : u ∈ t.nodes) : u.isMissing = false := by
  induction t using Tree.induct with
  | missing => simp at h
  | node info cs ih =>
    rw [nodes_node, List.mem_cons, List.mem_flatMap] at h
    rcases h with rfl | ⟨c, hc, hu⟩
    · rfl
    · exact ih c hc hu

theorem nodes_child_sublist {info : NodeInfo} {cs : List Tree} {c : Tree} (hc : c ∈ cs) :
    c.nodes.Sublist (node info cs).nodes := by
  rw [nodes_node]
  exact (List.sublist_flatten_of_mem (List.mem_map_of_mem hc)).cons _

/-- The nodes of a node of a tree come in the same order in the tree. -/
theorem nodes_sublist {t u : Tree} (h : u ∈ t.nodes) : u.nodes.Sublist t.nodes := by
  induction t using Tree.induct with
  | missing => simp at h
  | node info cs ih =>
    rw [nodes_node, List.mem_cons, List.mem_flatMap] at h
    rcases h with rfl | ⟨c, hc, hu⟩
    · exact List.Sublist.refl _
    · exact (ih c hc hu).trans (nodes_child_sublist hc)

/-- A trail in a child goes on from the trail of its parent. -/
theorem under_mem_trails {t d c : Tree} {above : List Tree} {τ : Trail}
    (hd : ⟨above, d⟩ ∈ t.trails) (hc : c ∈ d.children) (hτ : τ ∈ c.trails) :
    τ.under (d :: above) ∈ t.trails := by
  induction t using Tree.induct generalizing above with
  | missing => simp at hd
  | node info cs ih =>
    rw [trails_node, List.mem_cons, List.mem_flatMap] at hd ⊢
    rcases hd with hd | ⟨b, hb, hd⟩
    · cases hd
      exact .inr ⟨c, hc, List.mem_map_of_mem hτ⟩
    · obtain ⟨⟨inner, d⟩, hσ, e⟩ := List.mem_map.mp hd
      cases e
      have hτ' := ih b hb hσ
      refine .inr ⟨b, hb, List.mem_map.mpr ⟨τ.under (d :: inner), hτ', ?_⟩⟩
      simp [Trail.under]

/-- A trail ends where it starts or goes on in a child. -/
theorem trail_cases {t : Tree} {τ : Trail} (h : τ ∈ t.trails) :
    τ = ⟨[], t⟩ ∨ ∃ c ∈ t.children, ∃ σ ∈ c.trails, τ = σ.under [t] := by
  cases t with
  | missing => simp at h
  | node info cs =>
    rw [trails_node, List.mem_cons, List.mem_flatMap] at h
    rcases h with rfl | ⟨c, hc, h⟩
    · exact .inl rfl
    · obtain ⟨σ, hσ, rfl⟩ := List.mem_map.mp h
      exact .inr ⟨c, hc, σ, hσ, rfl⟩

/-- Every node has a trail that leads to it. -/
theorem exists_trail {t u : Tree} (h : u ∈ t.nodes) : ∃ above, ⟨above, u⟩ ∈ t.trails := by
  obtain ⟨τ, hτ, rfl⟩ := List.mem_map.mp h
  exact ⟨τ.above, hτ⟩

theorem node_mem_nodes {t : Tree} {τ : Trail} (h : τ ∈ t.trails) : τ.node ∈ t.nodes :=
  List.mem_map_of_mem h

theorem mem_nodes_of_mem_above {t u : Tree} {τ : Trail} (h : τ ∈ t.trails) (hu : u ∈ τ.above) :
    u ∈ t.nodes := by
  induction t using Tree.induct generalizing τ with
  | missing => simp at h
  | node info cs ih =>
    rcases trail_cases h with rfl | ⟨c, hc, σ, hσ, rfl⟩
    · cases hu
    · rcases List.mem_append.mp hu with hu | hu
      · exact (nodes_child_sublist hc).subset (ih c hc hσ hu)
      · rw [List.mem_singleton.mp hu]
        exact self_mem_nodes rfl

/-! ## Numbered trees -/

/-- No two nodes of the tree have the same number. -/
def Distinct (t : Tree) : Prop :=
  (t.nodes.map id?).Nodup

theorem Distinct.of_mem {t u : Tree} (ht : t.Distinct) (h : u ∈ t.nodes) : u.Distinct :=
  List.Nodup.sublist ((nodes_sublist h).map id?) ht

/-- In a tree with different numbers a node has one trail. -/
theorem Distinct.trail_eq {t : Tree} (ht : t.Distinct) {σ τ : Trail} (hσ : σ ∈ t.trails)
    (hτ : τ ∈ t.trails) (h : σ.node.id? = τ.node.id?) : σ = τ := by
  rw [Distinct, nodes, List.map_map] at ht
  exact List.inj_on_of_nodup_map ht hσ hτ h

theorem Distinct.node_eq {t u w : Tree} (ht : t.Distinct) (hu : u ∈ t.nodes) (hw : w ∈ t.nodes)
    (h : u.id? = w.id?) : u = w :=
  List.inj_on_of_nodup_map ht hu hw h

theorem map_id?_foldr_gather (entries : List (Option Listed × Nat)) :
    ((entries.foldr gather []).flatMap nodes).map id? =
      (entries.filter (·.1.isSome)).map (some ·.2) := by
  induction entries with
  | nil => rfl
  | cons entry rest ih =>
    obtain ⟨e, n⟩ := entry
    cases e with
    | none => simpa [gather] using ih
    | some e =>
      -- the children and what follows them are all that followed the entry
      have hsplit (ts : List Tree) : (ts.take e.arity).flatMap nodes ++
          (ts.drop e.arity).flatMap nodes = ts.flatMap nodes := by
        rw [← List.flatMap_append, List.take_append_drop]
      simp [gather, nodes_node, hsplit, ih, id?]

/-- The nodes of a listed tree are numbered by their positions in the listing. -/
theorem ofListing_distinct (entries : List (Option Listed)) : (ofListing entries).Distinct := by
  have hall : ((entries.zipIdx.foldr gather []).flatMap nodes |>.map id?).Nodup := by
    rw [map_id?_foldr_gather]
    have hpos : (entries.zipIdx.map (·.2)).Nodup := by
      rw [List.zipIdx_map_snd]
      exact List.nodup_range'
    have hkept : ((entries.zipIdx.filter (·.1.isSome)).map (·.2)).Nodup :=
      List.Nodup.sublist (List.filter_sublist.map _) hpos
    have := hkept.map (f := some) fun _ _ => Option.some.inj
    rwa [List.map_map] at this
  unfold ofListing
  cases h : entries.zipIdx.foldr gather [] with
  | nil => simp [Distinct]
  | cons t rest =>
    rw [h, List.flatMap_cons, List.map_append] at hall
    exact (List.nodup_append.mp hall).1

end Tree

end CognitiveLoad
