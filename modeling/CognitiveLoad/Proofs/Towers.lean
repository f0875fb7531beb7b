import Mathlib.Tactic.Linarith
import Mathlib.Tactic.Ring
import CognitiveLoad.Proofs.Chains
import CognitiveLoad.Proofs.Flow
import CognitiveLoad.Proofs.Shift

/-!
How much nesting can add. A construct that opens a level adds, besides one, the number of such
constructs around it, so nesting adds one for every pair of them of which one stands in the other.
It adds most where each stands in the next, as in a tower.

* `length_flat_charges`: nesting apart, the constructs and the logical expressions add one each;
* `bounded_surplus`: nesting adds at most one for each pair of constructs that open a level, and
  that much exactly if they stand in line;
* `costAt_of_tower`: what a tower of constructs adds;
* `quadratic_bound`: the bounds of a score.
-/

namespace CognitiveLoad

open CognitiveLoad.Metric

/-! ## Addresses -/

namespace Tree

/-- A place with its address: the child positions that lead down to it. -/
structure Site where
  address : List Nat
  place : Placed

/-- The same place, seen from the node above in which it stands at the given child position. -/
def Site.under (i : Nat) (σ : Site) : Site :=
  ⟨i :: σ.address, σ.place⟩

end Tree

/-- Of any two addresses one leads on to the other. -/
def InLine (as : List (List Nat)) : Prop :=
  ∀ a ∈ as, ∀ b ∈ as, a <+: b ∨ b <+: a

instance (as : List (List Nat)) : Decidable (InLine as) :=
  inferInstanceAs (Decidable (∀ a ∈ as, ∀ b ∈ as, a <+: b ∨ b <+: a))

theorem inLine_map_cons (i : Nat) (as : List (List Nat)) :
    InLine (as.map (i :: ·)) ↔ InLine as := by
  simp [InLine, List.cons_prefix_cons]

theorem inLine_cons_nil (as : List (List Nat)) : InLine ([] :: as) ↔ InLine as := by
  simp [InLine]

/-- Addresses in different parts of a tree are in line only if one of the parts has none. -/
theorem inLine_append {as bs : List (List Nat)}
    (h : ∀ a ∈ as, ∀ b ∈ bs, ¬ a <+: b ∧ ¬ b <+: a) :
    InLine (as ++ bs) ↔ InLine as ∧ InLine bs ∧ (as = [] ∨ bs = []) := by
  constructor
  · intro hline
    refine ⟨fun a ha b hb => hline a (by simp [ha]) b (by simp [hb]),
      fun a ha b hb => hline a (by simp [ha]) b (by simp [hb]), ?_⟩
    by_contra hne
    obtain ⟨ha, hb⟩ := not_or.mp hne
    obtain ⟨a, ha⟩ := List.exists_mem_of_ne_nil as ha
    obtain ⟨b, hb⟩ := List.exists_mem_of_ne_nil bs hb
    rcases hline a (by simp [ha]) b (by simp [hb]) with hab | hba
    · exact (h a ha b hb).1 hab
    · exact (h a ha b hb).2 hba
  · rintro ⟨has, hbs, rfl | rfl⟩
    · simpa using hbs
    · simpa using has

/-- A number of nested pairs among addresses: at most as many as there are pairs, and as many
exactly if the addresses are in line. -/
structure Bounded (pairs : Int) (as : List (List Nat)) : Prop where
  le : 2 * pairs + as.length ≤ as.length * as.length
  eq_iff : 2 * pairs + as.length = as.length * as.length ↔ InLine as

namespace Bounded

variable {m n : Int} {as bs : List (List Nat)}

theorem nil : Bounded 0 [] :=
  ⟨by simp, by simp [InLine]⟩

theorem under (h : Bounded n as) (i : Nat) : Bounded n (as.map (i :: ·)) where
  le := by simpa using h.le
  eq_iff := by
    rw [inLine_map_cons, List.length_map]
    exact h.eq_iff

/-- An address above all others is in a pair with each of them. -/
theorem cons_nil (h : Bounded n as) : Bounded (n + as.length) ([] :: as) where
  le := by
    have := h.le
    push_cast [List.length_cons]
    linarith
  eq_iff := by
    rw [inLine_cons_nil, ← h.eq_iff]
    push_cast [List.length_cons]
    constructor <;> intro h <;> linarith

theorem append (ha : Bounded m as) (hb : Bounded n bs)
    (h : ∀ a ∈ as, ∀ b ∈ bs, ¬ a <+: b ∧ ¬ b <+: a) : Bounded (m + n) (as ++ bs) := by
  -- No address of one part is in a pair with one of the other: all mixed pairs are lost, and the
  -- bound is reached only if there are none.
  have hcross : (0 : Int) ≤ as.length * bs.length := by positivity
  have hsquare : ((as ++ bs).length : Int) * (as ++ bs).length =
      as.length * as.length + bs.length * bs.length + 2 * (as.length * bs.length) := by
    push_cast [List.length_append]
    ring
  have hle := ha.le
  have hle' := hb.le
  refine ⟨?_, ?_⟩
  · rw [hsquare]
    push_cast [List.length_append]
    linarith
  · rw [inLine_append h, ← ha.eq_iff, ← hb.eq_iff, hsquare]
    have hempty : as = [] ∨ bs = [] ↔ (as.length : Int) * bs.length = 0 := by
      simp
    rw [hempty]
    push_cast [List.length_append]
    constructor
    · intro heq
      refine ⟨?_, ?_, ?_⟩ <;> linarith
    · rintro ⟨h₁, h₂, h₃⟩
      linarith

end Bounded

/-! ## Constructs that open a level -/

namespace Vocabulary

variable (v : Vocabulary)

mutual

/-- The sites at and below a tree that no function stands above, in document order. -/
def sitesBelow (parent : Tree) : Tree → List Tree.Site
  | .missing => []
  | .node info cs =>
    ⟨[], ⟨parent, .node info cs⟩⟩ ::
      if v.roleOf (.node info cs) = .function then [] else sitesBelowAll (.node info cs) 0 cs

/-- The sites in trees that stand at child positions from `i` on. -/
def sitesBelowAll (parent : Tree) (i : Nat) : List Tree → List Tree.Site
  | [] => []
  | t :: rest => (sitesBelow parent t).map (.under i) ++ sitesBelowAll parent (i + 1) rest

end

def sites (p : Tree.Placed) : List Tree.Site :=
  v.sitesBelow p.parent p.node

theorem map_place_sitesBelowAll {ts : List Tree} {parent : Tree}
    (h : ∀ t ∈ ts, (v.sitesBelow parent t).map (·.place) = v.visited ⟨parent, t⟩) (i : Nat) :
    (v.sitesBelowAll parent i ts).map (·.place) = ts.flatMap fun t => v.visited ⟨parent, t⟩ := by
  induction ts generalizing i with
  | nil => rfl
  | cons t rest ih =>
    have ht : ((v.sitesBelow parent t).map (Tree.Site.under i)).map (·.place) =
        v.visited ⟨parent, t⟩ := by
      rw [List.map_map, ← h t (List.mem_cons_self ..)]
      rfl
    rw [sitesBelowAll, List.map_append, ht, List.flatMap_cons,
      ih fun u hu => h u (List.mem_cons_of_mem _ hu)]

/-- The sites are the visited places. -/
theorem map_place_sites (p : Tree.Placed) : (v.sites p).map (·.place) = v.visited p := by
  obtain ⟨parent, t⟩ := p
  rw [sites]
  induction t using Tree.induct generalizing parent with
  | missing => rfl
  | node info cs ih =>
    by_cases hf : v.roleOf (.node info cs) = .function
    · rw [sitesBelow, if_pos hf, v.visited_of_function hf]
      rfl
    · rw [sitesBelow, if_neg hf, v.visited_node hf, List.map_cons,
        v.map_place_sitesBelowAll fun c hc => ih c hc _]

/-- The addresses of those sites that open a level. -/
def openersOf (sites : List Tree.Site) : List (List Nat) :=
  (sites.filter fun σ => Opening v σ.place.parent σ.place.node).map (·.address)

/-- The addresses of the visited constructs that open a level. -/
def openers (p : Tree.Placed) : List (List Nat) :=
  v.openersOf (v.sites p)

theorem length_openers (p : Tree.Placed) : (v.openers p).length = v.openings p := by
  rw [openers, openersOf, List.length_map, ← List.countP_eq_length_filter, openings,
    ← map_place_sites, List.countP_map]
  rfl

theorem openersOf_map_under (i : Nat) (sites : List Tree.Site) :
    v.openersOf (sites.map (.under i)) = (v.openersOf sites).map (i :: ·) := by
  simp only [openersOf, List.filter_map, List.map_map]
  rfl

theorem openersOf_sitesBelowAll_cons (parent t : Tree) (i : Nat) (rest : List Tree) :
    v.openersOf (v.sitesBelowAll parent i (t :: rest)) =
      (v.openers ⟨parent, t⟩).map (i :: ·) ++
        v.openersOf (v.sitesBelowAll parent (i + 1) rest) := by
  rw [sitesBelowAll, openersOf, List.filter_append, List.map_append]
  congr 1
  exact v.openersOf_map_under i _

theorem openers_of_function {t : Tree} (h : v.roleOf t = .function) (parent : Tree) :
    v.openers ⟨parent, t⟩ = [] := by
  rw [← List.length_eq_zero_iff, length_openers, v.openings_of_function h]

theorem openers_node {info : NodeInfo} {cs : List Tree}
    (h : v.roleOf (.node info cs) ≠ .function) (parent : Tree) :
    v.openers ⟨parent, .node info cs⟩ =
      (if Opening v parent (.node info cs) then [[]] else []) ++
        v.openersOf (v.sitesBelowAll (.node info cs) 0 cs) := by
  rw [openers, sites, sitesBelow, if_neg h, openersOf, List.filter_cons]
  by_cases ho : Opening v parent (.node info cs)
  · simp [ho, openersOf]
  · simp [ho, openersOf]

theorem length_openersOf_sitesBelowAll (parent : Tree) (i : Nat) (ts : List Tree) :
    (v.openersOf (v.sitesBelowAll parent i ts)).length =
      (ts.map fun t => v.openings ⟨parent, t⟩).sum := by
  induction ts generalizing i with
  | nil => rfl
  | cons t rest ih =>
    rw [openersOf_sitesBelowAll_cons, List.length_append, List.length_map, length_openers, ih,
      List.map_cons, List.sum_cons]

/-- An address in trees from a child position on starts with such a position. -/
theorem exists_head_of_mem_openersOf {parent : Tree} {i : Nat} {ts : List Tree} {a : List Nat}
    (h : a ∈ v.openersOf (v.sitesBelowAll parent i ts)) : ∃ j b, i ≤ j ∧ a = j :: b := by
  induction ts generalizing i with
  | nil => cases h
  | cons t rest ih =>
    rw [openersOf_sitesBelowAll_cons, List.mem_append] at h
    rcases h with h | h
    · obtain ⟨b, -, rfl⟩ := List.mem_map.mp h
      exact ⟨i, b, Nat.le_refl i, rfl⟩
    · obtain ⟨j, b, hj, rfl⟩ := ih h
      exact ⟨j, b, by omega, rfl⟩

/-- No address in a child leads on to one in a later child, or the other way round. -/
theorem not_prefix_of_mem_openersOf {parent : Tree} {i : Nat} {ts : List Tree}
    {as : List (List Nat)} {a b : List Nat} (ha : a ∈ as.map (i :: ·))
    (hb : b ∈ v.openersOf (v.sitesBelowAll parent (i + 1) ts)) : ¬ a <+: b ∧ ¬ b <+: a := by
  obtain ⟨a', -, rfl⟩ := List.mem_map.mp ha
  obtain ⟨j, b', hj, rfl⟩ := v.exists_head_of_mem_openersOf hb
  simp only [List.cons_prefix_cons]
  constructor <;> intro h <;> omega

end Vocabulary

/-- A control structure that adds one and opens no level: a conditional that goes on with an earlier
one, an `else if`, a case, or an `else` with a branch of its own. -/
def Metric.Branching (v : Vocabulary) (parent node : Tree) : Prop :=
  Chained v parent node ∨ v.roleOf node = .elseIf ∨ v.roleOf node = .caseBranch ∨
    v.roleOf node = .elseBranch ∧ ¬ Wrapping v node

instance (v : Vocabulary) (parent node : Tree) : Decidable (Branching v parent node) :=
  inferInstanceAs (Decidable (_ ∨ _ ∨ _ ∨ _))

namespace Scorer

variable (s : Scorer) (source : ByteArray)

/-! ## What is added apart from nesting -/

theorem factors_of_function {t : Tree} (h : s.vocabulary.roleOf t = .function) (level : Nat)
    (parent : Tree) : s.factors source level parent t = [] := by
  simp [factors, h, Role.isControl, Role.nests]

theorem not_branching_of_opening {v : Vocabulary} {parent node : Tree}
    (h : Opening v parent node) : ¬ Branching v parent node := by
  obtain ⟨hnests, hchained⟩ := h
  rintro (hc | hr | hr | ⟨hr, -⟩)
  · exact hchained hc
  · simp [hr, Role.nests] at hnests
  · simp [hr, Role.nests] at hnests
  · simp [hr, Role.nests] at hnests

theorem factors_of_branching {parent node : Tree} (h : Branching s.vocabulary parent node)
    (level : Nat) :
    ∃ f, s.factors source level parent node = [f] ∧ f.increment = 1 ∧ f.category ≠ .nesting ∧
      f.category ≠ .fundamental := by
  rw [← share_eq_factors]
  rcases h with hc | hr | hr | ⟨hr, hw⟩
  · refine ⟨⟨"else if (hybrid)", 1, node.line, .hybrid⟩, ?_, rfl, by simp, by simp⟩
    simp [share, hc]
  · refine ⟨⟨"else if (hybrid)", 1, node.line, .hybrid⟩, ?_, rfl, by simp, by simp⟩
    simp [share, hr]
  · refine ⟨⟨s!"{Role.caseBranch.label} (structural)", 1, node.line, .structural⟩, ?_, rfl,
      by simp, by simp⟩
    simp [share, Chained, Wrapping, hr, Role.isControl, Role.nests]
  · refine ⟨⟨s!"{Role.elseBranch.label} (structural)", 1, node.line, .structural⟩, ?_, rfl,
      by simp, by simp⟩
    simp [share, Chained, hw, hr, Role.isControl, Role.nests]

/-- Any other node adds for a logical expression or not at all. -/
theorem fundamental_of_mem_factors {level : Nat} {parent node : Tree}
    (ho : ¬ Opening s.vocabulary parent node) (hb : ¬ Branching s.vocabulary parent node)
    {f : Factor} (hf : f ∈ s.factors source level parent node) : f.category = .fundamental := by
  by_cases hr : s.vocabulary.roleOf node = .operator
  · simp only [factors, hr, if_true] at hf
    split at hf
    · exact (s.mem_operatorFactors source hf).1
    · cases hf
  · exfalso
    have hchained : ¬ Chained s.vocabulary parent node := fun hc => hb (.inl hc)
    have hnests : (s.vocabulary.roleOf node).nests = false := by
      simpa [Opening, hchained] using ho
    have hnil : s.factors source level parent node = [] := by
      cases hrole : s.vocabulary.roleOf node with
      | elseIf => exact absurd (.inr (.inl hrole)) hb
      | caseBranch => exact absurd (.inr (.inr (.inl hrole))) hb
      | elseBranch =>
        rw [s.factors_eq_nil_iff source hrole]
        by_contra hw
        exact hb (.inr (.inr (.inr ⟨hrole, hw⟩)))
      | operator => exact absurd hrole hr
      | function => exact s.factors_of_function source hrole level parent
      | other => simp [factors, hrole, Role.isControl, Role.nests]
      | _ => simp [hrole, Role.nests] at hnests
    rw [hnil] at hf
    cases hf

theorem length_flat_factors (parent node : Tree) :
    (flat (s.factors source 0 parent node)).length =
      (if Opening s.vocabulary parent node then 1 else 0) +
        (if Branching s.vocabulary parent node then 1 else 0) +
          (flat (s.factors source 0 parent node)).countP (·.category = .fundamental) := by
  by_cases ho : Opening s.vocabulary parent node
  · rw [s.factors_of_opening source ho]
    simp [flat, ho, not_branching_of_opening ho]
  · by_cases hb : Branching s.vocabulary parent node
    · obtain ⟨f, hf, -, hnesting, hfundamental⟩ := s.factors_of_branching source hb 0
      rw [hf]
      simp [flat, ho, hb, hnesting, hfundamental]
    · have hall : (flat (s.factors source 0 parent node)).countP (·.category = .fundamental) =
          (flat (s.factors source 0 parent node)).length := by
        rw [List.countP_eq_length]
        intro f hf
        simpa using s.fundamental_of_mem_factors source ho hb (List.mem_filter.mp hf).1
      simp [ho, hb, hall]

/-- The increments of a subtree apart from nesting are those of the visited places. -/
theorem flat_charges_eq_flatMap (level : Nat) (parent t : Tree) :
    flat (s.charges source level parent t) =
      (s.vocabulary.visited ⟨parent, t⟩).flatMap fun q =>
        flat (s.factors source 0 q.parent q.node) := by
  induction t using Tree.induct generalizing level parent with
  | missing => rfl
  | node info cs ih =>
    by_cases hf : s.vocabulary.roleOf (.node info cs) = .function
    · rw [s.charges_of_function source hf, s.vocabulary.visited_of_function hf]
      simp [s.factors_of_function source hf]
    · rw [s.charges_node source hf, s.vocabulary.visited_node hf, flat_append, flat_flatMap,
        List.flatMap_cons, s.flat_factors source level, List.flatMap_assoc]
      congr 1
      apply List.flatMap_congr
      intro c hc
      exact ih c hc _ _

theorem length_flatMap_flat (qs : List Tree.Placed) :
    (qs.flatMap fun q => flat (s.factors source 0 q.parent q.node)).length =
      (qs.countP fun q => Opening s.vocabulary q.parent q.node) +
        (qs.countP fun q => Branching s.vocabulary q.parent q.node) +
          (qs.flatMap fun q => flat (s.factors source 0 q.parent q.node)).countP
            (·.category = .fundamental) := by
  induction qs with
  | nil => rfl
  | cons q rest ih =>
    have hq := s.length_flat_factors source q.parent q.node
    simp only [List.flatMap_cons, List.length_append, List.countP_append, List.countP_cons,
      decide_eq_true_eq]
    omega

/-- Nesting apart, each construct that opens a level, each that branches and each logical expression
that counts has one increment. -/
theorem length_flat_charges (level : Nat) (parent t : Tree) :
    (flat (s.charges source level parent t)).length =
      s.vocabulary.openings ⟨parent, t⟩ +
        ((s.vocabulary.visited ⟨parent, t⟩).countP fun q =>
          Branching s.vocabulary q.parent q.node) +
          (s.charges source level parent t).countP (·.category = .fundamental) := by
  have hcount : (s.charges source level parent t).countP (·.category = .fundamental) =
      (flat (s.charges source level parent t)).countP (·.category = .fundamental) := by
    rw [flat, List.countP_filter]
    apply List.countP_congr
    intro f _
    cases f.category <;> simp
  rw [hcount, flat_charges_eq_flatMap, length_flatMap_flat]
  rfl

/-! ## What nesting adds -/

/-- Where no level is around, every increment is one, and none comes from nesting. -/
theorem mem_factors_zero {parent node : Tree} {f : Factor}
    (h : f ∈ s.factors source 0 parent node) : f.increment = 1 ∧ f.category ≠ .nesting := by
  by_cases ho : Opening s.vocabulary parent node
  · rw [s.factors_of_opening source ho] at h
    obtain rfl : f = _ := by simpa using h
    exact ⟨rfl, by simp⟩
  · by_cases hb : Branching s.vocabulary parent node
    · obtain ⟨g, hg, hone, hnesting, -⟩ := s.factors_of_branching source hb 0
      rw [hg, List.mem_singleton] at h
      rw [h]
      exact ⟨hone, hnesting⟩
    · have hfundamental := s.fundamental_of_mem_factors source ho hb h
      exact ⟨(s.mem_factors source h).2 hfundamental, by simp [hfundamental]⟩

theorem sum_factors_zero (parent node : Tree) :
    ((s.factors source 0 parent node).map (·.increment)).sum =
      (flat (s.factors source 0 parent node)).length := by
  have hflat : flat (s.factors source 0 parent node) = s.factors source 0 parent node := by
    rw [flat, List.filter_eq_self]
    intro f hf
    simpa using (s.mem_factors_zero source hf).2
  have hones := List.sum_eq_card_nsmul ((s.factors source 0 parent node).map (·.increment)) 1 (by
    intro n hn
    obtain ⟨f, hf, rfl⟩ := List.mem_map.mp hn
    exact (s.mem_factors_zero source hf).1)
  rw [hflat, hones]
  simp

/-- What nesting adds to a subtree with no levels around it. -/
def surplus (parent t : Tree) : Int :=
  ((s.charges source 0 parent t).map (·.increment)).sum -
    (flat (s.charges source 0 parent t)).length

/-- Increments of at least one come to at least their number. -/
theorem length_flat_le_sum {fs : List Factor} (h : ∀ f ∈ fs, 1 ≤ f.increment) :
    ((flat fs).length : Int) ≤ (fs.map (·.increment)).sum := by
  induction fs with
  | nil => simp [flat]
  | cons f rest ih =>
    have hf := h f (List.mem_cons_self ..)
    have hrest := ih fun g hg => h g (List.mem_cons_of_mem _ hg)
    have hlength : (flat (f :: rest)).length ≤ 1 + (flat rest).length := by
      by_cases hc : f.category = .nesting <;> simp [flat, hc, Nat.add_comm]
    rw [List.map_cons, List.sum_cons]
    omega

theorem surplus_nonneg (parent t : Tree) : 0 ≤ s.surplus source parent t := by
  have hlength : ((flat (s.charges source 0 parent t)).length : Int) ≤
      ((s.charges source 0 parent t).map (·.increment)).sum :=
    length_flat_le_sum fun f hf => (s.mem_charges source hf).1
  rw [surplus]
  omega

theorem sum_map_surplus (u : Tree) (ts : List Tree) :
    (ts.map (s.surplus source u)).sum =
      ((ts.flatMap (s.charges source 0 u)).map (·.increment)).sum -
        (flat (ts.flatMap (s.charges source 0 u))).length := by
  induction ts with
  | nil => simp [flat]
  | cons t rest ih =>
    simp only [List.map_cons, List.sum_cons, List.flatMap_cons, List.map_append, List.sum_append,
      flat_append, List.length_append, ih, surplus]
    omega

/-- Nesting adds what it adds in the children, and if these are one level deeper, one more for each
construct in them that opens a level. -/
theorem surplus_node {info : NodeInfo} {cs : List Tree}
    (h : s.vocabulary.roleOf (.node info cs) ≠ .function) (parent : Tree) :
    s.surplus source parent (.node info cs) =
      (cs.map (s.surplus source (.node info cs))).sum +
        (if Opening s.vocabulary parent (.node info cs) then 1 else 0 : Nat) *
          ((cs.map fun c => s.vocabulary.openings ⟨.node info cs, c⟩).sum : Nat) := by
  have hinside : (if s.opensLevel parent (.node info cs) then 0 + 1 else 0) =
      if Opening s.vocabulary parent (.node info cs) then 1 else 0 := by
    simp only [opensLevel_iff]
  rw [surplus, s.charges_node source h, hinside]
  generalize (if Opening s.vocabulary parent (.node info cs) then 1 else 0) = inside
  have hsum : ((cs.flatMap (s.charges source inside (.node info cs))).map (·.increment)).sum =
      ((cs.flatMap (s.charges source 0 (.node info cs))).map (·.increment)).sum +
        inside * ((cs.map fun c => s.vocabulary.openings ⟨.node info cs, c⟩).sum : Nat) :=
    sum_flatMap_shift fun c _ => by simpa using s.sum_charges source 0 inside (.node info cs) c
  have hflat : flat (cs.flatMap (s.charges source inside (.node info cs))) =
      flat (cs.flatMap (s.charges source 0 (.node info cs))) := by
    rw [flat_flatMap, flat_flatMap]
    exact List.flatMap_congr fun c _ => s.flat_charges source inside 0 (.node info cs) c
  rw [sum_map_surplus, List.map_append, List.sum_append, hsum, flat_append, List.length_append,
    hflat, s.sum_factors_zero source]
  push_cast
  ring

theorem bounded_sum_surplus (u : Tree) {ts : List Tree}
    (h : ∀ t ∈ ts, Bounded (s.surplus source u t) (s.vocabulary.openers ⟨u, t⟩)) (i : Nat) :
    Bounded (ts.map (s.surplus source u)).sum
      (s.vocabulary.openersOf (s.vocabulary.sitesBelowAll u i ts)) := by
  induction ts generalizing i with
  | nil => exact .nil
  | cons t rest ih =>
    rw [List.map_cons, List.sum_cons, Vocabulary.openersOf_sitesBelowAll_cons]
    have ht := (h t (List.mem_cons_self ..)).under i
    have hrest := ih (fun c hc => h c (List.mem_cons_of_mem _ hc)) (i + 1)
    exact ht.append hrest fun a ha b hb => s.vocabulary.not_prefix_of_mem_openersOf ha hb

/-- Nesting adds one for each pair of constructs that open a level, at most, and that much exactly
if they stand in line. -/
theorem bounded_surplus (parent t : Tree) :
    Bounded (s.surplus source parent t) (s.vocabulary.openers ⟨parent, t⟩) := by
  induction t using Tree.induct generalizing parent with
  | missing => exact .nil
  | node info cs ih =>
    by_cases hf : s.vocabulary.roleOf (.node info cs) = .function
    · rw [surplus, s.charges_of_function source hf, s.vocabulary.openers_of_function hf]
      exact .nil
    · have hbelow := s.bounded_sum_surplus source (.node info cs) (fun c hc => ih c hc _) 0
      rw [s.surplus_node source hf, s.vocabulary.openers_node hf]
      by_cases ho : Opening s.vocabulary parent (.node info cs)
      -- The construct puts every opener below it one level deeper, and is in line with each.
      · have hlength := s.vocabulary.length_openersOf_sitesBelowAll (.node info cs) 0 cs
        simpa [ho, ← hlength] using hbelow.cons_nil
      · simpa [ho] using hbelow

/-! ## Towers -/

/-- A number of nesting constructs, each inside the one before, with code that steers nothing around
and between them. -/
inductive Tower (v : Vocabulary) : Tree → Nat → Prop
  | bare {t : Tree} (h : Flow.Straight v t) : Tower v t 0
  | block {info : NodeInfo} (before after : List Tree) {t : Tree} {n : Nat}
      (hrole : v.roleOf (.node info (before ++ t :: after)) = .other)
      (hbeside : ∀ u ∈ before ++ after, Flow.Straight v u) (h : Tower v t n) :
      Tower v (.node info (before ++ t :: after)) n
  | construct {info : NodeInfo} (before after : List Tree) {t : Tree} {n : Nat}
      (hrole : (v.roleOf (.node info (before ++ t :: after))).nests = true)
      (hbeside : ∀ u ∈ before ++ after, Flow.Straight v u) (h : Tower v t n) :
      Tower v (.node info (before ++ t :: after)) (n + 1)

theorem profile_beside {ts : List Tree} (h : ∀ u ∈ ts, Flow.Straight s.vocabulary u) (level : Nat)
    (parent : Tree) : ts.flatMap (s.profile source level parent) = [] := by
  rw [List.flatMap_eq_nil_iff]
  intro u hu
  exact Flow.profile_of_straight s source (h u hu) level parent

/-- Where only one of several trees steers anything. -/
theorem costUnder_of_beside {before after : List Tree} {t : Tree}
    (h : ∀ u ∈ before ++ after, Flow.Straight s.vocabulary u) (level : Nat) (parent : Tree) :
    s.costUnder source level parent (before ++ t :: after) = s.costAt source level ⟨parent, t⟩ := by
  have hstraight (ts : List Tree) (hts : ∀ u ∈ ts, u ∈ before ++ after) :
      s.costUnder source level parent ts = 0 := by
    rw [costUnder_eq_sum, s.profile_beside source (fun u hu => h u (hts u hu)) level]
    rfl
  rw [costUnder_split, hstraight before (by simp +contextual),
    hstraight after (by simp +contextual)]
  omega

theorem sum_opening (level : Nat) : ((opening level).map (·.2)).sum = 1 + level := by
  by_cases hl : 0 < level
  · simp [opening, hl]
  · simp [opening, Nat.eq_zero_of_not_pos hl]

theorem costAt_of_tower {t : Tree} {n : Nat} (h : Tower s.vocabulary t n) (level : Nat)
    {parent : Tree} (hc : ¬ Chained s.vocabulary parent t) :
    2 * s.costAt source level ⟨parent, t⟩ = n * (2 * level + n + 1) := by
  induction h generalizing level parent with
  | @bare t h =>
    rw [costAt_eq_sum, Flow.profile_of_straight s source h level parent]
    simp
  | @block info before after t n hrole hbeside _ ih =>
    have hinner : ¬ Chained s.vocabulary (.node info (before ++ t :: after)) t := by
      simp [Chained, hrole]
    have hcost := s.costAt_of_profile source [] (s.profile_of_other source level parent hrole)
    rw [hcost, Tree.children, s.costUnder_of_beside source hbeside, ← ih level hinner]
    simp
  | @construct info before after t n hrole hbeside _ ih =>
    have hinner : ¬ Chained s.vocabulary (.node info (before ++ t :: after)) t := by
      rintro ⟨-, hr | hr⟩ <;> simp [hr, Role.nests] at hrole
    have hcost := s.costAt_of_profile source _ (s.profile_of_nests source level parent hrole hc)
    have hbelow := ih (level + 1) hinner
    rw [hcost, Tree.children, s.costUnder_of_beside source hbeside, sum_opening, Int.mul_add,
      hbelow]
    push_cast
    ring

theorem two_mul_triangle (n : Nat) : 2 * ((n * (n + 1) / 2 : Nat) : Int) = n * n + n := by
  have h : 2 * (n * (n + 1) / 2) = n * n + n := by
    rw [Nat.two_mul_div_two_of_even (Nat.even_mul_succ_self n), Nat.mul_succ]
  exact_mod_cast h

/-- **Quadratic bound.** Let `m` constructs of a body open a level, let `c` others branch, and let
`k` increments be for logical expressions. A score is at least `m + c + k`, and at most that with
the `m`-th triangular number for `m`; it is that much exactly if of any two constructs that open a
level one stands in the other. So a tower of `n` nesting constructs of any kinds scores the `n`-th
triangular number. -/
theorem quadratic_bound (s : Scorer) (text : String) (p : Tree.Placed) :
    let sc := (s.score text p).value
    let body := s.bodyOf p
    let m := s.vocabulary.openings body
    let c := (s.vocabulary.visited body).countP fun q => Branching s.vocabulary q.parent q.node
    let k := sc.factors.countP (·.category = .fundamental)
    (m + c + k : Nat) ≤ sc.total ∧ sc.total ≤ (m * (m + 1) / 2 + c + k : Nat) ∧
      (sc.total = (m * (m + 1) / 2 + c + k : Nat) ↔ InLine (s.vocabulary.openers body)) ∧
      ∀ n, Tower s.vocabulary body.node n → ¬ Chained s.vocabulary body.parent body.node →
        sc.total = (n * (n + 1) / 2 : Nat) := by
  intro sc body m c k
  have hsum : sc.total =
      ((s.charges text.toUTF8 0 body.parent body.node).map (·.increment)).sum := by
    simp only [sc, body, score_value]
  have hflat : (flat (s.charges text.toUTF8 0 body.parent body.node)).length = m + c + k := by
    simp only [k, sc, score_value]
    exact s.length_flat_charges text.toUTF8 0 body.parent body.node
  have htotal : sc.total = (m + c + k : Nat) + s.surplus text.toUTF8 body.parent body.node := by
    rw [hsum, surplus, hflat]
    omega
  have hnonneg := s.surplus_nonneg text.toUTF8 body.parent body.node
  obtain ⟨hle, heq⟩ := s.bounded_surplus text.toUTF8 body.parent body.node
  rw [show (s.vocabulary.openers ⟨body.parent, body.node⟩).length = m from
    s.vocabulary.length_openers body] at hle heq
  have hm := two_mul_triangle m
  simp only [Nat.cast_add] at htotal ⊢
  refine ⟨by omega, by linarith, ?_, ?_⟩
  · rw [← heq]
    constructor <;> intro h <;> linarith
  · intro n htower hhead
    have hcost := s.costAt_of_tower text.toUTF8 htower 0 hhead
    have hn := two_mul_triangle n
    have hrun : s.costAt text.toUTF8 0 ⟨body.parent, body.node⟩ = sc.total := by
      rw [hsum, costAt, score_run_visit, Score.foldl_push]
      simp
    rw [hrun] at hcost
    simp only [Nat.cast_zero] at hcost
    linarith

/-- Two loops and a conditional, one in the other, with other code beside them. -/
def mixedTower : Tree :=
  .node ⟨0, "compound_statement", true, some "body", 0, 0, 0, 4⟩
    [leaf "comment", .node ⟨0, "for_range_loop", true, none, 0, 0, 1, 4⟩
      [leaf "identifier", .node ⟨0, "while_statement", true, none, 0, 0, 2, 4⟩
        [leaf "condition_clause", .node ⟨0, "if_statement", true, none, 0, 0, 3, 4⟩
          [leaf "return_statement"]]], leaf "return_statement"]

theorem straight_leaf {v : Vocabulary} {type : String} (h : v.roleOf (leaf type) = .other) :
    Flow.Straight v (leaf type) := by
  intro u hu
  obtain rfl : u = leaf type := by simpa [leaf, Tree.nodes_node] using hu
  exact .inl h

theorem tower_sample : Tower Dialect.cpp.vocabulary mixedTower 3 := by
  have hbeside : ∀ types : List String,
      (∀ type ∈ types, Dialect.cpp.vocabulary.roleOf (leaf type) = .other) →
        ∀ u ∈ types.map leaf, Flow.Straight Dialect.cpp.vocabulary u := by
    intro types h u hu
    obtain ⟨type, htype, rfl⟩ := List.mem_map.mp hu
    exact straight_leaf (h type htype)
  exact .block [leaf "comment"] [leaf "return_statement"] rfl
    (hbeside ["comment", "return_statement"] (by decide +kernel))
    (.construct [leaf "identifier"] [] rfl (hbeside ["identifier"] (by decide +kernel))
      (.construct [leaf "condition_clause"] [] rfl
        (hbeside ["condition_clause"] (by decide +kernel))
        (.construct [] [] rfl (hbeside [] (by decide +kernel))
          (.bare (straight_leaf rfl)))))

/-- The tower scores one, two and three; with two loops side by side the bound is not reached. -/
theorem quadratic_bound_sample :
    let s : Scorer := ⟨Dialect.cpp.vocabulary, true⟩
    let pair : Tree := .node ⟨0, "compound_statement", true, none, 0, 0, 0, 0⟩
      [leaf "while_statement", leaf "while_statement"]
    Tower s.vocabulary mixedTower 3 ∧ (s.score "" ⟨.missing, mixedTower⟩).value.total = 6 ∧
      ¬ InLine (s.vocabulary.openers ⟨.missing, pair⟩) ∧
      (s.score "" ⟨.missing, pair⟩).value.total ≠ 3 := by
  intro s pair
  obtain ⟨-, -, -, htower⟩ := quadratic_bound s "" ⟨.missing, mixedTower⟩
  obtain ⟨-, -, hline, -⟩ := quadratic_bound s "" ⟨.missing, pair⟩
  have hpair : ¬ InLine (s.vocabulary.openers ⟨.missing, pair⟩) := by decide +kernel
  refine ⟨tower_sample, htower 3 tower_sample (by decide +kernel), hpair, ?_⟩
  intro htotal
  exact hpair (hline.mp (htotal.trans (by decide +kernel)))

end Scorer

end CognitiveLoad
