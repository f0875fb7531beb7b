import Mathlib.Algebra.BigOperators.Group.List.Basic
import CognitiveLoad.Proofs.Profile

/-!
Chains of conditionals. An `else` and the conditional in it are two nodes of the tree and one branch
of the chain: the `else` looks at its named children and adds nothing, the conditional looks at its
parent and adds one.

* `factors_eq_nil_iff`: an `else` adds nothing exactly if a conditional is among its children;
* `costAt_below_chain`: the links of a chain add one each, and all that stands in them is met at one
  level;
* `else_if_counts_once`: so a chain costs its level and one for each branch.
-/

namespace CognitiveLoad

open CognitiveLoad.Metric

/-- Trees in which an `else` has one statement. Besides comments an `else` has at most one named
child, a conditional in an `else` is named, and no conditional is a child of an `else if`. -/
structure Vocabulary.Orderly (v : Vocabulary) (t : Tree) : Prop where
  single : ∀ u ∈ t.nodes, v.roleOf u = .elseBranch →
    (u.namedChildren.filter (·.type ≠ "comment")).length ≤ 1
  named : ∀ u ∈ t.nodes, v.roleOf u = .elseBranch →
    ∀ c ∈ u.children, v.roleOf c = .conditional → c.isNamed = true
  unlinked : ∀ u ∈ t.nodes, v.roleOf u = .elseIf → ∀ c ∈ u.children, v.roleOf c ≠ .conditional

theorem Vocabulary.Orderly.of_mem {v : Vocabulary} {t u : Tree} (h : v.Orderly t)
    (hu : u ∈ t.nodes) : v.Orderly u where
  single w hw := h.single w ((Tree.nodes_sublist hu).subset hw)
  named w hw := h.named w ((Tree.nodes_sublist hu).subset hw)
  unlinked w hw := h.unlinked w ((Tree.nodes_sublist hu).subset hw)

/-- A child with a role is a node of the tree. -/
theorem Vocabulary.mem_nodes_of_role (v : Vocabulary) {t c : Tree} (hc : c ∈ t.children)
    (h : v.roleOf c ≠ .other) : c ∈ t.nodes := by
  cases t with
  | missing => cases hc
  | node info cs =>
    cases c with
    | missing => exact absurd rfl h
    | node link branch => exact (Tree.nodes_child_sublist hc).subset (Tree.self_mem_nodes rfl)

theorem Dialect.type_ne_comment (d : Dialect) {t : Tree}
    (h : d.vocabulary.roleOf t = .conditional) : t.type ≠ "comment" := by
  cases t with
  | missing => cases h
  | node info cs =>
    intro (htype : info.type = "comment")
    rw [Vocabulary.roleOf, htype] at h
    cases d <;> cases h

/-! ## An `else` and its conditional -/

namespace Vocabulary.Orderly

variable {d : Dialect} {t u c : Tree}

/-- A conditional in an `else` is its only statement. -/
theorem statements_eq (h : d.vocabulary.Orderly t) (hu : u ∈ t.nodes)
    (hrole : d.vocabulary.roleOf u = .elseBranch) (hc : c ∈ u.children)
    (hcond : d.vocabulary.roleOf c = .conditional) :
    u.namedChildren.filter (·.type ≠ "comment") = [c] := by
  have hnamed : c ∈ u.namedChildren :=
    List.mem_filter.mpr ⟨hc, h.named u hu hrole c hc hcond⟩
  have hmem : c ∈ u.namedChildren.filter (·.type ≠ "comment") :=
    List.mem_filter.mpr ⟨hnamed, by simpa using d.type_ne_comment hcond⟩
  have hlength := h.single u hu hrole
  obtain ⟨c', hc'⟩ := List.length_eq_one_iff.mp
    (Nat.le_antisymm hlength (List.length_pos_of_mem hmem))
  rw [hc'] at hmem ⊢
  rw [List.mem_singleton.mp hmem]

theorem wrapping_iff (h : d.vocabulary.Orderly t) (hu : u ∈ t.nodes)
    (hrole : d.vocabulary.roleOf u = .elseBranch) :
    Wrapping d.vocabulary u ↔ ∃ c ∈ u.children, d.vocabulary.roleOf c = .conditional := by
  constructor
  · rintro ⟨-, c, hc, hcond⟩
    have hmem : c ∈ u.namedChildren.filter (·.type ≠ "comment") := by
      rw [hc]
      exact List.mem_singleton_self c
    have hnamed := (List.mem_filter.mp hmem).1
    exact ⟨c, (List.mem_filter.mp hnamed).1, hcond⟩
  · rintro ⟨c, hc, hcond⟩
    exact ⟨hrole, c, h.statements_eq hu hrole hc hcond, hcond⟩

/-- A chained conditional stands in an `else`. -/
theorem elseBranch_of_chained (h : d.vocabulary.Orderly t) (hu : u ∈ t.nodes)
    (hc : c ∈ u.children) (hchained : Chained d.vocabulary u c) :
    d.vocabulary.roleOf u = .elseBranch := by
  obtain ⟨hcond, hrole | hrole⟩ := hchained
  · exact hrole
  · exact absurd hcond (h.unlinked u hu hrole c hc)

/-- Of the children of an `else` at most one is a conditional. -/
theorem conditionals_eq (h : d.vocabulary.Orderly t) (hu : u ∈ t.nodes)
    (hrole : d.vocabulary.roleOf u = .elseBranch) (hc : c ∈ u.children)
    (hcond : d.vocabulary.roleOf c = .conditional) :
    u.children.filter (d.vocabulary.roleOf · = .conditional) = [c] := by
  -- the conditionals are found among the statements, of which `c` is the only one
  have hsame : u.children.filter (d.vocabulary.roleOf · = .conditional) =
      (u.namedChildren.filter (·.type ≠ "comment")).filter
        (d.vocabulary.roleOf · = .conditional) := by
    rw [Tree.namedChildren, List.filter_filter, List.filter_filter]
    apply List.filter_congr
    intro w hw
    by_cases hcw : d.vocabulary.roleOf w = .conditional
    · simp [hcw, h.named u hu hrole w hw hcw, d.type_ne_comment hcw]
    · simp [hcw]
  rw [hsame, h.statements_eq hu hrole hc hcond]
  simp [hcond]

end Vocabulary.Orderly

/-! ## Chains -/

namespace Vocabulary

/-- Trees as they stand under a node. -/
def within (u : Tree) (ts : List Tree) : List Tree.Placed :=
  ts.map (⟨u, ·⟩)

/-- A chain of conditionals with the number of its `else if`s, whether an `else` ends it, and all
that stands in its links: the conditions and branches, with the keywords and comments between
them. -/
inductive Chain (v : Vocabulary) : Tree → Nat → Bool → List Tree.Placed → Prop
  /-- No `else`. -/
  | last {t : Tree} (hrole : v.roleOf t = .conditional)
      (hplain : ∀ c ∈ t.children, v.roleOf c ≠ .elseBranch) :
      Chain v t 0 false (within t t.children)
  /-- An `else` with a branch of its own. -/
  | final {t e : Tree} {before after : List Tree} (hrole : v.roleOf t = .conditional)
      (hchildren : t.children = before ++ e :: after) (helse : v.roleOf e = .elseBranch)
      (hplain : ∀ c ∈ before ++ after, v.roleOf c ≠ .elseBranch)
      (hbranch : ∀ c ∈ e.children, v.roleOf c ≠ .conditional) :
      Chain v t 0 true (within t before ++ within e e.children ++ within t after)
  /-- An `else` in which the chain goes on. -/
  | more {t e next : Tree} {before after front back : List Tree} {n : Nat} {closed : Bool}
      {parts : List Tree.Placed} (hrole : v.roleOf t = .conditional)
      (hchildren : t.children = before ++ e :: after) (helse : v.roleOf e = .elseBranch)
      (hplain : ∀ c ∈ before ++ after, v.roleOf c ≠ .elseBranch)
      (hlink : e.children = front ++ next :: back) (hnext : Chain v next n closed parts) :
      Chain v t (n + 1) closed
        (within t before ++ (within e front ++ parts ++ within e back) ++ within t after)

theorem Chain.roleOf_eq {v : Vocabulary} {t : Tree} {n : Nat} {closed : Bool}
    {parts : List Tree.Placed} (h : v.Chain t n closed parts) : v.roleOf t = .conditional := by
  cases h <;> assumption

end Vocabulary

namespace Scorer

open Vocabulary (within)

variable (s : Scorer) (source : ByteArray)

/-- What a walk adds that starts at a place and a level. -/
def costAt (level : Nat) (p : Tree.Placed) : Int :=
  (s.run source { agenda := [.visit p], score := { nesting := level } }).score.total

theorem costAt_eq_sum (level : Nat) (p : Tree.Placed) :
    s.costAt source level p = ((s.profile source level p.parent p.node).map (·.2)).sum := by
  rw [costAt, score_run_visit, Score.foldl_push, profile, List.map_map]
  simp [Function.comp_def]

/-- What several trees under a node add. -/
def costUnder (level : Nat) (u : Tree) (ts : List Tree) : Int :=
  ((within u ts).map (s.costAt source level)).sum

theorem costUnder_split (level : Nat) (u c : Tree) (before after : List Tree) :
    s.costUnder source level u (before ++ c :: after) =
      s.costUnder source level u before + s.costAt source level ⟨u, c⟩ +
        s.costUnder source level u after := by
  simp [costUnder, within, Int.add_assoc]

theorem costUnder_eq_sum (level : Nat) (u : Tree) (ts : List Tree) :
    s.costUnder source level u ts = ((ts.flatMap (s.profile source level u)).map (·.2)).sum := by
  induction ts with
  | nil => rfl
  | cons t rest ih =>
    rw [List.flatMap_cons, List.map_append, List.sum_append, ← ih]
    simp [costUnder, within, costAt_eq_sum]

/-- Where the increments of a node stand in front of those of its children. -/
theorem costAt_of_profile {level inner : Nat} {parent u : Tree} (own : List (Category × Int))
    (h : s.profile source level parent u = own ++ u.children.flatMap (s.profile source inner u)) :
    s.costAt source level ⟨parent, u⟩ =
      (own.map (·.2)).sum + s.costUnder source inner u u.children := by
  rw [costAt_eq_sum, h, List.map_append, List.sum_append, costUnder_eq_sum]

/-! ## What the links add -/

theorem factors_of_chained {parent u : Tree} (h : Chained s.vocabulary parent u) (level : Nat) :
    s.factors source level parent u = [⟨"else if (hybrid)", 1, u.line, .hybrid⟩] := by
  rw [← share_eq_factors]
  simp [share, h]

theorem factors_eq_nil_iff {u : Tree} (h : s.vocabulary.roleOf u = .elseBranch) (level : Nat)
    (parent : Tree) : s.factors source level parent u = [] ↔ Wrapping s.vocabulary u := by
  rw [← share_eq_factors]
  by_cases hw : Wrapping s.vocabulary u
  · simp [share, Chained, h, hw]
  · simp [share, Chained, h, hw, Role.isControl]

section Links

variable {u : Tree} (level : Nat) (parent : Tree)

theorem costAt_of_conditional (h : s.vocabulary.roleOf u = .conditional)
    (hc : ¬ Chained s.vocabulary parent u) :
    s.costAt source level ⟨parent, u⟩ =
      1 + level + s.costUnder source (level + 1) u u.children := by
  cases u with
  | missing => cases h
  | node info cs =>
    have hnests : (s.vocabulary.roleOf (.node info cs)).nests = true := by
      rw [h]
      rfl
    rw [s.costAt_of_profile source _ (s.profile_of_nests source level parent hnests hc)]
    by_cases hl : 0 < level
    · simp [opening, hl]
    · simp [opening, Nat.eq_zero_of_not_pos hl]

theorem costAt_of_chained (h : Chained s.vocabulary parent u) :
    s.costAt source level ⟨parent, u⟩ = 1 + s.costUnder source level u u.children := by
  cases u with
  | missing => cases h.1
  | node info cs =>
    exact s.costAt_of_profile source [(.hybrid, 1)]
      (s.profile_of_chained source level parent h)

theorem costAt_of_wrapping (h : Wrapping s.vocabulary u) :
    s.costAt source level ⟨parent, u⟩ = s.costUnder source level u u.children := by
  cases u with
  | missing => cases h.1
  | node info cs =>
    have hcost := s.costAt_of_profile source []
      (s.profile_of_wrapping source level parent h)
    simpa using hcost

theorem costAt_of_else (h : s.vocabulary.roleOf u = .elseBranch)
    (hw : ¬ Wrapping s.vocabulary u) :
    s.costAt source level ⟨parent, u⟩ = 1 + s.costUnder source level u u.children := by
  cases u with
  | missing => cases h
  | node info cs =>
    exact s.costAt_of_profile source [(.structural, 1)]
      (s.profile_of_else source level parent h hw)

end Links

/-! ## What a chain adds -/

theorem costAt_below_chain (d : Dialect) (countOperators : Bool) (source : ByteArray) (level : Nat)
    {t : Tree} {n : Nat} {closed : Bool} {parts : List Tree.Placed}
    (h : d.vocabulary.Chain t n closed parts) (ht : d.vocabulary.Orderly t) :
    let s : Scorer := ⟨d.vocabulary, countOperators⟩
    s.costUnder source level t t.children =
      n + (if closed then 1 else 0) + (parts.map (s.costAt source level)).sum := by
  intro s
  induction h with
  | @last t hrole hplain => simp [costUnder]
  | @final t e before after hrole hchildren helse hplain hbranch =>
    have he : e ∈ t.nodes :=
      d.vocabulary.mem_nodes_of_role (by simp [hchildren]) (by simp [helse])
    have hwraps : ¬ Wrapping d.vocabulary e := by
      rw [ht.wrapping_iff he helse]
      rintro ⟨c, hc, hcond⟩
      exact hbranch c hc hcond
    rw [hchildren, costUnder_split, s.costAt_of_else source level t helse hwraps]
    simp only [costUnder, List.map_append, List.sum_append, if_true]
    omega
  | @more t e next before after front back n closed parts hrole hchildren helse hplain hlink hnext
      ih =>
    have he : e ∈ t.nodes :=
      d.vocabulary.mem_nodes_of_role (by simp [hchildren]) (by simp [helse])
    have hmem : next ∈ e.children := by simp [hlink]
    have hnode : next ∈ e.nodes :=
      d.vocabulary.mem_nodes_of_role hmem (by simp [hnext.roleOf_eq])
    have hwraps : Wrapping d.vocabulary e :=
      (ht.wrapping_iff he helse).mpr ⟨next, hmem, hnext.roleOf_eq⟩
    have hchained : Chained d.vocabulary e next := ⟨hnext.roleOf_eq, .inl helse⟩
    have hbelow := ih ((ht.of_mem he).of_mem hnode)
    rw [hchildren, costUnder_split, s.costAt_of_wrapping source level t hwraps, hlink,
      costUnder_split, s.costAt_of_chained source level e hchained, hbelow]
    simp only [costUnder, List.map_append, List.sum_append]
    push_cast
    omega

/-- **An else-if counts once.** Take a tree in which an `else` has one statement. An `else` adds
nothing exactly if a conditional is among its children. A conditional that goes on with an earlier
one is the only one in its `else`, adds a single increment of one, opens no level, and its `else`
adds nothing. So a chain that is entered at a level costs that level, one for each of its
conditionals and one for a last `else`, besides what stands in its links, all of which is met one
level deeper. -/
theorem else_if_counts_once (d : Dialect) (countOperators : Bool) (source : ByteArray) (t : Tree)
    (ht : d.vocabulary.Orderly t) :
    let s : Scorer := ⟨d.vocabulary, countOperators⟩
    (∀ u ∈ t.nodes, d.vocabulary.roleOf u = .elseBranch → ∀ level parent,
      s.factors source level parent u = [] ↔
        ∃ c ∈ u.children, d.vocabulary.roleOf c = .conditional) ∧
    (∀ u ∈ t.nodes, ∀ c ∈ u.children, Chained d.vocabulary u c →
      u.children.filter (d.vocabulary.roleOf · = .conditional) = [c] ∧
      (∀ level, s.factors source level u c = [⟨"else if (hybrid)", 1, c.line, .hybrid⟩]) ∧
      s.opensLevel u c = false ∧ ∀ level parent, s.factors source level parent u = []) ∧
    ∀ u ∈ t.nodes, ∀ n closed parts, d.vocabulary.Chain u n closed parts →
      ∀ level parent, ¬ Chained d.vocabulary parent u →
        s.costAt source level ⟨parent, u⟩ =
          1 + level + n + (if closed then 1 else 0) +
            (parts.map (s.costAt source (level + 1))).sum := by
  intro s
  refine ⟨?_, ?_, ?_⟩
  · intro u hu hrole level parent
    rw [s.factors_eq_nil_iff source hrole]
    exact ht.wrapping_iff hu hrole
  · intro u hu c hc hchained
    have hrole := ht.elseBranch_of_chained hu hc hchained
    have hwraps := (ht.wrapping_iff hu hrole).mpr ⟨c, hc, hchained.1⟩
    refine ⟨ht.conditionals_eq hu hrole hc hchained.1, s.factors_of_chained source hchained, ?_, ?_⟩
    · rw [Bool.eq_false_iff, ne_eq, opensLevel_iff]
      exact fun hopening => hopening.2 hchained
    · intro level parent
      exact (s.factors_eq_nil_iff source hrole level parent).mpr hwraps
  · intro u hu n closed parts hchain level parent hhead
    have hbelow : s.costUnder source (level + 1) u u.children =
        n + (if closed then 1 else 0) + (parts.map (s.costAt source (level + 1))).sum :=
      costAt_below_chain d countOperators source (level + 1) hchain (ht.of_mem hu)
    rw [s.costAt_of_conditional source level parent hchain.roleOf_eq hhead, hbelow]
    omega

def leaf (type : String) : Tree :=
  .node { type := type } []

def plainElse : Tree :=
  .node { type := "else_clause", startRow := 5, endRow := 5 } [leaf "compound_statement"]

def secondLink : Tree :=
  .node { type := "if_statement", startRow := 3, endRow := 5 }
    [leaf "condition_clause", leaf "while_statement", plainElse]

/-- An `else` with a comment before its conditional. -/
def linkingElse : Tree :=
  .node { type := "else_clause", startRow := 2, endRow := 5 } [leaf "comment", secondLink]

/-- A chain with one `else if`, with a loop in it, and a last `else`. -/
def sampleChain : Tree :=
  .node { type := "if_statement", startRow := 1, endRow := 5 }
    [leaf "condition_clause", leaf "compound_statement", linkingElse]

theorem chain_sample : Dialect.cpp.vocabulary.Chain sampleChain 1 true
    (within sampleChain [leaf "condition_clause", leaf "compound_statement"] ++
      (within linkingElse [leaf "comment"] ++
        (within secondLink [leaf "condition_clause", leaf "while_statement"] ++
          within plainElse [leaf "compound_statement"] ++ within secondLink []) ++
        within linkingElse []) ++ within sampleChain []) :=
  .more (by decide +kernel) rfl (by decide +kernel) (by decide +kernel) rfl
    (.final (by decide +kernel) rfl (by decide +kernel) (by decide +kernel) (by decide +kernel))

/-- At level two the chain costs two, one for each of its three branches, and four for the loop,
which is met at level three. -/
theorem else_if_counts_once_sample :
    let s : Scorer := ⟨Dialect.cpp.vocabulary, true⟩
    Dialect.cpp.vocabulary.Orderly sampleChain ∧
      (∀ level parent, s.factors "".toUTF8 level parent linkingElse = []) ∧
      s.costAt "".toUTF8 2 ⟨.missing, sampleChain⟩ = 1 + 2 + 1 + 1 + 4 := by
  intro s
  have horderly : Dialect.cpp.vocabulary.Orderly sampleChain :=
    ⟨by decide +kernel, by decide +kernel, by decide +kernel⟩
  obtain ⟨-, hlink, hchain⟩ := else_if_counts_once .cpp true "".toUTF8 sampleChain horderly
  refine ⟨horderly, ?_, ?_⟩
  · have hmem : linkingElse ∈ sampleChain.nodes :=
      Dialect.cpp.vocabulary.mem_nodes_of_role (by simp [sampleChain, Tree.children])
        (by decide +kernel)
    exact (hlink linkingElse hmem secondLink (by simp [linkingElse, Tree.children])
      (by decide +kernel)).2.2.2
  · rw [hchain sampleChain (Tree.self_mem_nodes rfl) 1 true _ chain_sample 2 .missing
      (by decide +kernel)]
    decide +kernel

end Scorer

end CognitiveLoad
