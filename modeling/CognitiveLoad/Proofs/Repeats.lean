import CognitiveLoad.Proofs.Batch

/-!
Names that repeat in a batch. A batch adds up the scores of all its routines, but under a name it
keeps the score of the last routine of that name only, so what it keeps need not add up to its
total.

* `Roster.sum_enter`: entering a value changes the sum of the values by what it replaces;
* `Roster.sum_foldl_enter`: after any number of entries the values of all replaced items are
  missing;
* `Scorer.batch_accounts`: what a batch holds, and by how much its parts fall short of its total.
-/

namespace CognitiveLoad

namespace Roster

/-- The values, in the order of their names. -/
def values {α : Type} (r : Roster α) : List α :=
  r.entries.map Prod.snd

theorem sum_enterIn (name : String) (value : Int) (entries : List (String × Int)) :
    ((enterIn name value entries).map Prod.snd).sum =
      (entries.map Prod.snd).sum - (entries.lookup name).getD 0 + value := by
  induction entries with
  | nil => simp [enterIn]
  | cons e rest ih =>
    obtain ⟨n, v⟩ := e
    rw [lookup_cons_ite]
    by_cases hn : n = name
    · simp only [enterIn, if_pos hn, if_pos hn.symm, List.map_cons, List.sum_cons, Option.getD_some]
      omega
    · simp only [enterIn, if_neg hn, if_neg (Ne.symm hn), List.map_cons, List.sum_cons, ih]
      omega

/-- A value that is entered takes the place of the one kept under its name. -/
theorem sum_enter (r : Roster Int) (name : String) (value : Int) :
    (r.enter name value).values.sum = r.values.sum - (r.get? name).getD 0 + value :=
  sum_enterIn name value r.entries

section Replaced

variable {β : Type} (name : β → String) (value : β → Int)

/-- The items that are followed later on by one of the same name. -/
def replaced : List β → List β
  | [] => []
  | b :: rest => if name b ∈ rest.map name then b :: replaced rest else replaced rest

/-- The last of several items with a name. -/
def last? (items : List β) (n : String) : Option β :=
  (items.filter (name · = n)).getLast?

theorem last?_cons (b : β) (rest : List β) (n : String) :
    last? name (b :: rest) n =
      if name b = n then some ((last? name rest n).getD b) else last? name rest n := by
  unfold last?
  by_cases h : name b = n
  · rw [if_pos h, List.filter_cons_of_pos (by simpa using h), List.getLast?_cons]
  · rw [if_neg h, List.filter_cons_of_neg (by simpa using h)]

theorem last?_eq_none {items : List β} {n : String} :
    last? name items n = none ↔ n ∉ items.map name := by
  simp [last?]

/-- One item more replaces the last one of its name, if there is one. -/
theorem sum_replaced_concat (items : List β) (b : β) :
    ((replaced name (items ++ [b])).map value).sum =
      ((replaced name items).map value).sum + ((last? name items (name b)).map value).getD 0 := by
  induction items with
  | nil => simp [replaced, last?]
  | cons a rest ih =>
    have hmem : name a ∈ (rest ++ [b]).map name ↔ name a ∈ rest.map name ∨ name a = name b := by
      simp
    rw [List.cons_append, last?_cons]
    by_cases hab : name a = name b
    · rw [replaced, if_pos (hmem.mpr (.inr hab)), if_pos hab, List.map_cons, List.sum_cons, ih]
      by_cases ha : name a ∈ rest.map name
      · -- an item further on is the last one with or without `a`
        rw [replaced, if_pos ha, List.map_cons, List.sum_cons]
        cases hlast : last? name rest (name b) with
        | none => exact absurd (hab ▸ ha) ((last?_eq_none name).mp hlast)
        | some c =>
          simp only [Option.getD_some]
          omega
      · have hlast : last? name rest (name b) = none := (last?_eq_none name).mpr (hab ▸ ha)
        rw [replaced, if_neg ha, hlast]
        simp only [Option.map_none, Option.map_some, Option.getD_none, Option.getD_some]
        omega
    · rw [if_neg hab]
      by_cases ha : name a ∈ rest.map name
      · rw [replaced, if_pos (hmem.mpr (.inl ha)), replaced, if_pos ha, List.map_cons,
          List.map_cons, List.sum_cons, List.sum_cons, ih]
        omega
      · have hnot : ¬ (name a ∈ rest.map name ∨ name a = name b) := by simp [ha, hab]
        rw [replaced, if_neg (mt hmem.mp hnot), replaced, if_neg ha, ih]

/-- What is kept in the end is everything entered but the items that were replaced. -/
theorem sum_foldl_enter (items : List β) :
    (items.foldl (fun r b => r.enter (name b) (value b)) ({} : Roster Int)).values.sum =
      (items.map value).sum - ((replaced name items).map value).sum := by
  rw [← List.reverse_reverse items]
  induction items.reverse with
  | nil => rfl
  | cons b before ih =>
    have hkept : (before.reverse.foldl (fun r b => r.enter (name b) (value b))
        ({} : Roster Int)).get? (name b) = (last? name before.reverse (name b)).map value := by
      rw [get?_foldl_enter]
      exact Option.or_none
    rw [List.reverse_cons, List.foldl_append, List.foldl_cons, List.foldl_nil, sum_enter, ih, hkept,
      sum_replaced_concat, List.map_append, List.sum_append, List.map_cons, List.map_nil,
      List.sum_singleton]
    omega

end Replaced

end Roster

namespace Scorer

/-- **A batch adds up.** Whatever routines are scored, on whatever text:

* the increments are those of the routines, one after the other, and the total is the sum of theirs;
* under each name, in the order in which the names first come, the score of the last routine with
  that name is kept;
* these scores add up to the total less the scores of all routines that are followed by one of the
  same name, so to the total itself exactly if each of those scores nothing. -/
theorem batch_accounts (s : Scorer) (text : String) (routines : List Routine) :
    let own := fun r : Routine => (s.score text r.body).value
    let replaced := Roster.replaced Routine.name routines
    ∃ sum, (s.batch text routines).value = .ok sum ∧
      sum.factors = routines.flatMap (fun r => (own r).factors) ∧
      sum.total = (routines.map fun r => (own r).total).sum ∧
      sum.nesting = 0 ∧
      sum.functions.names = (routines.map (·.name)).eraseDups ∧
      (∀ name, sum.functions.get? name =
        (Roster.last? Routine.name routines name).map fun r => (own r).total) ∧
      sum.functions.values.sum = sum.total - (replaced.map fun r => (own r).total).sum ∧
      (sum.functions.values.sum = sum.total ↔ ∀ r ∈ replaced, (own r).total = 0) := by
  intro own replaced
  have hvalues := Roster.sum_foldl_enter Routine.name (fun r => (own r).total) routines
  have hnonneg : ∀ n ∈ replaced.map fun r => (own r).total, 0 ≤ n := by
    intro n hn
    obtain ⟨r, -, rfl⟩ := List.mem_map.mp hn
    exact s.total_nonneg text r.body
  have hzero : (replaced.map fun r => (own r).total).sum = 0 ↔
      ∀ r ∈ replaced, (own r).total = 0 := by
    constructor
    · intro hsum r hr
      exact List.all_zero_of_le_zero_le_of_sum_eq_zero hnonneg hsum (List.mem_map_of_mem hr)
    · intro hall
      rw [List.sum_eq_zero]
      intro n hn
      obtain ⟨r, hr, rfl⟩ := List.mem_map.mp hn
      exact hall r hr
  refine ⟨_, s.batch_value text routines, rfl, rfl, rfl, ?_, ?_, hvalues, ?_⟩
  · exact Roster.names_foldl_enter ..
  · intro name
    rw [Roster.get?_foldl_enter]
    exact Option.or_none
  · rw [← hzero, ← sub_eq_self, ← hvalues]

end Scorer

end CognitiveLoad
