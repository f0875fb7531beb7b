/-!
Values kept under names, in the order in which the names were first entered. Entering a name again
replaces its value and keeps its place.
-/

namespace CognitiveLoad

structure Roster (α : Type) where
  entries : List (String × α) := []
  deriving DecidableEq, Repr

namespace Roster

variable {α : Type}

def names (r : Roster α) : List String :=
  r.entries.map Prod.fst

def get? (r : Roster α) (name : String) : Option α :=
  r.entries.lookup name

def contains (r : Roster α) (name : String) : Bool :=
  (r.get? name).isSome

def enterIn (name : String) (value : α) : List (String × α) → List (String × α)
  | [] => [(name, value)]
  | (n, v) :: rest => if n = name then (n, value) :: rest else (n, v) :: enterIn name value rest

def enter (r : Roster α) (name : String) (value : α) : Roster α :=
  ⟨enterIn name value r.entries⟩

theorem lookup_cons_ite (name other : String) (value : α) (entries : List (String × α)) :
    ((name, value) :: entries).lookup other =
      if other = name then some value else entries.lookup other := by
  by_cases h : other = name
  · simp [h]
  · have hb : (other == name) = false := beq_false_of_ne h
    simp [List.lookup_cons, hb, h]

theorem lookup_enterIn (name other : String) (value : α) (entries : List (String × α)) :
    (enterIn name value entries).lookup other =
      if other = name then some value else entries.lookup other := by
  induction entries with
  | nil => exact lookup_cons_ite name other value []
  | cons e rest ih =>
    obtain ⟨n, v⟩ := e
    by_cases hn : n = name
    · subst hn
      by_cases h : other = n <;> simp [enterIn, lookup_cons_ite, h]
    · by_cases ho : other = n
      · subst ho
        simp [enterIn, hn]
      · simp [enterIn, lookup_cons_ite, hn, ho, ih]

/-- Entering a value under a name changes what is kept under that name only. -/
@[simp] theorem get?_enter (r : Roster α) (name other : String) (value : α) :
    (r.enter name value).get? other = if other = name then some value else r.get? other :=
  lookup_enterIn name other value r.entries

/-- Of several values entered under a name the last is kept. -/
theorem get?_foldl_enter {β : Type} (name : β → String) (value : β → α) (items : List β)
    (r : Roster α) (n : String) :
    (items.foldl (fun r b => r.enter (name b) (value b)) r).get? n =
      ((items.filter (name · = n)).getLast?.map value).or (r.get? n) := by
  induction items generalizing r with
  | nil => simp
  | cons b rest ih =>
    rw [List.foldl_cons, ih, get?_enter]
    by_cases h : name b = n
    · rw [if_pos h.symm, List.filter_cons_of_pos (by simpa using h), List.getLast?_cons]
      cases (rest.filter (name · = n)).getLast? <;> rfl
    · rw [if_neg (Ne.symm h), List.filter_cons_of_neg (by simpa using h)]

theorem mem_of_lookup {entries : List (String × α)} {name : String} {value : α}
    (h : entries.lookup name = some value) : (name, value) ∈ entries := by
  obtain ⟨before, after, rfl, -⟩ := List.lookup_eq_some_iff.mp h
  simp

theorem map_fst_enterIn (name : String) (value : α) (entries : List (String × α)) :
    (enterIn name value entries).map Prod.fst =
      if name ∈ entries.map Prod.fst then entries.map Prod.fst
      else entries.map Prod.fst ++ [name] := by
  induction entries with
  | nil => rfl
  | cons e rest ih =>
    obtain ⟨n, v⟩ := e
    by_cases hn : n = name
    · simp [enterIn, hn]
    · have hmem : name ∈ n :: rest.map Prod.fst ↔ name ∈ rest.map Prod.fst := by
        simp [Ne.symm hn]
      simp only [enterIn, hn, if_false, List.map_cons, ih]
      by_cases h : name ∈ rest.map Prod.fst
      · rw [if_pos h, if_pos (hmem.mpr h)]
      · rw [if_neg h, if_neg (mt hmem.mp h), List.cons_append]

/-- A name that is there keeps its place, and a new one comes last. -/
@[simp] theorem names_enter (r : Roster α) (name : String) (value : α) :
    (r.enter name value).names = if name ∈ r.names then r.names else r.names ++ [name] :=
  map_fst_enterIn name value r.entries

theorem mem_names_enter {r : Roster α} {name other : String} {value : α} :
    other ∈ (r.enter name value).names ↔ other = name ∨ other ∈ r.names := by
  rw [names_enter]
  split
  · rename_i h
    constructor
    · exact .inr
    · rintro (rfl | h')
      · exact h
      · exact h'
  · simp [or_comm]

theorem mem_enterIn {name : String} {value : α} {entries : List (String × α)} {e : String × α}
    (h : e ∈ enterIn name value entries) : e ∈ entries ∨ e = (name, value) := by
  induction entries with
  | nil => exact .inr (List.mem_singleton.mp h)
  | cons first rest ih =>
    obtain ⟨n, v⟩ := first
    by_cases hn : n = name
    · rw [enterIn, if_pos hn, hn] at h
      rcases List.mem_cons.mp h with rfl | h
      · exact .inr rfl
      · exact .inl (List.mem_cons_of_mem _ h)
    · rw [enterIn, if_neg hn] at h
      rcases List.mem_cons.mp h with rfl | h
      · exact .inl (List.mem_cons_self ..)
      · exact (ih h).imp_left (List.mem_cons_of_mem _)

theorem mem_entries_enter {r : Roster α} {name : String} {value : α} {e : String × α}
    (h : e ∈ (r.enter name value).entries) : e ∈ r.entries ∨ e = (name, value) :=
  mem_enterIn h

theorem nodup_names_enter {r : Roster α} (h : r.names.Nodup) (name : String) (value : α) :
    (r.enter name value).names.Nodup := by
  rw [names_enter]
  split
  · exact h
  · rename_i hn
    rw [List.nodup_append]
    refine ⟨h, by simp, ?_⟩
    intro a ha b hb e
    rw [List.mem_singleton.mp hb] at e
    exact hn (e ▸ ha)

theorem nodup_names_foldl_enter {β : Type} (name : β → String) (value : β → α) (items : List β)
    {r : Roster α} (h : r.names.Nodup) :
    (items.foldl (fun r b => r.enter (name b) (value b)) r).names.Nodup := by
  induction items generalizing r with
  | nil => exact h
  | cons b rest ih => exact ih (nodup_names_enter h (name b) (value b))

/-- Names entered one after the other stand in the order in which each first came. -/
theorem names_foldl_enter {β : Type} (name : β → String) (value : β → α) (items : List β) :
    (items.foldl (fun r b => r.enter (name b) (value b)) ({} : Roster α)).names =
      (items.map name).eraseDups := by
  rw [← List.reverse_reverse items]
  induction items.reverse with
  | nil => rfl
  | cons b before ih =>
    rw [List.reverse_cons, List.foldl_append, List.map_append, List.eraseDups_append, ← ih]
    simp only [List.foldl_cons, List.foldl_nil, names_enter, ih, List.mem_eraseDups]
    by_cases h : name b ∈ before.reverse.map name
    · have hgone : ([b].map name).removeAll (before.reverse.map name) = [] := by
        simpa [List.removeAll] using h
      rw [if_pos h, hgone]
      simp
    · have hstays : ([b].map name).removeAll (before.reverse.map name) = [name b] := by
        simpa [List.removeAll] using h
      rw [if_neg h, hstays]
      rfl

end Roster

end CognitiveLoad
