import Mathlib.Data.List.DropRight
import CognitiveLoad.Proofs.Descent

/-!
Accounts of a score over its whole history. Every score that a history brings about adds up, as a
whole and by category, so an increment of a score put away earlier is never refused again: merging
goes through (`step_merge`). The totals kept by name depend on the merges since a score was last put
away (`functions_run`).

* `sound_after`: what a step keeps;
* `sound_run`: what holds after every history;
* `run_accounts`: the two together, with the answers of the next step.
-/

namespace CognitiveLoad

namespace Score

/-- The increments of the four categories together are all increments. -/
theorem sum_totalOf (s : Score) :
    (Category.all.map s.totalOf).sum = (s.factors.map (·.increment)).sum := by
  obtain ⟨total, nesting, factors, functions⟩ := s
  simp only [Category.all, List.map_cons, List.map_nil, List.sum_cons, List.sum_nil, totalOf]
  induction factors with
  | nil => rfl
  | cons f rest ih =>
    rw [List.map_cons, List.sum_cons, ← ih]
    cases hc : f.category <;> simp [hc] <;> omega

/-- A score that adds up and has no negative increment. -/
structure Sound (s : Score) : Prop where
  total_eq : s.total = (s.factors.map (·.increment)).sum
  nonneg : ∀ f ∈ s.factors, 0 ≤ f.increment

theorem sound_empty : Sound {} where
  total_eq := rfl
  nonneg f hf := by cases hf

/-- Increments that are not negative keep a score sound. -/
theorem Sound.foldl_push {s : Score} (h : s.Sound) {fs : List Factor}
    (hfs : ∀ f ∈ fs, 0 ≤ f.increment) : (fs.foldl push s).Sound := by
  rw [Score.foldl_push]
  constructor
  · show s.total + (fs.map (·.increment)).sum = ((s.factors ++ fs).map (·.increment)).sum
    rw [List.map_append, List.sum_append, h.total_eq]
  · intro f hf
    rcases List.mem_append.mp hf with hf | hf
    · exact h.nonneg f hf
    · exact hfs f hf

theorem add_of_neg (s : Score) {f : Factor} (h : f.increment < 0) :
    s.add f = (.error ⟨f.increment⟩, s) :=
  if_pos h

theorem add_of_nonneg (s : Score) {f : Factor} (h : 0 ≤ f.increment) :
    s.add f = (.ok (), s.push f) :=
  if_neg (by omega)

/-- A score with another one taken up under a name. -/
def absorb (s : Score) (name : String) (other : Score) : Score :=
  { s with
    total := s.total + other.total
    factors := s.factors ++ other.factors
    functions := s.functions.enter name other.total }

/-- A sound score is merged as a whole. -/
theorem merge_of_sound {other : Score} (h : other.Sound) (s : Score) (name : String) :
    s.merge name other = (.ok (), s.absorb name other) := by
  rw [merge_eq_ok h.nonneg, Score.foldl_push, absorb, h.total_eq]

theorem Sound.absorb {s other : Score} (h : s.Sound) (hother : other.Sound) (name : String) :
    (s.absorb name other).Sound := by
  have hpushed := h.foldl_push hother.nonneg
  rw [Score.foldl_push, ← hother.total_eq] at hpushed
  exact ⟨hpushed.total_eq, hpushed.nonneg⟩

end Score

namespace Ledger

/-- The ledger after a history. -/
def run (steps : List Score.Step) : Ledger :=
  steps.foldl after {}

theorem run_concat (steps : List Score.Step) (step : Score.Step) :
    run (steps ++ [step]) = (run steps).after step := by
  rw [run, List.foldl_append]
  rfl

/-! ## What holds after every history -/

/-- The score at work and all scores put away are sound. -/
structure Sound (l : Ledger) : Prop where
  current : l.current.Sound
  stored : ∀ key s, l.stored.get? key = some s → s.Sound

/-- What a merge takes up is sound, also where nothing was put away. -/
theorem Sound.getD {l : Ledger} (h : l.Sound) (key : String) :
    ((l.stored.get? key).getD {}).Sound := by
  cases hs : l.stored.get? key with
  | none => exact Score.sound_empty
  | some s => exact h.stored key s hs

theorem step_add_of_neg (l : Ledger) {f : Factor} (h : f.increment < 0) :
    l.step (.add f) = (.error ⟨f.increment⟩, l) := by
  rw [step, Score.add_of_neg _ h]

theorem step_add_of_nonneg (l : Ledger) {f : Factor} (h : 0 ≤ f.increment) :
    l.step (.add f) = (.ok (), { l with current := l.current.push f }) := by
  rw [step, Score.add_of_nonneg _ h]

theorem step_merge {l : Ledger} (h : l.Sound) (name key : String) :
    l.step (.merge name key) =
      (.ok (), { l with current := l.current.absorb name ((l.stored.get? key).getD {}) }) := by
  rw [step, Score.merge_of_sound (h.getD key)]

/-- **Step lemma.** No step, refused or not, makes a score unsound. -/
theorem sound_after {l : Ledger} (h : l.Sound) (step : Score.Step) : (l.after step).Sound := by
  cases step with
  | add f =>
    rcases Int.lt_or_le f.increment 0 with hf | hf
    · rw [after, step_add_of_neg l hf]
      exact h
    · rw [after, step_add_of_nonneg l hf]
      have hone : ∀ g ∈ [f], 0 ≤ g.increment := by
        intro g hg
        rw [List.mem_singleton.mp hg]
        exact hf
      exact ⟨h.current.foldl_push hone, h.stored⟩
  | store key =>
    refine ⟨Score.sound_empty, fun key' s hs => ?_⟩
    simp only [after, step, Roster.get?_enter] at hs
    split at hs
    · cases hs
      exact h.current
    · exact h.stored key' s hs
  | merge name key =>
    rw [after, step_merge h name key]
    exact ⟨h.current.absorb (h.getD key) name, h.stored⟩

/-- **Run lemma.** -/
theorem sound_run (steps : List Score.Step) : (run steps).Sound := by
  induction steps using List.reverseRecOn with
  | nil => exact ⟨Score.sound_empty, fun key s hs => by cases hs⟩
  | append_singleton steps step ih =>
    rw [run_concat]
    exact sound_after ih step

/-! ## Totals kept by name -/

def isStore : Score.Step → Bool
  | .store _ => true
  | _ => false

/-- The steps of a history after the last one that put a score away. -/
def recent (steps : List Score.Step) : List Score.Step :=
  steps.rtakeWhile fun step => !isStore step

/-- The score that a step merges, with the name for it. -/
def merges? (l : Ledger) : Score.Step → Option (String × Score)
  | .merge name key => some (name, (l.stored.get? key).getD {})
  | _ => none

/-- What was merged into the score at work, in order. -/
def merged (steps : List Score.Step) : List (String × Score) :=
  (recent steps).filterMap (run steps).merges?

theorem merged_concat_store (steps : List Score.Step) (key : String) :
    merged (steps ++ [.store key]) = [] := by
  have hnone : recent (steps ++ [.store key]) = [] :=
    List.rtakeWhile_concat_neg _ _ _ (by simp [isStore])
  rw [merged, hnone]
  rfl

/-- A step that puts nothing away leaves the scores put away as they are, so all merges since the
last one that did so can be read off the present ledger. -/
theorem merged_concat {steps : List Score.Step} {step : Score.Step} (h : isStore step = false) :
    merged (steps ++ [step]) = merged steps ++ ((run steps).merges? step).toList := by
  have hrecent : recent (steps ++ [step]) = recent steps ++ [step] :=
    List.rtakeWhile_concat_pos _ _ _ (by simp [h])
  have hstored : (run (steps ++ [step])).stored = (run steps).stored := by
    rw [run_concat]
    cases step with
    | add f => rfl
    | store key => cases h
    | merge name key => rfl
  have hmerges : (run (steps ++ [step])).merges? = (run steps).merges? := by
    funext other
    cases other <;> simp only [merges?, hstored]
  rw [merged, hrecent, hmerges, List.filterMap_append]
  cases hm : (run steps).merges? step <;> simp [merged, hm]

/-- The totals kept by name are those of the scores merged into the score at work. -/
theorem functions_run (steps : List Score.Step) :
    (run steps).current.functions =
      (merged steps).foldl (fun r m => r.enter m.1 m.2.total) {} := by
  induction steps using List.reverseRecOn with
  | nil => rfl
  | append_singleton steps step ih =>
    rw [run_concat]
    cases step with
    | add f =>
      rw [merged_concat rfl]
      rcases Int.lt_or_le f.increment 0 with hf | hf
      · rw [after, step_add_of_neg _ hf, ih]
        simp [merges?]
      · rw [after, step_add_of_nonneg _ hf]
        simpa [merges?, Score.push] using ih
    | store key =>
      rw [merged_concat_store]
      rfl
    | merge name key =>
      rw [merged_concat rfl, List.foldl_append, ← ih, after, step_merge (sound_run steps)]
      rfl

/-- **Accounts of every history.** Whatever increments are added, whenever scores are put away and
merged again: the score at work and all scores put away add up, as a whole and by category, and have
no negative increment. An increment is refused exactly if it is negative, and then nothing changes.
Merging is never refused and puts the increments of the other score behind those that are there. The
score at work lists each name merged into it once, in the order of the first merges, with the total
of the last score merged under it. -/
theorem run_accounts (steps : List Score.Step) :
    let l := run steps
    (∀ s, s = l.current ∨ (∃ key, l.stored.get? key = some s) →
      s.total = (s.factors.map (·.increment)).sum ∧
      s.total = (Category.all.map s.totalOf).sum ∧ ∀ f ∈ s.factors, 0 ≤ f.increment) ∧
    (∀ f, ((l.step (.add f)).1 = .ok () ↔ ¬ f.increment < 0) ∧
      (f.increment < 0 → l.step (.add f) = (.error ⟨f.increment⟩, l))) ∧
    (∀ name key, (l.step (.merge name key)).1 = .ok () ∧
      (l.after (.merge name key)).current.factors =
        l.current.factors ++ ((l.stored.get? key).getD {}).factors) ∧
    l.current.functions.names.Nodup ∧
    l.current.functions.names = ((merged steps).map (·.1)).eraseDups ∧
    ∀ name, l.current.functions.get? name =
      ((merged steps).filter (·.1 = name)).getLast?.map (·.2.total) := by
  intro l
  have hsound : l.Sound := sound_run steps
  refine ⟨fun s hs => ?_, fun f => ?_, fun name key => ?_, ?_, ?_, fun name => ?_⟩
  · have hs : s.Sound := by
      rcases hs with rfl | ⟨key, hkey⟩
      · exact hsound.current
      · exact hsound.stored key s hkey
    exact ⟨hs.total_eq, by rw [s.sum_totalOf, hs.total_eq], hs.nonneg⟩
  · refine ⟨?_, step_add_of_neg l⟩
    rcases Int.lt_or_le f.increment 0 with hf | hf
    · simp [step_add_of_neg l hf, hf]
    · simp [step_add_of_nonneg l hf, hf]
  · rw [after, step_merge hsound]
    exact ⟨rfl, rfl⟩
  · rw [functions_run]
    exact Roster.nodup_names_foldl_enter _ _ _ List.nodup_nil
  · rw [functions_run]
    exact Roster.names_foldl_enter ..
  · rw [functions_run, Roster.get?_foldl_enter]
    exact Option.or_none

/-- Two scores are put away, the first after a refused increment, and merged under two names, one of
them twice. -/
def sampleHistory : List Score.Step :=
  [.add ⟨"if", 1, 1, .structural⟩, .add ⟨"and", 2, 1, .fundamental⟩, .add ⟨"?", -1, 1, .structural⟩,
    .store "a", .add ⟨"for", 1, 2, .structural⟩, .store "b", .merge "f" "a", .merge "g" "a",
    .merge "f" "b"]

theorem run_accounts_sample :
    let l := run sampleHistory
    l.current.total = (Category.all.map l.current.totalOf).sum ∧
      l.step (.add ⟨"?", -3, 9, .structural⟩) = (.error ⟨-3⟩, l) ∧
      (l.step (.merge "h" "b")).1 = .ok () ∧
      l.current.functions.names = ((merged sampleHistory).map (·.1)).eraseDups ∧
      l.current.total = 7 ∧ l.current.functions.entries = [("f", 1), ("g", 3)] := by
  obtain ⟨hsums, hadd, hmerge, -, hnames, -⟩ := run_accounts sampleHistory
  exact ⟨(hsums _ (.inl rfl)).2.1, (hadd ⟨"?", -3, 9, .structural⟩).2 (by decide),
    (hmerge "h" "b").1, hnames, by decide +kernel, by decide +kernel⟩

end Ledger

end CognitiveLoad
