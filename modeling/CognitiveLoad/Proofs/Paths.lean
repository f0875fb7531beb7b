import CognitiveLoad.Path

/-!
Paths and their texts. A path made from a text has plain components, and a path with plain
components is told by its text (`ofString_toString`). What lies below a path is seen from it by the
names alone: relative to it (`relativeTo?_below`), by extension (`extension_below`) and in order
(`le_below`).
-/

namespace CognitiveLoad

namespace Text

theorem splitWhere_eq_splitOnP (cut : Char → Bool) (cs : List Char) :
    splitWhere cut cs = cs.splitOnP cut := by
  induction cs with
  | nil => rfl
  | cons c rest ih =>
    rw [List.splitOnP_cons_eq_if_modifyHead, splitWhere, ih]
    split
    · rfl
    · cases hp : rest.splitOnP cut with
      | nil => exact absurd hp (List.splitOnP_ne_nil cut rest)
      | cons piece pieces => rfl

/-- No piece holds a character at which the text is cut. -/
theorem not_cut_of_mem_splitWhere {cut : Char → Bool} {cs piece : List Char}
    (h : piece ∈ splitWhere cut cs) : ∀ c ∈ piece, cut c = false := by
  induction cs generalizing piece with
  | nil =>
    rw [splitWhere, List.mem_singleton] at h
    simp [h]
  | cons c rest ih =>
    simp only [splitWhere] at h
    split at h
    · rcases List.mem_cons.mp h with rfl | h
      · simp
      · exact ih h
    · rename_i hc
      cases hp : splitWhere cut rest with
      | nil => exact absurd hp (splitWhere_ne_nil cut rest)
      | cons first others =>
        rw [hp] at h ih
        rcases List.mem_cons.mp h with rfl | h
        · intro c' hc'
          rcases List.mem_cons.mp hc' with rfl | hc'
          · simpa using hc
          · exact ih (List.mem_cons_self ..) c' hc'
        · exact ih (List.mem_cons_of_mem _ h)

end Text

namespace Path

/-! ## Plain components -/

/-- A text that can stand between two slashes and is kept there. -/
structure IsComponent (c : String) : Prop where
  ne_empty : c ≠ ""
  ne_dot : c ≠ "."
  no_slash : '/' ∉ c.toList

def Plain (p : Path) : Prop :=
  ∀ c ∈ p.parts, IsComponent c

theorem plain_ofString (s : String) : (ofString s).Plain := by
  intro c hc
  obtain ⟨hpiece, hkept⟩ := List.mem_filter.mp hc
  obtain ⟨piece, hmem, rfl⟩ := List.mem_map.mp hpiece
  simp only [ne_eq, decide_not, Bool.and_eq_true, Bool.not_eq_true', decide_eq_false_iff_not]
    at hkept
  refine ⟨hkept.1, hkept.2, fun hslash => ?_⟩
  rw [String.toList_ofList] at hslash
  have := Text.not_cut_of_mem_splitWhere hmem '/' hslash
  simp at this

/-! ## From texts and back -/

/-- The components of a text, given by its characters. -/
def components (cs : List Char) : List String :=
  ((Text.splitWhere (· == '/') cs).map String.ofList).filter fun c => c ≠ "" && c ≠ "."

theorem parts_ofString (s : String) : (ofString s).parts = components s.toList := rfl

theorem components_slash (cs : List Char) : components ('/' :: cs) = components cs := by
  simp [components, Text.splitWhere]

theorem components_anchor (a : Anchor) (cs : List Char) :
    components (a.text.toList ++ cs) = components cs := by
  cases a with
  | relative => rfl
  | slash => exact components_slash cs
  | doubleSlash => exact (components_slash _).trans (components_slash cs)

/-- Plain components are found again between slashes. -/
theorem components_intercalate {parts : List String} (h : ∀ c ∈ parts, IsComponent c) :
    components ("/".intercalate parts).toList = parts := by
  cases parts with
  | nil => rfl
  | cons first rest =>
    have hsplit : Text.splitWhere (· == '/') ("/".intercalate (first :: rest)).toList =
        (first :: rest).map String.toList := by
      rw [Text.splitWhere_eq_splitOnP, ← List.splitOn_eq_splitOnP, String.toList_intercalate]
      apply List.splitOn_intercalate
      · intro l hl
        obtain ⟨c, hc, rfl⟩ := List.mem_map.mp hl
        exact (h c hc).no_slash
      · simp
    have hback : ((first :: rest).map String.toList).map String.ofList = first :: rest := by
      simp [Function.comp_def]
    rw [components, hsplit, hback, List.filter_eq_self]
    intro c hc
    simp [(h c hc).ne_empty, (h c hc).ne_dot]

theorem head?_intercalate {parts : List String} (h : ∀ c ∈ parts, IsComponent c) :
    ("/".intercalate parts).toList.head? ≠ some '/' := by
  cases parts with
  | nil => simp
  | cons first rest =>
    have hfirst := h first (List.mem_cons_self ..)
    rw [String.toList_intercalate]
    cases hcs : first.toList with
    | nil => exact absurd (String.toList_eq_nil_iff.mp hcs) hfirst.ne_empty
    | cons c cs =>
      have hc : c ≠ '/' := by
        rintro rfl
        exact hfirst.no_slash (by simp [hcs])
      cases rest <;> simp [List.intercalate, hcs, hc]

theorem anchorOf_anchor (a : Anchor) {cs : List Char} (h : cs.head? ≠ some '/') :
    anchorOf (a.text.toList ++ cs) = a := by
  have hnone : cs.takeWhile (· == '/') = [] := by
    cases cs with
    | nil => rfl
    | cons c rest =>
      have hc : c ≠ '/' := by simpa using h
      simp [hc]
  cases a <;> simp [anchorOf, Anchor.text, hnone]

/-- A path with plain components is told by its text. -/
theorem ofString_toString {p : Path} (h : p.Plain) : ofString p.toString = p := by
  obtain ⟨anchor, parts⟩ := p
  unfold toString
  split
  · rename_i hdot
    simp only [Bool.and_eq_true, decide_eq_true_eq, List.isEmpty_iff] at hdot
    obtain ⟨rfl, rfl⟩ := hdot
    decide
  · have hanchor : (ofString (anchor.text ++ "/".intercalate parts)).anchor = anchor := by
      show anchorOf (anchor.text ++ "/".intercalate parts).toList = anchor
      rw [String.toList_append]
      exact anchorOf_anchor anchor (head?_intercalate h)
    have hparts : (ofString (anchor.text ++ "/".intercalate parts)).parts = parts := by
      rw [parts_ofString, String.toList_append, components_anchor]
      exact components_intercalate h
    generalize ofString (anchor.text ++ "/".intercalate parts) = p at hanchor hparts
    cases p
    exact congr (congrArg mk hanchor) hparts

/-! ## What lies below a path -/

/-- The path that leads on from `p` by the given names. -/
def below (p : Path) (names : List String) : Path :=
  { p with parts := p.parts ++ names }

@[simp] theorem below_nil (p : Path) : p.below [] = p := by
  simp [below]

@[simp] theorem entry_below (p : Path) (name : String) (names : List String) :
    (p.entry name).below names = p.below (name :: names) := by
  simp [below, entry]

theorem plain_below {p : Path} (hp : p.Plain) {names : List String}
    (hnames : ∀ c ∈ names, IsComponent c) : (p.below names).Plain := by
  intro c hc
  rcases List.mem_append.mp hc with hc | hc
  · exact hp c hc
  · exact hnames c hc

theorem relativeTo?_below (p : Path) (names : List String) :
    (p.below names).relativeTo? p = some ⟨.relative, names⟩ := by
  have hprefix : p.parts.isPrefixOf (p.parts ++ names) = true :=
    List.isPrefixOf_iff_prefix.mpr (List.prefix_append ..)
  simp [relativeTo?, below, hprefix]

theorem extension_below (p : Path) {names : List String} (h : names ≠ []) :
    (p.below names).extension = extensionOf (names.getLast h) := by
  have hlast : (p.parts ++ names).getLast? = some (names.getLast h) := by
    rw [List.getLast?_append, List.getLast?_eq_some_getLast h]
    rfl
  simp [extension, name, below, hlast]

theorem append_lt_append_iff (before a b : List String) :
    before ++ a < before ++ b ↔ a < b := by
  induction before with
  | nil => rfl
  | cons c rest ih => simp [ih]

/-- Names below one path are ordered as they are by themselves. -/
theorem le_below (p : Path) (a b : List String) :
    le (p.below a) (p.below b) = !decide (b < a) := by
  have hkey : ∀ names, (p.below names).key = p.key ++ names := by
    intro names
    simp only [key, below]
    by_cases hanchor : p.anchor = .relative <;> simp [hanchor]
  simp only [le, hkey, append_lt_append_iff]

theorem le_trans (p q r : Path) (hpq : p.le q = true) (hqr : q.le r = true) : p.le r = true := by
  simp only [le, Bool.not_eq_true', decide_eq_false_iff_not, List.not_lt] at hpq hqr ⊢
  exact List.le_trans hpq hqr

theorem le_total (p q : Path) : (p.le q || q.le p) = true := by
  simp only [le, Bool.or_eq_true, Bool.not_eq_true', decide_eq_false_iff_not, List.not_lt]
  exact List.le_total p.key q.key

end Path

end CognitiveLoad
