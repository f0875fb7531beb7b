import CognitiveLoad.Proofs.Reports

/-!
Verbose text reports carry their findings, as long as no text in them breaks a line. Names and
descriptions may imitate any other part of a report: every line is told by where it stands, and
within a line only the free text may hold the characters at which it is cut.

* `cut_first`, `cut_last`: a list is cut in one way at the first or the last of its separators;
* `spanLine_eq_iff`, `factorLine_eq_iff`: what a line tells;
* `block_append_inj`: a block tells a finding, and where the next block begins;
* `text_carries_findings`: lists of findings have the same report exactly if it tells the same of
  them, position by position.
-/

namespace CognitiveLoad

/-- What a text report tells of an increment. -/
def Factor.told (x : Factor) : String × Int × Int :=
  (x.description, x.line, x.increment)

namespace Finding

/-- No text of a finding that is told in a report breaks a line. -/
structure OneLine (f : Finding) : Prop where
  file : '\n' ∉ f.file.toList
  function : '\n' ∉ f.function.toList
  language : '\n' ∉ f.language.toList
  factors : ∀ x ∈ f.factors, '\n' ∉ x.description.toList

/-- Findings that differ at most in their parameters and in the categories of their increments. -/
structure ToldAlike (f g : Finding) : Prop where
  file : f.file = g.file
  function : f.function = g.function
  language : f.language = g.language
  startLine : f.startLine = g.startLine
  endLine : f.endLine = g.endLine
  complexity : f.complexity = g.complexity
  factors : f.factors.map Factor.told = g.factors.map Factor.told

end Finding

namespace Report

theorem map_eq_map_iff_forall₂ {α β : Type} {u : α → β} {xs ys : List α} :
    xs.map u = ys.map u ↔ List.Forall₂ (fun x y => u x = u y) xs ys := by
  rw [← List.forall₂_eq_eq_eq, List.forall₂_map_left_iff, List.forall₂_map_right_iff]

/-! ## Where a list is cut -/

section Cuts

variable {α : Type} {xs ys as bs : List α} {sep : α}

theorem cut_first (hx : sep ∉ xs) (hy : sep ∉ ys) (h : xs ++ sep :: as = ys ++ sep :: bs) :
    xs = ys ∧ as = bs := by
  rcases List.append_eq_append_iff.mp h with ⟨between, rfl, hrest⟩ | ⟨between, rfl, hrest⟩
  · cases between with
    | nil => simpa using hrest
    | cons b between =>
      obtain ⟨rfl, -⟩ := List.cons.inj hrest
      simp at hy
  · cases between with
    | nil => simpa using hrest.symm
    | cons b between =>
      obtain ⟨rfl, -⟩ := List.cons.inj hrest
      simp at hx

theorem cut_last (ha : sep ∉ as) (hb : sep ∉ bs) (h : xs ++ sep :: as = ys ++ sep :: bs) :
    xs = ys ∧ as = bs := by
  have hreverse := congrArg List.reverse h
  simp only [List.reverse_append, List.reverse_cons, List.append_assoc, List.singleton_append]
    at hreverse
  obtain ⟨has, hxs⟩ := cut_first (mt List.mem_reverse.mp ha) (mt List.mem_reverse.mp hb) hreverse
  exact ⟨List.reverse_injective hxs, List.reverse_injective has⟩

end Cuts

/-! ## Integers in a line -/

theorem notMem_int {c : Char} (hminus : c ≠ '-') (hdigit : c.isDigit = false) (n : Int) :
    c ∉ (toString n).toList := by
  rw [Json.toList_int, List.mem_append]
  rintro (hc | hc)
  · split at hc
    · exact hminus (List.mem_singleton.mp hc)
    · cases hc
  · rw [Json.isDigit_digits _ c hc] at hdigit
    cases hdigit

theorem int_inj {m n : Int} (h : (toString m).toList = (toString n).toList) : m = n := by
  have hm := Json.spells_int m '\n' [] rfl
  have hn := Json.spells_int n '\n' [] rfl
  rw [h, hn] at hm
  cases hm
  rfl

/-- Only the first character of an integer can be a minus sign. -/
theorem exists_head_int (n : Int) : ∃ c ds, (toString n).toList = c :: ds ∧ '-' ∉ ds := by
  have hdigits : '-' ∉ Nat.toDigits 10 n.natAbs := fun h => by
    cases Json.isDigit_digits _ _ h
  rw [Json.toList_int]
  split
  · exact ⟨'-', _, rfl, hdigits⟩
  · obtain ⟨d, ds, hds⟩ :=
      List.exists_cons_of_ne_nil (Nat.toDigits_ne_nil (n := n.natAbs) (b := 10))
    rw [hds] at hdigits ⊢
    exact ⟨d, ds, rfl, fun h => hdigits (List.mem_cons_of_mem _ h)⟩

/-- Two integers around a dash are told apart, whatever their signs. -/
theorem span_inj {a b a' b' : Int}
    (h : (toString a).toList ++ '-' :: (toString b).toList =
      (toString a').toList ++ '-' :: (toString b').toList) : a = a' ∧ b = b' := by
  obtain ⟨c, ds, ha, hds⟩ := exists_head_int a
  obtain ⟨c', ds', ha', hds'⟩ := exists_head_int a'
  rw [ha, ha'] at h
  obtain ⟨rfl, hrest⟩ := List.cons.inj h
  obtain ⟨rfl, hb⟩ := cut_first hds hds' hrest
  exact ⟨int_inj (ha.trans ha'.symm), int_inj hb⟩

/-! ## Lines -/

theorem toList_factorLine (x : Factor) :
    (factorLine x).toList = "  - ".toList ++
      ((x.description.toList ++ " (line".toList ++ ' ' :: (toString x.line).toList) ++
        ", ".toList ++ '+' :: (toString x.increment).toList ++ [')']) := by
  show ("  - " ++ x.description ++ " (line " ++ toString x.line ++ ", +" ++ toString x.increment ++
    ")").toList = _
  simp

/-- A description may hold anything, also what looks like the end of its line: the last plus sign
and the last space before it are not its own. -/
theorem factorLine_eq_iff {x y : Factor} : factorLine x = factorLine y ↔ x.told = y.told := by
  constructor
  · intro h
    have hspace := notMem_int (c := ' ') (by decide) (by decide)
    have hplus := notMem_int (c := '+') (by decide) (by decide)
    have hline := congrArg String.toList h
    rw [toList_factorLine, toList_factorLine] at hline
    have hinner := List.append_cancel_right (List.append_cancel_left hline)
    obtain ⟨hfront, hincrement⟩ := cut_last (hplus _) (hplus _) hinner
    obtain ⟨hfront, hnumber⟩ := cut_last (hspace _) (hspace _) (List.append_cancel_right hfront)
    have hdescription := String.toList_injective (List.append_cancel_right hfront)
    simp only [Factor.told, hdescription, int_inj hnumber, int_inj hincrement]
  · intro h
    simp only [Factor.told, Prod.mk.injEq] at h
    obtain ⟨hdescription, hline, hincrement⟩ := h
    simp only [factorLine, hdescription, hline, hincrement]

theorem spanLine_eq_iff {a b c d : Int} :
    s!"Lines: {a}-{b}" = s!"Lines: {c}-{d}" ↔ a = c ∧ b = d := by
  constructor
  · intro h
    have hline : ("Lines: " ++ toString a ++ "-" ++ toString b).toList =
        ("Lines: " ++ toString c ++ "-" ++ toString d).toList := congrArg String.toList h
    simp only [String.toList_append, List.append_assoc] at hline
    exact span_inj (List.append_cancel_left hline)
  · rintro ⟨rfl, rfl⟩
    rfl

/-! ## Blocks -/

/-- The lines of a finding that are always there. -/
def header (f : Finding) : List String :=
  [s!"File: {f.file}", s!"Function: {f.function}", s!"Language: {f.language}",
    s!"Lines: {f.startLine}-{f.endLine}", s!"Complexity: {f.complexity}"]

/-- The lines about the increments of a finding. -/
def factorLines (f : Finding) : List String :=
  if f.factors.isEmpty then [] else "Complexity Factors:" :: f.factors.map factorLine

theorem block_eq (f : Finding) : block true f = header f ++ (factorLines f ++ [""]) := by
  rw [block, header, factorLines, List.append_assoc]
  cases f.factors.isEmpty <;> rfl

theorem factorLines_eq_iff {f g : Finding} :
    factorLines f = factorLines g ↔ f.factors.map Factor.told = g.factors.map Factor.told := by
  have hmap : f.factors.map factorLine = g.factors.map factorLine ↔
      f.factors.map Factor.told = g.factors.map Factor.told := by
    simp only [map_eq_map_iff_forall₂, factorLine_eq_iff]
  rw [← hmap, factorLines, factorLines]
  cases f.factors <;> cases g.factors <;> simp

/-- A block tells all of a finding but its parameters and the categories of its increments. -/
theorem block_eq_iff {f g : Finding} : block true f = block true g ↔ f.ToldAlike g := by
  have hcomplexity : s!"Complexity: {f.complexity}" = s!"Complexity: {g.complexity}" ↔
      f.complexity = g.complexity := by
    rw [String.append_right_inj]
    exact ⟨fun h => int_inj (congrArg String.toList h), congrArg toString⟩
  have hheader : header f = header g ↔ f.file = g.file ∧ f.function = g.function ∧
      f.language = g.language ∧ (f.startLine = g.startLine ∧ f.endLine = g.endLine) ∧
      f.complexity = g.complexity := by
    simp only [header, List.cons.injEq, spanLine_eq_iff, hcomplexity, String.append_right_inj,
      and_true]
    rfl
  rw [block_eq, block_eq]
  constructor
  · intro h
    obtain ⟨hh, hrest⟩ := List.append_inj h rfl
    obtain ⟨hfile, hfunction, hlanguage, ⟨hstart, hend⟩, hcomplexity⟩ := hheader.mp hh
    exact ⟨hfile, hfunction, hlanguage, hstart, hend, hcomplexity,
      factorLines_eq_iff.mp (List.append_cancel_right hrest)⟩
  · intro h
    rw [hheader.mpr ⟨h.file, h.function, h.language, ⟨h.startLine, h.endLine⟩, h.complexity⟩,
      factorLines_eq_iff.mpr h.factors]

theorem empty_notMem_factorLines (f : Finding) : "" ∉ factorLines f := by
  unfold factorLines
  split
  · simp
  · intro h
    rcases List.mem_cons.mp h with h | h
    · exact absurd h (by decide)
    · obtain ⟨x, -, hx⟩ := List.mem_map.mp h
      have hline := congrArg String.toList hx
      rw [toList_factorLine] at hline
      cases hline

/-- A block shows where it ends: at its first empty line. -/
theorem block_append_inj {f g : Finding} {rest rest' : List String}
    (h : block true f ++ rest = block true g ++ rest') :
    block true f = block true g ∧ rest = rest' := by
  simp only [block_eq, List.append_assoc, List.singleton_append] at h ⊢
  obtain ⟨hheader, hlines⟩ := List.append_inj h rfl
  obtain ⟨hfactors, hrest⟩ :=
    cut_first (empty_notMem_factorLines f) (empty_notMem_factorLines g) hlines
  exact ⟨by rw [hheader, hfactors], hrest⟩

/-! ## Reports -/

theorem notMem_append {c : Char} {a b : String} (ha : c ∉ a.toList) (hb : c ∉ b.toList) :
    c ∉ (a ++ b).toList := by
  rw [String.toList_append, List.mem_append]
  exact not_or.mpr ⟨ha, hb⟩

theorem newline_notMem_block {f : Finding} (h : f.OneLine) :
    ∀ line ∈ block true f, '\n' ∉ line.toList := by
  have hint := notMem_int (c := '\n') (by decide) (by decide)
  have hfactor : ∀ x ∈ f.factors, '\n' ∉ (factorLine x).toList := fun x hx =>
    notMem_append (notMem_append (notMem_append (notMem_append (notMem_append (notMem_append
      (by decide) (h.factors x hx)) (by decide)) (hint _)) (by decide)) (hint _)) (by decide)
  intro line hline
  simp only [block_eq, header, List.mem_append, List.mem_cons, List.not_mem_nil, or_false] at hline
  rcases hline with (rfl | rfl | rfl | rfl | rfl) | hline | rfl
  · exact notMem_append (by decide) h.file
  · exact notMem_append (by decide) h.function
  · exact notMem_append (by decide) h.language
  · exact notMem_append (notMem_append (notMem_append (by decide) (hint _)) (by decide)) (hint _)
  · exact notMem_append (by decide) (hint _)
  · unfold factorLines at hline
    split at hline
    · cases hline
    · rcases List.mem_cons.mp hline with rfl | hline
      · decide
      · obtain ⟨x, hx, rfl⟩ := List.mem_map.mp hline
        exact hfactor x hx
  · decide

def totalLine (fs : List Finding) : String :=
  s!"Total complexity: {Finding.total fs}"

def lines (fs : List Finding) : List String :=
  fs.flatMap (block true) ++ [totalLine fs]

theorem newline_notMem_lines {fs : List Finding} (h : ∀ f ∈ fs, f.OneLine) :
    ∀ line ∈ (lines fs).map String.toList, '\n' ∉ line := by
  intro cs hcs
  obtain ⟨line, hline, rfl⟩ := List.mem_map.mp hcs
  rcases List.mem_append.mp hline with hline | hline
  · obtain ⟨f, hf, hline⟩ := List.mem_flatMap.mp hline
    exact newline_notMem_block (h f hf) line hline
  · rw [List.mem_singleton.mp hline]
    exact notMem_append (by decide) (notMem_int (by decide) (by decide) _)

/-- A report is cut into its lines again. -/
theorem splitOn_text {fs : List Finding} (h : ∀ f ∈ fs, f.OneLine) :
    (text true fs).toList.splitOn '\n' = (lines fs).map String.toList ++ [[]] := by
  have htext : (text true fs).toList =
      ['\n'].intercalate ((lines fs).map String.toList) ++ ['\n'] := by
    show ("\n".intercalate (lines fs) ++ "\n").toList = _
    rw [String.toList_append, String.toList_intercalate]
    rfl
  rw [htext, List.splitOn_append_cons_self,
    List.splitOn_intercalate '\n' (newline_notMem_lines h) (by simp [lines])]
  rfl

/-- A total cannot be taken for the first line of a block. -/
theorem totalLine_ne_block (fs : List Finding) (f : Finding) (rest rest' : List String) :
    totalLine fs :: rest ≠ block true f ++ rest' := by
  intro h
  have hline : ("Total complexity: " ++ toString (Finding.total fs)).toList =
      ("File: " ++ f.file).toList := congrArg String.toList (List.cons.inj h).1
  rw [String.toList_append, String.toList_append] at hline
  cases hline

/-- Blocks are told one after the other, up to a total. -/
theorem forall₂_of_lines {fs gs all all' : List Finding}
    (h : fs.flatMap (block true) ++ [totalLine all] = gs.flatMap (block true) ++ [totalLine all']) :
    List.Forall₂ Finding.ToldAlike fs gs := by
  induction fs generalizing gs with
  | nil =>
    cases gs with
    | nil => exact .nil
    | cons g gs =>
      rw [List.flatMap_cons, List.append_assoc] at h
      exact (totalLine_ne_block _ _ _ _ h).elim
  | cons f fs ih =>
    cases gs with
    | nil =>
      rw [List.flatMap_cons, List.append_assoc] at h
      exact (totalLine_ne_block _ _ _ _ h.symm).elim
    | cons g gs =>
      rw [List.flatMap_cons, List.flatMap_cons, List.append_assoc, List.append_assoc] at h
      obtain ⟨hblock, hrest⟩ := block_append_inj h
      exact .cons (block_eq_iff.mp hblock) (ih hrest)

theorem text_eq_of_forall₂ {fs gs : List Finding} (h : List.Forall₂ Finding.ToldAlike fs gs) :
    text true fs = text true gs := by
  have hblocks : fs.map (block true) = gs.map (block true) :=
    map_eq_map_iff_forall₂.mpr (h.imp fun _ _ hfg => block_eq_iff.mpr hfg)
  have hcomplexities : fs.map (·.complexity) = gs.map (·.complexity) :=
    map_eq_map_iff_forall₂.mpr (h.imp fun _ _ hfg => hfg.complexity)
  rw [text, text, total_eq_sum, total_eq_sum, List.flatMap_def, List.flatMap_def, hblocks,
    hcomplexities]

/-- **A verbose text report can be read back.** For findings whose texts do not break a line,
whatever else these hold and whatever the integers are: two lists have the same report exactly if
they are of the same length and agree, position by position, on the file, the function, the
language, the lines, the complexity and, in order, the description, line and value of every
increment. -/
theorem text_carries_findings {fs gs : List Finding} (hf : ∀ f ∈ fs, f.OneLine)
    (hg : ∀ g ∈ gs, g.OneLine) :
    text true fs = text true gs ↔ List.Forall₂ Finding.ToldAlike fs gs := by
  refine ⟨fun h => ?_, text_eq_of_forall₂⟩
  have hlines := congrArg (fun s : String => s.toList.splitOn '\n') h
  simp only [splitOn_text hf, splitOn_text hg] at hlines
  have hsame : lines fs = lines gs :=
    List.map_injective_iff.mpr (fun _ _ => String.toList_injective)
      (List.append_cancel_right hlines)
  exact forall₂_of_lines hsame

/-- A finding whose texts look like other parts of a report, with negative numbers. -/
def imitation (category : Category) (parameters : List String) : Finding :=
  { file := "File: a (line 3, +1)", language := "", function := "Complexity Factors:",
    startLine := -1, endLine := -2, complexity := -3,
    factors := [⟨"  - if (line 3, +1)", -4, -5, category⟩], parameters }

/-- The two lists have the same report, and differ in what it does not tell. -/
theorem text_carries_findings_imitated :
    text true [imitation .hybrid ["x"]] = text true [imitation .nesting []] ∧
      List.Forall₂ Finding.ToldAlike [imitation .hybrid ["x"]] [imitation .nesting []] ∧
      imitation .hybrid ["x"] ≠ imitation .nesting [] := by
  have hline (category : Category) (parameters : List String) :
      ∀ f ∈ [imitation category parameters], f.OneLine := by
    intro f hf
    rw [List.mem_singleton.mp hf]
    constructor <;> simp [imitation]
  have hsame : text true [imitation .hybrid ["x"]] = text true [imitation .nesting []] := rfl
  exact ⟨hsame, (text_carries_findings (hline _ _) (hline _ _)).mp hsame, by decide⟩

end Report

end CognitiveLoad
