import CognitiveLoad.Proofs.Batch
import CognitiveLoad.Proofs.Paths

/-!
Names of routines as labels. A routine is called by the names of the named definitions around it and
its own, joined by dots, and a name is any piece of the text. So the label tells its parts if and
only if none of them holds a dot.

* `Text.splitOn_intercalate`: cutting what was joined cuts every part;
* `Text.lastPiece_eq_iff`, `Text.splitOn_intercalate_eq_iff`: when nothing is cut but at the joints;
* `Dialect.labels_decode_iff`: the same for all routines of a tree.
-/

namespace CognitiveLoad

namespace Text

theorem notMem_of_mem_splitOn {c : Char} {s piece : String} (h : piece ∈ splitOn c s) :
    c ∉ piece.toList := by
  obtain ⟨cs, hcs, rfl⟩ := List.mem_map.mp h
  intro hc
  rw [String.toList_ofList] at hc
  simpa using not_cut_of_mem_splitWhere hcs c hc

theorem splitOn_of_notMem {c : Char} {s : String} (h : c ∉ s.toList) : splitOn c s = [s] := by
  have hwhole : s.toList.splitOnP (· == c) = [s.toList] := by
    rw [← List.splitOn_eq_splitOnP]
    exact List.splitOn_eq_singleton h
  rw [splitOn, splitWhere_eq_splitOnP, hwhole, List.map_singleton, String.ofList_toList]

/-- Cutting what was joined cuts every part. -/
theorem splitOn_intercalate {c : Char} {sep : String} (hsep : sep.toList = [c])
    {parts : List String} (hne : parts ≠ []) :
    splitOn c (sep.intercalate parts) = parts.flatMap (splitOn c) := by
  induction parts with
  | nil => exact absurd rfl hne
  | cons part rest ih =>
    cases rest with
    | nil => simp
    | cons next rest =>
      have hjoined : (sep.intercalate (part :: next :: rest)).toList =
          part.toList ++ c :: (sep.intercalate (next :: rest)).toList := by
        simp only [String.toList_intercalate, List.map_cons, List.intercalate_cons_cons, hsep,
          List.append_assoc, List.singleton_append]
      rw [List.flatMap_cons, ← ih (by simp)]
      simp only [splitOn, splitWhere_eq_splitOnP, hjoined]
      rw [List.splitOnP_append_cons (p := (· == c)) _ _ (beq_self_eq_true c), List.map_append]

/-- What was joined is told by its pieces exactly if no part is cut. -/
theorem splitOn_intercalate_eq_iff {c : Char} {sep : String} (hsep : sep.toList = [c])
    {parts : List String} (hne : parts ≠ []) :
    splitOn c (sep.intercalate parts) = parts ↔ ∀ part ∈ parts, c ∉ part.toList := by
  constructor
  · intro h part hpart
    rw [← h] at hpart
    exact notMem_of_mem_splitOn hpart
  · intro h
    rw [splitOn_intercalate hsep hne,
      List.flatMap_congr fun part hpart => splitOn_of_notMem (h part hpart)]
    simp

/-- What follows the last occurrence of a character, or the whole text if there is none. -/
def lastPiece (c : Char) (s : String) : String :=
  ((splitOn c s).getLast?).getD ""

theorem splitOn_ne_nil (c : Char) (s : String) : splitOn c s ≠ [] := by
  simpa [splitOn] using splitWhere_ne_nil _ _

theorem lastPiece_eq_iff {c : Char} {s : String} : lastPiece c s = s ↔ c ∉ s.toList := by
  constructor
  · intro h
    have hlast : lastPiece c s ∈ splitOn c s := by
      rw [lastPiece, List.getLast?_eq_some_getLast (splitOn_ne_nil c s)]
      exact List.getLast_mem _
    rw [← h]
    exact notMem_of_mem_splitOn hlast
  · intro h
    rw [lastPiece, splitOn_of_notMem h]
    rfl

theorem lastPiece_intercalate {c : Char} {sep : String} (hsep : sep.toList = [c])
    (parts : List String) (last : String) :
    lastPiece c (sep.intercalate (parts ++ [last])) = lastPiece c last := by
  rw [lastPiece, splitOn_intercalate hsep (by simp), List.flatMap_append, List.flatMap_singleton,
    List.getLast?_append_of_ne_nil _ (splitOn_ne_nil c last)]
  rfl

end Text

/-- The names of the named definitions around the node at the end of a trail, from the outermost
inwards. -/
def Dialect.namesAround (d : Dialect) (source : ByteArray) (τ : Tree.Trail) : List String :=
  τ.above.reverse.filterMap (Outline.nameOn? d source)

/-- **A label tells its parts exactly if none of them holds a dot.** For every routine of a listed
tree, made from the definition `e` at the end of its one trail `τ`: its short name is the own name
of `e` if and only if that holds no dot, and cutting its name at the dots gives the names of the
named definitions around `e` and its own if and only if none of these holds a dot. -/
theorem Dialect.labels_decode_iff (d : Dialect) (text : String) (entries : List (Option Listed)) :
    let source := text.toUTF8
    let tree := Tree.ofListing entries
    let found := (Outline.definitions d source tree).value
    (d.routines text tree).value = found.map (Routine.ofDefinition d source) ∧
      ∀ e ∈ found, ∃ τ own, (∀ σ, σ ∈ tree.trails ∧ σ.node = e.node ↔ σ = τ) ∧
        d.ownName source e.node = some own ∧
        let routine := Routine.ofDefinition d source e
        let names := d.namesAround source τ ++ [own]
        (routine.shortName = own ↔ '.' ∉ own.toList) ∧
          (Text.splitOn '.' routine.name = names ↔ ∀ name ∈ names, '.' ∉ name.toList) := by
  intro source tree found
  refine ⟨d.routines_value text tree, fun e he => ?_⟩
  obtain ⟨above, own, hτ, hown, hpath, -⟩ :=
    Outline.exists_trail_of_mem_listing d source [] tree he
  have hname : (Routine.ofDefinition d source e).name =
      ".".intercalate (d.namesAround source ⟨above, e.node⟩ ++ [own]) := by
    show ".".intercalate e.path = _
    rw [hpath, List.nil_append]
    rfl
  refine ⟨⟨above, e.node⟩, own, fun σ => ?_, hown, ?_, ?_⟩
  · constructor
    · rintro ⟨hσ, hnode⟩
      exact (Tree.ofListing_distinct entries).trail_eq hσ hτ (by rw [hnode])
    · rintro rfl
      exact ⟨hτ, rfl⟩
  · have hshort : (Routine.ofDefinition d source e).shortName = Text.lastPiece '.' own := by
      show Text.lastPiece '.' (Routine.ofDefinition d source e).name = _
      rw [hname, Text.lastPiece_intercalate rfl]
    rw [hshort, Text.lastPiece_eq_iff]
  · rw [hname]
    exact Text.splitOn_intercalate_eq_iff rfl (by simp)

/-- A function whose name has a dot in it, and a function in its body. -/
def Listed.dottedEntries : List (Option Listed) :=
  [some ⟨"function_definition", true, none, 0, 4, 0, 0, 2⟩,
    some ⟨"identifier", true, some "name", 0, 3, 0, 0, 0⟩,
    some ⟨"block", true, some "body", 3, 4, 0, 0, 1⟩,
    some ⟨"function_definition", true, none, 3, 4, 0, 0, 1⟩,
    some ⟨"identifier", true, some "name", 3, 4, 0, 0, 0⟩]

/-- The outer function has lost its name, the inner one only the name around it. -/
theorem Dialect.labels_decode_iff_dotted :
    let source := "a.bc".toUTF8
    let found := (Outline.definitions .python source (.ofListing Listed.dottedEntries)).value
    (∃ e ∈ found, python.ownName source e.node = some "a.b" ∧
      (Routine.ofDefinition .python source e).shortName ≠ "a.b") ∧
    ∃ e ∈ found, python.ownName source e.node = some "c" ∧ e.name = "a.b.c" ∧
      (Routine.ofDefinition .python source e).shortName = "c" := by
  intro source found
  have houter : ∃ e ∈ found, python.ownName source e.node = some "a.b" := by decide +kernel
  have hinner : ∃ e ∈ found, python.ownName source e.node = some "c" ∧ e.name = "a.b.c" := by
    decide +kernel
  have hall := (labels_decode_iff .python "a.bc" Listed.dottedEntries).2
  obtain ⟨e, he, hown⟩ := houter
  obtain ⟨e', he', hown', hname⟩ := hinner
  obtain ⟨τ, own, -, hsome, hshort, -⟩ := hall e he
  obtain ⟨τ', own', -, hsome', hshort', -⟩ := hall e' he'
  cases Option.some.inj (hown.symm.trans hsome)
  cases Option.some.inj (hown'.symm.trans hsome')
  exact ⟨⟨e, he, hown, mt hshort.mp (by decide)⟩, e', he', hown', hname, hshort'.mpr (by decide)⟩

end CognitiveLoad
