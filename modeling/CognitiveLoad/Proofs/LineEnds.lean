import CognitiveLoad.Proofs.Batch
import CognitiveLoad.Proofs.Encoding
import CognitiveLoad.Proofs.Walks

/-!
Line ends of source files. A file is read with every line end turned into a newline, so a text that
is kept with newlines, with carriage returns or with both is read as the same text
(`unifyNewlines_write`), and a survey never sees how the lines of a file end
(`line_ends_survey_alike`). That holds as long as one file has one kind of line end: a carriage
return that ends a line and a newline that ends the next one would be taken for one line end.
-/

namespace CognitiveLoad

/-- The ways to end a line. -/
inductive LineEnd where
  | newline
  | returnNewline
  | carriageReturn
  deriving DecidableEq, Repr

namespace LineEnd

def chars : LineEnd → List Char
  | newline => ['\n']
  | returnNewline => ['\r', '\n']
  | carriageReturn => ['\r']

def spell (e : LineEnd) (c : Char) : List Char :=
  if c = '\n' then e.chars else [c]

/-- The text as it is kept with the given line end in place of every newline. -/
def write (e : LineEnd) (t : String) : String :=
  String.ofList (t.toList.flatMap e.spell)

theorem write_newline (t : String) : newline.write t = t := by
  have hspell : newline.spell = fun c => [c] := by
    funext c
    by_cases hc : c = '\n' <;> simp [spell, chars, hc]
  rw [write, hspell, List.flatMap_singleton', String.ofList_toList]

end LineEnd

/-! ## Newlines -/

namespace Text

theorem unifyNewlines_cons {c : Char} (h : c ≠ '\r') (rest : List Char) :
    unifyNewlines (c :: rest) = c :: unifyNewlines rest := by
  rw [unifyNewlines]
  · simp [h]
  · exact h

theorem unifyNewlines_return {rest : List Char} (h : '\n' ∉ rest) :
    unifyNewlines ('\r' :: rest) = '\n' :: unifyNewlines rest := by
  rw [unifyNewlines]
  rintro rest' rfl
  simp at h

/-- Where carriage returns end the lines, no newline is left that could join one of them. -/
theorem newline_notMem_flatMap (cs : List Char) :
    '\n' ∉ cs.flatMap LineEnd.carriageReturn.spell := by
  intro h
  obtain ⟨c, -, hc⟩ := List.mem_flatMap.mp h
  by_cases hn : c = '\n'
  · simp [LineEnd.spell, LineEnd.chars, hn] at hc
  · simp [LineEnd.spell, hn, Ne.symm hn] at hc

theorem unifyNewlines_write {cs : List Char} (h : '\r' ∉ cs) (e : LineEnd) :
    unifyNewlines (cs.flatMap e.spell) = cs := by
  induction cs with
  | nil => rfl
  | cons c cs ih =>
    rw [List.mem_cons, not_or] at h
    obtain ⟨hc, hcs⟩ := h
    rw [List.flatMap_cons]
    by_cases hn : c = '\n'
    · subst hn
      have hspell : e.spell '\n' = e.chars := if_pos rfl
      rw [hspell]
      cases e with
      | newline =>
        rw [LineEnd.chars, List.singleton_append, unifyNewlines_cons (by decide), ih hcs]
      | returnNewline =>
        rw [LineEnd.chars, List.cons_append, List.singleton_append, unifyNewlines, ih hcs]
      | carriageReturn =>
        rw [LineEnd.chars, List.singleton_append,
          unifyNewlines_return (newline_notMem_flatMap cs), ih hcs]
    · have hspell : e.spell c = [c] := if_neg hn
      rw [hspell, List.singleton_append, unifyNewlines_cons (Ne.symm hc), ih hcs]

end Text

/-! ## Files -/

/-- A file that keeps a text is read as that text, but for its line ends. -/
theorem Workspace.read_of_text {ws : Workspace} {p : Path} {t : String}
    (h : ws.node? p = .ok (some (.file t.toUTF8))) :
    ws.read p = .ok (String.ofList (Text.unifyNewlines t.toList)) := by
  obtain ⟨there, hstands⟩ := ws.stands_of_node? h
  rw [hstands.read, Text.Utf8.toList_toUTF8, Text.Utf8.decode_encode]

namespace Survey

theorem ofFile_of_read (s : Survey) {ws : Workspace} {p : Path} {t : String}
    (h : ws.read p = .ok t) :
    s.ofFile ws p = Traced.note .info .survey s!"Analyzing file: {p.toString}" >>= fun _ =>
      s.ofText t p.toString := by
  simp only [ofFile, h]

/-- **Line ends make no difference.** Let one path lead to three files that keep a text without
carriage returns: as it is, with a carriage return before every newline, and with a carriage return
in place of every newline. Then each file is read as the text itself and has the findings of the
text, and the surveys of the three are the same, messages included. -/
theorem line_ends_survey_alike (s : Survey) (t : String) (ht : '\r' ∉ t.toList) (p : Path)
    (ws : LineEnd → Workspace)
    (h : ∀ e : LineEnd, (ws e).node? p = .ok (some (.file (e.write t).toUTF8))) :
    LineEnd.newline.write t = t ∧ (∀ e, (ws e).read p = .ok t) ∧
      (∀ e, (s.ofFile (ws e) p).value = (s.ofText t p.toString).value) ∧
      ∀ e e', s.ofFile (ws e) p = s.ofFile (ws e') p := by
  have hread (e : LineEnd) : (ws e).read p = .ok t := by
    rw [Workspace.read_of_text (h e), LineEnd.write, String.toList_ofList,
      Text.unifyNewlines_write ht, String.ofList_toList]
  refine ⟨LineEnd.write_newline t, hread, fun e => ?_, fun e e' => ?_⟩
  · rw [s.ofFile_of_read (hread e)]
    rfl
  · rw [s.ofFile_of_read (hread e), s.ofFile_of_read (hread e')]

/-- The function of the text `\n\né`, which begins at its third byte. -/
def thirdLineTree : Tree :=
  .ofListing [some ⟨"module", true, none, 0, 4, 0, 2, 1⟩,
    some ⟨"function_definition", true, none, 2, 4, 2, 2, 2⟩,
    some ⟨"identifier", true, some "name", 2, 4, 2, 2, 0⟩,
    some ⟨"block", true, some "body", 4, 4, 2, 2, 1⟩,
    some ⟨"if_statement", true, none, 4, 4, 2, 2, 0⟩]

def thirdLineParsers : Parsers where
  tree? d text := if d = .python ∧ text = "\n\né" then some thirdLineTree else none

def thirdLineSurvey : Survey :=
  { sampleSurvey with parsers := thirdLineParsers }

def thirdLineWorkspace (e : LineEnd) : Workspace where
  entries := [("a.py", .file (e.write "\n\né").toUTF8)]

/-- Two line ends in a row stay two, and the name after them is found, in each of the files. -/
theorem line_ends_survey_alike_third_line :
    let found e := thirdLineSurvey.ofFile (thirdLineWorkspace e) (.ofString "a.py")
    (∀ e, (thirdLineWorkspace e).read (.ofString "a.py") = .ok "\n\né") ∧
      (∀ e e', found e = found e') ∧
      ∀ e, (found e).value.toOption.map (List.map fun f => (f.function, f.startLine, f.complexity))
        = some [("é", 3, 1)] := by
  intro found
  obtain ⟨-, hread, htext, hsame⟩ := line_ends_survey_alike thirdLineSurvey "\n\né" (by decide)
    (.ofString "a.py") thirdLineWorkspace (fun e => by cases e <;> rfl)
  refine ⟨hread, hsame, fun e => ?_⟩
  rw [htext]
  decide +kernel

end Survey

end CognitiveLoad
