import CognitiveLoad.Proofs.Batch
import CognitiveLoad.Proofs.Walks

/-!
Surveys of many files, one file at a time.

* `Survey.ofText_inFile`: a text under another name has the same findings under that name;
* `Survey.ofFile_value`: the findings in a file are told by its bytes and its path;
* `Survey.ofFiles_value`: the findings in several files are the shares of these files in their
  order, up to the first file that stops the survey.
-/

namespace CognitiveLoad

theorem mapM_eq_map_mapM {ε α β γ : Type} {f : α → Except ε β} {g : α → Except ε γ} {φ : β → γ}
    {l : List α} (h : ∀ a ∈ l, g a = (f a).map φ) : l.mapM g = (l.mapM f).map (List.map φ) := by
  induction l with
  | nil => rfl
  | cons a rest ih =>
    rw [List.mapM_cons, List.mapM_cons, h a (List.mem_cons_self ..),
      ih fun b hb => h b (List.mem_cons_of_mem _ hb)]
    cases f a with
    | error e => rfl
    | ok b =>
      cases rest.mapM f <;> rfl

theorem mapM_flatten_eq_ok {ε α β : Type} {f : α → Except ε (List β)} {g : α → List β} {l : List α}
    (h : ∀ a ∈ l, f a = .ok (g a)) : (l.mapM f).map List.flatten = .ok (l.flatMap g) := by
  induction l with
  | nil => rfl
  | cons a rest ih =>
    have hrest := ih fun b hb => h b (List.mem_cons_of_mem _ hb)
    rw [List.mapM_cons, h a (List.mem_cons_self ..), List.flatMap_cons]
    cases hshares : rest.mapM f with
    | error e =>
      rw [hshares] at hrest
      cases hrest
    | ok shares =>
      rw [hshares] at hrest
      rw [← Except.ok.inj hrest]
      rfl

theorem mem_mapM_flatten {ε α β : Type} {f : α → Except ε (List β)} {l : List α} {all : List β}
    (h : (l.mapM f).map List.flatten = .ok all) {b : β} (hb : b ∈ all) :
    ∃ a ∈ l, ∃ here, f a = .ok here ∧ b ∈ here := by
  induction l generalizing all with
  | nil =>
    cases h
    cases hb
  | cons a rest ih =>
    rw [List.mapM_cons] at h
    cases hhere : f a with
    | error e =>
      rw [hhere] at h
      cases h
    | ok here =>
      rw [hhere] at h
      cases hrest : rest.mapM f with
      | error e =>
        rw [hrest] at h
        cases h
      | ok others =>
        rw [hrest] at h ih
        cases h
        rcases List.mem_append.mp hb with hb | hb
        · exact ⟨a, List.mem_cons_self .., here, hhere, hb⟩
        · obtain ⟨a', ha', found⟩ := ih rfl hb
          exact ⟨a', List.mem_cons_of_mem _ ha', found⟩

/-- The finding for a file of another name. -/
def Finding.inFile (f : Finding) (file : String) : Finding :=
  { f with file }

namespace Survey

variable (s : Survey)

/-! ## The name of a file -/

theorem candidate?_inFile (r : Reader) (text file file' : String) (definitions : List Definition)
    (routine : Routine) :
    s.candidate? r text file' definitions routine =
      (s.candidate? r text file definitions routine).map (·.inFile file') := by
  unfold candidate?
  cases definitionAt? definitions routine.startByte <;> rfl

theorem ofText_value_of_none {text file : String} {asked : Option String}
    (h : (s.catalog.create s.parsers ((s.languageFor file asked).getD "")).value = .ok none) :
    (s.ofText text file asked).value = .ok [] := by
  simp only [ofText, Traced.value_bind, h]
  rfl

/-- The name of a file decides about the language of its text and is told in the findings; it has no
other effect. -/
theorem ofText_inFile {text file file' : String} {asked : Option String}
    (h : s.languageFor file' asked = s.languageFor file asked) :
    (s.ofText text file' asked).value =
      (s.ofText text file asked).value.map (List.map (·.inFile file')) := by
  cases hcreate : (s.catalog.create s.parsers ((s.languageFor file asked).getD "")).value with
  | error e => simp only [ofText, Traced.value_bind, h, hcreate]; rfl
  | ok reader =>
    have hcreate' := hcreate
    rw [← h] at hcreate'
    cases reader with
    | none =>
      rw [s.ofText_value_of_none hcreate, s.ofText_value_of_none hcreate']
      rfl
    | some r =>
      rw [s.ofText_value hcreate, s.ofText_value hcreate']
      simp only [Except.map, List.map_filterMap]
      congr 1
      apply List.filterMap_congr
      intro e _
      rw [s.candidate?_inFile r text file file']
      cases s.candidate? r text file (r.outline s.parsers text)
          (Routine.ofDefinition r.dialect text.toUTF8 e) with
      | none => rfl
      | some f =>
        have hreaches : reaches s.settings.threshold (f.inFile file') =
            reaches s.settings.threshold f := rfl
        simp only [Option.map_some, Option.filter_some, hreaches]
        split <;> rfl

theorem file_of_mem_ofText {text file : String} {asked : Option String} {fs : List Finding}
    (h : (s.ofText text file asked).value = .ok fs) : ∀ f ∈ fs, f.file = file := by
  have hsame : (s.ofText text file asked).value =
      (s.ofText text file asked).value.map (List.map (·.inFile file)) := s.ofText_inFile rfl
  rw [h] at hsame
  intro f hf
  have hfs : fs = fs.map (·.inFile file) := Except.ok.inj hsame
  rw [hfs] at hf
  obtain ⟨g, -, rfl⟩ := List.mem_map.mp hf
  rfl

/-! ## The bytes of a file -/

/-- The findings in the bytes of a file. Bytes that are no text have none. -/
def ofBytes (bytes : ByteArray) (file : String) : Except Failure (List Finding) :=
  match Text.Utf8.decode bytes.data.toList with
  | .ok cs => (s.ofText (String.ofList (Text.unifyNewlines cs)) file).value
  | .error _ => .ok []

theorem ofFile_value {ws : Workspace} {p : Path} {there : Place} {bytes : ByteArray}
    (h : ws.Stands p there (.file bytes)) :
    (s.ofFile ws p).value = s.ofBytes bytes p.toString := by
  simp only [ofFile, Traced.value_bind, h.read, ofBytes]
  cases Text.Utf8.decode bytes.data.toList <;> rfl

theorem ofBytes_inFile {bytes : ByteArray} {file file' : String}
    (h : s.languageFor file' none = s.languageFor file none) :
    s.ofBytes bytes file' = (s.ofBytes bytes file).map (List.map (·.inFile file')) := by
  unfold ofBytes
  cases Text.Utf8.decode bytes.data.toList with
  | ok cs => exact s.ofText_inFile h
  | error e => rfl

theorem file_of_mem_ofFile {ws : Workspace} {p : Path} {fs : List Finding}
    (h : (s.ofFile ws p).value = .ok fs) : ∀ f ∈ fs, f.file = p.toString := by
  simp only [ofFile, Traced.value_bind] at h
  split at h
  · cases h
  · cases h
    simp
  · exact s.file_of_mem_ofText h

/-! ## Several files -/

/-- What one file adds to the findings in several. -/
def share (ws : Workspace) (ignore : Ignore.Matcher) (p : Path) : Except Failure (List Finding) :=
  if (s.takes ignore p).value then (s.ofFile ws p).value else .ok []

theorem takes_value (ignore : Ignore.Matcher) (p : Path) :
    (s.takes ignore p).value = (!ignore.ignores p &&
      match s.settings.language with
      | some forced => s.catalog.languageOf? p.toString == some forced
      | none => (s.catalog.languageOf? p.toString).isSome) := by
  unfold takes
  cases ignore.ignores p with
  | true => rfl
  | false =>
    simp only [Bool.false_eq_true, if_false, Bool.not_false, Bool.true_and]
    cases s.settings.language <;> simp only [Traced.value_pure]

theorem file_of_mem_share {ws : Workspace} {ignore : Ignore.Matcher} {p : Path} {fs : List Finding}
    (h : s.share ws ignore p = .ok fs) : ∀ f ∈ fs, f.file = p.toString := by
  unfold share at h
  split at h
  · exact s.file_of_mem_ofFile h
  · cases h
    simp

theorem ofFilesUnder_value (ws : Workspace) (ignore : Ignore.Matcher) (files : List Path) :
    (s.ofFilesUnder ws ignore files).value.map Prod.fst =
      (files.mapM (s.share ws ignore)).map List.flatten := by
  induction files with
  | nil => rfl
  | cons p rest ih =>
    rw [List.mapM_cons, ofFilesUnder, Traced.value_bind, share]
    cases (s.takes ignore p).value with
    | false =>
      simp only [Bool.false_eq_true, if_false, ih]
      cases rest.mapM (s.share ws ignore) <;> rfl
    | true =>
      simp only [if_true, Traced.value_bind]
      cases (s.ofFile ws p).value with
      | error e => rfl
      | ok here =>
        have hshares : ((Except.ok here : Except Failure _) >>= fun first =>
            rest.mapM (s.share ws ignore) >>= fun others => pure (first :: others)).map
              List.flatten =
            ((rest.mapM (s.share ws ignore)).map List.flatten).map (here ++ ·) := by
          cases rest.mapM (s.share ws ignore) <;> rfl
        rw [hshares, ← ih, Traced.value_bind]
        cases (s.ofFilesUnder ws ignore rest).value <;> rfl

theorem ofFiles_value (ws : Workspace) (files : List Path) (root : Path) :
    (s.ofFiles ws files root).value =
      (files.mapM (s.share ws (s.ignore.withRoot root))).map List.flatten := by
  rw [← ofFilesUnder_value, ofFiles, Traced.value_bind]
  cases (s.ofFilesUnder ws (s.ignore.withRoot root) files).value <;> rfl

theorem ofDirectory_value (ws : Workspace) (p : Path) (recursive : Option Bool) :
    (s.ofDirectory ws p recursive).value =
      match (ws.list p.toString (recursive.getD s.settings.recursive)).value with
      | .error e => .error (.file e)
      | .ok files => (files.mapM (s.share ws (s.ignore.withRoot p))).map List.flatten := by
  simp only [ofDirectory, Traced.value_bind]
  cases (ws.list p.toString (recursive.getD s.settings.recursive)).value with
  | error e => rfl
  | ok files => exact s.ofFiles_value ws files p

end Survey

end CognitiveLoad
