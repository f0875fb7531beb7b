import CognitiveLoad.Proofs.Multiplicity
import CognitiveLoad.Proofs.Relocation

/-!
Where ignore patterns count. Below a root a survey with patterns is the survey without patterns of
the files that no pattern matches (`Survey.ofFiles_eq_kept`). A file that is named by itself is
surveyed in any case (`Survey.ofPath_of_file`): there the patterns decide only whether it is said to
take part.
-/

namespace CognitiveLoad.Survey

variable (s : Survey)

/-- The same survey without patterns. -/
def unfiltered : Survey :=
  { s with settings := { s.settings with ignore := [] }, ignore := .empty none }

/-- The files that no pattern matches, each as it is seen from the root. -/
def kept (root : Path) (files : List Path) : List Path :=
  files.filter fun q => !(s.ignore.withRoot root).ignores q

/-! ## A file by itself -/

theorem assessAll_unfiltered (r : Reader) (text file : String) (definitions : List Definition)
    (routines : List Routine) :
    s.unfiltered.assessAll r text file definitions routines =
      s.assessAll r text file definitions routines := by
  induction routines with
  | nil => rfl
  | cons routine rest ih =>
    rw [assessAll, assessAll, ih]
    rfl

theorem ofTree_unfiltered (r : Reader) (text file : String) (tree : Tree) :
    s.unfiltered.ofTree r text file tree = s.ofTree r text file tree := by
  simp only [ofTree, assessAll_unfiltered]
  rfl

theorem ofText_unfiltered (text file : String) (asked : Option String) :
    s.unfiltered.ofText text file asked = s.ofText text file asked := by
  simp only [ofText, ofTree_unfiltered]
  rfl

theorem ofFile_unfiltered (ws : Workspace) (p : Path) :
    s.unfiltered.ofFile ws p = s.ofFile ws p := by
  simp only [ofFile, ofText_unfiltered]

/-- The patterns have no part in the survey of a file that is named by itself. -/
theorem ofPath_of_file {ws : Workspace} {p : Path} {bytes : ByteArray}
    (h : ws.node? p = .ok (some (.file bytes))) (recursive : Option Bool) :
    s.ofPath ws p recursive = s.unfiltered.ofFile ws p := by
  rw [ofPath, h, ofFile_unfiltered]

/-! ## Files below a root -/

theorem takes_unfiltered {ignore : Ignore.Matcher} {p : Path} (h : ignore.ignores p = false)
    (root : Path) :
    (s.unfiltered.takes (s.unfiltered.ignore.withRoot root) p).value =
      (s.takes ignore p).value := by
  have hnone : (s.unfiltered.ignore.withRoot root).ignores p = false := rfl
  rw [takes_value, takes_value, h, hnone]
  rfl

theorem takes_of_ignores {ignore : Ignore.Matcher} {p : Path} (h : ignore.ignores p = true) :
    (s.takes ignore p).value = false := by
  rw [takes_value, h]
  rfl

theorem share_eq_ite (ws : Workspace) (root p : Path) :
    s.share ws (s.ignore.withRoot root) p =
      if !(s.ignore.withRoot root).ignores p then
        s.unfiltered.share ws (s.unfiltered.ignore.withRoot root) p
      else .ok [] := by
  cases hignored : (s.ignore.withRoot root).ignores p with
  | true =>
    rw [share, s.takes_of_ignores hignored]
    rfl
  | false =>
    simp only [Bool.not_false, if_true, share, s.takes_unfiltered hignored, ofFile_unfiltered]

/-- A survey with patterns is the survey without them of the files that no pattern matches. -/
theorem ofFiles_eq_kept (ws : Workspace) (files : List Path) (root : Path) :
    (s.ofFiles ws files root).value = (s.unfiltered.ofFiles ws (s.kept root files) root).value := by
  rw [ofFiles_value, ofFiles_value, kept, ← mapM_flatten_filter]
  congr 2
  funext p
  exact s.share_eq_ite ws root p

theorem file_of_mem_ofFiles {ws : Workspace} {files : List Path} {root : Path} {fs : List Finding}
    (h : (s.ofFiles ws files root).value = .ok fs) :
    ∀ f ∈ fs, ∃ q ∈ files, f.file = q.toString := by
  intro f hf
  rw [ofFiles_value] at h
  obtain ⟨q, hq, here, hhere, hmem⟩ := mem_mapM_flatten h hf
  exact ⟨q, hq, s.file_of_mem_share hhere f hmem⟩

/-- **Patterns count below a root, and not for a file named by itself.** For every survey, file tree
and path `p`:

* if `p` is a regular file, its survey is that of a survey without patterns, also where a pattern
  matches `p` and the file is said to take no part. So the patterns hold there only if the file has
  no findings anyway;
* below `p` a pattern is matched with the names from `p` on;
* the survey of a directory or of a repository is the survey without patterns of the listed files
  that no pattern matches, and every finding is in one of these. -/
theorem patterns_hold_below_roots (ws : Workspace) (p : Path) (recursive : Option Bool) :
    (∀ bytes, ws.node? p = .ok (some (.file bytes)) →
      s.ofPath ws p recursive = s.unfiltered.ofFile ws p ∧
        (s.ignore.ignores p = true → (s.takes s.ignore p).value = false)) ∧
    (∀ names, (s.ignore.withRoot p).ignores (p.below names) =
      s.ignore.test (Path.toString ⟨.relative, names⟩)) ∧
    ∀ files,
      let plain := (s.unfiltered.ofFiles ws (s.kept p files) p).value
      ((ws.list p.toString (recursive.getD s.settings.recursive)).value = .ok files →
        (s.ofDirectory ws p recursive).value = plain) ∧
      (ws.isRepository p = .ok true → (ws.listTracked p).value = .ok files →
        (s.ofRepository ws p).value = plain) ∧
      ∀ fs, plain = .ok fs → ∀ f ∈ fs, ∃ q ∈ s.kept p files, f.file = q.toString := by
  refine ⟨fun bytes h => ⟨s.ofPath_of_file h recursive, s.takes_of_ignores⟩,
    s.ignore.ignores_below p, fun files => ⟨fun hlist => ?_, fun hrepo hfiles => ?_,
      fun fs hfs => s.unfiltered.file_of_mem_ofFiles hfs⟩⟩
  · rw [← ofFiles_eq_kept, ofFiles_value, ofDirectory_value, hlist]
  · rw [← ofFiles_eq_kept, ofFiles_value, s.ofRepository_value hrepo hfiles]

/-- A survey that ignores `a.py`, wherever it is. -/
def ignoringSurvey : Survey :=
  { sampleSurvey with
    ignore := (Ignore.Matcher.make Ignore.globs ["a.py"]).toOption.getD (.empty none) }

/-- The file takes no part and has no findings in its repository, but three by itself. -/
theorem patterns_hold_below_roots_sample :
    let s := ignoringSurvey
    (s.takes s.ignore (.ofString "src/a.py")).value = false ∧
      (s.ofRepository sampleWorkspace (.ofString "src")).value.toOption = some [] ∧
      (s.ofPath sampleWorkspace (.ofString "src/a.py") none).value.toOption.map List.length =
        some 3 := by
  intro s
  have hnode : sampleWorkspace.node? (.ofString "src/a.py") = .ok (some (.file "fgf".toUTF8)) := rfl
  have hrepo : sampleWorkspace.isRepository (.ofString "src") = .ok true := rfl
  have hfiles : (sampleWorkspace.listTracked (.ofString "src")).value =
      .ok [.ofString "src/b.txt", .ofString "src/a.py"] := rfl
  have hkept : s.kept (.ofString "src") [.ofString "src/b.txt", .ofString "src/a.py"] =
      [.ofString "src/b.txt"] := by decide +kernel
  obtain ⟨hfile, htakes⟩ :=
    (s.patterns_hold_below_roots sampleWorkspace (.ofString "src/a.py") none).1 _ hnode
  obtain ⟨-, hsurvey, -⟩ := (s.patterns_hold_below_roots sampleWorkspace (.ofString "src")
    none).2.2 [.ofString "src/b.txt", .ofString "src/a.py"]
  refine ⟨htakes (by decide +kernel), ?_, ?_⟩
  · rw [hsurvey hrepo hfiles, hkept]
    decide +kernel
  · rw [hfile]
    decide +kernel

end CognitiveLoad.Survey
