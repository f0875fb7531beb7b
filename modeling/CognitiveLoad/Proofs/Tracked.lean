import CognitiveLoad.Proofs.Locality

/-!
Tracked files and listed files. A repository is surveyed by the paths that a program prints, a
directory by a listing. Where both name the same files, the printed lines are read back as the paths
of the listing (`Workspace.listTracked_printed`), so each file has the same findings in both
surveys, and only the order of the files may differ (`Survey.ofRepository_follows_printed`).
-/

namespace CognitiveLoad

/-! ## Printed lines -/

namespace Text

/-- A text with the given lines, one below the other. The newline after the last may be missing. -/
def Prints (text : String) (printed : List String) : Prop :=
  let all := String.join (printed.map (· ++ "\n"))
  text = all ∨ text ++ "\n" = all

/-- A line that is found again when a text is cut into lines, and that is not blank. -/
structure IsPrintedLine (line : String) : Prop where
  no_end : ∀ c ∈ line.toList, isLineEnd c = false
  not_blank : isBlankText line = false

instance (line : String) : Decidable (IsPrintedLine line) :=
  decidable_of_iff ((line.toList.all fun c => !isLineEnd c) = true ∧ isBlankText line = false)
    ⟨fun h => ⟨by simpa using h.1, h.2⟩, fun h => ⟨by simpa using h.no_end, h.not_blank⟩⟩

theorem IsPrintedLine.ne_nil {line : String} (h : IsPrintedLine line) : line.toList ≠ [] := by
  intro hnil
  have hblank := h.not_blank
  rw [isBlankText, hnil] at hblank
  cases hblank

theorem linesAfter_cons {c : Char} (h : isLineEnd c = false) (line rest : List Char) :
    linesAfter line (c :: rest) = linesAfter (c :: line) rest := by
  rw [linesAfter]
  · rw [h]
    rfl
  · rintro _ rfl
    cases h

/-- Characters that end no line go on with the open one. -/
theorem linesAfter_append {cs : List Char} (h : ∀ c ∈ cs, isLineEnd c = false)
    (line rest : List Char) :
    linesAfter line (cs ++ rest) = linesAfter (cs.reverse ++ line) rest := by
  induction cs generalizing line with
  | nil => rfl
  | cons c cs ih =>
    have hc : isLineEnd c = false := h c (List.mem_cons_self ..)
    have hcs : ∀ c' ∈ cs, isLineEnd c' = false := fun c' hc' => h c' (List.mem_cons_of_mem _ hc')
    rw [List.cons_append, linesAfter_cons hc, ih hcs, List.reverse_cons, List.append_assoc]
    rfl

theorem linesAfter_newline (line rest : List Char) :
    linesAfter line ('\n' :: rest) = line.reverse :: linesAfter [] rest := by
  have hend : isLineEnd '\n' = true := rfl
  simp [linesAfter, hend]

theorem linesAfter_printed {printed : List String} (h : ∀ l ∈ printed, IsPrintedLine l)
    (rest : List Char) :
    linesAfter [] ((String.join (printed.map (· ++ "\n"))).toList ++ rest) =
      printed.map String.toList ++ linesAfter [] rest := by
  induction printed with
  | nil => rfl
  | cons line others ih =>
    have hline := h line (List.mem_cons_self ..)
    have hothers := ih fun l hl => h l (List.mem_cons_of_mem _ hl)
    have hcut : (String.join ((line :: others).map (· ++ "\n"))).toList ++ rest =
        line.toList ++ '\n' :: ((String.join (others.map (· ++ "\n"))).toList ++ rest) := by
      simp
    rw [hcut, linesAfter_append hline.no_end, linesAfter_newline, hothers, List.append_nil,
      List.reverse_reverse]
    rfl

theorem linesAfter_open {line : String} (h : IsPrintedLine line) :
    linesAfter [] line.toList = [line.toList] := by
  have happend := linesAfter_append h.no_end [] []
  rw [List.append_nil, List.append_nil] at happend
  rw [happend, linesAfter, if_neg (by simpa using h.ne_nil), List.reverse_reverse]

/-- The lines of a text are found again. -/
theorem lines_of_prints {text : String} {printed : List String} (htext : Prints text printed)
    (h : ∀ l ∈ printed, IsPrintedLine l) : lines text = printed := by
  have hback : (printed.map String.toList).map String.ofList = printed := by
    simp [Function.comp_def]
  have hcut : linesAfter [] text.toList = printed.map String.toList := by
    rcases htext with rfl | htext
    · have hall := linesAfter_printed h []
      rw [List.append_nil] at hall
      rw [hall, linesAfter]
      simp
    · -- the last line is open at the end of the text
      rcases List.eq_nil_or_concat printed with rfl | ⟨before, last, rfl⟩
      · have hlength := congrArg String.length htext
        simp at hlength
      · have hlast := h last (by simp)
        have hothers : ∀ l ∈ before, IsPrintedLine l := fun l hl => h l (by simp [hl])
        have hall : String.join ((before.concat last).map (· ++ "\n")) =
            String.join (before.map (· ++ "\n")) ++ last ++ "\n" := by
          simp [String.append_assoc]
        have htext : text = String.join (before.map (· ++ "\n")) ++ last :=
          (String.append_left_inj "\n").mp (htext.trans hall)
        rw [htext, String.toList_append, linesAfter_printed hothers, linesAfter_open hlast]
        simp
  rw [lines, hcut, hback]

end Text

/-! ## Printed paths -/

/-- How a path is told by a program at work in `root`. -/
def Path.seenFrom (p root : Path) : String :=
  ((p.relativeTo? root).getD p).toString

/-- A path below another is found again from what is told there. -/
theorem Path.join_seenFrom (root : Path) {names : List String}
    (h : ∀ c ∈ names, IsComponent c) :
    root.join (ofString ((root.below names).seenFrom root)) = root.below names := by
  have hplain : (⟨.relative, names⟩ : Path).Plain := h
  rw [seenFrom, relativeTo?_below, Option.getD_some, ofString_toString hplain]
  rfl

namespace Workspace

variable {ws : Workspace}

/-- Paths that lead on from `root` by names that files can have. -/
def Below (root : Path) (files : List Path) : Prop :=
  ∀ f ∈ files, ∃ names, f = root.below names ∧ ∀ c ∈ names, Path.IsComponent c

theorem ListedBy.below {root : Path} {files : List Path} {names : List (List String)}
    (h : ListedBy root files names) : Below root files := by
  intro f hf
  rw [h.eq_map] at hf
  obtain ⟨file, hfile, rfl⟩ := List.mem_map.mp hf
  exact ⟨file, rfl, fun c hc => (FileNode.of_isFileName (h.isFileName file hfile c hc)).1⟩

theorem ListedBy.nodup_files {root : Path} {files : List Path} {names : List (List String)}
    (h : ListedBy root files names) : files.Nodup := by
  rw [h.eq_map, List.Nodup, List.pairwise_map]
  refine h.nodup.imp ?_
  intro a b hne heq
  exact hne (List.append_cancel_left (Path.mk.inj heq).2)

theorem ListedBy.sorted_files {root : Path} {files : List Path} {names : List (List String)}
    (h : ListedBy root files names) : files.Pairwise fun p q => p.le q = true := by
  rw [h.eq_map, List.pairwise_map]
  refine h.sorted.imp ?_
  intro a b hle
  rwa [Path.le_below, Bool.not_eq_true', decide_eq_false_iff_not]

/-- In the order of their components the same files make the same list. -/
theorem ListedBy.eq_of_sorted {root : Path} {files : List Path} {names : List (List String)}
    (h : ListedBy root files names) {printed : List Path} (hsame : ∀ f, f ∈ printed ↔ f ∈ files)
    (honce : printed.Nodup) (hsorted : printed.Pairwise fun p q => p.le q = true) :
    printed = files := by
  have hperm : printed.Perm files := (List.perm_ext_iff_of_nodup honce h.nodup_files).mpr hsame
  refine hperm.eq_of_pairwise ?_ hsorted h.sorted_files
  intro p q hp hq hle hge
  obtain ⟨a, rfl, -⟩ := h.below p ((hsame p).mp hp)
  obtain ⟨b, rfl, -⟩ := h.below q hq
  rw [Path.le_below, Bool.not_eq_true', decide_eq_false_iff_not] at hle hge
  rw [List.le_antisymm hle hge]

/-- Printed paths are read back as they were told. -/
theorem listTracked_printed {root : Path} {printed : List Path} {text : String}
    (hrepo : ws.isRepository root = .ok true) (hanswer : ws.answer root = .printed text)
    (hbelow : Below root printed) (htext : Text.Prints text (printed.map (·.seenFrom root)))
    (hlines : ∀ f ∈ printed, Text.IsPrintedLine (f.seenFrom root)) :
    (ws.listTracked root).value = .ok printed := by
  have hall : ∀ l ∈ printed.map (·.seenFrom root), Text.IsPrintedLine l := by
    intro l hl
    obtain ⟨f, hf, rfl⟩ := List.mem_map.mp hl
    exact hlines f hf
  have hkept : (printed.map (·.seenFrom root)).filter (!Text.isBlankText ·) =
      printed.map (·.seenFrom root) := by
    rw [List.filter_eq_self]
    intro l hl
    rw [(hall l hl).not_blank]
    rfl
  have hback : ∀ f ∈ printed, root.join (.ofString (f.seenFrom root)) = f := by
    intro f hf
    obtain ⟨names, rfl, hnames⟩ := hbelow f hf
    exact root.join_seenFrom hnames
  have hpaths : printedPaths root text = printed := by
    rw [printedPaths, Text.lines_of_prints htext hall, hkept, List.map_map, Function.comp_def,
      List.map_congr_left (g := id) hback, List.map_id]
  simp only [listTracked, hrepo, hanswer, hpaths]
  rfl

end Workspace

/-! ## Findings by file -/

theorem ok_of_mapM_flatten {ε α β : Type} {f : α → Except ε (List β)} {l : List α} {all : List β}
    (h : (l.mapM f).map List.flatten = .ok all) : ∀ a ∈ l, ∃ here, f a = .ok here := by
  induction l generalizing all with
  | nil => simp
  | cons a rest ih =>
    rw [List.mapM_cons] at h
    cases hhere : f a with
    | error e =>
      rw [hhere] at h
      cases h
    | ok here =>
      cases hrest : rest.mapM f with
      | error e =>
        rw [hhere, hrest] at h
        cases h
      | ok others =>
        rw [hrest] at ih
        intro b hb
        rcases List.mem_cons.mp hb with rfl | hb
        · exact ⟨here, hhere⟩
        · exact ih rfl b hb

/-- Where every key brings items of its own, these are found again by the key. -/
theorem filter_flatMap_of_mem {α β κ : Type} [DecidableEq κ] {items : α → List β} {key : β → κ}
    {name : α → κ} {l : List α} (hkey : ∀ a ∈ l, ∀ b ∈ items a, key b = name a)
    (hname : ∀ a ∈ l, ∀ a' ∈ l, name a = name a' → a = a') (hnodup : l.Nodup) {a : α}
    (ha : a ∈ l) : (l.flatMap items).filter (key · = name a) = items a := by
  have hother : ∀ a' ∈ l, a' ≠ a → (items a').filter (key · = name a) = [] := by
    intro a' ha' hne
    rw [List.filter_eq_nil_iff]
    intro b hb
    rw [hkey a' ha' b hb, decide_eq_true_eq]
    intro heq
    exact hne (hname a' ha' a ha heq)
  have hown : (items a).filter (key · = name a) = items a := by
    rw [List.filter_eq_self]
    intro b hb
    rw [hkey a ha b hb, decide_eq_true_eq]
  obtain ⟨before, after, rfl⟩ := List.append_of_mem ha
  obtain ⟨-, hafter, hbefore⟩ := List.nodup_append.mp hnodup
  have hgone : ∀ part : List α, (∀ a' ∈ part, a' ∈ before ++ a :: after) → a ∉ part →
      (part.flatMap items).filter (key · = name a) = [] := by
    intro part hpart hnot
    rw [List.filter_flatMap, List.flatMap_eq_nil_iff]
    intro a' ha'
    exact hother a' (hpart a' ha') fun heq => hnot (heq ▸ ha')
  have hnotBefore : a ∉ before := fun hmem => hbefore a hmem a (List.mem_cons_self ..) rfl
  have hnotAfter : a ∉ after := (List.nodup_cons.mp hafter).1
  rw [List.flatMap_append, List.flatMap_cons, List.filter_append, List.filter_append, hown,
    hgone before (fun a' h => by simp [h]) hnotBefore,
    hgone after (fun a' h => by simp [h]) hnotAfter, List.nil_append, List.append_nil]

namespace Survey

variable (s : Survey)

theorem ofRepository_value {ws : Workspace} {root : Path} {files : List Path}
    (hrepo : ws.isRepository root = .ok true) (hfiles : (ws.listTracked root).value = .ok files) :
    (s.ofRepository ws root).value =
      (files.mapM (s.share ws (s.ignore.withRoot root))).map List.flatten := by
  simp only [ofRepository, Traced.value_bind, hrepo, hfiles]
  exact s.ofFiles_value ws files root

/-- The findings of a survey that are in one file. -/
def inFile (fs : List Finding) (f : Path) : List Finding :=
  fs.filter (·.file = f.toString)

theorem inFile_flatMap_found {ws : Workspace} {ignore : Ignore.Matcher} {root : Path}
    {files : List Path} (hbelow : Workspace.Below root files) (hroot : root.Plain)
    (hnodup : files.Nodup) {f : Path} (hf : f ∈ files) :
    inFile (files.flatMap (s.found ws ignore)) f = s.found ws ignore f := by
  have hplain : ∀ p ∈ files, p.Plain := by
    intro p hp
    obtain ⟨names, rfl, hnames⟩ := hbelow p hp
    exact Path.plain_below hroot hnames
  have hkey : ∀ p ∈ files, ∀ g ∈ s.found ws ignore p, g.file = p.toString :=
    fun p _ => s.file_of_mem_found
  have hname : ∀ p ∈ files, ∀ q ∈ files, p.toString = q.toString → p = q := by
    intro p hp q hq heq
    rw [← Path.ofString_toString (hplain p hp), heq, Path.ofString_toString (hplain q hq)]
  unfold inFile
  exact filter_flatMap_of_mem hkey hname hnodup hf

/-- Where no file stops a survey, each adds the findings that it has by itself. -/
theorem share_eq_found_of_ok {ws : Workspace} {ignore : Ignore.Matcher} {files : List Path}
    {all : List Finding} (h : (files.mapM (s.share ws ignore)).map List.flatten = .ok all) :
    ∀ f ∈ files, s.share ws ignore f = .ok (s.found ws ignore f) := by
  intro f hf
  obtain ⟨here, hhere⟩ := ok_of_mapM_flatten h f hf
  rw [found, hhere]
  rfl

theorem shares_of_subset {ws : Workspace} {ignore : Ignore.Matcher} {files part : List Path}
    {all : List Finding} (h : (files.mapM (s.share ws ignore)).map List.flatten = .ok all)
    (hpart : ∀ f ∈ part, f ∈ files) :
    (part.mapM (s.share ws ignore)).map List.flatten = .ok (part.flatMap (s.found ws ignore)) :=
  mapM_flatten_eq_ok fun f hf => s.share_eq_found_of_ok h f (hpart f hf)

theorem stops_of_subset {ws : Workspace} {ignore : Ignore.Matcher} {files part : List Path}
    (hpart : ∀ f ∈ part, f ∈ files)
    (h : ∃ e, (part.mapM (s.share ws ignore)).map List.flatten = .error e) :
    ∃ e, (files.mapM (s.share ws ignore)).map List.flatten = .error e := by
  obtain ⟨e, he⟩ := h
  cases hend : (files.mapM (s.share ws ignore)).map List.flatten with
  | error e' => exact ⟨e', rfl⟩
  | ok all =>
    rw [s.shares_of_subset hend hpart] at he
    cases he

/-- **A repository is surveyed as its directory is.** Take a directory that is a repository, any
survey, and an answer that prints the files of the full listing of the directory, seen from there,
one to a line, in any order and each once, where no printed path holds a line end or is blank.

* The tracked files are the listed ones in the order in which they are printed.
* The findings in the repository are those in the directory, put together file by file in that
  order; the survey of the one stops if that of the other does.
* With the catalog of all languages neither stops.
* If the files are printed in the order of their components, both surveys end alike. -/
theorem ofRepository_follows_printed (s : Survey) (ws : Workspace)
    (hws : FileNode.areProper ws.entries = true) (d : String)
    (hrepo : ws.isRepository (.ofString d) = .ok true) {files printed : List Path}
    (hfiles : (ws.list d true).value = .ok files) (hsame : ∀ f, f ∈ printed ↔ f ∈ files)
    (honce : printed.Nodup) {text : String} (hanswer : ws.answer (.ofString d) = .printed text)
    (htext : Text.Prints text (printed.map (·.seenFrom (.ofString d))))
    (hlines : ∀ f ∈ printed, Text.IsPrintedLine (f.seenFrom (.ofString d))) :
    let directory := (s.ofDirectory ws (.ofString d) (some true)).value
    let repository := (s.ofRepository ws (.ofString d)).value
    (ws.listTracked (.ofString d)).value = .ok printed ∧
      (∀ fs, directory = .ok fs →
        fs = files.flatMap (inFile fs) ∧ repository = .ok (printed.flatMap (inFile fs))) ∧
      ((∃ e, directory = .error e) ↔ ∃ e, repository = .error e) ∧
      (∀ parsers engine request, (prepare parsers engine request).value = .ok s →
        ∃ fs, directory = .ok fs) ∧
      (printed.Pairwise (fun p q => p.le q = true) → repository = directory) := by
  intro directory repository
  have hroot := Path.plain_ofString d
  rw [Workspace.list_text] at hfiles
  obtain ⟨names, hnames⟩ := Workspace.listedBy_list hws hroot hfiles
  have hfilesIn : ∀ f ∈ files, f ∈ printed := fun f => (hsame f).mpr
  have hprintedIn : ∀ f ∈ printed, f ∈ files := fun f => (hsame f).mp
  have hbelow : Workspace.Below (.ofString d) printed :=
    fun f hf => hnames.below f (hprintedIn f hf)
  have htracked := Workspace.listTracked_printed hrepo hanswer hbelow htext hlines
  have hdirectory : directory =
      (files.mapM (s.share ws (s.ignore.withRoot (.ofString d)))).map List.flatten := by
    simp only [directory, ofDirectory_value, Option.getD_some, hfiles]
  have hrepository : repository =
      (printed.mapM (s.share ws (s.ignore.withRoot (.ofString d)))).map List.flatten :=
    s.ofRepository_value hrepo htracked
  refine ⟨htracked, ?_, ?_, ?_, ?_⟩
  · intro fs hfs
    rw [hdirectory] at hfs
    have hfound : fs = files.flatMap (s.found ws (s.ignore.withRoot (.ofString d))) :=
      Except.ok.inj (hfs.symm.trans (s.shares_of_subset hfs fun f hf => hf))
    have hgroup : ∀ f ∈ files, inFile fs f = s.found ws (s.ignore.withRoot (.ofString d)) f := by
      intro f hf
      rw [hfound]
      exact s.inFile_flatMap_found hnames.below hroot hnames.nodup_files hf
    constructor
    · rw [List.flatMap_congr hgroup]
      exact hfound
    · rw [List.flatMap_congr fun f hf => hgroup f (hprintedIn f hf)]
      exact hrepository.trans (s.shares_of_subset hfs hprintedIn)
  · rw [hdirectory, hrepository]
    exact ⟨s.stops_of_subset hfilesIn, s.stops_of_subset hprintedIn⟩
  · intro parsers engine request hs
    obtain ⟨there, hstand⟩ := Workspace.filesStand_list hws hroot hfiles
    exact ⟨_, ofDirectory_eq_flatMap (of_prepare hs).1 hfiles hstand⟩
  · intro hsorted
    rw [hdirectory, hrepository, hnames.eq_of_sorted hsame honce hsorted]

/-- A repository with a file at the top and two in a directory. Some names have blanks in or around
them, and the answer prints the files in the order opposite to that of a listing. -/
def spacedFiles : List (String × FileNode) :=
  [(".git", .directory []), (" a .py", .file "fgf".toUTF8),
    ("lib", .directory [("b c.py ", .file "fgf".toUTF8), ("d.py", .file "fgf".toUTF8)])]

def spacedWorkspace : Workspace where
  entries := [("src", .directory spacedFiles)]
  tracked := [("src", .printed "lib/d.py\nlib/b c.py \n a .py\n")]

theorem list_spacedWorkspace :
    (spacedWorkspace.list "src" true).value =
      .ok [.ofString "src/ a .py", .ofString "src/lib/b c.py ", .ofString "src/lib/d.py"] := by
  have hlook : spacedWorkspace.look (.ofString "src") = .ok (.directory spacedFiles) := rfl
  have hfiles : FileNode.filesWithin true
      (Workspace.deniedBelow spacedWorkspace.denied (.ofString "src")) spacedFiles =
        [[" a .py"], ["lib", "b c.py "], ["lib", "d.py"]] := rfl
  exact Workspace.list_of_sorted _ hlook (by decide +kernel) (by decide +kernel)
    (by decide +kernel) hfiles (by decide +kernel)

theorem ofRepository_follows_printed_sample :
    let printed : List Path :=
      [.ofString "src/lib/d.py", .ofString "src/lib/b c.py ", .ofString "src/ a .py"]
    let repository := (sampleSurvey.ofRepository spacedWorkspace (.ofString "src")).value
    (spacedWorkspace.listTracked (.ofString "src")).value = .ok printed ∧
      (∃ fs, (sampleSurvey.ofDirectory spacedWorkspace (.ofString "src") (some true)).value =
        .ok fs ∧ repository = .ok (printed.flatMap (inFile fs))) ∧
      repository.toOption.map (List.map (·.file)) =
        some ["src/lib/d.py", "src/lib/d.py", "src/lib/d.py", "src/ a .py", "src/ a .py",
          "src/ a .py"] := by
  intro printed repository
  have hproper : FileNode.areProper spacedWorkspace.entries = true := by decide +kernel
  have hsame : ∀ f, f ∈ printed ↔ f ∈ printed.reverse := fun f => List.mem_reverse.symm
  have honce : printed.Nodup := by decide +kernel
  have htext : Text.Prints "lib/d.py\nlib/b c.py \n a .py\n"
      (printed.map (·.seenFrom (.ofString "src"))) := .inl (by decide +kernel)
  have hlines : ∀ f ∈ printed, Text.IsPrintedLine (f.seenFrom (.ofString "src")) := by
    decide +kernel
  obtain ⟨htracked, hok, -, hends, -⟩ := ofRepository_follows_printed sampleSurvey spacedWorkspace
    hproper "src" rfl list_spacedWorkspace hsame honce rfl htext hlines
  obtain ⟨fs, hfs⟩ := hends sampleParsers Ignore.globs {} rfl
  exact ⟨htracked, ⟨fs, hfs, (hok fs hfs).2⟩, by decide +kernel⟩

end Survey

end CognitiveLoad
