import CognitiveLoad.Proofs.FanOut
import CognitiveLoad.Proofs.Messages
import CognitiveLoad.Proofs.Registrations
import CognitiveLoad.Proofs.Shape

/-!
Surveys of a directory with the catalog of all languages, file by file. A file is chosen by its
extension in one place and given a language in another; the two agree (`languageFor_of_takes`), and
every language of the catalog can be read (`Catalog.create_of_standard`). So no file stops a survey,
and none has a share in the findings in another (`Survey.ofDirectory_file_by_file`).
-/

namespace CognitiveLoad

/-! ## The catalog of all languages -/

namespace Catalog

section Standard

variable {parsers : Parsers} {c : Catalog} (h : (standard parsers).value = .ok c)

include h

theorem reader_of_standard {language : String} {r : Reader}
    (hr : c.reader? language = some r) : ∃ d : Dialect, r = d.reader := by
  have hrecords : c.Records standardRegistrations := by
    rw [(of_standard h).1]
    exact records_empty.foldl_record standardRegistrations
  have hne : language ≠ "" := by
    rintro rfl
    cases hr
  rw [hrecords.reader?_eq hne, Option.map_eq_some_iff] at hr
  obtain ⟨e, he, rfl⟩ := hr
  have hmem := (List.mem_filter.mp (List.mem_of_getLast? he)).1
  simp only [standardRegistrations, List.mem_cons, List.not_mem_nil, or_false] at hmem
  rcases hmem with rfl | rfl
  · exact ⟨.cpp, rfl⟩
  · exact ⟨.python, rfl⟩

/-- A reader of the catalog can always be started again. -/
theorem create_of_standard (language : String) :
    (c.create parsers language).value = .ok (c.reader? language) := by
  unfold create
  cases hr : c.reader? language with
  | none => rfl
  | some r =>
    obtain ⟨d, rfl⟩ := reader_of_standard h hr
    simp only [Traced.value_bind, Reader.start_value, Reader.obstacle?_reader, (of_standard h).2]
    rfl

/-- A language that owns an extension has a reader. -/
theorem reader?_of_languageOf? {path language : String}
    (hl : c.languageOf? path = some language) : ∃ r, c.reader? language = some r := by
  rw [(of_standard h).1] at hl ⊢
  have howners : ∀ e ∈ (standardRegistrations.foldl record {}).owners.entries,
      ((standardRegistrations.foldl record {}).reader? e.2).isSome = true := by decide +kernel
  unfold languageOf? at hl
  dsimp only at hl
  split at hl
  · cases hl
  · exact Option.isSome_iff_exists.mp (howners _ (Roster.mem_of_lookup hl))

end Standard

end Catalog

namespace Survey

theorem of_prepare {parsers : Parsers} {engine : Ignore.Engine} {request : Settings.Request}
    {s : Survey} (h : (prepare parsers engine request).value = .ok s) :
    (Catalog.standard s.parsers).value = .ok s.catalog ∧
      Ignore.Matcher.make engine s.settings.ignore = .ok s.ignore := by
  simp only [prepare, Traced.value_bind] at h
  cases hcatalog : (Catalog.standard parsers).value with
  | error e =>
    rw [hcatalog] at h
    cases h
  | ok catalog =>
    rw [hcatalog] at h
    cases hcheck : request.check with
    | error e =>
      simp only [hcheck] at h
      cases h
    | ok settings =>
      simp only [hcheck, Traced.value_pure, make] at h
      cases hmake : Ignore.Matcher.make engine settings.ignore with
      | error e =>
        rw [hmake] at h
        cases h
      | ok ignore =>
        rw [hmake] at h
        cases h
        exact ⟨hcatalog, hmake⟩

variable (s : Survey)

/-- A file that takes part is read in the language that owns its extension, also where a language is
set for all files. -/
theorem languageFor_of_takes {ignore : Ignore.Matcher} {p : Path}
    (h : (s.takes ignore p).value = true) :
    ∃ language, s.catalog.languageOf? p.toString = some language ∧
      s.languageFor p.toString none = some language := by
  rw [takes_value, Bool.and_eq_true] at h
  have hlanguage := h.2
  cases hset : s.settings.language with
  | none =>
    rw [hset] at hlanguage
    obtain ⟨language, howner⟩ := Option.isSome_iff_exists.mp hlanguage
    exact ⟨language, howner, by simp [languageFor, hset, howner]⟩
  | some forced =>
    simp only [hset, beq_iff_eq] at hlanguage
    exact ⟨forced, hlanguage, by simp [languageFor, hset]⟩

/-- The findings that one file adds, if it does not stop the survey. -/
def found (ws : Workspace) (ignore : Ignore.Matcher) (p : Path) : List Finding :=
  (s.share ws ignore p).toOption.getD []

theorem file_of_mem_found {ws : Workspace} {ignore : Ignore.Matcher} {p : Path} :
    ∀ f ∈ s.found ws ignore p, f.file = p.toString := by
  unfold found
  cases hshare : s.share ws ignore p with
  | error e => simp [Except.toOption]
  | ok fs => exact s.file_of_mem_share hshare

section Standard

variable {s} (hs : (Catalog.standard s.parsers).value = .ok s.catalog)

include hs

theorem create_of_takes {ignore : Ignore.Matcher} {p : Path}
    (h : (s.takes ignore p).value = true) :
    ∃ r, (s.catalog.create s.parsers ((s.languageFor p.toString none).getD "")).value =
      .ok (some r) := by
  obtain ⟨language, howner, hfor⟩ := s.languageFor_of_takes h
  obtain ⟨r, hr⟩ := Catalog.reader?_of_languageOf? hs howner
  exact ⟨r, by rw [hfor, Catalog.create_of_standard hs, Option.getD_some, hr]⟩

theorem ofText_ok (text file : String) (asked : Option String) :
    ∃ fs, (s.ofText text file asked).value = .ok fs := by
  have hcreate := Catalog.create_of_standard hs ((s.languageFor file asked).getD "")
  cases hr : s.catalog.reader? ((s.languageFor file asked).getD "") with
  | none =>
    rw [hr] at hcreate
    exact ⟨[], s.ofText_value_of_none hcreate⟩
  | some r =>
    rw [hr] at hcreate
    exact ⟨_, s.ofText_value hcreate⟩

theorem ofBytes_ok (bytes : ByteArray) (file : String) : ∃ fs, s.ofBytes bytes file = .ok fs := by
  unfold ofBytes
  split
  · exact ofText_ok hs _ _ _
  · exact ⟨[], rfl⟩

theorem ofBytes_of_no_language {file : String} (h : s.languageFor file none = none)
    (bytes : ByteArray) : s.ofBytes bytes file = .ok [] := by
  have hcreate := Catalog.create_of_standard hs ((s.languageFor file none).getD "")
  have hreader : s.catalog.reader? ((s.languageFor file none).getD "") = none := by
    rw [h]
    rfl
  rw [hreader] at hcreate
  unfold ofBytes
  split
  · exact s.ofText_value_of_none hcreate
  · rfl

theorem share_eq_found {ws : Workspace} {p : Path} {there : Place} {bytes : ByteArray}
    (hp : ws.Stands p there (.file bytes)) (ignore : Ignore.Matcher) :
    s.share ws ignore p = .ok (s.found ws ignore p) := by
  have hshare : ∃ fs, s.share ws ignore p = .ok fs := by
    unfold share
    split
    · rw [s.ofFile_value hp]
      exact ofBytes_ok hs bytes p.toString
    · exact ⟨[], rfl⟩
  obtain ⟨fs, hfs⟩ := hshare
  rw [found, hfs]
  rfl

theorem ofDirectory_eq_flatMap {ws : Workspace} {p : Path} {recursive : Option Bool}
    {there : Place} {files : List Path}
    (hlist : (ws.list p.toString (recursive.getD s.settings.recursive)).value = .ok files)
    (hfiles : ws.FilesStand p there files) :
    (s.ofDirectory ws p recursive).value =
      .ok (files.flatMap (s.found ws (s.ignore.withRoot p))) := by
  rw [ofDirectory_value, hlist]
  apply mapM_flatten_eq_ok
  intro f hf
  obtain ⟨names, bytes, -, hstands⟩ := hfiles f hf
  exact share_eq_found hs hstands _

/-- Where nothing is ignored and no language is set, a file that takes no part has no findings. -/
theorem share_eq_ofFile (hlanguage : s.settings.language = none) {ignore : Ignore.Matcher}
    (hignore : ∀ p, ignore.ignores p = false) {ws : Workspace} {p : Path} {there : Place}
    {bytes : ByteArray} (hp : ws.Stands p there (.file bytes)) :
    s.share ws ignore p = (s.ofFile ws p).value := by
  unfold share
  rw [takes_value, hignore, hlanguage]
  cases howner : s.catalog.languageOf? p.toString with
  | some language => rfl
  | none =>
    have hfor : s.languageFor p.toString none = none := by
      simp [languageFor, hlanguage, howner]
    rw [s.ofFile_value hp, ofBytes_of_no_language hs hfor]
    rfl

end Standard

theorem ignores_of_no_patterns {engine : Ignore.Engine}
    (hmake : Ignore.Matcher.make engine s.settings.ignore = .ok s.ignore)
    (h : s.settings.ignore = []) (root p : Path) : (s.ignore.withRoot root).ignores p = false := by
  rw [h] at hmake
  rw [← Except.ok.inj hmake]
  rfl

/-- What other files add does not depend on the bytes of the file at `target`. -/
theorem found_of_differsAt {ws ws' : Workspace} {target names : List String}
    (h : ws.DiffersAt target ws') (ignore : Ignore.Matcher) {p : Path} {bytes : ByteArray}
    (hp : ws.Stands p names (.file bytes)) (hne : names ≠ target) :
    s.found ws' ignore p = s.found ws ignore p := by
  obtain ⟨bytes', hp', hbytes⟩ := h.stands hp
  rw [found, found, share, share, s.ofFile_value hp', s.ofFile_value hp, hbytes hne]

theorem filter_found_self (ws : Workspace) (ignore : Ignore.Matcher) (p : Path) :
    (s.found ws ignore p).filter (·.file ≠ p.toString) = [] := by
  rw [List.filter_eq_nil_iff]
  intro f hf
  simp [s.file_of_mem_found f hf]

theorem filter_flatMap_found {ws ws' : Workspace} {root : Path} {there : Place}
    {names : List String} {files : List Path} (hfiles : ws.FilesStand root there files)
    (h : ws.DiffersAt (there ++ names) ws') (ignore : Ignore.Matcher) :
    (files.flatMap (s.found ws' ignore)).filter (·.file ≠ (root.below names).toString) =
      (files.flatMap (s.found ws ignore)).filter (·.file ≠ (root.below names).toString) := by
  rw [List.filter_flatMap, List.filter_flatMap]
  apply List.flatMap_congr
  intro f hf
  obtain ⟨names', bytes, rfl, hstands⟩ := hfiles f hf
  by_cases hself : names' = names
  · rw [hself, filter_found_self, filter_found_self]
  · have hne : there ++ names' ≠ there ++ names := fun heq => hself (List.append_cancel_left heq)
    rw [s.found_of_differsAt h ignore hstands hne]

/-- **A directory is surveyed file by file.** Take a survey with the catalog of all languages, with
any settings, and a directory of a proper file tree.

* A file that takes part has a reader, so that no survey says of it that its language is not
  supported.
* If nothing is ignored and no language is set, the findings are those at the listed files, one
  after the other. The survey stops only if the listing is refused.
* If other bytes are put into one listed file, whatever they are, the findings in all other files
  stay the same. -/
theorem ofDirectory_file_by_file {parsers : Parsers} {engine : Ignore.Engine}
    {request : Settings.Request} {s : Survey}
    (hs : (prepare parsers engine request).value = .ok s) (ws : Workspace)
    (hws : FileNode.areProper ws.entries = true) (d : String) (recursive : Option Bool) :
    let result := fun ws => (s.ofDirectory ws (.ofString d) recursive).value
    (∀ ignore p, (s.takes ignore p).value = true →
      (∃ r, (s.catalog.create s.parsers ((s.languageFor p.toString none).getD "")).value =
        .ok (some r)) ∧
      ∀ ws', ∀ e ∈ (s.ofFile ws' p).log, e.isUnsupported = false) ∧
    match (ws.list d (recursive.getD s.settings.recursive)).value with
    | .error e => result ws = .error (.file e)
    | .ok files =>
      (s.settings.ignore = [] → s.settings.language = none →
        ∃ found, (∀ f ∈ files, ∀ mode, (s.ofPath ws f mode).value = .ok (found f)) ∧
          result ws = .ok (files.flatMap found)) ∧
      ∀ p ∈ files, ∃ target,
        ws.walk (ws.start p.anchor) p.parts = .ok target ∧
        ∀ ws', ws.DiffersAt target ws' → ∃ fs fs', result ws = .ok fs ∧ result ws' = .ok fs' ∧
          fs'.filter (·.file ≠ p.toString) = fs.filter (·.file ≠ p.toString) := by
  obtain ⟨hstandard, hmake⟩ := of_prepare hs
  refine ⟨fun ignore p htakes => ?_, ?_⟩
  · obtain ⟨r, hr⟩ := create_of_takes hstandard htakes
    exact ⟨⟨r, hr⟩, s.supported_ofFile (by simp [hr])⟩
  rw [Workspace.list_text]
  cases hlist :
    (ws.list (Path.ofString d).toString (recursive.getD s.settings.recursive)).value with
  | error e => simp only [ofDirectory_value, hlist]
  | ok files =>
    obtain ⟨there, hfiles⟩ := Workspace.filesStand_list hws (Path.plain_ofString d) hlist
    have hresult := ofDirectory_eq_flatMap hstandard hlist hfiles
    refine ⟨fun hignore hlanguage => ⟨_, fun f hf mode => ?_, hresult⟩, fun p hp => ?_⟩
    · obtain ⟨names, bytes, -, hstands⟩ := hfiles f hf
      rw [← share_eq_found hstandard hstands, share_eq_ofFile hstandard hlanguage
        (s.ignores_of_no_patterns hmake hignore _) hstands, ofPath, hstands.node?]
    · obtain ⟨names, bytes, rfl, hstands⟩ := hfiles p hp
      refine ⟨there ++ names, hstands.walk, fun ws' hdiffers => ?_⟩
      have hlist' := (hdiffers.list_value _ _).trans hlist
      exact ⟨_, _, hresult, ofDirectory_eq_flatMap hstandard hlist' (hdiffers.filesStand hfiles),
        s.filter_flatMap_found hfiles hdiffers _⟩

/-- Two sources and a file in no language. -/
def sampleFolder : List (String × FileNode) :=
  [("a.py", .file "fgf".toUTF8), ("b.py", .file "fgf".toUTF8), ("c.txt", .file "fgf".toUTF8)]

def folderWorkspace : Workspace :=
  { entries := [("src", .directory sampleFolder)] }

theorem list_folderWorkspace :
    (folderWorkspace.list "src" false).value =
      .ok [.ofString "src/a.py", .ofString "src/b.py", .ofString "src/c.txt"] := by
  have hlook : folderWorkspace.look (.ofString "src") = .ok (.directory sampleFolder) := rfl
  have hfiles : FileNode.filesWithin false
      (Workspace.deniedBelow folderWorkspace.denied (.ofString "src")) sampleFolder =
        [["a.py"], ["b.py"], ["c.txt"]] := rfl
  exact Workspace.list_of_sorted _ hlook (by decide +kernel) (by decide +kernel)
    (by decide +kernel) hfiles (by decide +kernel)

def brokenWorkspace : Workspace :=
  folderWorkspace.put (.file ⟨#[255]⟩) ["src", "a.py"]

/-- Bytes that are no text are put into the first file, and the findings in the second stay. -/
theorem ofDirectory_file_by_file_sample :
    let result := fun ws => (sampleSurvey.ofDirectory ws (.ofString "src") none).value
    (∃ found, (∀ f ∈ ["src/a.py", "src/b.py", "src/c.txt"],
          (sampleSurvey.ofPath folderWorkspace (.ofString f) none).value = .ok (found f)) ∧
        result folderWorkspace = .ok (["src/a.py", "src/b.py", "src/c.txt"].flatMap found)) ∧
      (∃ fs fs', result folderWorkspace = .ok fs ∧ result brokenWorkspace = .ok fs' ∧
        fs'.filter (·.file ≠ "src/a.py") = fs.filter (·.file ≠ "src/a.py")) ∧
      (result brokenWorkspace).toOption.map (List.map (·.file)) =
        some ["src/b.py", "src/b.py", "src/b.py"] := by
  have hs : (prepare sampleParsers Ignore.globs {}).value = .ok sampleSurvey := rfl
  have hproper : FileNode.areProper folderWorkspace.entries = true := by decide +kernel
  have hdiffers : folderWorkspace.DiffersAt ["src", "a.py"] brokenWorkspace :=
    Workspace.differsAt_put hproper rfl _
  have hlist : (folderWorkspace.list "src" ((none : Option Bool).getD
      sampleSurvey.settings.recursive)).value = _ := list_folderWorkspace
  obtain ⟨-, h⟩ := ofDirectory_file_by_file hs folderWorkspace hproper "src" none
  rw [hlist] at h
  obtain ⟨hlossless, hlocal⟩ := h
  refine ⟨?_, ?_, ?_⟩
  · obtain ⟨found, hfound, hresult⟩ := hlossless rfl rfl
    refine ⟨fun f => found (.ofString f), ?_, hresult⟩
    intro f hf
    exact hfound (.ofString f) (List.mem_map_of_mem hf) none
  · obtain ⟨target, hwalk, hsame⟩ := hlocal (.ofString "src/a.py") (List.mem_cons_self ..)
    cases hwalk
    exact hsame _ hdiffers
  · have hlist' := (hdiffers.list_value "src" false).trans list_folderWorkspace
    rw [Workspace.list_text] at hlist'
    have hmode : (none : Option Bool).getD sampleSurvey.settings.recursive = false := rfl
    simp only [ofDirectory_value, hmode, hlist']
    decide +kernel

end Survey

end CognitiveLoad
