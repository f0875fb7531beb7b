import CognitiveLoad.Proofs.FanOut
import CognitiveLoad.Proofs.Listings

/-!
A directory is surveyed alike wherever it lies. Files are listed, put in order, ignored and given a
language by the names that lead to them from the directory, so the path of the directory shows in
the names of the files, and otherwise only by its length: no path may be longer than the system
takes.

* `Workspace.Holds.list_value`: the tree and the unreadable directories in it decide what is listed;
* `Survey.share_moved`: a file adds the same findings under each path of the directory;
* `Survey.ofDirectory_relocates`: so does the directory, unless something that is looked at lies at
  too long a path;
* `Survey.ofDirectory_detour`: a path by which a directory is not surveyed.
-/

namespace CognitiveLoad

/-! ## A tree at a path -/

namespace Workspace

/-- A directory with the given entries stands at a path, and of the directories in it those may not
be listed that `unreadable` names. -/
structure Holds (ws : Workspace) (root : Path) (tree : List (String × FileNode))
    (unreadable : List String → Bool) : Prop where
  directory : ws.node? root = .ok (some (.directory tree))
  denied : ∀ names inside, FileNode.find? tree names = some (.directory inside) →
    deniedBelow ws.denied root names = unreadable names

/-- Nothing that a listing looks at lies at a path longer than the system takes. -/
def Fits (ws : Workspace) (root : Path) (recursive : Bool) (tree : List (String × FileNode)) :
    Prop :=
  ∀ names node, LooksAt ws.denied root recursive tree names node →
    isLongPath (root.below names).toString = false

namespace Holds

variable {ws : Workspace} {root : Path} {tree : List (String × FileNode)}
  {unreadable : List String → Bool}

/-- The files that are listed, by the names that lead to them. -/
def listed (tree : List (String × FileNode)) (unreadable : List String → Bool)
    (recursive : Bool) : List (List String) :=
  if unreadable [] then []
  else (FileNode.filesWithin recursive unreadable tree).mergeSort fun a b => !decide (b < a)

theorem contains_root (h : ws.Holds root tree unreadable) :
    ws.denied.contains root.toString = unreadable [] := by
  rw [← h.denied [] tree rfl, deniedBelow_nil]

theorem list_value (h : ws.Holds root tree unreadable) (hroot : root.Plain)
    (htree : FileNode.areProper tree = true) {recursive : Bool}
    (hfits : ws.Fits root recursive tree) :
    (ws.list root.toString recursive).value =
      .ok ((listed tree unreadable recursive).map root.below) := by
  obtain ⟨there, hstands⟩ := stands_of_node? h.directory
  rw [Workspace.list_value ws hroot, h.contains_root, hstands.noNull, hstands.look]
  unfold listed
  cases hunreadable : unreadable [] with
  | true => rfl
  | false =>
    have hlistable := h.contains_root.trans hunreadable
    have hshort : ∀ q ∈ pathsIn ws.denied recursive root tree, isLongPath q.toString = false := by
      intro q hq
      obtain ⟨v, hv, rfl⟩ := List.mem_map.mp hq
      exact hfits v.1 v.2 ((mem_visited_iff_looksAt htree hlistable).mp hv)
    have hstopped := (stoppedAt?_eq_none_iff hlistable).mpr hshort
    simp only [hstopped, sortedFiles, FileNode.filesWithin,
      FileNode.visited_congr recursive htree h.denied]
    rfl

/-- What is listed is a file of the tree, and a listing looks at it. -/
theorem looksAt_of_mem_listed (h : ws.Holds root tree unreadable)
    (htree : FileNode.areProper tree = true) {recursive : Bool} {names : List String}
    (hmem : names ∈ listed tree unreadable recursive) :
    ∃ bytes, FileNode.Leads tree names (.file bytes) ∧
      LooksAt ws.denied root recursive tree names (.file bytes) := by
  unfold listed at hmem
  split at hmem
  · cases hmem
  · rename_i hreadable
    have hlistable := h.contains_root.trans (Bool.eq_false_of_not_eq_true hreadable)
    rw [List.mem_mergeSort, FileNode.mem_filesWithin] at hmem
    obtain ⟨bytes, hv⟩ := hmem
    refine ⟨bytes, FileNode.leads_of_mem_visited htree hv, ?_⟩
    rw [← mem_visited_iff_looksAt htree hlistable, FileNode.visited_congr recursive htree h.denied]
    exact hv

/-- A listed file stands where its path leads. -/
theorem stands_of_mem_listed (h : ws.Holds root tree unreadable)
    (htree : FileNode.areProper tree = true) {recursive : Bool}
    (hfits : ws.Fits root recursive tree) {names : List String} {bytes : ByteArray}
    (hmem : names ∈ listed tree unreadable recursive)
    (hleads : FileNode.Leads tree names (.file bytes)) :
    ∃ there, ws.Stands (root.below names) there (.file bytes) := by
  obtain ⟨there, hroot⟩ := stands_of_node? h.directory
  obtain ⟨bytes', -, hlooks⟩ := h.looksAt_of_mem_listed htree hmem
  exact ⟨_, hroot.below hleads (hfits names _ hlooks)⟩

end Holds

end Workspace

/-! ## What is decided by names -/

theorem Ignore.Matcher.ignores_below (m : Matcher) (root : Path) (names : List String) :
    (m.withRoot root).ignores (root.below names) =
      m.test (Path.toString ⟨.relative, names⟩) := by
  simp [ignores, relative, withRoot, Path.relativeTo?_below]

theorem FileNode.Leads.plain {tree : List (String × FileNode)} {names : List String}
    {node : FileNode} (h : Leads tree names node) {root : Path} (hroot : root.Plain) :
    (root.below names).Plain :=
  Path.plain_below hroot fun c hc => (of_isFileName (h.isFileName c hc)).1

theorem Catalog.languageOf?_below (c : Catalog) {root : Path} (hroot : root.Plain)
    {tree : List (String × FileNode)} {names : List String} {node : FileNode}
    (h : FileNode.Leads tree names node) :
    c.languageOf? (root.below names).toString =
      let ext := Text.lower (Path.extensionOf (names.getLast h.ne_nil))
      if ext = "" then none else c.owners.get? ext := by
  rw [languageOf?, Path.ofString_toString (h.plain hroot), Path.extension_below root h.ne_nil]

/-! ## Moved findings -/

/-- The path that leads on from `b` as `p` leads on from `a`. -/
def Path.rebase (p a b : Path) : Path :=
  match p.relativeTo? a with
  | some rest => b.below rest.parts
  | none => p

/-- The finding in a file below `a`, told of the file below `b`. -/
def Finding.moved (a b : Path) (f : Finding) : Finding :=
  f.inFile ((Path.ofString f.file).rebase a b).toString

theorem Finding.moved_eq {a b : Path} {names : List String} (hplain : (a.below names).Plain)
    {f : Finding} (hf : f.file = (a.below names).toString) :
    f.moved a b = f.inFile (b.below names).toString := by
  rw [moved, hf, Path.ofString_toString hplain, Path.rebase, Path.relativeTo?_below]

namespace Survey

variable (s : Survey)

theorem share_moved {wsA wsB : Workspace} {a b : Path} {tree : List (String × FileNode)}
    (ha : a.Plain) (hb : b.Plain) {names : List String} {bytes : ByteArray} {thereA thereB : Place}
    (hleads : FileNode.Leads tree names (.file bytes))
    (hA : wsA.Stands (a.below names) thereA (.file bytes))
    (hB : wsB.Stands (b.below names) thereB (.file bytes)) :
    s.share wsB (s.ignore.withRoot b) (b.below names) =
      (s.share wsA (s.ignore.withRoot a) (a.below names)).map (List.map (Finding.moved a b)) := by
  have hlanguage : s.catalog.languageOf? (b.below names).toString =
      s.catalog.languageOf? (a.below names).toString := by
    rw [s.catalog.languageOf?_below ha hleads, s.catalog.languageOf?_below hb hleads]
  have htakes : (s.takes (s.ignore.withRoot b) (b.below names)).value =
      (s.takes (s.ignore.withRoot a) (a.below names)).value := by
    simp only [takes_value, Ignore.Matcher.ignores_below, hlanguage]
  have hfor : s.languageFor (b.below names).toString none =
      s.languageFor (a.below names).toString none := by
    simp only [languageFor, hlanguage]
  unfold share
  rw [htakes]
  split
  · rw [s.ofFile_value hB, s.ofBytes_inFile hfor, ← s.ofFile_value hA]
    cases hfs : (s.ofFile wsA (a.below names)).value with
    | error e => rfl
    | ok fs =>
      refine congrArg Except.ok (List.map_congr_left fun f hf => ?_)
      exact (Finding.moved_eq (hleads.plain ha) (s.file_of_mem_ofFile hfs f hf)).symm
  · rfl

theorem shares_moved {wsA wsB : Workspace} {a b : Path} {tree : List (String × FileNode)}
    (ha : a.Plain) (hb : b.Plain) {files : List (List String)}
    (hfiles : ∀ names ∈ files, ∃ bytes, FileNode.Leads tree names (.file bytes) ∧
      (∃ there, wsA.Stands (a.below names) there (.file bytes)) ∧
      ∃ there, wsB.Stands (b.below names) there (.file bytes)) :
    ((files.map b.below).mapM (s.share wsB (s.ignore.withRoot b))).map List.flatten =
      (((files.map a.below).mapM (s.share wsA (s.ignore.withRoot a))).map List.flatten).map
        (List.map (Finding.moved a b)) := by
  have hshares : files.mapM (s.share wsB (s.ignore.withRoot b) ∘ b.below) =
      (files.mapM (s.share wsA (s.ignore.withRoot a) ∘ a.below)).map
        (List.map (List.map (Finding.moved a b))) := by
    apply mapM_eq_map_mapM
    intro names hnames
    obtain ⟨bytes, hleads, ⟨_, hA⟩, ⟨_, hB⟩⟩ := hfiles names hnames
    exact s.share_moved ha hb hleads hA hB
  rw [List.mapM_map, List.mapM_map, hshares]
  cases files.mapM (s.share wsA (s.ignore.withRoot a) ∘ a.below) with
  | error e => rfl
  | ok shares => exact congrArg Except.ok List.map_flatten.symm

/-- A directory is surveyed by the files that are listed. -/
theorem ofDirectory_of_fits {ws : Workspace} {root : Path} (hroot : root.Plain)
    {tree : List (String × FileNode)} {unreadable : List String → Bool}
    (htree : FileNode.areProper tree = true) (h : ws.Holds root tree unreadable)
    (recursive : Option Bool)
    (hfits : ws.Fits root (recursive.getD s.settings.recursive) tree) :
    (s.ofDirectory ws root recursive).value =
      (((Workspace.Holds.listed tree unreadable (recursive.getD s.settings.recursive)).map
        root.below).mapM (s.share ws (s.ignore.withRoot root))).map List.flatten := by
  rw [ofDirectory_value, h.list_value hroot htree hfits]

/-- A directory in which something is looked at by too long a path is not surveyed. -/
theorem ofDirectory_stopped {ws : Workspace} {root : Path} (hroot : root.Plain)
    {tree : List (String × FileNode)} (htree : FileNode.areProper tree = true)
    (hd : ws.node? root = .ok (some (.directory tree))) (recursive : Option Bool)
    (hlong : ¬ ws.Fits root (recursive.getD s.settings.recursive) tree) :
    ∃ names node,
      Workspace.LooksAt ws.denied root (recursive.getD s.settings.recursive) tree names node ∧
      isLongPath (root.below names).toString = true ∧
      (s.ofDirectory ws root recursive).value =
        .error (.file (.refused .nameTooLong (root.below names).toString)) := by
  obtain ⟨_, -, -, hfits⟩ | ⟨names, node, hlooks, hpath, hstopped⟩ :=
    Workspace.listed_or_stopped hroot htree hd (recursive.getD s.settings.recursive)
  · exact absurd hfits hlong
  · refine ⟨names, node, hlooks, hpath, ?_⟩
    rw [ofDirectory_value, hstopped]

/-- **A directory is surveyed alike wherever it lies**, if nothing that is looked at lies at too
long a path: the findings at one path are those at the other, told of the files there. Where
something does, there are no findings, and the survey is refused at such a path. -/
theorem ofDirectory_relocates (s : Survey) (wsA wsB : Workspace) (a b : String)
    (tree : List (String × FileNode)) (unreadable : List String → Bool)
    (htree : FileNode.areProper tree = true)
    (hA : wsA.Holds (.ofString a) tree unreadable) (hB : wsB.Holds (.ofString b) tree unreadable)
    (recursive : Option Bool) :
    let mode := recursive.getD s.settings.recursive
    let foundA := (s.ofDirectory wsA (.ofString a) recursive).value
    let foundB := (s.ofDirectory wsB (.ofString b) recursive).value
    (wsA.Fits (.ofString a) mode tree → wsB.Fits (.ofString b) mode tree →
      foundB = foundA.map (List.map (Finding.moved (.ofString a) (.ofString b))) ∧
      ∀ fs, foundA = .ok fs → ∀ f ∈ fs, ∃ names bytes,
        FileNode.find? tree names = some (.file bytes) ∧
        f.file = ((Path.ofString a).below names).toString) ∧
    (¬ wsB.Fits (.ofString b) mode tree → ∃ names node,
      Workspace.LooksAt wsB.denied (.ofString b) mode tree names node ∧
      isLongPath ((Path.ofString b).below names).toString = true ∧
      foundB =
        .error (.file (.refused .nameTooLong ((Path.ofString b).below names).toString))) := by
  intro mode foundA foundB
  have ha := Path.plain_ofString a
  have hb := Path.plain_ofString b
  refine ⟨fun hfitsA hfitsB => ?_, s.ofDirectory_stopped hb htree hB.directory recursive⟩
  have hfoundA : foundA = _ := s.ofDirectory_of_fits ha htree hA recursive hfitsA
  have hfoundB : foundB = _ := s.ofDirectory_of_fits hb htree hB recursive hfitsB
  constructor
  · rw [hfoundB, hfoundA]
    apply s.shares_moved ha hb
    intro names hnames
    obtain ⟨bytes, hleads, -⟩ := hA.looksAt_of_mem_listed htree hnames
    exact ⟨bytes, hleads, hA.stands_of_mem_listed htree hfitsA hnames hleads,
      hB.stands_of_mem_listed htree hfitsB hnames hleads⟩
  · intro fs hfs f hf
    obtain ⟨p, hp, here, hshare, hf⟩ := mem_mapM_flatten (hfoundA.symm.trans hfs) hf
    obtain ⟨names, hnames, rfl⟩ := List.mem_map.mp hp
    obtain ⟨bytes, hleads, -⟩ := hA.looksAt_of_mem_listed htree hnames
    exact ⟨names, bytes, hleads.find?, s.file_of_mem_share hshare f hf⟩

/-- A file, a directory with a file whose name is ignored at the top only, the ignored file, and a
directory that may not be listed. -/
def sampleFiles : List (String × FileNode) :=
  [("a.py", .file "fgf".toUTF8), ("lib", .directory [("old.py", .file "fgf".toUTF8)]),
    ("old.py", .file "fgf".toUTF8), ("shut", .directory [("c.py", .file "fgf".toUTF8)])]

def sampleNames : List (List String) :=
  [[], ["a.py"], ["lib"], ["lib", "old.py"], ["old.py"], ["shut"], ["shut", "c.py"]]

theorem mem_sampleNames {names : List String} {node : FileNode}
    (h : FileNode.find? sampleFiles names = some node) : names ∈ sampleNames := by
  have hsingle : ∀ {name bytes names node},
      FileNode.find? [(name, .file bytes)] names = some node → names = [] ∨ names = [name] := by
    intro name bytes names node h
    cases names with
    | nil => exact .inl rfl
    | cons first rest =>
      obtain ⟨next, hlookup, hfollow⟩ := FileNode.find?_cons_eq_some.mp h
      cases List.mem_singleton.mp (Roster.mem_of_lookup hlookup)
      cases rest with
      | nil => exact .inr rfl
      | cons => cases hfollow
  cases names with
  | nil => decide
  | cons first rest =>
    obtain ⟨next, hlookup, hfollow⟩ := FileNode.find?_cons_eq_some.mp h
    have hmem := Roster.mem_of_lookup hlookup
    simp only [sampleFiles, List.mem_cons, Prod.mk.injEq, List.not_mem_nil, or_false] at hmem
    rcases hmem with ⟨rfl, rfl⟩ | ⟨rfl, rfl⟩ | ⟨rfl, rfl⟩ | ⟨rfl, rfl⟩
    · cases rest with
      | nil => decide
      | cons => cases hfollow
    · rcases hsingle hfollow with rfl | rfl <;> decide
    · cases rest with
      | nil => decide
      | cons => cases hfollow
    · rcases hsingle hfollow with rfl | rfl <;> decide

theorem holds_sampleFiles {ws : Workspace} {root : Path}
    (h : ws.node? root = .ok (some (.directory sampleFiles)))
    (hnames : ∀ names ∈ sampleNames,
      Workspace.deniedBelow ws.denied root names = (names == ["shut"])) :
    ws.Holds root sampleFiles (· == ["shut"]) where
  directory := h
  denied names _ hfind := hnames names (mem_sampleNames hfind)

theorem fits_sampleFiles {ws : Workspace} {root : Path} {recursive : Bool}
    (hnames : ∀ names ∈ sampleNames, isLongPath (root.below names).toString = false) :
    ws.Fits root recursive sampleFiles :=
  fun names _ hlooks => hnames names (mem_sampleNames hlooks.find?)

/-- The files in the working directory. -/
def sampleHere : Workspace where
  entries := [("work", .directory sampleFiles)]
  home := ["work"]
  denied := ["shut"]

/-- The same files elsewhere, where the names above them would be skipped in a listing. -/
def sampleDeep : Workspace where
  entries := [("venv", .directory [(".git", .directory sampleFiles)]), ("work", .directory [])]
  home := ["work"]
  denied := ["/venv/.git/shut"]

/-- A survey that ignores `old.py` at the top. -/
def withoutOld : Survey :=
  { sampleSurvey with
    ignore := (Ignore.Matcher.make Ignore.globs ["/old.py"]).toOption.getD (.empty none) }

theorem ofDirectory_relocates_sample :
    let found := (withoutOld.ofDirectory sampleHere (.ofString ".") (some true)).value
    (withoutOld.ofDirectory sampleDeep (.ofString "/venv/.git") (some true)).value =
        found.map (List.map (Finding.moved (.ofString ".") (.ofString "/venv/.git"))) ∧
      found.toOption.map (List.map (·.file)) =
        some ["a.py", "a.py", "a.py", "lib/old.py", "lib/old.py", "lib/old.py"] := by
  have htree : FileNode.areProper sampleFiles = true := by decide +kernel
  have hhere : sampleHere.Holds (.ofString ".") sampleFiles (· == ["shut"]) :=
    holds_sampleFiles rfl (by decide +kernel)
  have hdeep : sampleDeep.Holds (.ofString "/venv/.git") sampleFiles (· == ["shut"]) :=
    holds_sampleFiles rfl (by decide +kernel)
  have hfits : sampleHere.Fits (.ofString ".") true sampleFiles :=
    fits_sampleFiles (by decide +kernel)
  obtain ⟨hmoved, -⟩ := (ofDirectory_relocates withoutOld sampleHere sampleDeep "." "/venv/.git"
    sampleFiles _ htree hhere hdeep (some true)).1 hfits (fits_sampleFiles (by decide +kernel))
  refine ⟨hmoved, ?_⟩
  have hlisted : Workspace.Holds.listed sampleFiles (· == ["shut"]) true =
      [["a.py"], ["lib", "old.py"], ["old.py"]] := by
    rw [Workspace.Holds.listed, List.mergeSort_of_pairwise (by decide +kernel)]
    rfl
  rw [withoutOld.ofDirectory_of_fits (Path.plain_ofString _) htree hhere (some true) hfits,
    Option.getD_some, hlisted]
  decide +kernel

/-! ## A path that is too long -/

section Detour

open Workspace

theorem holds_detourFiles {root : Path}
    (h : detourWorkspace.node? root = .ok (some (.directory detourFiles))) :
    detourWorkspace.Holds root detourFiles fun _ => false where
  directory := h
  denied _ _ _ := rfl

theorem list_detourWorkspace :
    (detourWorkspace.list "src" true).value = .ok [.ofString "src/main.py"] := by
  have hlook : detourWorkspace.look (.ofString "src") = .ok (.directory detourFiles) := rfl
  have hfiles : FileNode.filesWithin true (deniedBelow detourWorkspace.denied (.ofString "src"))
      detourFiles = [["main.py"]] := rfl
  exact list_of_sorted _ hlook (by decide +kernel) (by decide +kernel) (by decide +kernel) hfiles
    (by decide +kernel)

theorem ofDirectory_detour {n : Nat} (hfits : 7 * n + 3 ≤ maxPathSize)
    (hlong : maxPathSize < 7 * n + 11) :
    (s.ofDirectory detourWorkspace (detour n) (some true)).value =
      .error (.file (.refused .nameTooLong ((detour n).below ["main.py"]).toString)) := by
  rw [ofDirectory_value, Option.getD_some, (list_detour hfits hlong).2]

/-- A directory has no findings by its short path, and by a long path of its own it is not surveyed
at all. -/
theorem ofDirectory_stopped_on_detour :
    let a := Path.ofString "src"
    let b := detour 584
    let foundA := (sampleSurvey.ofDirectory detourWorkspace a (some true)).value
    let foundB := (sampleSurvey.ofDirectory detourWorkspace b (some true)).value
    FileNode.areProper detourFiles = true ∧ Path.ofString b.toString = b ∧
      detourWorkspace.Holds a detourFiles (fun _ => false) ∧
      detourWorkspace.Holds b detourFiles (fun _ => false) ∧
      foundA = .ok [] ∧
      foundB = .error (.file (.refused .nameTooLong (b.below ["main.py"]).toString)) ∧
      foundB ≠ foundA.map (List.map (Finding.moved a b)) := by
  have hnode : detourWorkspace.node? (.ofString "src") = .ok (some (.directory detourFiles)) := rfl
  have hlist := list_detourWorkspace
  rw [list_text] at hlist
  have hfoundA : (sampleSurvey.ofDirectory detourWorkspace (.ofString "src") (some true)).value =
      .ok [] := by
    rw [ofDirectory_value, Option.getD_some, hlist]
    decide +kernel
  have hfoundB := sampleSurvey.ofDirectory_detour (n := 584) (by decide) (by decide)
  refine ⟨by decide, Path.ofString_toString (plain_detour 584), holds_detourFiles hnode,
    holds_detourFiles (node?_detour (by decide)), hfoundA, hfoundB, ?_⟩
  simp only [hfoundA, hfoundB]
  nofun

end Detour

end Survey

end CognitiveLoad
