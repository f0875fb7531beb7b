import CognitiveLoad.Proofs.Files

/-!
Where paths lead. From a directory the names of its entries lead on to what is found in it
(`Stands.below`). Every file that is listed stands where its path leads (`filesStand_list`), and is
listed once, in the order of the names (`listedBy_list`).
-/

namespace CognitiveLoad

/-! ## Texts of paths -/

theorem hasNull_append (s t : String) : hasNull (s ++ t) = (hasNull s || hasNull t) := by
  simp [hasNull]

theorem hasNull_intercalate (parts : List String) :
    hasNull ("/".intercalate parts) = parts.any hasNull := by
  induction parts with
  | nil => rfl
  | cons c rest ih =>
    cases rest with
    | nil => simp
    | cons c' rest =>
      have hslash : hasNull "/" = false := rfl
      rw [String.intercalate_cons_cons, hasNull_append, hasNull_append, ih, hslash, Bool.or_false]
      rfl

namespace Path

/-- A path holds a null character if a component does. -/
theorem hasNull_toString (p : Path) : hasNull p.toString = p.parts.any hasNull := by
  obtain ⟨anchor, parts⟩ := p
  unfold toString
  split
  · rename_i hdot
    simp only [Bool.and_eq_true, List.isEmpty_iff] at hdot
    rw [hdot.2]
    rfl
  · have hanchor : hasNull anchor.text = false := by cases anchor <;> rfl
    rw [hasNull_append, hasNull_intercalate, hanchor, Bool.false_or]

theorem hasNull_below (p : Path) (names : List String) :
    hasNull (p.below names).toString = (hasNull p.toString || names.any hasNull) := by
  simp [hasNull_toString, below]

end Path

namespace Workspace

variable {ws : Workspace}

/-! ## Names that lead on -/

theorem walk_append (here : Place) (names rest : List String) :
    ws.walk here (names ++ rest) = (ws.walk here names).bind (ws.walk · rest) :=
  List.foldlM_append

theorem nodeAt_entry {here : Place} {entries : List (String × FileNode)} {name : String}
    {node : FileNode} (h : ws.nodeAt here = .directory entries)
    (hname : entries.lookup name = some node) : ws.nodeAt (here ++ [name]) = node := by
  unfold nodeAt at h ⊢
  cases hfind : FileNode.find? ws.entries here with
  | none =>
    rw [hfind] at h
    cases h
    cases hname
  | some found =>
    rw [hfind] at h
    cases h
    have hentry := FileNode.find?_cons_eq_some.mpr ⟨node, hname, FileNode.follow_nil node⟩
    rw [FileNode.find?_append hfind, hentry]
    rfl

/-- Names lead on from a place to what follows them there. -/
theorem walk_follow {here : Place} {names : List String} {node : FileNode}
    (hnames : ∀ c ∈ names, FileNode.isFileName c = true)
    (hfollow : (ws.nodeAt here).follow names = some node) :
    ws.walk here names = .ok (here ++ names) ∧ ws.nodeAt (here ++ names) = node := by
  induction names generalizing here with
  | nil =>
    rw [FileNode.follow_nil, Option.some.injEq] at hfollow
    rw [List.append_nil]
    exact ⟨rfl, hfollow⟩
  | cons name rest ih =>
    cases hhere : ws.nodeAt here with
    | file bytes => simp [hhere, FileNode.follow] at hfollow
    | special => simp [hhere, FileNode.follow] at hfollow
    | directory entries =>
      rw [hhere, FileNode.follow] at hfollow
      obtain ⟨next, hlookup, hfollow⟩ := FileNode.find?_cons_eq_some.mp hfollow
      have hstep : ws.step here name = .ok (here ++ [name]) := by
        obtain ⟨-, hdots, -, hlong⟩ := FileNode.of_isFileName (hnames name (List.mem_cons_self ..))
        simp [step, hhere, hdots, hlong, hlookup]
      have hwalk : ws.walk here (name :: rest) = ws.walk (here ++ [name]) rest := by
        rw [walk, List.foldlM_cons, hstep]
        rfl
      rw [hwalk, List.append_cons here name rest]
      apply ih fun c hc => hnames c (List.mem_cons_of_mem _ hc)
      rw [nodeAt_entry hhere hlookup]
      exact hfollow

/-- A path that the system takes leads to a place, and a node stands there. -/
structure Stands (ws : Workspace) (p : Path) (there : Place) (node : FileNode) : Prop where
  noNull : hasNull p.toString = false
  fits : isLongPath p.toString = false
  walk : ws.walk (ws.start p.anchor) p.parts = .ok there
  nodeAt : ws.nodeAt there = node

theorem Stands.look {p : Path} {there : Place} {node : FileNode} (h : ws.Stands p there node) :
    ws.look p = .ok node := by
  rw [Workspace.look, h.fits, h.walk, ← h.nodeAt]
  rfl

theorem Stands.node? {p : Path} {there : Place} {node : FileNode} (h : ws.Stands p there node) :
    ws.node? p = .ok (some node) := by
  rw [Workspace.node?, h.noNull, h.look]
  rfl

theorem Stands.read {p : Path} {there : Place} {bytes : ByteArray}
    (h : ws.Stands p there (.file bytes)) :
    ws.read p =
      match Text.Utf8.decode bytes.data.toList with
      | .ok cs => .ok (String.ofList (Text.unifyNewlines cs))
      | .error e => .error (.undecodable e) := by
  rw [Workspace.read, h.noNull, h.look]
  rfl

theorem stands_of_look {p : Path} {node : FileNode} (hnull : hasNull p.toString = false)
    (hlook : ws.look p = .ok node) : ∃ there, ws.Stands p there node := by
  unfold look at hlook
  split at hlook
  · cases hlook
  · rename_i hfits
    cases hwalk : ws.walk (ws.start p.anchor) p.parts with
    | error cause =>
      rw [hwalk] at hlook
      cases hlook
    | ok there =>
      rw [hwalk] at hlook
      exact ⟨there, hnull, by simpa using hfits, hwalk, Except.ok.inj hlook⟩

theorem stands_of_node? {p : Path} {node : FileNode} (h : ws.node? p = .ok (some node)) :
    ∃ there, ws.Stands p there node := by
  unfold node? at h
  split at h
  · cases h
  · rename_i hnull
    split at h
    · rename_i found hlook
      cases h
      exact stands_of_look (by simpa using hnull) hlook
    · cases h
    · cases h
    · cases h

/-- What is found in a directory stands where its path leads, unless the path is too long. -/
theorem Stands.below {p : Path} {there : Place} {entries : List (String × FileNode)}
    {names : List String} {node : FileNode} (hp : ws.Stands p there (.directory entries))
    (hleads : FileNode.Leads entries names node)
    (hfits : isLongPath (p.below names).toString = false) :
    ws.Stands (p.below names) (there ++ names) node := by
  have hnulls : names.any hasNull = false := by
    rw [List.any_eq_false]
    intro c hc
    obtain ⟨-, -, hnull, -⟩ := FileNode.of_isFileName (hleads.isFileName c hc)
    simp [hnull]
  have hfollow : (ws.nodeAt there).follow names = some node := by
    rw [hp.nodeAt]
    exact hleads.find?
  obtain ⟨hwalk, hnode⟩ := walk_follow hleads.isFileName hfollow
  refine ⟨?_, hfits, ?_, hnode⟩
  · rw [Path.hasNull_below, hp.noNull, hnulls]
    rfl
  · show ws.walk (ws.start p.anchor) (p.parts ++ names) = .ok (there ++ names)
    rw [walk_append, hp.walk]
    exact hwalk

/-! ## Listed files -/

theorem isProper_nodeAt (h : FileNode.areProper ws.entries = true) (here : Place) :
    (ws.nodeAt here).isProper = true := by
  unfold nodeAt
  cases hfind : FileNode.find? ws.entries here with
  | none => rfl
  | some node => exact FileNode.isProper_of_find? h hfind

theorem Stands.areProper {p : Path} {there : Place} {entries : List (String × FileNode)}
    (h : ws.Stands p there (.directory entries)) (hws : FileNode.areProper ws.entries = true) :
    FileNode.areProper entries = true := by
  have hthere := isProper_nodeAt hws there
  rwa [h.nodeAt] at hthere

/-- How a directory with files is listed. -/
theorem list_eq_ok {p : Path} (hp : p.Plain) {recursive : Bool} {files : List Path}
    (h : (ws.list p.toString recursive).value = .ok files) :
    files = [] ∨ ∃ there entries, ws.Stands p there (.directory entries) ∧
      (∀ q ∈ pathsIn ws.denied recursive p entries, isLongPath q.toString = false) ∧
      files = (ws.sortedFiles p recursive entries).map p.below := by
  rw [list_value ws hp] at h
  split at h
  · exact .inl (Except.ok.inj h).symm
  · rename_i hdenied
    split at h
    · cases h
    · rename_i hnull
      split at h
      · rename_i entries hlook
        obtain ⟨there, hstands⟩ := stands_of_look (by simpa using hnull) hlook
        split at h
        · cases h
        · rename_i hshort
          exact .inr ⟨there, entries, hstands,
            (stoppedAt?_eq_none_iff (Bool.not_eq_true _ ▸ hdenied)).mp hshort,
            (Except.ok.inj h).symm⟩
      · cases h
      · cases h

/-- Files below a path stand where their paths lead, at the place `there` and the names that lead on
from the path. -/
def FilesStand (ws : Workspace) (root : Path) (there : Place) (files : List Path) : Prop :=
  ∀ f ∈ files, ∃ names bytes, f = root.below names ∧ ws.Stands f (there ++ names) (.file bytes)

/-- Every listed file stands where its path leads. -/
theorem filesStand_list (hws : FileNode.areProper ws.entries = true) {p : Path} (hp : p.Plain)
    {recursive : Bool} {files : List Path}
    (h : (ws.list p.toString recursive).value = .ok files) :
    ∃ there, ws.FilesStand p there files := by
  rcases list_eq_ok hp h with rfl | ⟨there, entries, hstands, hshort, rfl⟩
  · exact ⟨[], by simp [FilesStand]⟩
  · have hproper := hstands.areProper hws
    refine ⟨there, fun f hf => ?_⟩
    obtain ⟨names, hnames, rfl⟩ := List.mem_map.mp hf
    rw [sortedFiles, List.mem_mergeSort, FileNode.mem_filesWithin] at hnames
    obtain ⟨bytes, hv⟩ := hnames
    have hleads := FileNode.leads_of_mem_visited hproper hv
    have hfits := hshort (p.below names) (List.mem_map.mpr ⟨_, hv, rfl⟩)
    exact ⟨names, bytes, rfl, hstands.below hleads hfits⟩

/-- Names that lead to the files in a list, each once and in the order of the list. -/
structure ListedBy (root : Path) (files : List Path) (names : List (List String)) : Prop where
  eq_map : files = names.map root.below
  nodup : names.Nodup
  sorted : names.Pairwise fun a b => ¬ b < a
  isFileName : ∀ file ∈ names, ∀ c ∈ file, FileNode.isFileName c = true

theorem pairwise_mergeSort_names (files : List (List String)) :
    (files.mergeSort fun a b => !decide (b < a)).Pairwise fun a b => ¬ b < a := by
  -- names are ordered as the paths that they are without an anchor
  have hsorted := List.pairwise_mergeSort
    (fun a b c => Path.le_trans ⟨.relative, a⟩ ⟨.relative, b⟩ ⟨.relative, c⟩)
    (fun a b => Path.le_total ⟨.relative, a⟩ ⟨.relative, b⟩) files
  refine hsorted.imp ?_
  intro a b hab
  rwa [Path.le, Bool.not_eq_true', decide_eq_false_iff_not] at hab

/-- Files are listed each once, in the order of their names. -/
theorem listedBy_list (hws : FileNode.areProper ws.entries = true) {p : Path} (hp : p.Plain)
    {recursive : Bool} {files : List Path}
    (h : (ws.list p.toString recursive).value = .ok files) :
    ∃ names, ListedBy p files names := by
  rcases list_eq_ok hp h with rfl | ⟨there, entries, hstands, -, rfl⟩
  · exact ⟨[], rfl, by simp, by simp, by simp⟩
  · have hproper := hstands.areProper hws
    have hperm := List.mergeSort_perm
      (FileNode.filesWithin recursive (deniedBelow ws.denied p) entries) fun a b => !decide (b < a)
    refine ⟨_, rfl, ?_, pairwise_mergeSort_names _, ?_⟩
    · exact hperm.nodup_iff.mpr (FileNode.nodup_filesWithin recursive _ hproper)
    · intro file hfile
      rw [sortedFiles, List.mem_mergeSort, FileNode.mem_filesWithin] at hfile
      obtain ⟨bytes, hv⟩ := hfile
      exact (FileNode.leads_of_mem_visited hproper hv).isFileName

end Workspace

end CognitiveLoad
