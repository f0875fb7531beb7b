import CognitiveLoad.Proofs.Walks
import CognitiveLoad.Workspace.Edit

/-!
File trees without the contents of their files. Paths lead alike and directories are listed alike in
trees of one shape (`walk_shape`, `list_shape`), so that no listing looks into a file.
-/

namespace CognitiveLoad

namespace FileNode

mutual

/-- A tree with all its files emptied. -/
def shape : FileNode → FileNode
  | file _ => file .empty
  | special => special
  | directory entries => directory (shapes entries)

def shapes : List (String × FileNode) → List (String × FileNode)
  | [] => []
  | (name, node) :: rest => (name, node.shape) :: shapes rest

end

theorem shapes_eq_map (entries : List (String × FileNode)) :
    shapes entries = entries.map fun e => (e.1, e.2.shape) := by
  induction entries with
  | nil => rfl
  | cons e rest ih => rw [shapes, ih, List.map_cons]

theorem lookup_shapes (entries : List (String × FileNode)) (name : String) :
    (shapes entries).lookup name = (entries.lookup name).map shape := by
  induction entries with
  | nil => rfl
  | cons e rest ih =>
    obtain ⟨other, node⟩ := e
    rw [shapes, List.lookup_cons, List.lookup_cons, ih]
    cases name == other <;> rfl

theorem find?_shapes (entries : List (String × FileNode)) (names : List String) :
    find? (shapes entries) names = (find? entries names).map shape := by
  induction names generalizing entries with
  | nil => rfl
  | cons name rest ih =>
    rw [find?_cons, find?_cons, lookup_shapes]
    cases entries.lookup name with
    | none => rfl
    | some node =>
      cases node with
      | directory inside => exact ih inside
      | file bytes => cases rest <;> rfl
      | special => cases rest <;> rfl

@[simp] theorem isFile_shape (node : FileNode) : node.shape.isFile = node.isFile := by
  cases node <;> rfl

/-- Files stand where they stand in the shape of a tree. -/
theorem eq_file_of_shape_eq {node : FileNode} {bytes : ByteArray}
    (h : node.shape = (file bytes).shape) : ∃ bytes', node = file bytes' := by
  cases node with
  | file bytes' => exact ⟨bytes', rfl⟩
  | special => cases h
  | directory entries => cases h

/-- What is shown of one node: the same is seen of its shape. -/
def SeenInShape (recursive : Bool) (node : FileNode) : Prop :=
  ∀ name denied, visitedFrom recursive denied name node.shape =
    (visitedFrom recursive denied name node).map fun v => (v.1, v.2.shape)

theorem visited_shapes_of {recursive : Bool} {entries : List (String × FileNode)}
    (h : ∀ e ∈ entries, SeenInShape recursive e.2) (denied : List String → Bool) :
    visited recursive denied (shapes entries) =
      (visited recursive denied entries).map fun v => (v.1, v.2.shape) := by
  induction entries with
  | nil => rfl
  | cons e rest ih =>
    obtain ⟨name, node⟩ := e
    have hnode := h (name, node) (List.mem_cons_self ..)
    rw [shapes, visited, visited, hnode, ih fun e he => h e (List.mem_cons_of_mem _ he)]
    simp [Function.comp_def]

theorem seenInShape (recursive : Bool) (node : FileNode) : SeenInShape recursive node := by
  induction node using induct with
  | file bytes => intro name denied; rfl
  | special => intro name denied; rfl
  | directory entries ih =>
    intro name denied
    rw [shape, visitedFrom, visitedFrom, visited_shapes_of ih]
    split <;> simp [shape]

theorem visited_shapes (recursive : Bool) (denied : List String → Bool)
    (entries : List (String × FileNode)) :
    visited recursive denied (shapes entries) =
      (visited recursive denied entries).map fun v => (v.1, v.2.shape) :=
  visited_shapes_of (fun e _ => seenInShape recursive e.2) denied

theorem filesWithin_shapes (recursive : Bool) (denied : List String → Bool)
    (entries : List (String × FileNode)) :
    filesWithin recursive denied (shapes entries) = filesWithin recursive denied entries := by
  simp [filesWithin, visited_shapes, List.filter_map, Function.comp_def]

theorem sizeAll_shapes_of {entries : List (String × FileNode)}
    (h : ∀ e ∈ entries, e.2.shape.size = e.2.size) :
    sizeAll (shapes entries) = sizeAll entries := by
  induction entries with
  | nil => rfl
  | cons e rest ih =>
    obtain ⟨name, node⟩ := e
    have hnode := h (name, node) (List.mem_cons_self ..)
    rw [shapes, sizeAll, sizeAll, hnode, ih fun e he => h e (List.mem_cons_of_mem _ he)]

theorem size_shape (node : FileNode) : node.shape.size = node.size := by
  induction node using induct with
  | file bytes => rfl
  | special => rfl
  | directory entries ih => rw [shape, size, size, sizeAll_shapes_of ih]

theorem sizeAll_shapes (entries : List (String × FileNode)) :
    sizeAll (shapes entries) = sizeAll entries :=
  sizeAll_shapes_of fun e _ => size_shape e.2

/-! ## Other bytes in a file -/

/-- Changes the nodes with a given name. -/
def changeEntry (name : String) (change : FileNode → FileNode)
    (entries : List (String × FileNode)) : List (String × FileNode) :=
  entries.map fun e => if e.1 = name then (name, change e.2) else e

theorem lookup_changeEntry (name other : String) (change : FileNode → FileNode)
    (entries : List (String × FileNode)) :
    (changeEntry name change entries).lookup other =
      if other = name then (entries.lookup name).map change else entries.lookup other := by
  unfold changeEntry
  induction entries with
  | nil => simp
  | cons e rest ih =>
    obtain ⟨first, node⟩ := e
    rw [List.map_cons]
    by_cases hfirst : first = name
    · subst hfirst
      rw [if_pos rfl, Roster.lookup_cons_ite, Roster.lookup_cons_ite, Roster.lookup_cons_ite, ih]
      by_cases hother : other = first <;> simp [hother]
    · rw [if_neg hfirst, Roster.lookup_cons_ite, Roster.lookup_cons_ite, Roster.lookup_cons_ite, ih]
      by_cases hother : other = first
      · simp [hother, hfirst]
      · simp [hother, Ne.symm hfirst]

theorem shapes_changeEntry {entries : List (String × FileNode)} (h : areProper entries = true)
    {name : String} {node : FileNode} (hname : entries.lookup name = some node)
    {change : FileNode → FileNode} (hchange : (change node).shape = node.shape) :
    shapes (changeEntry name change entries) = shapes entries := by
  rw [shapes_eq_map, shapes_eq_map, changeEntry, List.map_map]
  apply List.map_congr_left
  rintro ⟨other, node'⟩ he
  by_cases hother : other = name
  · subst hother
    -- names differ in a proper directory
    obtain ⟨-, hlookup, -⟩ := of_areProper h he
    cases hname.symm.trans hlookup
    simp [hchange]
  · simp [hother]

/-- What happens below one entry when a node is placed there. -/
def placeBelow (node : FileNode) (rest : List String) : FileNode → FileNode
  | directory inside => directory (place node rest inside)
  | other => other

theorem place_singleton {entries : List (String × FileNode)} {name : String} {old : FileNode}
    (h : entries.lookup name = some old) (node : FileNode) :
    place node [name] entries = changeEntry name (fun _ => node) entries := by
  have hany : entries.any (·.1 = name) = true :=
    List.any_eq_true.mpr ⟨_, Roster.mem_of_lookup h, by simp⟩
  rw [place, if_pos hany]
  rfl

theorem place_cons (node : FileNode) (name next : String) (rest : List String)
    (entries : List (String × FileNode)) :
    place node (name :: next :: rest) entries =
      changeEntry name (placeBelow node (next :: rest)) entries := by
  rw [place, changeEntry]
  · apply List.map_congr_left
    rintro ⟨other, node'⟩ -
    cases node' <;> rfl
  · simp

/-- Other bytes in a file do not change the shape of a proper tree. -/
theorem shapes_place {entries : List (String × FileNode)} (h : areProper entries = true)
    {target : List String} {old : ByteArray} (htarget : find? entries target = some (file old))
    (bytes : ByteArray) : shapes (place (file bytes) target entries) = shapes entries := by
  induction target generalizing entries with
  | nil => rfl
  | cons name rest ih =>
    obtain ⟨node, hlookup, hfollow⟩ := find?_cons_eq_some.mp htarget
    have hnode := (of_areProper h (Roster.mem_of_lookup hlookup)).2.2
    cases rest with
    | nil =>
      rw [follow_nil, Option.some.injEq] at hfollow
      subst hfollow
      rw [place_singleton hlookup]
      exact shapes_changeEntry h hlookup rfl
    | cons next rest =>
      rw [place_cons]
      cases node with
      | directory inside =>
        apply shapes_changeEntry h hlookup
        rw [placeBelow, shape, shape, ih hnode hfollow]
      | file _ => cases hfollow
      | special => cases hfollow

/-- Other files keep their bytes. -/
theorem find?_place {entries : List (String × FileNode)} {target names : List String}
    {old bytes : ByteArray} (htarget : find? entries target = some (file old))
    (hne : names ≠ target) (hnames : find? entries names = some (file bytes)) (node : FileNode) :
    find? (place node target entries) names = some (file bytes) := by
  induction target generalizing entries names with
  | nil => cases htarget
  | cons name rest ih =>
    cases names with
    | nil => cases hnames
    | cons first others =>
      obtain ⟨there, hlookup, hfollow⟩ := find?_cons_eq_some.mp htarget
      obtain ⟨there', hlookup', hfollow'⟩ := find?_cons_eq_some.mp hnames
      rw [find?_cons] at hnames ⊢
      cases rest with
      | nil =>
        rw [follow_nil, Option.some.injEq] at hfollow
        subst hfollow
        rw [place_singleton hlookup, lookup_changeEntry]
        split
        · rename_i hfirst
          subst hfirst
          -- no names lead on from the file that is replaced
          cases hlookup.symm.trans hlookup'
          cases others with
          | nil => exact absurd rfl hne
          | cons => cases hfollow'
        · exact hnames
      | cons next rest =>
        rw [place_cons, lookup_changeEntry]
        split
        · rename_i hfirst
          subst hfirst
          cases hlookup.symm.trans hlookup'
          cases there with
          | directory inside =>
            rw [hlookup]
            exact ih hfollow (fun heq => hne (congrArg _ heq)) hfollow'
          | file _ => cases hfollow
          | special => cases hfollow
        · exact hnames

end FileNode

namespace Workspace

def shape (ws : Workspace) : Workspace :=
  { ws with entries := FileNode.shapes ws.entries }

variable (ws : Workspace)

theorem nodeAt_shape (here : Place) : ws.shape.nodeAt here = (ws.nodeAt here).shape := by
  show (FileNode.find? (FileNode.shapes ws.entries) here).getD (.directory []) = _
  rw [FileNode.find?_shapes, nodeAt]
  cases FileNode.find? ws.entries here <;> rfl

theorem step_shape (here : Place) (name : String) :
    ws.shape.step here name = ws.step here name := by
  unfold step
  rw [nodeAt_shape]
  cases ws.nodeAt here with
  | directory entries =>
    have hsome : ((FileNode.shapes entries).lookup name).isSome = (entries.lookup name).isSome := by
      rw [FileNode.lookup_shapes, Option.isSome_map]
    simp only [FileNode.shape, hsome]
  | file bytes => rfl
  | special => rfl

theorem walk_shape (here : Place) (names : List String) :
    ws.shape.walk here names = ws.walk here names := by
  have hstep : ws.shape.step = ws.step := by
    funext here name
    exact ws.step_shape here name
  rw [walk, walk, hstep]

theorem start_shape (a : Anchor) : ws.shape.start a = ws.start a := by
  cases a <;> rfl

theorem look_shape (p : Path) : ws.shape.look p = (ws.look p).map FileNode.shape := by
  unfold look
  rw [walk_shape, start_shape]
  split
  · rfl
  · cases ws.walk (ws.start p.anchor) p.parts with
    | error cause => rfl
    | ok there => exact congrArg Except.ok (ws.nodeAt_shape there)

namespace Folder

def shape (f : Folder) : Folder :=
  ⟨f.path, FileNode.shapes f.entries⟩

variable (f : Folder)

theorem overlong?_shape : f.shape.overlong? = f.overlong? := by
  simp [overlong?, shape, FileNode.shapes_eq_map, Function.comp_def]

theorem files_shape : f.shape.files = f.files := by
  rw [files_eq_filter, files_eq_filter]
  simp [level, shape, FileNode.shapes_eq_map, List.filter_map, Function.comp_def]

theorem folders_shape (recursive : Bool) :
    f.shape.folders recursive = (f.folders recursive).map shape := by
  simp only [folders, shape, FileNode.shapes_eq_map, List.filterMap_map, List.map_filterMap]
  congr 1
  funext e
  obtain ⟨name, node⟩ := e
  cases node with
  | file bytes => rfl
  | special => rfl
  | directory inside => cases hd : descends recursive name <;> simp [FileNode.shape, shape, hd]

end Folder

namespace Scan

def shape (s : Scan) : Scan :=
  { s with agenda := s.agenda.map Folder.shape }

variable (denied : List String) (recursive : Bool)

theorem step_shape (s : Scan) :
    (s.shape.step denied recursive).value = (s.step denied recursive).value.shape := by
  unfold step
  cases hs : s.agenda with
  | nil => simp [shape, hs]
  | cons f rest =>
    have hpath : f.shape.path = f.path := rfl
    simp only [shape, hs, List.map_cons, hpath, f.overlong?_shape, f.files_shape, f.folders_shape]
    cases denied.contains f.path.toString with
    | true => rfl
    | false => cases f.overlong? <;> simp

theorem advance_shape (n : Nat) (s : Scan) :
    (s.shape.advance denied recursive n).value = (s.advance denied recursive n).value.shape := by
  induction n generalizing s with
  | zero => rfl
  | succ n ih => rw [advance, advance, Traced.value_bind, Traced.value_bind, step_shape, ih]

theorem weight_shape (s : Scan) : s.shape.weight = s.weight := by
  have hfolders : ∀ fs : List Folder, weightOf (fs.map Folder.shape) = weightOf fs := by
    intro fs
    induction fs with
    | nil => rfl
    | cons f rest ih =>
      rw [List.map_cons, weightOf, weightOf, ih, Folder.weight, Folder.weight, Folder.shape,
        FileNode.sizeAll_shapes]
  exact hfolders s.agenda

theorem run_shape (s : Scan) :
    (s.shape.run denied recursive).value = (s.run denied recursive).value.shape := by
  rw [run, run, weight_shape, advance_shape]

end Scan

theorem stoppedAt?_shapes (denied : List String) (recursive : Bool) (p : Path)
    (entries : List (String × FileNode)) :
    stoppedAt? denied recursive p (FileNode.shapes entries) =
      stoppedAt? denied recursive p entries := by
  have hrun := Scan.run_shape denied recursive { agenda := [⟨p, entries⟩] }
  exact (congrArg Scan.overlong hrun :)

/-- The contents of files do not show in a listing. -/
theorem list_shape (text : String) (recursive : Bool) :
    (ws.shape.list text recursive).value = (ws.list text recursive).value := by
  have hp := Path.plain_ofString text
  have hdenied : ws.shape.denied = ws.denied := rfl
  rw [list_text, list_text ws, list_value _ hp, list_value _ hp, look_shape, hdenied]
  cases ws.look (.ofString text) with
  | error cause => rfl
  | ok node =>
    cases node with
    | directory entries =>
      simp only [Except.map, FileNode.shape, stoppedAt?_shapes, sortedFiles, hdenied,
        FileNode.filesWithin_shapes]
    | file bytes => rfl
    | special => rfl

/-! ## One file changed -/

/-- Two workspaces are the same but for the bytes of the file at `target`. -/
structure DiffersAt (ws : Workspace) (target : List String) (ws' : Workspace) : Prop where
  shape : ws'.shape = ws.shape
  files : ∀ names bytes, names ≠ target → FileNode.find? ws.entries names = some (.file bytes) →
    FileNode.find? ws'.entries names = some (.file bytes)

variable {ws} {ws' : Workspace} {target : List String}

/-- Putting other bytes into a file makes such a workspace. -/
theorem differsAt_put (h : FileNode.areProper ws.entries = true) {old : ByteArray}
    (htarget : FileNode.find? ws.entries target = some (.file old)) (bytes : ByteArray) :
    ws.DiffersAt target (ws.put (.file bytes) target) where
  shape := by
    show { ws with entries := FileNode.shapes (FileNode.place (.file bytes) target ws.entries) } = _
    rw [FileNode.shapes_place h htarget]
    rfl
  files _ _ hne hnames := FileNode.find?_place htarget hne hnames (.file bytes)

theorem find?_of_nodeAt_file {names : List String} {bytes : ByteArray}
    (h : ws.nodeAt names = .file bytes) :
    FileNode.find? ws.entries names = some (.file bytes) := by
  rw [nodeAt] at h
  cases hfind : FileNode.find? ws.entries names with
  | none =>
    rw [hfind] at h
    cases h
  | some node =>
    rw [hfind] at h
    exact congrArg some h

theorem DiffersAt.list_value (h : ws.DiffersAt target ws') (text : String) (recursive : Bool) :
    (ws'.list text recursive).value = (ws.list text recursive).value := by
  rw [← list_shape ws', h.shape, list_shape]

/-- A file stands where it stood, and only the file at `target` has other bytes. -/
theorem DiffersAt.stands (h : ws.DiffersAt target ws') {p : Path} {names : List String}
    {bytes : ByteArray} (hp : ws.Stands p names (.file bytes)) :
    ∃ bytes', ws'.Stands p names (.file bytes') ∧ (names ≠ target → bytes' = bytes) := by
  have hwalk : ws'.walk (ws'.start p.anchor) p.parts = .ok names := by
    rw [← walk_shape ws', ← start_shape ws', h.shape, walk_shape, start_shape, hp.walk]
  have hshape : (ws'.nodeAt names).shape = (FileNode.file bytes).shape := by
    rw [← nodeAt_shape, h.shape, nodeAt_shape, hp.nodeAt]
  obtain ⟨bytes', hfile⟩ := FileNode.eq_file_of_shape_eq hshape
  refine ⟨bytes', ⟨hp.noNull, hp.fits, hwalk, hfile⟩, fun hne => ?_⟩
  have hsame := h.files names bytes hne (find?_of_nodeAt_file hp.nodeAt)
  rw [find?_of_nodeAt_file hfile] at hsame
  cases hsame
  rfl

theorem DiffersAt.filesStand (h : ws.DiffersAt target ws') {root : Path} {there : Place}
    {files : List Path} (hfiles : ws.FilesStand root there files) :
    ws'.FilesStand root there files := by
  intro f hf
  obtain ⟨names, bytes, hbelow, hstands⟩ := hfiles f hf
  obtain ⟨bytes', hstands', -⟩ := h.stands hstands
  exact ⟨names, bytes', hbelow, hstands'⟩

end Workspace

end CognitiveLoad
