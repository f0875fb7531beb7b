import CognitiveLoad.Proofs.Paths
import CognitiveLoad.Roster
import CognitiveLoad.Workspace.Listing
import Mathlib.Data.List.Perm.Basic

/-!
The files of a directory by the names that lead to them, wherever the directory lies.

* `leads_of_mem_visited`: in a proper tree the names lead to the files;
* `nodup_filesWithin`: and no file is found twice;
* `Scan.Progress.step`, `Scan.progress_run`: a listing looks at all there is until it is stopped;
* `list_value`: what is listed, and when that is refused.
-/

namespace CognitiveLoad

namespace FileNode

theorem induct {motive : FileNode → Prop} (file : ∀ bytes, motive (file bytes))
    (special : motive special)
    (directory : ∀ entries, (∀ e ∈ entries, motive e.2) → motive (directory entries)) :
    ∀ node, motive node
  | .file bytes => file bytes
  | .special => special
  | .directory entries =>
    directory entries fun e he =>
      have : sizeOf e.2 < sizeOf entries := by
        have hmem := List.sizeOf_lt_of_mem he
        obtain ⟨name, node⟩ := e
        simp only [Prod.mk.sizeOf_spec] at hmem
        simp only
        omega
      induct file special directory e.2

/-! ## Proper trees -/

/-- A name that an entry can have. -/
def isFileName (name : String) : Bool :=
  name ≠ "" && name ≠ "." && name ≠ ".." && !name.toList.contains '/' && !hasNull name &&
    !isLongName name

mutual

/-- Whether the entries of all directories have names that differ and that entries can have. -/
def isProper : FileNode → Bool
  | file _ => true
  | special => true
  | directory entries => areProper entries

def areProper : List (String × FileNode) → Bool
  | [] => true
  | (name, node) :: rest =>
    isFileName name && !(rest.map Prod.fst).contains name && node.isProper && areProper rest

end

theorem of_isFileName {name : String} (h : isFileName name = true) :
    Path.IsComponent name ∧ name ≠ ".." ∧ hasNull name = false ∧ isLongName name = false := by
  simp only [isFileName, Bool.and_eq_true, decide_eq_true_eq, Bool.not_eq_true',
    List.contains_eq_mem, decide_eq_false_iff_not] at h
  obtain ⟨⟨⟨⟨⟨hempty, hdot⟩, hdots⟩, hslash⟩, hnull⟩, hlong⟩ := h
  exact ⟨⟨hempty, hdot, hslash⟩, hdots, hnull, hlong⟩

/-- In a proper directory an entry is found by its name. -/
theorem of_areProper {entries : List (String × FileNode)} (h : areProper entries = true)
    {name : String} {node : FileNode} (hmem : (name, node) ∈ entries) :
    isFileName name = true ∧ entries.lookup name = some node ∧ node.isProper = true := by
  induction entries with
  | nil => cases hmem
  | cons e rest ih =>
    obtain ⟨name', node'⟩ := e
    simp only [areProper, Bool.and_eq_true, Bool.not_eq_true'] at h
    obtain ⟨⟨⟨hname, hfresh⟩, hnode⟩, hrest⟩ := h
    rcases List.mem_cons.mp hmem with heq | hlater
    · cases heq
      exact ⟨hname, by simp, hnode⟩
    · obtain ⟨h₁, h₂, h₃⟩ := ih hrest hlater
      have hne : name ≠ name' := by
        rintro rfl
        rw [List.contains_eq_mem, decide_eq_false_iff_not] at hfresh
        exact hfresh (List.mem_map.mpr ⟨(name, node), hlater, rfl⟩)
      refine ⟨h₁, ?_, h₃⟩
      rw [List.lookup_cons, beq_false_of_ne hne]
      exact h₂

/-! ## Following names -/

/-- Where names lead from a node. -/
def follow : FileNode → List String → Option FileNode
  | directory entries, names => find? entries names
  | node, [] => some node
  | _, _ :: _ => none

theorem find?_cons (entries : List (String × FileNode)) (name : String) (rest : List String) :
    find? entries (name :: rest) = (entries.lookup name).bind (·.follow rest) := by
  rw [find?]
  cases entries.lookup name with
  | none => rfl
  | some node => cases node <;> cases rest <;> rfl

theorem find?_cons_eq_some {entries : List (String × FileNode)} {name : String}
    {rest : List String} {node : FileNode} :
    find? entries (name :: rest) = some node ↔
      ∃ next, entries.lookup name = some next ∧ next.follow rest = some node := by
  rw [find?_cons, Option.bind_eq_some_iff]

@[simp] theorem follow_nil (node : FileNode) : node.follow [] = some node := by
  cases node <;> rfl

theorem find?_append {entries inside : List (String × FileNode)} {names : List String}
    (h : find? entries names = some (directory inside)) (rest : List String) :
    find? entries (names ++ rest) = find? inside rest := by
  induction names generalizing entries with
  | nil =>
    cases h
    rfl
  | cons name names ih =>
    obtain ⟨node, hname, hfollow⟩ := find?_cons_eq_some.mp h
    rw [List.cons_append, find?_cons, hname, Option.bind_some]
    cases node with
    | directory entries' => exact ih hfollow
    | file bytes => cases names <;> cases hfollow
    | special => cases names <;> cases hfollow

theorem isProper_of_find? {entries : List (String × FileNode)} (h : areProper entries = true)
    {names : List String} {node : FileNode} (hfind : find? entries names = some node) :
    node.isProper = true := by
  induction names generalizing entries with
  | nil =>
    cases hfind
    exact h
  | cons name rest ih =>
    obtain ⟨next, hlookup, hfollow⟩ := find?_cons_eq_some.mp hfind
    have hnext := (of_areProper h (Roster.mem_of_lookup hlookup)).2.2
    cases next with
    | directory inside => exact ih hnext hfollow
    | file bytes => cases rest <;> cases hfollow; rfl
    | special => cases rest <;> cases hfollow; rfl

/-! ## What a listing looks at -/

mutual

/-- The nodes that a listing looks at, with the names that lead to them: the entries of a directory
and, with `recursive`, of those below it that are neither skipped nor denied. -/
def visited (recursive : Bool) (denied : List String → Bool) :
    List (String × FileNode) → List (List String × FileNode)
  | [] => []
  | (name, node) :: rest =>
    ((visitedFrom recursive (fun names => denied (name :: names)) name node).map
      fun v => (name :: v.1, v.2)) ++ visited recursive denied rest

def visitedFrom (recursive : Bool) (denied : List String → Bool) (name : String) :
    FileNode → List (List String × FileNode)
  | file bytes => [([], file bytes)]
  | special => [([], special)]
  | directory entries =>
    ([], directory entries) ::
      if Workspace.descends recursive name && !denied [] then visited recursive denied entries
      else []

end

def isFile : FileNode → Bool
  | file _ => true
  | _ => false

/-- The names that lead to the files among them. -/
def filesWithin (recursive : Bool) (denied : List String → Bool)
    (entries : List (String × FileNode)) : List (List String) :=
  ((visited recursive denied entries).filter (·.2.isFile)).map (·.1)

theorem visited_eq_flatMap (recursive : Bool) (denied : List String → Bool)
    (entries : List (String × FileNode)) :
    visited recursive denied entries = entries.flatMap fun e =>
      (visitedFrom recursive (fun names => denied (e.1 :: names)) e.1 e.2).map
        fun v => (e.1 :: v.1, v.2) := by
  induction entries with
  | nil => rfl
  | cons e rest ih => rw [visited, ih, List.flatMap_cons]

/-- Names that lead to a node through proper directories. -/
structure Leads (entries : List (String × FileNode)) (names : List String) (node : FileNode) :
    Prop where
  ne_nil : names ≠ []
  isFileName : ∀ c ∈ names, isFileName c = true
  find? : find? entries names = some node

/-- What is shown of one node: if it is proper, the names seen from it lead where they should. -/
def SeenRightly (recursive : Bool) (node : FileNode) : Prop :=
  ∀ name denied v, node.isProper = true → v ∈ visitedFrom recursive denied name node →
    (∀ c ∈ v.1, isFileName c = true) ∧ node.follow v.1 = some v.2

theorem leads_of_seenRightly {recursive : Bool} {denied : List String → Bool}
    {entries : List (String × FileNode)} (h : areProper entries = true)
    (hseen : ∀ e ∈ entries, SeenRightly recursive e.2) {v : List String × FileNode}
    (hv : v ∈ visited recursive denied entries) : Leads entries v.1 v.2 := by
  rw [visited_eq_flatMap, List.mem_flatMap] at hv
  obtain ⟨⟨name, node⟩, he, hv⟩ := hv
  obtain ⟨v', hv', rfl⟩ := List.mem_map.mp hv
  obtain ⟨hname, hlookup, hproper⟩ := of_areProper h he
  obtain ⟨hnames, hfollow⟩ := hseen _ he _ _ v' hproper hv'
  exact ⟨by simp, List.forall_mem_cons.mpr ⟨hname, hnames⟩,
    find?_cons_eq_some.mpr ⟨node, hlookup, hfollow⟩⟩

theorem seenRightly (recursive : Bool) (node : FileNode) : SeenRightly recursive node := by
  induction node using induct with
  | file bytes =>
    intro name denied v _ hv
    rw [visitedFrom, List.mem_singleton] at hv
    subst hv
    exact ⟨by simp, rfl⟩
  | special =>
    intro name denied v _ hv
    rw [visitedFrom, List.mem_singleton] at hv
    subst hv
    exact ⟨by simp, rfl⟩
  | directory entries ih =>
    intro name denied v hproper hv
    rw [visitedFrom, List.mem_cons] at hv
    rcases hv with rfl | hv
    · exact ⟨by simp, follow_nil _⟩
    · split at hv
      · have hleads := leads_of_seenRightly hproper ih hv
        exact ⟨hleads.isFileName, hleads.find?⟩
      · cases hv

/-- In a proper tree the names lead to the nodes that they are listed with. -/
theorem leads_of_mem_visited {recursive : Bool} {denied : List String → Bool}
    {entries : List (String × FileNode)} (h : areProper entries = true)
    {v : List String × FileNode} (hv : v ∈ visited recursive denied entries) :
    Leads entries v.1 v.2 :=
  leads_of_seenRightly h (fun e _ => seenRightly recursive e.2) hv

/-- What is shown of one node: from where directories are denied alike, the same is seen. -/
def SeenAlike (recursive : Bool) (node : FileNode) : Prop :=
  ∀ name denied denied', node.isProper = true →
    (∀ names inside, node.follow names = some (directory inside) → denied names = denied' names) →
    visitedFrom recursive denied name node = visitedFrom recursive denied' name node

theorem visited_eq_of_seenAlike {recursive : Bool} {denied denied' : List String → Bool}
    {entries : List (String × FileNode)} (h : areProper entries = true)
    (hseen : ∀ e ∈ entries, SeenAlike recursive e.2)
    (hdenied : ∀ names inside, find? entries names = some (directory inside) →
      denied names = denied' names) :
    visited recursive denied entries = visited recursive denied' entries := by
  rw [visited_eq_flatMap, visited_eq_flatMap, List.flatMap_def, List.flatMap_def]
  congr 1
  apply List.map_congr_left
  rintro ⟨name, node⟩ he
  obtain ⟨-, hlookup, hproper⟩ := of_areProper h he
  congr 1
  apply hseen _ he _ _ _ hproper
  intro names inside hfollow
  exact hdenied (name :: names) inside (find?_cons_eq_some.mpr ⟨node, hlookup, hfollow⟩)

theorem seenAlike (recursive : Bool) (node : FileNode) : SeenAlike recursive node := by
  induction node using induct with
  | file bytes => intro name denied denied' _ _; rfl
  | special => intro name denied denied' _ _; rfl
  | directory entries ih =>
    intro name denied denied' hproper hdenied
    rw [visitedFrom, visitedFrom, hdenied [] entries (follow_nil _),
      visited_eq_of_seenAlike hproper ih hdenied]

/-- What a listing looks at depends on no more than which directories of the tree are denied. -/
theorem visited_congr (recursive : Bool) {denied denied' : List String → Bool}
    {entries : List (String × FileNode)} (h : areProper entries = true)
    (hdenied : ∀ names inside, find? entries names = some (directory inside) →
      denied names = denied' names) :
    visited recursive denied entries = visited recursive denied' entries :=
  visited_eq_of_seenAlike h (fun e _ => seenAlike recursive e.2) hdenied

theorem mem_filesWithin {recursive : Bool} {denied : List String → Bool}
    {entries : List (String × FileNode)} {names : List String} :
    names ∈ filesWithin recursive denied entries ↔
      ∃ bytes, (names, .file bytes) ∈ visited recursive denied entries := by
  simp only [filesWithin, List.mem_map, List.mem_filter]
  constructor
  · rintro ⟨⟨names, node⟩, ⟨hv, hfile⟩, rfl⟩
    cases node with
    | file bytes => exact ⟨bytes, hv⟩
    | special => cases hfile
    | directory entries => cases hfile
  · rintro ⟨bytes, hv⟩
    exact ⟨_, ⟨hv, rfl⟩, rfl⟩

/-! ## Nothing is looked at twice -/

theorem pairwise_names {entries : List (String × FileNode)} (h : areProper entries = true) :
    entries.Pairwise fun e e' => e.1 ≠ e'.1 := by
  induction entries with
  | nil => exact List.Pairwise.nil
  | cons e rest ih =>
    obtain ⟨name, node⟩ := e
    simp only [areProper, Bool.and_eq_true, Bool.not_eq_true', List.contains_eq_mem,
      decide_eq_false_iff_not] at h
    obtain ⟨⟨⟨-, hfresh⟩, -⟩, hrest⟩ := h
    refine List.Pairwise.cons ?_ (ih hrest)
    intro e' he' heq
    exact hfresh (List.mem_map.mpr ⟨e', he', heq.symm⟩)

/-- What is shown of one node: if it is proper, no names are seen twice from it. -/
def SeenOnce (recursive : Bool) (node : FileNode) : Prop :=
  ∀ name denied, node.isProper = true →
    ((visitedFrom recursive denied name node).map Prod.fst).Nodup

theorem nodup_visited_of_seenOnce {recursive : Bool} {denied : List String → Bool}
    {entries : List (String × FileNode)} (h : areProper entries = true)
    (hseen : ∀ e ∈ entries, SeenOnce recursive e.2) :
    ((visited recursive denied entries).map Prod.fst).Nodup := by
  rw [visited_eq_flatMap, List.map_flatMap, List.Nodup, List.pairwise_flatMap]
  constructor
  · intro e he
    have hnode := hseen e he e.1 (fun names => denied (e.1 :: names)) (of_areProper h he).2.2
    rw [List.Nodup, List.pairwise_map] at hnode
    rw [List.map_map, List.pairwise_map]
    refine hnode.imp ?_
    intro v w hne heq
    exact hne (List.cons.inj heq).2
  · -- names of different entries differ at once
    refine (pairwise_names h).imp ?_
    intro e e' hne names hnames names' hnames' heq
    simp only [List.map_map, List.mem_map, Function.comp_apply] at hnames hnames'
    obtain ⟨v, -, rfl⟩ := hnames
    obtain ⟨v', -, rfl⟩ := hnames'
    exact hne (List.cons.inj heq).1

theorem seenOnce (recursive : Bool) (node : FileNode) : SeenOnce recursive node := by
  induction node using induct with
  | file bytes => intro name denied _; simp [visitedFrom]
  | special => intro name denied _; simp [visitedFrom]
  | directory entries ih =>
    intro name denied hproper
    rw [visitedFrom, List.map_cons, List.nodup_cons]
    constructor
    · split
      · intro hnil
        obtain ⟨v, hv, hnames⟩ := List.mem_map.mp hnil
        exact (leads_of_mem_visited hproper hv).ne_nil hnames
      · simp
    · split
      · exact nodup_visited_of_seenOnce hproper ih
      · simp

/-- In a proper tree no file is found twice. -/
theorem nodup_filesWithin (recursive : Bool) (denied : List String → Bool)
    {entries : List (String × FileNode)} (h : areProper entries = true) :
    (filesWithin recursive denied entries).Nodup := by
  have hall : ((visited recursive denied entries).map Prod.fst).Nodup :=
    nodup_visited_of_seenOnce h fun e _ => seenOnce recursive e.2
  exact hall.sublist (List.filter_sublist.map Prod.fst)

end FileNode

/-! ## Listings -/

namespace Workspace

/-- Which directories below a path are denied, by their names. -/
def deniedBelow (denied : List String) (p : Path) (names : List String) : Bool :=
  denied.contains (p.below names).toString

theorem deniedBelow_nil (denied : List String) (p : Path) :
    deniedBelow denied p [] = denied.contains p.toString := by
  rw [deniedBelow, Path.below_nil]

theorem deniedBelow_entry (denied : List String) (p : Path) (name : String) :
    deniedBelow denied (p.entry name) = fun names => deniedBelow denied p (name :: names) := by
  funext names
  rw [deniedBelow, Path.entry_below]
  rfl

section Listing

variable (denied : List String) (recursive : Bool)

/-- The paths that a listing of a directory looks at. -/
def pathsIn (p : Path) (entries : List (String × FileNode)) : List Path :=
  (FileNode.visited recursive (deniedBelow denied p) entries).map fun v => p.below v.1

namespace Folder

/-- What is looked at when a directory is listed: nothing if it may not be. -/
def seen (f : Folder) : List (Path × FileNode) :=
  if denied.contains f.path.toString then []
  else
    (FileNode.visited recursive (deniedBelow denied f.path) f.entries).map
      fun v => (f.path.below v.1, v.2)

theorem seen_of_not_denied {denied : List String} {p : Path}
    (entries : List (String × FileNode)) (h : denied.contains p.toString = false) :
    seen denied recursive ⟨p, entries⟩ =
      (FileNode.visited recursive (deniedBelow denied p) entries).map
        fun v => (p.below v.1, v.2) := by
  rw [seen, h]
  rfl

/-- The entries of a directory by their paths. -/
def level (f : Folder) : List (Path × FileNode) :=
  f.entries.map fun e => (f.path.entry e.1, e.2)

theorem overlong?_eq_find? (f : Folder) :
    f.overlong? = (f.level.map Prod.fst).find? fun q => isLongPath q.toString := by
  rw [overlong?, level, List.map_map]
  rfl

theorem files_eq_filter (f : Folder) :
    f.files = (f.level.filter (·.2.isFile)).map Prod.fst := by
  obtain ⟨p, entries⟩ := f
  simp only [files, level]
  induction entries with
  | nil => rfl
  | cons e rest ih =>
    obtain ⟨name, node⟩ := e
    cases node <;> simp [FileNode.isFile, ih]

/-- What is seen beyond one entry of the directory at a path. -/
def beyond (p : Path) (e : String × FileNode) : List (Path × FileNode) :=
  match e.2 with
  | .directory inside =>
    if descends recursive e.1 then seen denied recursive ⟨p.entry e.1, inside⟩ else []
  | _ => []

theorem flatMap_seen_folders (f : Folder) :
    (f.folders recursive).flatMap (seen denied recursive) =
      f.entries.flatMap (beyond denied recursive f.path) := by
  obtain ⟨p, entries⟩ := f
  simp only [folders]
  induction entries with
  | nil => rfl
  | cons e rest ih =>
    obtain ⟨name, node⟩ := e
    cases node with
    | file bytes => simpa [beyond] using ih
    | special => simpa [beyond] using ih
    | directory inside =>
      cases hd : descends recursive name with
      | false => simpa [beyond, hd] using ih
      | true => simpa [beyond, hd] using ih

theorem visitedFrom_below (p : Path) (e : String × FileNode) :
    (FileNode.visitedFrom recursive (fun names => deniedBelow denied p (e.1 :: names)) e.1 e.2).map
      (fun v => (p.below (e.1 :: v.1), v.2)) =
        (p.entry e.1, e.2) :: beyond denied recursive p e := by
  obtain ⟨name, node⟩ := e
  rw [← deniedBelow_entry]
  cases node with
  | file bytes => rfl
  | special => rfl
  | directory inside =>
    rw [FileNode.visitedFrom, List.map_cons, deniedBelow_nil]
    simp only [beyond, seen, Path.entry_below]
    cases descends recursive name with
    | false => rfl
    | true => cases denied.contains (p.entry name).toString <;> rfl

/-- What is seen of a directory is its entries and what is seen of the directories in it. -/
theorem level_append_folders_perm {f : Folder} (h : denied.contains f.path.toString = false) :
    (f.level ++ (f.folders recursive).flatMap (seen denied recursive)).Perm
      (f.seen denied recursive) := by
  have hseen : f.seen denied recursive =
      f.entries.flatMap fun e => (f.path.entry e.1, e.2) :: beyond denied recursive f.path e := by
    obtain ⟨p, entries⟩ := f
    rw [seen_of_not_denied recursive entries h, FileNode.visited_eq_flatMap, List.map_flatMap]
    simp only [List.map_map, Function.comp_def, visitedFrom_below]
  rw [flatMap_seen_folders, hseen]
  exact List.map_append_flatMap_perm ..

end Folder

namespace Scan

/-- What a listing is still to look at. -/
def ahead (s : Scan) : List (Path × FileNode) :=
  s.agenda.flatMap (Folder.seen denied recursive)

/-- How far a listing has come that is to look at `all`: what it has looked at and what is ahead of
it make up the whole, and it stops at the first path that is too long. -/
inductive Progress (all : List (Path × FileNode)) (s : Scan) : Prop where
  | under_way (done : List (Path × FileNode)) (perm : (done ++ s.ahead denied recursive).Perm all)
      (short : ∀ v ∈ done, isLongPath v.1.toString = false)
      (files : s.files = (done.filter (·.2.isFile)).map Prod.fst) (overlong : s.overlong = none)
  | stopped (q : Path) (node : FileNode) (mem : (q, node) ∈ all)
      (long : isLongPath q.toString = true) (agenda : s.agenda = [])
      (overlong : s.overlong = some q)

variable {denied recursive} {all : List (Path × FileNode)}

theorem Progress.step {s : Scan} (h : Progress denied recursive all s) :
    Progress denied recursive all (s.step denied recursive).value := by
  obtain ⟨-, hstep⟩ | ⟨f, rest, hs, hcases⟩ := step_cases denied recursive s
  · rwa [hstep]
  cases h with
  | stopped q node mem long agenda overlong =>
    rw [hs] at agenda
    cases agenda
  | under_way done perm short files overlong =>
    have hahead : s.ahead denied recursive =
        f.seen denied recursive ++ rest.flatMap (Folder.seen denied recursive) := by
      rw [ahead, hs, List.flatMap_cons]
    rw [hahead] at perm
    obtain ⟨hdenied, hstep⟩ | ⟨hdenied, q, hlong, hstep⟩ | ⟨hdenied, hshort, hstep⟩ := hcases
    · rw [hstep]
      have hseen : f.seen denied recursive = [] := by rw [Folder.seen, hdenied, if_pos rfl]
      rw [hseen] at perm
      exact .under_way done perm short files overlong
    · rw [hstep]
      have hlevel := Folder.level_append_folders_perm denied recursive hdenied
      rw [Folder.overlong?_eq_find?] at hlong
      obtain ⟨v, hv, rfl⟩ := List.mem_map.mp (List.mem_of_find?_eq_some hlong)
      have hall : v ∈ all := perm.subset (List.mem_append_right _
        (List.mem_append_left _ (hlevel.subset (List.mem_append_left _ hv))))
      exact .stopped v.1 v.2 hall (by simpa using List.find?_some hlong) rfl rfl
    · rw [hstep]
      have hlevel := Folder.level_append_folders_perm denied recursive hdenied
      rw [Folder.overlong?_eq_find?, List.find?_eq_none] at hshort
      refine .under_way (done ++ f.level) ?_ ?_ ?_ overlong
      · refine List.Perm.trans ?_ perm
        rw [ahead, List.flatMap_append, List.append_assoc, ← List.append_assoc f.level]
        exact (hlevel.append_right _).append_left _
      · intro v hv
        rcases List.mem_append.mp hv with hdone | hhere
        · exact short v hdone
        · simpa using hshort v.1 (List.mem_map_of_mem hhere)
      · simp [files, Folder.files_eq_filter]

theorem Progress.advance (n : Nat) {s : Scan} (h : Progress denied recursive all s) :
    Progress denied recursive all (s.advance denied recursive n).value := by
  induction n generalizing s with
  | zero => exact h
  | succ n ih =>
    rw [Scan.advance, Traced.value_bind]
    exact ih h.step

variable (denied recursive) in
theorem progress_run (f : Folder) :
    Progress denied recursive (f.seen denied recursive)
      (run denied recursive { agenda := [f] }).value := by
  refine Progress.advance _ (.under_way [] ?_ (by simp) rfl rfl)
  simp [ahead]

end Scan

/-- The path at which the listing of a directory is stopped. -/
def stoppedAt? (p : Path) (entries : List (String × FileNode)) : Option Path :=
  (Scan.run denied recursive { agenda := [⟨p, entries⟩] }).value.overlong

variable {denied recursive}

theorem of_stoppedAt?_eq_some {p q : Path} {entries : List (String × FileNode)}
    (hp : denied.contains p.toString = false)
    (h : stoppedAt? denied recursive p entries = some q) :
    q ∈ pathsIn denied recursive p entries ∧ isLongPath q.toString = true := by
  have hseen := Folder.seen_of_not_denied recursive entries hp
  cases Scan.progress_run denied recursive ⟨p, entries⟩ with
  | under_way done perm short files overlong =>
    rw [stoppedAt?, overlong] at h
    cases h
  | stopped r node mem long agenda overlong =>
    rw [stoppedAt?, overlong] at h
    cases h
    rw [hseen] at mem
    obtain ⟨v, hv, heq⟩ := List.mem_map.mp mem
    exact ⟨List.mem_map.mpr ⟨v, hv, congrArg Prod.fst heq⟩, long⟩

/-- A listing that is not stopped has looked at all there is, and found its files. -/
theorem of_stoppedAt?_eq_none {p : Path} {entries : List (String × FileNode)}
    (hp : denied.contains p.toString = false)
    (h : stoppedAt? denied recursive p entries = none) :
    (∀ q ∈ pathsIn denied recursive p entries, isLongPath q.toString = false) ∧
      (Scan.run denied recursive { agenda := [⟨p, entries⟩] }).value.files.Perm
        ((FileNode.filesWithin recursive (deniedBelow denied p) entries).map p.below) := by
  have hseen := Folder.seen_of_not_denied recursive entries hp
  cases Scan.progress_run denied recursive ⟨p, entries⟩ with
  | stopped r node mem long agenda overlong =>
    rw [stoppedAt?, overlong] at h
    cases h
  | under_way done perm short files overlong =>
    rw [Scan.ahead, Scan.agenda_run, List.flatMap_nil, List.append_nil, hseen] at perm
    refine ⟨?_, ?_⟩
    · intro q hq
      obtain ⟨v, hv, rfl⟩ := List.mem_map.mp hq
      exact short _ (perm.symm.subset (List.mem_map.mpr ⟨v, hv, rfl⟩))
    · rw [files]
      have hfiles := (perm.filter (·.2.isFile)).map Prod.fst
      rw [List.filter_map, List.map_map] at hfiles
      rwa [FileNode.filesWithin, List.map_map]

/-- A listing is stopped unless all it looks at lies at paths that the system takes. -/
theorem stoppedAt?_eq_none_iff {p : Path} {entries : List (String × FileNode)}
    (hp : denied.contains p.toString = false) :
    stoppedAt? denied recursive p entries = none ↔
      ∀ q ∈ pathsIn denied recursive p entries, isLongPath q.toString = false := by
  refine ⟨fun h => (of_stoppedAt?_eq_none hp h).1, fun h => ?_⟩
  cases hstopped : stoppedAt? denied recursive p entries with
  | none => rfl
  | some q =>
    obtain ⟨hmem, hlong⟩ := of_stoppedAt?_eq_some hp hstopped
    rw [h q hmem] at hlong
    cases hlong

end Listing

/-! ## Whole listings -/

variable (ws : Workspace)

/-- The files in a directory that is there and may be listed, in the order of their names. -/
def sortedFiles (p : Path) (recursive : Bool) (entries : List (String × FileNode)) :
    List (List String) :=
  (FileNode.filesWithin recursive (deniedBelow ws.denied p) entries).mergeSort
    fun a b => !decide (b < a)

/-- Sorted files do not show in which order they were found. -/
theorem mergeSort_of_perm {p : Path} {files : List Path} {names : List (List String)}
    (h : files.Perm (names.map p.below)) :
    files.mergeSort Path.le = (names.mergeSort fun a b => !decide (b < a)).map p.below := by
  have hmap : (names.mergeSort fun a b => !decide (b < a)).map p.below =
      (names.map p.below).mergeSort Path.le :=
    List.map_mergeSort fun a _ b _ => (p.le_below a b).symm
  have hperm := (List.mergeSort_perm files Path.le).trans
    (h.trans (List.mergeSort_perm _ Path.le).symm)
  rw [hmap]
  refine hperm.eq_of_pairwise ?_ (List.pairwise_mergeSort Path.le_trans Path.le_total _)
    (List.pairwise_mergeSort Path.le_trans Path.le_total _)
  intro q r hq hr hle hge
  rw [List.mem_mergeSort] at hq hr
  obtain ⟨a, -, rfl⟩ := List.mem_map.mp (h.subset hq)
  obtain ⟨b, -, rfl⟩ := List.mem_map.mp hr
  rw [Path.le_below, Bool.not_eq_true', decide_eq_false_iff_not] at hle hge
  rw [List.le_antisymm hle hge]

/-- How a listing ends. A directory that may not be listed counts as empty, one that is not there or
is none is refused, and so is one with an entry at too long a path. -/
theorem list_value {p : Path} (hp : p.Plain) (recursive : Bool) :
    (ws.list p.toString recursive).value =
      if ws.denied.contains p.toString then .ok []
      else if hasNull p.toString then .error .nullCharacter
      else
        match ws.look p with
        | .ok (.directory entries) =>
          match stoppedAt? ws.denied recursive p entries with
          | some q => .error (.refused .nameTooLong q.toString)
          | none => .ok ((ws.sortedFiles p recursive entries).map p.below)
        | .ok _ => .error (.refused .notDirectory p.toString)
        | .error cause => .error (.refused cause p.toString) := by
  simp only [list, Path.ofString_toString hp, Traced.value_bind, gather]
  cases hdenied : ws.denied.contains p.toString with
  | true => simp
  | false =>
    cases hasNull p.toString with
    | true => rfl
    | false =>
      simp only [Bool.false_eq_true, if_false]
      cases ws.look p with
      | error cause => rfl
      | ok node =>
        cases node with
        | file bytes => rfl
        | special => rfl
        | directory entries =>
          have hoverlong : (Scan.run ws.denied recursive
              { agenda := [⟨p, entries⟩] }).value.overlong =
                stoppedAt? ws.denied recursive p entries := rfl
          simp only [Traced.value_bind, hoverlong]
          cases hstopped : stoppedAt? ws.denied recursive p entries with
          | some q => rfl
          | none =>
            obtain ⟨-, hfiles⟩ := of_stoppedAt?_eq_none hdenied hstopped
            exact congrArg Except.ok (mergeSort_of_perm hfiles)

/-- A directory is asked for by any text of its path. -/
theorem list_text (text : String) (recursive : Bool) :
    (ws.list text recursive).value = (ws.list (Path.ofString text).toString recursive).value := by
  simp only [list, Path.ofString_toString (Path.plain_ofString text), Traced.value_bind]
  cases (ws.gather (.ofString text) recursive).value <;> rfl

/-- A directory whose files are found in the order of their names. -/
theorem list_of_sorted {text : String} {recursive : Bool} {entries : List (String × FileNode)}
    {names : List (List String)} (hlook : ws.look (.ofString text) = .ok (.directory entries))
    (hdenied : ws.denied.contains (Path.ofString text).toString = false)
    (hnull : hasNull (Path.ofString text).toString = false)
    (hstopped : stoppedAt? ws.denied recursive (.ofString text) entries = none)
    (hfiles : FileNode.filesWithin recursive (deniedBelow ws.denied (.ofString text)) entries =
      names)
    (hsorted : names.Pairwise fun a b => (!decide (b < a)) = true) :
    (ws.list text recursive).value = .ok (names.map (Path.ofString text).below) := by
  rw [list_text, list_value _ (Path.plain_ofString _), hdenied, hnull, hlook]
  simp only [hstopped, sortedFiles, hfiles, List.mergeSort_of_pairwise hsorted]
  rfl

end Workspace

end CognitiveLoad
