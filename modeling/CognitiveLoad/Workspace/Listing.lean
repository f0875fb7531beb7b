import CognitiveLoad.Log
import CognitiveLoad.Workspace.Basic

/-!
The regular files of a directory. Directories that wait to be listed stand on an agenda. They are
listed one after the other: the files among the entries are noted, and the directories are put on
the agenda unless they are of those that are never descended into. A directory that may not be
listed counts as empty. Every entry of a listed directory is looked at by its path, and one whose
path is too long stops the listing. `agenda_run` says that a listing comes to its end.
-/

namespace CognitiveLoad

mutual

/-- The number of nodes of a file tree. -/
def FileNode.size : FileNode → Nat
  | file _ => 1
  | special => 1
  | directory entries => FileNode.sizeAll entries + 1

def FileNode.sizeAll : List (String × FileNode) → Nat
  | [] => 0
  | (_, node) :: rest => node.size + FileNode.sizeAll rest

end

namespace Workspace

/-- Directories that are never descended into. -/
def skipped : List String :=
  [".git", ".hg", ".svn", "__pycache__", "node_modules", ".venv", "venv", ".tox", ".mypy_cache",
    ".pytest_cache"]

/-- Whether the files in a directory of the given name are listed with those around it. -/
def descends (recursive : Bool) (name : String) : Bool :=
  recursive && !skipped.contains name

def refusal (p : Path) : Traced Unit :=
  let shown := p.toString
  Traced.note .debug .files
    s!"Permission denied accessing {shown}: [Errno 13] Permission denied: {Text.quoted shown}"

/-! ## One directory -/

/-- A directory to be listed: its path and its entries. -/
structure Folder where
  path : Path
  entries : List (String × FileNode)

namespace Folder

variable (f : Folder)

/-- The first entry that is looked at by too long a path, if there is one. -/
def overlong? : Option Path :=
  (f.entries.map fun e => f.path.entry e.1).find? fun q => isLongPath q.toString

def files : List Path :=
  f.entries.filterMap fun e =>
    match e.2 with
    | .file _ => some (f.path.entry e.1)
    | _ => none

/-- The directories in it that are listed with it. -/
def folders (recursive : Bool) : List Folder :=
  f.entries.filterMap fun e =>
    match e.2 with
    | .directory inside =>
      if descends recursive e.1 then some ⟨f.path.entry e.1, inside⟩ else none
    | _ => none

def weight : Nat :=
  FileNode.sizeAll f.entries + 1

end Folder

/-! ## The listing -/

/-- A listing under way: the directories that wait, the files found so far, and the path at which it
was stopped. -/
structure Scan where
  agenda : List Folder
  files : List Path := []
  overlong : Option Path := none

namespace Scan

variable (denied : List String) (recursive : Bool)

/-- Lists the first directory of the agenda. -/
def step (s : Scan) : Traced Scan :=
  match s.agenda with
  | [] => pure s
  | f :: rest =>
    if denied.contains f.path.toString then do
      refusal f.path
      return { s with agenda := rest }
    else
      match f.overlong? with
      | some q => pure { s with agenda := [], overlong := some q }
      | none =>
        pure { s with agenda := f.folders recursive ++ rest, files := s.files ++ f.files }

def advance : (steps : Nat) → Scan → Traced Scan
  | 0, s => pure s
  | n + 1, s => do
    let s ← s.step denied recursive
    advance n s

def weightOf : List Folder → Nat
  | [] => 0
  | f :: rest => f.weight + weightOf rest

def weight (s : Scan) : Nat :=
  weightOf s.agenda

/-- Lists all directories of the agenda, which take at most as many steps as it weighs. -/
def run (s : Scan) : Traced Scan :=
  s.advance denied recursive s.weight

theorem weightOf_append (fs gs : List Folder) :
    weightOf (fs ++ gs) = weightOf fs + weightOf gs := by
  induction fs with
  | nil => simp [weightOf]
  | cons f rest ih => simp [weightOf, ih, Nat.add_assoc]

theorem weightOf_folders_lt (f : Folder) : weightOf (f.folders recursive) < f.weight := by
  obtain ⟨p, entries⟩ := f
  induction entries with
  | nil => exact Nat.zero_lt_one
  | cons e rest ih =>
    obtain ⟨name, node⟩ := e
    simp only [Folder.folders, Folder.weight] at ih ⊢
    cases node with
    | file bytes =>
      simp only [List.filterMap_cons, FileNode.sizeAll]
      omega
    | special =>
      simp only [List.filterMap_cons, FileNode.sizeAll]
      omega
    | directory inside =>
      cases hd : descends recursive name with
      | false =>
        simp only [List.filterMap_cons, hd, FileNode.sizeAll, Bool.false_eq_true, if_false]
        omega
      | true =>
        simp only [List.filterMap_cons, hd, FileNode.sizeAll, FileNode.size, if_true, weightOf,
          Folder.weight]
        omega

/-- What one step does: a directory that may not be listed is dropped, one with an entry at too long
a path stops the listing, and from any other the files are noted and the directories put on the
agenda. -/
theorem step_cases (s : Scan) :
    (s.agenda = [] ∧ (s.step denied recursive).value = s) ∨
    ∃ f rest, s.agenda = f :: rest ∧
      ((denied.contains f.path.toString = true ∧
          (s.step denied recursive).value = { s with agenda := rest }) ∨
        (denied.contains f.path.toString = false ∧ ∃ q, f.overlong? = some q ∧
          (s.step denied recursive).value = { s with agenda := [], overlong := some q }) ∨
        (denied.contains f.path.toString = false ∧ f.overlong? = none ∧
          (s.step denied recursive).value =
            { s with agenda := f.folders recursive ++ rest, files := s.files ++ f.files })) := by
  unfold step
  cases hs : s.agenda with
  | nil => exact .inl ⟨rfl, rfl⟩
  | cons f rest =>
    refine .inr ⟨f, rest, rfl, ?_⟩
    simp only
    cases hdenied : denied.contains f.path.toString with
    | true => exact .inl ⟨rfl, rfl⟩
    | false =>
      cases hlong : f.overlong? with
      | some q => exact .inr (.inl ⟨rfl, q, rfl, rfl⟩)
      | none => exact .inr (.inr ⟨rfl, rfl, rfl⟩)

/-- Every step on a directory makes the agenda lighter. -/
theorem weight_step_lt {s : Scan} (h : s.agenda ≠ []) :
    (s.step denied recursive).value.weight < s.weight := by
  obtain ⟨hs, -⟩ | ⟨f, rest, hs, hcases⟩ := step_cases denied recursive s
  · exact absurd hs h
  · have hless := weightOf_folders_lt recursive f
    obtain ⟨-, hstep⟩ | ⟨-, q, -, hstep⟩ | ⟨-, -, hstep⟩ := hcases <;>
      simp only [hstep, weight, hs, weightOf, weightOf_append] <;> omega

theorem agenda_advance (n : Nat) {s : Scan} (h : s.weight ≤ n) :
    (s.advance denied recursive n).value.agenda = [] := by
  induction n generalizing s with
  | zero =>
    cases hs : s.agenda with
    | nil => simp [advance, hs]
    | cons f rest =>
      simp only [weight, hs, weightOf, Folder.weight] at h
      omega
  | succ n ih =>
    rw [advance, Traced.value_bind]
    apply ih
    by_cases hs : s.agenda = []
    · have hstays : (s.step denied recursive).value = s := by simp [step, hs]
      simp [hstays, weight, hs, weightOf]
    · have hless := weight_step_lt denied recursive hs
      omega

theorem agenda_run (s : Scan) : (s.run denied recursive).value.agenda = [] :=
  agenda_advance denied recursive s.weight (Nat.le_refl _)

end Scan

variable (ws : Workspace)

/-- The files in the directory at path `p`, in no particular order. A directory that may not be
listed has none. -/
def gather (p : Path) (recursive : Bool) : Traced (Except FileError (List Path)) :=
  let shown := p.toString
  if ws.denied.contains shown then do
    refusal p
    return .ok []
  else if hasNull shown then pure (.error .nullCharacter)
  else
    match ws.look p with
    | .ok (.directory entries) => do
      let s ← Scan.run ws.denied recursive { agenda := [⟨p, entries⟩] }
      match s.overlong with
      | some q => return .error (.refused .nameTooLong q.toString)
      | none => return .ok s.files
    | .ok _ => pure (.error (.refused .notDirectory shown))
    | .error cause => pure (.error (.refused cause shown))

/-- The regular files in a directory, in the order of their paths. -/
def list (directory : String) (recursive : Bool) : Traced (Except FileError (List Path)) := do
  match ← ws.gather (Path.ofString directory) recursive with
  | .error e => return .error e
  | .ok files =>
    let mode := if recursive then "True" else "False"
    Traced.note .debug .files s!"Listed {files.length} files under {directory} (recursive={mode})"
    return .ok (files.mergeSort Path.le)

end Workspace

end CognitiveLoad
