import CognitiveLoad.Text.Basic

/-!
Paths as lists of components. Empty and `.` components are dropped, `..` stays as it is: a path is
compared and cut by its components only, without asking any file system.
-/

namespace CognitiveLoad

/-- How a path begins. Two slashes are kept apart from one; three or more are one. -/
inductive Anchor where
  | relative
  | slash
  | doubleSlash
  deriving DecidableEq, Repr

def Anchor.text : Anchor → String
  | relative => ""
  | slash => "/"
  | doubleSlash => "//"

structure Path where
  anchor : Anchor
  parts : List String
  deriving DecidableEq, Repr

namespace Path

def anchorOf (cs : List Char) : Anchor :=
  match (cs.takeWhile (· == '/')).length with
  | 0 => .relative
  | 2 => .doubleSlash
  | _ => .slash

def ofString (s : String) : Path where
  anchor := anchorOf s.toList
  parts := (Text.splitOn '/' s).filter fun c => c ≠ "" && c ≠ "."

/-- A path without anchor and components is the working directory. -/
def toString (p : Path) : String :=
  if p.anchor = .relative && p.parts.isEmpty then "."
  else p.anchor.text ++ "/".intercalate p.parts

/-- The path `q` seen from `p`; an anchored path stands for itself. -/
def join (p q : Path) : Path :=
  if q.anchor = .relative then { p with parts := p.parts ++ q.parts } else q

/-- The entry with a given name in the directory `p`. -/
def entry (p : Path) (name : String) : Path :=
  { p with parts := p.parts ++ [name] }

/-- The last component. -/
def name (p : Path) : String :=
  p.parts.getLast?.getD ""

/-- What follows the last dot of a name; nothing if that dot is its first or last character. -/
def extensionOf (name : String) : String :=
  let cs := name.toList
  let ext := (cs.reverse.takeWhile (· ≠ '.')).reverse
  if ext.length = 0 || ext.length + 1 ≥ cs.length then "" else String.ofList ext

/-- No dot is in an extension. -/
theorem dot_notMem_extensionOf (name : String) : '.' ∉ (extensionOf name).toList := by
  unfold extensionOf
  dsimp only
  split
  · simp
  · intro h
    rw [String.toList_ofList, List.mem_reverse] at h
    simpa using List.all_eq_true.mp List.all_takeWhile _ h

def extension (p : Path) : String :=
  extensionOf p.name

/-- The rest of `p` below `root`, if the components of `root` begin it. -/
def relativeTo? (p root : Path) : Option Path :=
  if p.anchor = root.anchor && root.parts.isPrefixOf p.parts then
    some ⟨.relative, p.parts.drop root.parts.length⟩
  else none

/-- The order of paths is the order of their components, the anchor being the first. -/
def key (p : Path) : List String :=
  if p.anchor = .relative then p.parts else p.anchor.text :: p.parts

def le (p q : Path) : Bool :=
  !decide (q.key < p.key)

end Path

end CognitiveLoad
