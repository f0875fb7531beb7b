import CognitiveLoad.Workspace.Basic

/-!
Changes to a workspace. A file is written together with the directories above it that are missing;
these stay when the file itself is refused.
-/

namespace CognitiveLoad

namespace FileNode

/-- Puts a node at the end of a chain of names. -/
def place (node : FileNode) : List String → List (String × FileNode) → List (String × FileNode)
  | [], entries => entries
  | [name], entries =>
    if entries.any (·.1 = name) then entries.map fun e => if e.1 = name then (name, node) else e
    else entries ++ [(name, node)]
  | name :: rest, entries =>
    entries.map fun e =>
      if e.1 = name then
        match e.2 with
        | directory inside => (name, directory (place node rest inside))
        | other => (name, other)
      else e

/-- Takes away the node at the end of a chain of names. -/
def remove : List String → List (String × FileNode) → List (String × FileNode)
  | [], entries => entries
  | [name], entries => entries.filter (·.1 ≠ name)
  | name :: rest, entries =>
    entries.map fun e =>
      if e.1 = name then
        match e.2 with
        | directory inside => (name, directory (remove rest inside))
        | other => (name, other)
      else e

end FileNode

namespace Workspace

/-- What comes of a change: whether it is refused, and the workspace after it. -/
abbrev Change := Except FileError Unit × Workspace

def put (ws : Workspace) (node : FileNode) (there : Place) : Workspace :=
  { ws with entries := FileNode.place node there ws.entries }

def takeAway (ws : Workspace) (there : Place) : Workspace :=
  { ws with entries := FileNode.remove there ws.entries }

/-- The directory in which the last component of a path lies: its place, its entries, and the
component. A path without components is a directory itself and has none. -/
def parent (ws : Workspace) (p : Path) :
    Except Cause (Option (Place × List (String × FileNode) × String)) :=
  match p.parts.getLast? with
  | none => .ok none
  | some name => do
    let parent ← ws.walk (ws.start p.anchor) p.parts.dropLast
    match ws.nodeAt parent with
    | .directory entries => return some (parent, entries, name)
    | _ => .error .notDirectory

/-- Makes a node where there is none. -/
def create (ws : Workspace) (p : Path) (node : FileNode) : Except Cause Workspace :=
  if isLongPath p.toString then .error .nameTooLong
  else do
    match ← ws.parent p with
    | none => .error .alreadyExists
    | some (parent, entries, name) =>
      if name = ".." then .error .alreadyExists
      else if isLongName name then .error .nameTooLong
      else if (entries.lookup name).isSome then .error .alreadyExists
      else return ws.put node (parent ++ [name])

/-- Makes one directory. -/
def makeDirectory (ws : Workspace) (p : Path) : Except FileError Workspace :=
  if hasNull p.toString then .error .nullCharacter
  else (ws.create p (.directory [])).mapError (.refused · p.toString)

/-- A refusal to make a directory does not count if the directory is there. -/
def unlessThere (ws : Workspace) (p : Path) (e : FileError) : Change :=
  match e with
  | .refused _ _ =>
    match ws.isDirectory p with
    | .ok true => (.ok (), ws)
    | .ok false => (.error e, ws)
    | .error e => (.error e, ws)
  | e => (.error e, ws)

/-- Makes a directory after those above it have been made. -/
def makeLast (ws : Workspace) (p : Path) : Change :=
  match ws.makeDirectory p with
  | .ok ws => (.ok (), ws)
  | .error (.refused .notFound q) => (.error (.refused .notFound q), ws)
  | .error e => ws.unlessThere p e

/-- Makes a directory, given by its components from the last one on, and the missing directories
above it. -/
def makeDirectories (ws : Workspace) (anchor : Anchor) : (backwards : List String) → Change
  | [] => ws.makeLast ⟨anchor, []⟩
  | name :: rest =>
    let p : Path := ⟨anchor, (name :: rest).reverse⟩
    match ws.makeDirectory p with
    | .ok ws => (.ok (), ws)
    | .error (.refused .notFound _) =>
      match ws.makeDirectories anchor rest with
      | (.ok (), ws) => ws.makeLast p
      | refused => refused
    | .error e => ws.unlessThere p e

/-- Writes a file into a directory that is there. What is written to a special file goes
elsewhere. -/
def writeFile (ws : Workspace) (p : Path) (bytes : ByteArray) : Except Cause Workspace :=
  if isLongPath p.toString then .error .nameTooLong
  else do
    match ← ws.parent p with
    | none => .error .isDirectory
    | some (parent, entries, name) =>
      if name = ".." then .error .isDirectory
      else if isLongName name then .error .nameTooLong
      else
        match entries.lookup name with
        | some (.directory _) => .error .isDirectory
        | some .special => return ws
        | _ => return ws.put (.file bytes) (parent ++ [name])

/-- Makes a node of any kind in a directory that is there. A special file is refused without its
path. -/
def writeNode (ws : Workspace) (p : Path) (node : FileNode) : Except FileError Workspace :=
  if hasNull p.toString then .error .nullCharacter
  else
    match node with
    | .directory _ => ws.makeDirectory p
    | .file bytes => (ws.writeFile p bytes).mapError (.refused · p.toString)
    | .special => (ws.create p .special).mapError (.refused · none)

/-- Writes a node with the directories above it. A directory that is there stays as it is. -/
def write (ws : Workspace) (p : Path) (node : FileNode) : Change :=
  match node with
  | .directory _ => ws.makeDirectories p.anchor p.parts.reverse
  | node =>
    match ws.makeDirectories p.anchor p.parts.dropLast.reverse with
    | (.error e, ws) => (.error e, ws)
    | (.ok (), ws) =>
      match ws.writeNode p node with
      | .ok ws => (.ok (), ws)
      | .error e => (.error e, ws)

/-- Takes away the file that a text leads to. All components of the text count here: a slash or a
dot at its end asks for a directory. -/
def unlink (ws : Workspace) (text : String) : Except Cause Workspace :=
  let components := (Text.splitOn '/' text).filter (· ≠ "")
  if text = "" then .error .notFound
  else if isLongPath text then .error .nameTooLong
  else
    match components.getLast? with
    | none => .error .isDirectory
    | some name => do
      let above := components.dropLast.filter (· ≠ ".")
      let parent ← ws.walk (ws.start (Path.ofString text).anchor) above
      match ws.nodeAt parent with
      | .directory entries =>
        if name = "." || name = ".." then .error .isDirectory
        else if isLongName name then .error .nameTooLong
        else
          match entries.lookup name with
          | none => .error .notFound
          | some (.directory _) => .error .isDirectory
          | some _ =>
            if text.toList.getLast? = some '/' then .error .notDirectory
            else return ws.takeAway (parent ++ [name])
      | _ => .error .notDirectory

def remove (ws : Workspace) (text : String) : Change :=
  if hasNull text then (.error .nullCharacter, ws)
  else
    match ws.unlink text with
    | .ok ws => (.ok (), ws)
    | .error cause => (.error (.refused cause text), ws)

/-- Writes nodes one after the other, up to the first that is refused. -/
def writeAll (ws : Workspace) : List (Path × FileNode) → Except FileError Workspace
  | [] => .ok ws
  | (p, node) :: rest =>
    match ws.write p node with
    | (.ok (), ws) => ws.writeAll rest
    | (.error e, _) => .error e

end Workspace

end CognitiveLoad
