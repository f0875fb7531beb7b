import CognitiveLoad.FileError
import CognitiveLoad.Path

/-!
A file system and a working directory in it, as a value: where a path leads, and what a file says. A
path begins at the root or in the working directory and is walked component by component, so `..`
after a directory leads back to the one above it, and a component after a file leads nowhere. There
are no links, and every directory may be searched; there are only directories that may not be
listed.
-/

namespace CognitiveLoad

inductive FileNode where
  | file (bytes : ByteArray)
  | special
  | directory (entries : List (String × FileNode))

/-- What a version control system answers when it is asked for the tracked files. -/
inductive TrackedAnswer where
  | printed (text : String)
  | ended (status : Int)
  | unavailable (cause : String)
  deriving DecidableEq, Repr

/-- A place in a file system, by the names that lead to it from the root. -/
abbrev Place := List String

/-- The entries of the root, the place of the working directory, the directories that may not be
listed, and the answers about tracked files; both of the latter by the paths by which a directory is
asked for. -/
structure Workspace where
  entries : List (String × FileNode) := []
  home : Place := []
  denied : List String := []
  tracked : List (String × TrackedAnswer) := []

/-- The node with the given names, one below the other. -/
def FileNode.find? (entries : List (String × FileNode)) : List String → Option FileNode
  | [] => some (directory entries)
  | name :: rest =>
    match entries.lookup name with
    | some (directory inside) => find? inside rest
    | some node => if rest.isEmpty then some node else none
    | none => none

/-- The longest name of a file, in bytes. -/
def maxNameSize : Nat := 255

/-- The longest path, in bytes. -/
def maxPathSize : Nat := 4095

def isLongName (name : String) : Bool :=
  maxNameSize < name.utf8ByteSize

def isLongPath (text : String) : Bool :=
  maxPathSize < text.utf8ByteSize

def hasNull (text : String) : Bool :=
  text.toList.any (·.toNat == 0)

namespace Workspace

variable (ws : Workspace)

def nodeAt (here : Place) : FileNode :=
  (FileNode.find? ws.entries here).getD (.directory [])

/-- Where a path begins. -/
def start : Anchor → Place
  | .relative => ws.home
  | _ => []

/-- One step of a walk. Every directory may be searched, and the root is above itself. -/
def step (here : Place) (name : String) : Except Cause Place :=
  match ws.nodeAt here with
  | .directory entries =>
    if name = ".." then .ok here.dropLast
    else if isLongName name then .error .nameTooLong
    else if (entries.lookup name).isSome then .ok (here ++ [name])
    else .error .notFound
  | _ => .error .notDirectory

def walk (here : Place) (names : List String) : Except Cause Place :=
  names.foldlM ws.step here

/-- The node that a path leads to. -/
def look (p : Path) : Except Cause FileNode :=
  if isLongPath p.toString then .error .nameTooLong
  else (ws.walk (ws.start p.anchor) p.parts).map ws.nodeAt

/-- The node that a path leads to, if there is one. -/
def node? (p : Path) : Except FileError (Option FileNode) :=
  if hasNull p.toString then .ok none
  else
    match ws.look p with
    | .ok node => .ok (some node)
    | .error .notFound => .ok none
    | .error .notDirectory => .ok none
    | .error cause => .error (.refused cause p.toString)

def exists? (p : Path) : Except FileError Bool :=
  (ws.node? p).map Option.isSome

def isDirectory (p : Path) : Except FileError Bool :=
  (ws.node? p).map fun
    | some (.directory _) => true
    | _ => false

/-- The text of a file: valid UTF-8 with every line end turned into a newline. -/
def read (p : Path) : Except FileError String :=
  if hasNull p.toString then .error .nullCharacter
  else
    match ws.look p with
    | .error cause => .error (.refused cause p.toString)
    | .ok (.directory _) => .error (.refused .isDirectory p.toString)
    | .ok .special => .error (.refused .noDevice p.toString)
    | .ok (.file bytes) =>
      match Text.Utf8.decode bytes.data.toList with
      | .ok cs => .ok (String.ofList (Text.unifyNewlines cs))
      | .error e => .error (.undecodable e)

end Workspace

end CognitiveLoad
