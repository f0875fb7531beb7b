import CognitiveLoad.CommandLine.Run
import CognitiveLoad.Ignore.Compile
import CognitiveLoad.Syntax.Listing

/-!
The command. It takes in the variables of the environment and the files below the working
directory, and writes out how the run ends. The tree of a source file is listed in a file beside it
that has `.tree` after its name. No other program is asked for tracked files.
-/

namespace CognitiveLoad.CommandLine

def variableNames : List String :=
  ["COMPLEXITY_THRESHOLD", "COMPLEXITY_LANGUAGE", "COMPLEXITY_IGNORE", "COMPLEXITY_RECURSIVE",
    "COMPLEXITY_BOOLEAN_OPERATORS", "COMPLEXITY_FORMAT", "COMPLEXITY_VERBOSE"]

def readEnvironment : IO Environment :=
  variableNames.filterMapM fun name => return (← IO.getEnv name).map (name, ·)

/-- What stands below an entry of the directory at `p`. Links are not followed. Directories that
cannot be listed are collected on the way. -/
partial def readEntry (p : Path) (e : IO.FS.DirEntry) :
    StateT (List String) IO (String × FileNode) := do
  let here := p.entry e.fileName
  match (← e.path.symlinkMetadata).type with
  | .file => return (e.fileName, .file (← IO.FS.readBinFile e.path))
  | .dir =>
    try
      let entries ← e.path.readDir
      return (e.fileName, .directory (← entries.toList.mapM (readEntry here)))
    catch _ =>
      modify (here.toString :: ·)
      return (e.fileName, .directory [])
  | _ => return (e.fileName, .special)

/-- The entries of a directory, with the directories above it that lead to it. -/
def rootEntries (home : List String) (entries : List (String × FileNode)) :
    List (String × FileNode) :=
  home.foldr (fun name inside => [(name, .directory inside)]) entries

/-- The working directory and the files below it. A directory that cannot be listed cannot be listed
by its path from the root either. -/
def readWorkspace (asked : List String) : IO Workspace := do
  let directory ← IO.currentDir
  let home := Path.ofString directory.toString
  let (entries, denied) ← ((← directory.readDir).toList.mapM (readEntry ⟨.relative, []⟩)).run []
  let unknown : TrackedAnswer := .unavailable "tracked files are not known"
  return {
    entries := rootEntries home.parts entries
    home := home.parts
    denied := denied ++ denied.map fun path => (home.join (.ofString path)).toString
    tracked := asked.map fun path => ((Path.ofString path).toString, unknown) }

/-- The texts of the files that have a listing beside them, each with its tree. -/
def listedTrees (ws : Workspace) : List (String × Tree) :=
  match (ws.list "." true).value with
  | .error _ => []
  | .ok files => files.filterMap fun file => do
    let text ← (ws.read file).toOption
    let listing ← (ws.read (Path.ofString (file.toString ++ ".tree"))).toOption
    return (text, ← Tree.read? listing)

/-- Writes out how a run ends, and gives its exit code. -/
def Exit.finish (e : Exit) : IO UInt32 := do
  for entry in e.log do
    IO.eprintln s!"{entry.level.name}: {entry.message}"
  if let some message := e.usageError then
    IO.eprintln s!"complexity-watch: error: {message}"
  IO.print e.stdout
  return e.code.toUInt32

end CognitiveLoad.CommandLine

open CognitiveLoad CommandLine in
def main (arguments : List String) : IO UInt32 := do
  let env ← readEnvironment
  let ws ← readWorkspace arguments
  let trees := listedTrees ws
  match run { tree? := fun _ text => trees.lookup text } Ignore.globs ws env arguments with
  | .ok e => e.finish
  | .error e =>
    IO.eprintln e.message
    return 1
