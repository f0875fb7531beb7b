import CognitiveLoad.Log
import CognitiveLoad.Text.Basic
import CognitiveLoad.Workspace.Basic

/-!
The tracked files of a repository, as a version control system prints them.
-/

namespace CognitiveLoad

/-- The signals that can end a program, from the first on; those without a name are empty. -/
def signalNames : List String :=
  ["SIGHUP", "SIGINT", "SIGQUIT", "SIGILL", "SIGTRAP", "SIGABRT", "SIGBUS", "SIGFPE", "SIGKILL",
    "SIGUSR1", "SIGSEGV", "SIGUSR2", "SIGPIPE", "SIGALRM", "SIGTERM", "SIGSTKFLT", "SIGCHLD",
    "SIGCONT", "SIGSTOP", "SIGTSTP", "SIGTTIN", "SIGTTOU", "SIGURG", "SIGXCPU", "SIGXFSZ",
    "SIGVTALRM", "SIGPROF", "SIGWINCH", "SIGIO", "SIGPWR", "SIGSYS", "", "", "SIGRTMIN"]

/-- The name of a signal. Of those that a system has for its own use only the first and the last
have names. -/
def signalName? (n : Nat) : Option String :=
  if n = 64 then some "SIGRTMAX"
  else if n = 0 then none
  else signalNames[n - 1]?.filter (· ≠ "")

/-- How the end of a program is told by its exit status; a signal that ended it is told by a
negative one. -/
def endingText : (status : Int) → String
  | .ofNat n => s!"returned non-zero exit status {n}."
  | .negSucc k =>
    match signalName? (k + 1) with
    | some name => s!"died with <Signals.{name}: {k + 1}>."
    | none => s!"died with unknown signal {k + 1}."

namespace Workspace

variable (ws : Workspace)

/-- A directory is a repository when it holds a directory `.git`. -/
def isRepository (p : Path) : Except FileError Bool :=
  ws.isDirectory (p.entry ".git")

/-- The answer about a repository. Where none is known, the program that is asked ends with the
status by which it tells that there is no repository. -/
def answer (repository : Path) : TrackedAnswer :=
  (ws.tracked.lookup repository.toString).getD (.ended 128)

/-- The paths printed one to a line, seen from the repository. -/
def printedPaths (repository : Path) (text : String) : List Path :=
  ((Text.lines text).filter (!Text.isBlankText ·)).map fun line =>
    repository.join (Path.ofString line)

def listTracked (repository : Path) : Traced (Except FileError (List Path)) :=
  let shown := repository.toString
  match ws.isRepository repository with
  | .error e => pure (.error e)
  | .ok false => do
    Traced.note .warning .files s!"Not a git repository: {shown}"
    return .ok []
  | .ok true =>
    match ws.answer repository with
    | .printed text => pure (.ok (printedPaths repository text))
    | .ended status => do
      Traced.note .error .files
        (s!"Failed to list git files in {shown}: Command '['git', 'ls-files']' " ++
          endingText status)
      return .ok []
    | .unavailable cause => do
      Traced.note .error .files s!"Failed to list git files in {shown}: {cause}"
      return .ok []

end Workspace

end CognitiveLoad
