import CognitiveLoad.Catalog
import CognitiveLoad.Ignore.Matcher
import CognitiveLoad.Settings
import CognitiveLoad.Workspace.Edit
import CognitiveLoad.Workspace.Listing
import CognitiveLoad.Workspace.Tracked

/-!
Surveys: the findings in a text, a file, a directory or a repository. Files of a directory are
taken in the order of their paths, tracked files in the order in which they are printed. A file
that cannot be read or parsed has no findings and does not stop a survey.
-/

namespace CognitiveLoad

/-- Why a survey stops. -/
inductive Failure where
  | settings (e : SettingsError)
  | parser (e : ParserError)
  | pattern (e : Ignore.PatternError)
  | file (e : FileError)
  | invalidPath (path : String)
  deriving DecidableEq, Repr

def Failure.message : Failure → String
  | settings e => e.message
  | parser e => e.message
  | pattern e => e.message
  | file e => e.message
  | invalidPath path => s!"Invalid input path: {path}"

/-- Whether the cause is that nothing stands at a path. -/
def Failure.isAbsence : Failure → Bool
  | file (.refused .notFound _) => true
  | invalidPath _ => true
  | _ => false

/-- What a survey works with. The readers that come with the languages load their grammars without
limit, so no loads are counted here. -/
structure Survey where
  parsers : Parsers
  catalog : Catalog
  settings : Settings
  ignore : Ignore.Matcher

namespace Survey

def make (parsers : Parsers) (engine : Ignore.Engine) (catalog : Catalog) (settings : Settings) :
    Except Failure Survey :=
  match Ignore.Matcher.make engine settings.ignore with
  | .ok ignore => .ok ⟨parsers, catalog, settings, ignore⟩
  | .error e => .error (.pattern e)

/-- A survey with the catalog of all languages, which is made before the settings are checked. -/
def prepare (parsers : Parsers) (engine : Ignore.Engine) (request : Settings.Request) :
    Traced (Except Failure Survey) := do
  match ← Catalog.standard parsers with
  | .error e => return .error (.parser e)
  | .ok catalog =>
    match request.check with
    | .error e => return .error (.settings e)
    | .ok settings => return make parsers engine catalog settings

variable (s : Survey)

def scorer (d : Dialect) : Scorer :=
  ⟨d.vocabulary, s.settings.countOperators⟩

/-! ## Texts -/

/-- The definition at a start byte; of several the last. -/
def definitionAt? (definitions : List Definition) (startByte : Nat) : Option Definition :=
  definitions.reverse.find? (·.node.startByte = startByte)

/-- The finding of one routine, if it reaches the threshold. -/
def assess (r : Reader) (text file : String) (definitions : List Definition) (routine : Routine) :
    Traced (Option Finding) :=
  match definitionAt? definitions routine.startByte with
  | none => do
    Traced.note .warning .survey
      s!"Could not locate {routine.name} at line {routine.startLine} in {file}"
    return none
  | some d => do
    let score ← (s.scorer r.dialect).score text ⟨.missing, d.node⟩
    Traced.note .debug .survey s!"{routine.name}: complexity {score.total}"
    if (s.settings.threshold : Int) ≤ score.total then
      return some (.ofRoutine routine score file r.language)
    else return none

def assessAll (r : Reader) (text file : String) (definitions : List Definition) :
    List Routine → Traced (List Finding)
  | [] => pure []
  | routine :: rest => do
    let here ← s.assess r text file definitions routine
    let others ← assessAll r text file definitions rest
    return here.toList ++ others

/-- The findings in a parsed text. -/
def ofTree (r : Reader) (text file : String) (tree : Tree) : Traced (List Finding) := do
  let routines ← r.dialect.routines text tree
  let definitions ← Outline.definitions r.dialect text.toUTF8 tree
  let findings ← s.assessAll r text file definitions routines
  Traced.note .info .survey
    (s!"Analyzed {routines.length} functions in {shownFile file}, " ++
      s!"{findings.length} at or above threshold {s.settings.threshold}")
  return findings

/-- The language of a text: the one asked for, or the one set for all texts, or the one that owns
the extension of the file. -/
def languageFor (file : String) (asked : Option String) : Option String :=
  match asked.getD "" with
  | "" => s.settings.language.or (s.catalog.languageOf? file)
  | language => some language

def ofText (text file : String) (asked : Option String := none) :
    Traced (Except Failure (List Finding)) := do
  let language := s.languageFor file asked
  match ← s.catalog.create s.parsers (language.getD "") with
  | .error e => return .error (.parser e)
  | .ok none =>
    let shown := language.getD "None"
    Traced.note .warning .survey s!"Unsupported language for {shownFile file}: {shown}"
    return .ok []
  | .ok (some r) =>
    if text = "" then
      Traced.note .warning .survey s!"Empty file content: {shownFile file}"
      return .ok []
    else
      match ← r.parse s.parsers text with
      | none =>
        Traced.note .error .survey s!"Failed to parse file: {shownFile file}"
        return .ok []
      | some tree => Except.ok <$> s.ofTree r text file tree

/-! ## Files -/

/-- The findings in a file. A file that cannot be read has none, but a path that cannot even be
handed to the system stops the survey. -/
def ofFile (ws : Workspace) (p : Path) : Traced (Except Failure (List Finding)) := do
  let shown := p.toString
  Traced.note .info .survey s!"Analyzing file: {shown}"
  match ws.read p with
  | .error .nullCharacter => return .error (.file .nullCharacter)
  | .error e =>
    Traced.note .error .survey s!"Failed to read file {shown}: {e.message}"
    return .ok []
  | .ok text => s.ofText text shown

/-- Whether a file takes part in a survey: it is not ignored, and its extension belongs to the
language set for all files, or to any language if none is set. -/
def takes (ignore : Ignore.Matcher) (p : Path) : Traced Bool :=
  if ignore.ignores p then do
    Traced.note .debug .survey s!"Ignoring {p.toString}"
    return false
  else
    let language := s.catalog.languageOf? p.toString
    match s.settings.language with
    | some forced => pure (language == some forced)
    | none => pure language.isSome

/-- The findings in the files that take part, and the number of these files. -/
def ofFilesUnder (ws : Workspace) (ignore : Ignore.Matcher) :
    List Path → Traced (Except Failure (List Finding × Nat))
  | [] => pure (.ok ([], 0))
  | p :: rest => do
    if ← s.takes ignore p then
      match ← s.ofFile ws p with
      | .error e => return .error e
      | .ok here =>
        match ← ofFilesUnder ws ignore rest with
        | .error e => return .error e
        | .ok (others, n) => return .ok (here ++ others, n + 1)
    else ofFilesUnder ws ignore rest

def ofFiles (ws : Workspace) (files : List Path) (root : Path) :
    Traced (Except Failure (List Finding)) := do
  match ← s.ofFilesUnder ws (s.ignore.withRoot root) files with
  | .error e => return .error e
  | .ok (findings, n) =>
    Traced.note .info .survey
      s!"Analyzed {n} files under {root.toString}: {findings.length} results"
    return .ok findings

def ofDirectory (ws : Workspace) (p : Path) (recursive : Option Bool := none) :
    Traced (Except Failure (List Finding)) := do
  let recursive := recursive.getD s.settings.recursive
  let mode := if recursive then "True" else "False"
  Traced.note .info .survey s!"Analyzing directory: {p.toString} (recursive: {mode})"
  match ← ws.list p.toString recursive with
  | .error e => return .error (.file e)
  | .ok files => s.ofFiles ws files p

def ofRepository (ws : Workspace) (p : Path) : Traced (Except Failure (List Finding)) := do
  Traced.note .info .survey s!"Analyzing git repository: {p.toString}"
  match ws.isRepository p with
  | .error e => return .error (.file e)
  | .ok false =>
    Traced.note .error .survey s!"Not a git repository: {p.toString}"
    return .ok []
  | .ok true =>
    match ← ws.listTracked p with
    | .error e => return .error (.file e)
    | .ok files => s.ofFiles ws files p

/-- The findings at a path, whatever stands there. -/
def ofPath (ws : Workspace) (p : Path) (recursive : Option Bool := none) :
    Traced (Except Failure (List Finding)) :=
  match ws.node? p with
  | .error e => pure (.error (.file e))
  | .ok (some (.file _)) => s.ofFile ws p
  | .ok (some (.directory _)) =>
    match ws.isRepository p with
    | .error e => pure (.error (.file e))
    | .ok true => s.ofRepository ws p
    | .ok false => s.ofDirectory ws p recursive
  | .ok _ => pure (.error (.invalidPath p.toString))

/-! ## Sessions -/

/-- What can be asked of a survey over a file tree that changes. -/
inductive Step where
  | analyzeFile (path : String)
  | analyzeDirectory (path : String) (recursive : Option Bool)
  | analyzeRepository (path : String)
  | analyzePath (path : String) (recursive : Option Bool)
  | takesFile (path : String)
  | isRepository (path : String)
  | listFiles (path : String) (recursive : Bool)
  | listTracked (path : String)
  | read (path : String)
  | write (path : String) (node : FileNode)
  | remove (path : String)

inductive Reply where
  | findings (fs : List Finding)
  | answer (b : Bool)
  | paths (ps : List Path)
  | text (s : String)
  | done
  | refused (e : Failure)
  deriving DecidableEq, Repr

def Reply.ofFindings : Except Failure (List Finding) → Reply
  | .ok fs => .findings fs
  | .error e => .refused e

def Reply.ofFiles {α : Type} (reply : α → Reply) : Except FileError α → Reply
  | .ok a => reply a
  | .error e => .refused (.file e)

def ask (ws : Workspace) : Step → Traced Reply
  | .analyzeFile p => Reply.ofFindings <$> s.ofFile ws (.ofString p)
  | .analyzeDirectory p recursive => Reply.ofFindings <$> s.ofDirectory ws (.ofString p) recursive
  | .analyzeRepository p => Reply.ofFindings <$> s.ofRepository ws (.ofString p)
  | .analyzePath p recursive => Reply.ofFindings <$> s.ofPath ws (.ofString p) recursive
  | .takesFile p => Reply.answer <$> s.takes s.ignore (.ofString p)
  | .isRepository p => pure (Reply.ofFiles .answer (ws.isRepository (.ofString p)))
  | .listFiles p recursive => Reply.ofFiles .paths <$> ws.list p recursive
  | .listTracked p => Reply.ofFiles .paths <$> ws.listTracked (.ofString p)
  | .read p => pure (Reply.ofFiles .text (ws.read (.ofString p)))
  | .write p node => pure (Reply.ofFiles (fun _ => .done) (ws.write (.ofString p) node).1)
  | .remove p => pure (Reply.ofFiles (fun _ => .done) (ws.remove p).1)

/-- The file tree after a step. What a refused step has done before stays. -/
def change (ws : Workspace) : Step → Workspace
  | .write p node => (ws.write (.ofString p) node).2
  | .remove p => (ws.remove p).2
  | _ => ws

def session (ws : Workspace) : List Step → Traced (List Reply)
  | [] => pure []
  | step :: rest => do
    let reply ← s.ask ws step
    let replies ← session (change ws step) rest
    return reply :: replies

end Survey

end CognitiveLoad
