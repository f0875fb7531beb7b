import CognitiveLoad.Path
import CognitiveLoad.Reader
import CognitiveLoad.Text.Case

/-!
The catalog of languages: which reader serves a language, and which language owns a file extension.
Entering a language again replaces its reader, and an extension belongs to the language that
claimed it last. Identifiers and extensions do not depend on case.
-/

namespace CognitiveLoad

structure Catalog where
  readers : Roster Reader := {}
  owners : Roster String := {}
  deriving DecidableEq, Repr

namespace Catalog

variable (c : Catalog)

/-- An extension without leading dots, lower-cased. -/
def plainExtension (ext : String) : String :=
  Text.lower (String.ofList (ext.toList.dropWhile (· == '.')))

/-- Gives an extension to a language. -/
def claim (language ext : String) : Traced Catalog := do
  let ext := plainExtension ext
  let previous := (c.owners.get? ext).getD ""
  if previous ≠ "" && previous ≠ language then
    Traced.note .debug .reader s!"Extension .{ext} reassigned from {previous} to {language}"
  return { c with owners := c.owners.enter ext language }

def claimAll (c : Catalog) (language : String) : List String → Traced Catalog
  | [] => pure c
  | ext :: rest => do
    let c ← c.claim language ext
    claimAll c language rest

/-- The identifier for a reader: the given one, or its own if that is absent or empty. -/
def identifier (reader : Reader) (language : Option String) : String :=
  let given := language.getD ""
  Text.lower (if given = "" then reader.language else given)

/-- Enters a reader under its identifier. -/
def register (reader : Reader) (language : Option String := none) : Traced Catalog := do
  let language := identifier reader language
  let c ← claimAll { c with readers := c.readers.enter language reader } language reader.extensions
  Traced.note .info .reader s!"Registered {reader.label} for {language}"
  return c

/-- The reader of a language; the empty identifier has none. -/
def reader? (language : String) : Option Reader :=
  if language = "" then none else c.readers.get? (Text.lower language)

def supports (language : String) : Bool :=
  (c.reader? language).isSome

/-- The language that owns the extension of a path. -/
def languageOf? (path : String) : Option String :=
  let ext := Text.lower (Path.ofString path).extension
  if ext = "" then none else c.owners.get? ext

/-- Starts a fresh reader for a language. -/
def create (parsers : Parsers) (language : String) : Traced (Except ParserError (Option Reader)) :=
  match c.reader? language with
  | none => pure (.ok none)
  | some r => do
    match ← r.start parsers with
    | .ok r => return .ok (some r)
    | .error e => return .error e

/-- Starts the given readers and enters each. -/
def registerAll (parsers : Parsers) (c : Catalog) :
    List Reader → Traced (Except ParserError Catalog)
  | [] => pure (.ok c)
  | r :: rest => do
    match ← r.start parsers with
    | .error e => return .error e
    | .ok r =>
      let c ← c.register r
      registerAll parsers c rest

/-- The catalog of the languages that can be analysed. -/
def standard (parsers : Parsers) : Traced (Except ParserError Catalog) :=
  registerAll parsers {} [Dialect.cpp.reader, Dialect.python.reader]

/-! ## Histories -/

/-- What a catalog can be asked. A reader to be registered has first to be started, once. -/
inductive Step where
  | register (reader : Option Reader) (language : Option String)
  | createForLanguage (language : Option String)
  | createForPath (path : Option String)
  | languageForPath (path : Option String)
  | isSupported (language : Option String)
  | languages
  | extensions
  deriving DecidableEq, Repr

inductive Reply where
  | done
  | reader (r : Option Reader)
  | language (l : Option String)
  | answer (b : Bool)
  | names (ns : List String)
  | refused (e : ParserError)
  deriving DecidableEq, Repr

/-- A catalog at work. `serials` tells which registration the reader of a language comes from, and
`loads` how often the grammar behind each registration has been loaded. -/
structure Session where
  catalog : Catalog := {}
  serials : Roster Nat := {}
  loads : List Nat := []
  deriving DecidableEq, Repr

namespace Session

variable (s : Session)

def loadsOf (language : String) : Nat :=
  ((s.serials.get? language).bind (s.loads[·]?)).getD 0

/-- Counts one more load for the registration behind a language. -/
def count (language : String) : Session :=
  match s.serials.get? language with
  | some n => { s with loads := s.loads.modify n (· + 1) }
  | none => s

def create (parsers : Parsers) (language : Option String) : Traced (Reply × Session) :=
  match language.bind s.catalog.reader? with
  | none => pure (.reader none, s)
  | some r => do
    let id := Text.lower (language.getD "")
    match ← r.start parsers (s.loadsOf id) with
    | .ok r => return (.reader (some r), s.count id)
    | .error e => return (.refused e, s.count id)

def languageOf? (path : Option String) : Option String :=
  path.bind s.catalog.languageOf?

def step (parsers : Parsers) : Step → Traced (Reply × Session)
  | .register none _ => do
    Traced.note .error .reader "Attempting to register null extractor"
    return (.done, s)
  | .register (some r) language => do
    match ← r.start parsers with
    | .error e => return (.refused e, s)
    | .ok r =>
      let catalog ← s.catalog.register r language
      let id := identifier r language
      return (.done, ⟨catalog, s.serials.enter id s.loads.length, s.loads ++ [1]⟩)
  | .createForLanguage language => s.create parsers language
  | .createForPath path => s.create parsers (s.languageOf? path)
  | .languageForPath path => pure (.language (s.languageOf? path), s)
  | .isSupported language => pure (.answer (language.any s.catalog.supports), s)
  | .languages => pure (.names s.catalog.readers.names, s)
  | .extensions => pure (.names s.catalog.owners.names, s)

end Session

end Catalog

end CognitiveLoad
