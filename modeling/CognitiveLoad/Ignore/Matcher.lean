import CognitiveLoad.Path

/-!
Deciding which paths are ignored. Patterns apply to the path below the root, where there is one and
the path lies below it. How patterns are read is left open: an engine makes a test on the texts of
paths out of them, and nothing is known of the test but that it is one.
-/

namespace CognitiveLoad.Ignore

/-- A range that runs backwards, and its place in the expression of a pattern. -/
structure ReversedRange where
  range : String
  position : Nat
  deriving DecidableEq, Repr

/-- Why a list of patterns is refused. -/
inductive PatternError where
  | invalid (pattern : String)
  | reversed (r : ReversedRange) (expression : List Char)
  deriving DecidableEq, Repr

/-- A place in an expression of several lines by its line and column, both counted from one. -/
def lineAndColumn (expression : List Char) (position : Nat) : String :=
  if expression.contains '\n' then
    let before := expression.take position
    let line := before.count '\n' + 1
    let column := (before.reverse.takeWhile (· ≠ '\n')).length + 1
    s!" (line {line}, column {column})"
  else ""

def PatternError.message : PatternError → String
  | invalid pattern => s!"Invalid git pattern: {Text.quoted pattern}"
  | reversed r expression =>
    s!"bad character range {r.range} at position {r.position}" ++
      lineAndColumn expression r.position

/-- How patterns are read. -/
abbrev Engine := List String → Except PatternError (String → Bool)

structure Matcher where
  patterns : List String
  root : Option Path
  test : String → Bool

namespace Matcher

/-- Ignores nothing. -/
def empty (root : Option Path) : Matcher :=
  ⟨[], root, fun _ => false⟩

/-- Blank patterns are left out. Where there are no others, no engine is asked. -/
def make (engine : Engine) (patterns : List String) (root : Option Path := none) :
    Except PatternError Matcher :=
  match patterns.filter (!Text.isBlankText ·) with
  | [] => .ok (empty root)
  | patterns => (engine patterns).map fun test => ⟨patterns, root, test⟩

/-- The same patterns under another root. -/
def withRoot (m : Matcher) (root : Path) : Matcher :=
  { m with root := some root }

def relative (m : Matcher) (p : Path) : Path :=
  match m.root with
  | none => p
  | some root => (p.relativeTo? root).getD p

def ignores (m : Matcher) (p : Path) : Bool :=
  m.test (m.relative p).toString

end Matcher

end CognitiveLoad.Ignore
