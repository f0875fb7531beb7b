/-!
Ignore patterns in their compiled form, and what they match. A pattern is a sequence of pieces that
has to match from the start of a path; it need not reach its end. The two patterns that are looked
for anywhere in a path have a shape of their own.
-/

namespace CognitiveLoad.Ignore

/-- The ranges of a set, by the characters between its brackets. A hyphen between two characters
makes a range of them, at either end it stands for itself. -/
def setRanges : List Char → List (Char × Char)
  | [] => []
  | a :: '-' :: b :: rest => (a, b) :: setRanges rest
  | a :: rest => (a, a) :: setRanges rest

/-- A test on one character. The ranges of a set are by code point and hold both ends. -/
inductive Glyph where
  | literal (c : Char)
  | inName
  | set (negated : Bool) (content : List Char)
  deriving DecidableEq, Repr

def Glyph.accepts : Glyph → Char → Bool
  | literal d, c => c == d
  | inName, c => c ≠ '/'
  | set negated content, c =>
    negated ≠ (setRanges content).any fun r => r.1.toNat ≤ c.toNat && c.toNat ≤ r.2.toNat

/-- A part of a pattern:
* `one g`: one character;
* `run`: any number of characters other than a slash;
* `name`: at least one such character;
* `above`: nothing, or directories with the slash after them;
* `between`: nothing, or a slash with something after it;
* `finish`: a slash, or the end of the path.

The directories of `above` and what follows the slash of `between` stay on one line, and the end of
a path may have a newline after it. -/
inductive Piece where
  | one (g : Glyph)
  | run
  | name
  | above
  | between
  | finish
  deriving DecidableEq, Repr

/-- What is left after taking any number of characters at which `p` holds. -/
def rests (p : Char → Bool) : List Char → List (List Char)
  | [] => [[]]
  | c :: cs => (c :: cs) :: if p c then rests p cs else []

def onLine (c : Char) : Bool :=
  c ≠ '\n'

/-- What is left after taking at least one character of a line. -/
def restsAfterOne : List Char → List (List Char)
  | [] => []
  | c :: cs => if onLine c then rests onLine cs else []

/-- What is left after taking one or more directories, each with its slash. -/
def restsBelow (cs : List Char) : List (List Char) :=
  (restsAfterOne cs).filterMap fun
    | '/' :: rest => some rest
    | _ => none

def atEnd (cs : List Char) : Bool :=
  cs == [] || cs == ['\n']

/-- Whether the pieces match a beginning of the path. -/
def matchPieces : List Piece → List Char → Bool
  | [], _ => true
  | .one _ :: _, [] => false
  | .one g :: ps, c :: cs => g.accepts c && matchPieces ps cs
  | .run :: ps, cs => (rests Glyph.inName.accepts cs).any (matchPieces ps)
  | .name :: _, [] => false
  | .name :: ps, c :: cs =>
    Glyph.inName.accepts c && (rests Glyph.inName.accepts cs).any (matchPieces ps)
  | .above :: ps, cs => matchPieces ps cs || (restsBelow cs).any (matchPieces ps)
  | .between :: ps, '/' :: cs =>
    matchPieces ps ('/' :: cs) || (restsAfterOne cs).any (matchPieces ps)
  | .between :: ps, cs => matchPieces ps cs
  | .finish :: ps, '/' :: cs => matchPieces ps cs
  | .finish :: ps, cs => atEnd cs && matchPieces ps cs

inductive Shape where
  | anySlash
  | anyCharacter
  | fromStart (pieces : List Piece)
  deriving DecidableEq, Repr

def Shape.matches : Shape → List Char → Bool
  | anySlash, cs => cs.contains '/'
  | anyCharacter, cs => cs.any onLine
  | fromStart pieces, cs => matchPieces pieces cs

/-- A compiled pattern. One that is negated takes a path back that an earlier one took. -/
structure Rule where
  negated : Bool
  shape : Shape
  deriving DecidableEq, Repr

/-- The last rule that matches decides. -/
def excludes (rules : List Rule) (path : List Char) : Bool :=
  rules.foldl (fun excluded r => if r.shape.matches path then !r.negated else excluded) false

end CognitiveLoad.Ignore
