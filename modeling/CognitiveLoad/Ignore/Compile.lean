import CognitiveLoad.Ignore.Matcher
import CognitiveLoad.Ignore.Pattern

/-!
Reading ignore patterns. A pattern is cut at its slashes into segments. A pattern of one segment
applies at any depth, others apply from the root; `**` stands for any number of directories, `*`
and `?` for characters of a name, and square brackets for a set of characters. The engine that reads
patterns so is `globs`.
-/

namespace CognitiveLoad.Ignore

/-- Why a segment has no pieces: a backslash with nothing after it makes the pattern invalid, a
bracket that is never closed makes it match nothing. -/
inductive Obstacle where
  | danglingEscape
  | openBracket
  deriving DecidableEq, Repr

/-! ## Segments -/

/-- The characters of a set and what follows it, given what follows the opening bracket and the
negation sign. A closing bracket in the first place belongs to the set. -/
def bracket? (cs : List Char) : Option (List Char × List Char) :=
  let first := cs.takeWhile (· == ']') |>.take 1
  let rest := cs.drop first.length
  match rest.dropWhile (· ≠ ']') with
  | [] => none
  | _ :: after => some (first ++ rest.takeWhile (· ≠ ']'), after)

/-- The set after an opening bracket, and what follows it. -/
def set? : List Char → Option (Glyph × List Char)
  | '!' :: cs => (bracket? cs).map fun b => (.set true b.1, b.2)
  | '^' :: cs => (bracket? cs).map fun b => (.set true b.1, b.2)
  | cs => (bracket? cs).map fun b => (.set false b.1, b.2)

def globWithin : (fuel : Nat) → List Char → Except Obstacle (List Piece)
  | 0, _ => .ok []
  | _ + 1, [] => .ok []
  | _ + 1, ['\\'] => .error .danglingEscape
  | fuel + 1, '\\' :: c :: rest => do
    let pieces ← globWithin fuel rest
    return .one (.literal c) :: pieces
  | fuel + 1, '*' :: rest => do
    let pieces ← globWithin fuel rest
    return .run :: pieces
  | fuel + 1, '?' :: rest => do
    let pieces ← globWithin fuel rest
    return .one .inName :: pieces
  | fuel + 1, '[' :: rest =>
    match set? rest with
    | none => .error .openBracket
    | some (g, after) => do
      let pieces ← globWithin fuel after
      return .one g :: pieces
  | fuel + 1, c :: rest => do
    let pieces ← globWithin fuel rest
    return .one (.literal c) :: pieces

/-- The pieces of a segment. Every piece takes at least one character, so their number bounds the
steps. -/
def glob (segment : String) : Except Obstacle (List Piece) :=
  globWithin segment.toList.length segment.toList

def slash : Piece := .one (.literal '/')

/-- The pieces of the segments after the first place; `afterName` says whether a slash has to come
before the next name. -/
def laterPieces (afterName : Bool) : List String → Except Obstacle (List Piece)
  | [] => .ok []
  | segment :: rest =>
    if segment = "**" then
      if rest.isEmpty then .ok [slash]
      else do
        let pieces ← laterPieces true rest
        return .between :: pieces
    else do
      let here ← if segment = "*" then .ok [.name] else glob segment
      let pieces ← laterPieces true rest
      return (if afterName then [slash] else []) ++ here ++
        (if rest.isEmpty then [.finish] else []) ++ pieces

def pathPieces : List String → Except Obstacle (List Piece)
  | "**" :: rest => do
    let pieces ← laterPieces false rest
    return .above :: pieces
  | segments => laterPieces false segments

/-! ## Whole patterns -/

/-- Leaves one of several `**` in a row. -/
def collapse : List String → List String
  | [] => []
  | segment :: rest =>
    if segment = "**" && rest.head? = some "**" then collapse rest else segment :: collapse rest

/-- Where the first segment applies: a leading slash ties it to the root, a single segment applies
at any depth. -/
def rooted : List String → List String
  | "" :: rest => rest
  | [segment] => if segment = "**" then [segment] else ["**", segment]
  | [segment, ""] => if segment = "**" then [segment, ""] else ["**", segment, ""]
  | segments => segments

/-- A slash at the end stands for all that is below. -/
def openEnd (segments : List String) : List String :=
  if segments.getLast? = some "" then segments.dropLast ++ ["**"] else segments

def shape (segments : List String) (forDirectory : Bool) : Except Obstacle Shape :=
  match segments with
  | ["**"] => .ok (if forDirectory then .anySlash else .anyCharacter)
  | ["**", "*"] => .ok .anyCharacter
  | ["**", "*", "**"] => .ok .anySlash
  | segments => do
    let pieces ← pathPieces segments
    return .fromStart pieces

/-! ## Ranges that run backwards

Such a range is reported by its place in the regular expression that the pattern stands for, so the
expression of each piece is spelled out here. -/

/-- A character of an expression that stands for itself. -/
def literalExpression (c : Char) : List Char :=
  if "()[]\x7b\x7d?*+-|^$\\.&~# \t\n\r\x0b\x0c".toList.contains c then ['\\', c] else [c]

/-- A character between the brackets of an expression. -/
def memberExpression (c : Char) : List Char :=
  if c = '\\' then ['\\', '\\'] else [c]

def Glyph.expression : Glyph → List Char
  | .literal c => literalExpression c
  | .inName => "[^/]".toList
  | .set negated content =>
    (if negated then "[^" else "[").toList ++ content.flatMap memberExpression ++ [']']

def Piece.expression : Piece → List Char
  | .one g => g.expression
  | .run => "[^/]*".toList
  | .name => "[^/]+".toList
  | .above => "(?:.+/)?".toList
  | .between => "(?:/.+)?".toList
  | .finish => "(?:/|$)".toList

/-- The first backward range of a set whose members begin at `position`. -/
def reversedMember? (position : Nat) : List Char → Option ReversedRange
  | [] => none
  | a :: '-' :: b :: rest =>
    let range := memberExpression a ++ '-' :: memberExpression b
    if b.toNat < a.toNat then some ⟨String.ofList range, position⟩
    else reversedMember? (position + range.length) rest
  | a :: rest => reversedMember? (position + (memberExpression a).length) rest

/-- The first backward range of pieces whose expression begins at `position`. -/
def reversedPiece? (position : Nat) : List Piece → Option ReversedRange
  | [] => none
  | p :: rest =>
    let here :=
      match p with
      | .one (.set negated content) =>
        reversedMember? (position + if negated then 2 else 1) content
      | _ => none
    here.or (reversedPiece? (position + p.expression.length) rest)

/-- The error of the first backward range. The expression of a pattern begins with the sign for the
start of the path. -/
def Shape.reversed? : Shape → Option PatternError
  | .fromStart pieces =>
    (reversedPiece? 1 pieces).map (.reversed · ('^' :: pieces.flatMap Piece.expression))
  | _ => none

/-! ## Rules -/

/-- The rule of a pattern whose negation sign has been read. -/
def ruleOf (pattern : String) (negated : Bool) (body : String) :
    Except PatternError (Option Rule) :=
  let segments := Text.splitOn '/' body
  let forDirectory := segments.getLast? = some ""
  match rooted segments with
  | [] => .error (.invalid pattern)
  | segments =>
    match shape (collapse (openEnd segments)) forDirectory with
    | .error .danglingEscape => .error (.invalid pattern)
    | .error .openBracket => .ok none
    | .ok shape =>
      match shape.reversed? with
      | some e => .error e
      | none => .ok (some ⟨negated, shape⟩)

/-- Blanks at the end of a pattern do not count, unless the last one is escaped. -/
def withoutTrailingBlanks (pattern : String) : String :=
  match pattern.toList.reverse with
  | ' ' :: '\\' :: _ => pattern
  | _ => Text.trimEnd pattern

/-- The rule of a pattern; comments and patterns that match nothing have none. -/
def compile (pattern : String) : Except PatternError (Option Rule) :=
  let body := withoutTrailingBlanks pattern
  match body.toList with
  | [] => .ok none
  | '#' :: _ => .ok none
  | ['/'] => .ok none
  | '!' :: rest => ruleOf pattern true (String.ofList rest)
  | _ => ruleOf pattern false body

def compileAll : List String → Except PatternError (List Rule)
  | [] => .ok []
  | p :: rest => do
    let rule ← compile p
    let rules ← compileAll rest
    return rule.toList ++ rules

/-- The part of a path to which rules apply. -/
def subject (path : String) : List Char :=
  match path.toList with
  | '/' :: rest => rest
  | '.' :: '/' :: rest => rest
  | cs => cs

def globs : Engine := fun patterns => do
  let rules ← compileAll patterns
  return fun path => excludes rules (subject path)

end CognitiveLoad.Ignore
