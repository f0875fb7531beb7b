import CognitiveLoad.Text.Basic

/-!
JSON documents with integers, texts, lists and objects, and their two layouts: on one line, or
broken into lines with a fixed indent per level. The text is printable ASCII: every other character
is escaped, those past the basic plane as a pair of surrogates.
-/

namespace CognitiveLoad

inductive Json where
  | int (n : Int)
  | text (s : String)
  | list (items : List Json)
  | object (fields : List (String × Json))

namespace Json

open Text (hexDigits)

def escapeUnit (n : Nat) : List Char :=
  '\\' :: 'u' :: hexDigits 4 n

def escapeChar (c : Char) : List Char :=
  if c = '"' then ['\\', '"']
  else if c = '\\' then ['\\', '\\']
  else if c = '\n' then ['\\', 'n']
  else if c = '\r' then ['\\', 'r']
  else if c = '\t' then ['\\', 't']
  else if c.toNat = 0x0C then ['\\', 'f']
  else if c.toNat = 0x08 then ['\\', 'b']
  else if c.toNat < 0x20 then escapeUnit c.toNat
  else if c.toNat < 0x7F then [c]
  else if c.toNat < 0x10000 then escapeUnit c.toNat
  else
    let n := c.toNat - 0x10000
    escapeUnit (0xD800 + n / 0x400) ++ escapeUnit (0xDC00 + n % 0x400)

def quote (s : String) : String :=
  String.ofList ('"' :: s.toList.flatMap escapeChar ++ ['"'])

/-- How the items of a list or an object are laid out: `none` on one line, `some n` each on its own
line, indented by `n` per level. -/
abbrev Layout := Option Nat

/-- The layout with the given indent; a negative indent is none, but still breaks the lines. -/
def Layout.ofIndent (indent : Option Int) : Layout :=
  indent.map Int.toNat

/-- What stands between the opening bracket at depth `depth` and the first item. -/
def Layout.opening (l : Layout) (depth : Nat) : String :=
  match l with
  | none => ""
  | some n => "\n" ++ String.ofList (List.replicate (n * (depth + 1)) ' ')

/-- What stands between two items inside a bracket at depth `depth`. -/
def Layout.between (l : Layout) (depth : Nat) : String :=
  match l with
  | none => ", "
  | some _ => "," ++ l.opening depth

/-- What stands between the last item and the closing bracket at depth `depth`. -/
def Layout.closing (l : Layout) (depth : Nat) : String :=
  match l with
  | none => ""
  | some n => "\n" ++ String.ofList (List.replicate (n * depth) ' ')

def enclose (l : Layout) (depth : Nat) (opener closer : String) (items : List String) : String :=
  if items.isEmpty then opener ++ closer
  else
    opener ++ l.opening depth ++ (l.between depth).intercalate items ++ l.closing depth ++ closer

mutual

def renderAt (l : Layout) (depth : Nat) : Json → String
  | .int n => toString n
  | .text s => quote s
  | .list items => enclose l depth "[" "]" (renderItems l (depth + 1) items)
  | .object fields => enclose l depth "\x7b" "\x7d" (renderFields l (depth + 1) fields)

def renderItems (l : Layout) (depth : Nat) : List Json → List String
  | [] => []
  | v :: rest => renderAt l depth v :: renderItems l depth rest

def renderFields (l : Layout) (depth : Nat) : List (String × Json) → List String
  | [] => []
  | (k, v) :: rest => (quote k ++ ": " ++ renderAt l depth v) :: renderFields l depth rest

end

def render (l : Layout) (v : Json) : String :=
  renderAt l 0 v

end Json

end CognitiveLoad
