import CognitiveLoad.Text.Basic

/-!
Decimal digits of every script, and integers written with them.
-/

namespace CognitiveLoad.Text

/-- The zero of each script with decimal digits; its nine successors are the other digits. -/
def digitZeros : List Nat := [
  0x30, 0x660, 0x6F0, 0x7C0, 0x966, 0x9E6, 0xA66, 0xAE6, 0xB66, 0xBE6, 0xC66, 0xCE6, 0xD66,
  0xDE6, 0xE50, 0xED0, 0xF20, 0x1040, 0x1090, 0x17E0, 0x1810, 0x1946, 0x19D0, 0x1A80, 0x1A90,
  0x1B50, 0x1BB0, 0x1C40, 0x1C50, 0xA620, 0xA8D0, 0xA900, 0xA9D0, 0xA9F0, 0xAA50, 0xABF0, 0xFF10,
  0x104A0, 0x10D30, 0x11066, 0x110F0, 0x11136, 0x111D0, 0x112F0, 0x11450, 0x114D0, 0x11650,
  0x116C0, 0x11730, 0x118E0, 0x11950, 0x11C50, 0x11D50, 0x11DA0, 0x16A60, 0x16AC0, 0x16B50,
  0x1D7CE, 0x1D7D8, 0x1D7E2, 0x1D7EC, 0x1D7F6, 0x1E140, 0x1E2F0, 0x1E950, 0x1FBF0]

/-- The value of a decimal digit. -/
def digit? (c : Char) : Option Nat :=
  (digitZeros.find? fun z => z ≤ c.toNat && c.toNat ≤ z + 9).map (c.toNat - ·)

def isDigit (c : Char) : Bool :=
  (digit? c).isSome

/-- Reads digits that may have single underscores between them, after a first digit. -/
def moreDigits? : List Char → Option (List Nat)
  | [] => some []
  | '_' :: c :: rest => do
    let d ← digit? c
    let ds ← moreDigits? rest
    return d :: ds
  | c :: rest => do
    let d ← digit? c
    let ds ← moreDigits? rest
    return d :: ds

/-- Reads one or more digits that may have single underscores between them. -/
def digits? : List Char → Option (List Nat)
  | [] => none
  | c :: rest => do
    let d ← digit? c
    let ds ← moreDigits? rest
    return d :: ds

/-- More digits than this, leading zeros included, are not read as an integer. -/
def maxDigits : Nat := 4300

def decimalValue (ds : List Nat) : Nat :=
  ds.foldl (fun n d => 10 * n + d) 0

def natural? (cs : List Char) : Option Nat := do
  let ds ← digits? cs
  if ds.length ≤ maxDigits then return decimalValue ds else none

/-- The blanks allowed around an integer: all but the four information separators. -/
def isNumberBlank (c : Char) : Bool :=
  isBlank c && !(0x1C ≤ c.toNat && c.toNat ≤ 0x1F)

/-- Reads an integer: blanks around it, one optional sign, then digits. -/
def integer? (s : String) : Option Int :=
  match dropEndWhile isNumberBlank (s.toList.dropWhile isNumberBlank) with
  | '-' :: cs => (natural? cs).map fun n => -(n : Int)
  | '+' :: cs => (natural? cs).map fun n => (n : Int)
  | cs => (natural? cs).map fun n => (n : Int)

end CognitiveLoad.Text
