import CognitiveLoad.Text.Basic

/-!
Reading UTF-8. Both readers look at the head of the bytes in the same way: `scan` finds either a
whole character or the longest run of bytes that begins like one and then goes wrong. The lenient
reader writes one replacement character for such a run, the strict reader reports it.
-/

namespace CognitiveLoad.Text.Utf8

/-- Why no character stands at some place. -/
inductive Fault where
  | badStart
  | badContinuation
  | cutShort
  deriving DecidableEq, Repr

/-- What stands at the head of the bytes, and how many bytes it takes. -/
inductive Head where
  | char (c : Char) (width : Nat)
  | fault (f : Fault) (width : Nat)
  deriving DecidableEq, Repr

/-- The plan a first byte sets for the rest of its character: the bits it holds itself, the number
of bytes that follow, and the range of the next one. The narrowed ranges rule out long spellings,
surrogates and values past the last code point. -/
structure Plan where
  bits : Nat
  more : Nat
  lo : Nat
  hi : Nat
  deriving DecidableEq, Repr

def plan? (b : Nat) : Option Plan :=
  if b < 0x80 then some ⟨b, 0, 0, 0⟩
  else if b < 0xC2 then none
  else if b < 0xE0 then some ⟨b - 0xC0, 1, 0x80, 0xBF⟩
  else if b = 0xE0 then some ⟨0, 2, 0xA0, 0xBF⟩
  else if b = 0xED then some ⟨0xD, 2, 0x80, 0x9F⟩
  else if b < 0xF0 then some ⟨b - 0xE0, 2, 0x80, 0xBF⟩
  else if b = 0xF0 then some ⟨0, 3, 0x90, 0xBF⟩
  else if b < 0xF4 then some ⟨b - 0xF0, 3, 0x80, 0xBF⟩
  else if b = 0xF4 then some ⟨4, 3, 0x80, 0x8F⟩
  else none

/-- Reads the `more` bytes that are left of a character of which `seen` bytes gave `bits`. Only
the next byte has a range of its own. -/
def scanRest (bits seen lo hi : Nat) : (more : Nat) → List UInt8 → Head
  | 0, _ => .char (Char.ofNat bits) seen
  | _ + 1, [] => .fault .cutShort seen
  | more + 1, b :: rest =>
    if lo ≤ b.toNat ∧ b.toNat ≤ hi then
      scanRest (64 * bits + (b.toNat - 0x80)) (seen + 1) 0x80 0xBF more rest
    else .fault .badContinuation seen

/-- What stands at the head of the bytes `b :: rest`. -/
def scan (b : UInt8) (rest : List UInt8) : Head :=
  match plan? b.toNat with
  | none => .fault .badStart 1
  | some p => scanRest p.bits 1 p.lo p.hi p.more rest

/-- Written in place of bytes that make no character. -/
def replacement : Char := '\uFFFD'

def lenientWithin : (fuel : Nat) → List UInt8 → List Char
  | 0, _ => []
  | _ + 1, [] => []
  | fuel + 1, b :: rest =>
    match scan b rest with
    | .char c width => c :: lenientWithin fuel (rest.drop (width - 1))
    | .fault _ width => replacement :: lenientWithin fuel (rest.drop (width - 1))

/-- Reads any bytes, with one replacement character for each run that makes no character. Every
step takes at least one byte, so the number of bytes bounds the number of steps. -/
def decodeLenient (bs : List UInt8) : String :=
  String.ofList (lenientWithin bs.length bs)

/-- The first place at which the strict reader stops. -/
structure Error where
  fault : Fault
  first : UInt8
  position : Nat
  width : Nat
  deriving DecidableEq, Repr

def Fault.reason : Fault → String
  | .badStart => "invalid start byte"
  | .badContinuation => "invalid continuation byte"
  | .cutShort => "unexpected end of data"

def Error.message (e : Error) : String :=
  let place :=
    if e.width ≤ 1 then
      s!"byte 0x{String.ofList (hexDigits 2 e.first.toNat)} in position {e.position}"
    else s!"bytes in position {e.position}-{e.position + e.width - 1}"
  s!"'utf-8' codec can't decode {place}: {e.fault.reason}"

def strictWithin : (fuel position : Nat) → List UInt8 → Except Error (List Char)
  | 0, _, _ => .ok []
  | _ + 1, _, [] => .ok []
  | fuel + 1, position, b :: rest =>
    match scan b rest with
    | .char c width =>
      match strictWithin fuel (position + width) (rest.drop (width - 1)) with
      | .ok cs => .ok (c :: cs)
      | .error e => .error e
    | .fault f width => .error ⟨f, b, position, width⟩

/-- Reads valid UTF-8 and refuses anything else. -/
def decode (bs : List UInt8) : Except Error (List Char) :=
  strictWithin bs.length 0 bs

end CognitiveLoad.Text.Utf8
