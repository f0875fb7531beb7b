import CognitiveLoad.Text.Digit

/-!
Binary floating-point numbers with 53 significant bits, and how they are read: a decimal stands for
the nearest of them, and one halfway between two for the one whose last bit is zero.
-/

namespace CognitiveLoad

/-- A binary floating-point number: `finite negative m e` is `m · 2^e`, with a sign. -/
inductive Binary where
  | nan
  | infinite (negative : Bool)
  | finite (negative : Bool) (mantissa : Nat) (exponent : Int)
  deriving DecidableEq, Repr

namespace Binary

/-- The integer part of `m · 2^e`. -/
def magnitude (m : Nat) (e : Int) : Nat :=
  match e with
  | .ofNat k => m <<< k
  | .negSucc k => m >>> (k + 1)

/-! ## The nearest number to a fraction -/

/-- The integer nearest to `n / d`; a half goes to the even one. -/
def roundDiv (n d : Nat) : Nat :=
  let q := n / d
  let r := n % d
  if 2 * r < d || (2 * r == d && q % 2 == 0) then q else q + 1

/-- The fraction `n / d` in units of `2^e`. -/
def inUnits (n d : Nat) (e : Int) : Nat × Nat :=
  match e with
  | .ofNat k => (n, d <<< k)
  | .negSucc k => (n <<< (k + 1), d)

/-- The exponent of the last bit of the smallest numbers. -/
def leastExponent : Int := -1074

/-- The exponent of the last bit of the greatest numbers. -/
def greatestExponent : Int := 971

/-- The exponent of the last of the 53 bits that `n / d` begins with. -/
def lastBit (n d : Nat) : Int :=
  let e := (n.log2 : Int) - d.log2 - 52
  let (a, b) := inUnits n d e
  let e := if a / b < 1 <<< 52 then e - 1 else e
  if e < leastExponent then leastExponent else e

/-- The number nearest to `n / d`, with a sign. -/
def nearest (negative : Bool) (n d : Nat) : Binary :=
  if n = 0 then finite negative 0 0
  else
    let e := lastBit n d
    let (a, b) := inUnits n d e
    let m := roundDiv a b
    if greatestExponent < e || (e == greatestExponent && 1 <<< 53 ≤ m) then infinite negative
    else finite negative m e

/-! ## Reading decimals -/

/-- The number nearest to the given digits times `10^e`. Far outside the range of all numbers the
power is not worked out. -/
def ofDecimal (negative : Bool) (digits : List Nat) (e : Int) : Binary :=
  let n := Text.decimalValue digits
  let size : Int := (digits.dropWhile (· == 0)).length
  if n = 0 || size + e < -400 then finite negative 0 0
  else if 400 < size + e then infinite negative
  else
    match e with
    | .ofNat k => nearest negative (n * Nat.pow 10 k) 1
    | .negSucc k => nearest negative n (Nat.pow 10 (k + 1))

/-- Takes away single underscores between digits; others are not allowed. -/
def withoutUnderscores? (afterDigit : Bool) : List Char → Option (List Char)
  | [] => some []
  | '_' :: c :: rest =>
    if afterDigit && Text.isDigit c then (withoutUnderscores? true rest).map (c :: ·) else none
  | c :: rest =>
    if c = '_' then none else (withoutUnderscores? (Text.isDigit c) rest).map (c :: ·)

/-- The digits at the beginning of a text, and what follows them. -/
def digitsOf (cs : List Char) : List Nat × List Char :=
  ((cs.takeWhile Text.isDigit).filterMap Text.digit?, cs.dropWhile Text.isDigit)

/-- A sign at the beginning of a text: whether it is a minus, and what follows it. -/
def signOf : List Char → Bool × List Char
  | '-' :: cs => (true, cs)
  | '+' :: cs => (false, cs)
  | cs => (false, cs)

/-- The exponent at the end of a decimal. -/
def exponent? : List Char → Option Int
  | [] => some 0
  | c :: cs =>
    if c = 'e' || c = 'E' then
      let (negative, cs) := signOf cs
      match digitsOf cs with
      | ([], _) => none
      | (ds, []) => some (if negative then -(Text.decimalValue ds : Int) else Text.decimalValue ds)
      | _ => none
    else none

/-- Reads a decimal without a sign: digits, a fraction, an exponent. -/
def unsigned? (negative : Bool) (cs : List Char) : Option Binary :=
  let (whole, rest) := digitsOf cs
  let (fraction, rest) :=
    match rest with
    | '.' :: rest => digitsOf rest
    | rest => ([], rest)
  if whole.isEmpty && fraction.isEmpty then none
  else (exponent? rest).map fun e => ofDecimal negative (whole ++ fraction) (e - fraction.length)

/-- Reads a number: blanks around it, one optional sign, then a decimal or the name of a number that
is not finite. -/
def read? (s : String) : Option Binary := do
  let cs := Text.dropEndWhile Text.isNumberBlank (s.toList.dropWhile Text.isNumberBlank)
  let (negative, cs) := signOf (← withoutUnderscores? false cs)
  let word := String.ofList (cs.map Char.toLower)
  if word = "inf" || word = "infinity" then return infinite negative
  else if word = "nan" then return nan
  else unsigned? negative cs

end Binary

end CognitiveLoad
