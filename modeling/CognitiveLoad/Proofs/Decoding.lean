import Mathlib.Data.List.Forall2
import CognitiveLoad.Json

/-!
Reading JSON texts. A text is first cut into tokens by a machine that looks at one character at a
time, then the tokens are put together to a document. Numbers are integers, and the three literal
names are not read.

* `scan_escape`: what is escaped is read back, past the basic plane as a pair of surrogates;
* `spells_renderAt`: in every layout a document spells its tokens;
* `value?_tokens`: the tokens of a document make up the document;
* `decode_render`: so a written document is read back.
-/

namespace CognitiveLoad.Json

open Text (hexDigits)

/-! ## Tokens -/

inductive Token where
  | openList
  | closeList
  | openObject
  | closeObject
  | comma
  | colon
  | int (n : Int)
  | text (s : String)
  deriving DecidableEq, Repr

/-- The blanks that may stand between tokens. -/
def isGap (c : Char) : Bool :=
  c = ' ' || c = '\t' || c = '\n' || c = '\r'

/-- The tokens of a single character. -/
def sign? (c : Char) : Option Token :=
  if c = '[' then some .openList
  else if c = ']' then some .closeList
  else if c = '\x7b' then some .openObject
  else if c = '\x7d' then some .closeObject
  else if c = ',' then some .comma
  else if c = ':' then some .colon
  else none

/-- The integer with these decimal digits; only zero begins with a zero. -/
def numeral? (negative : Bool) (digits : List Char) : Option Int :=
  if digits = [] || (digits.head? = some '0' && digits ≠ ['0']) then none
  else
    let n : Int := Nat.ofDigitChars 10 digits 0
    some (if negative then -n else n)

/-- The characters that escape another one, and its code. -/
def escapes : List (Char × Nat) :=
  [('"', 0x22), ('\\', 0x5C), ('/', 0x2F), ('b', 0x08), ('f', 0x0C), ('n', 0x0A), ('r', 0x0D),
    ('t', 0x09)]

def escaped? (c : Char) : Option Nat :=
  escapes.lookup c

def hexDigit? (c : Char) : Option Nat :=
  if c.isDigit then some (c.toNat - '0'.toNat)
  else if 'a' ≤ c ∧ c ≤ 'f' then some (c.toNat - 'a'.toNat + 10)
  else if 'A' ≤ c ∧ c ≤ 'F' then some (c.toNat - 'A'.toNat + 10)
  else none

def isHigh (u : Nat) : Bool :=
  0xD800 ≤ u && u < 0xDC00

def isLow (u : Nat) : Bool :=
  0xDC00 ≤ u && u < 0xE000

/-- The characters of a sequence of codes, in which a character past the basic plane is a pair of
surrogates. A surrogate alone is no character. -/
def joined? : List Nat → Option (List Char)
  | [] => some []
  | u :: rest =>
    if isHigh u then
      match rest with
      | [] => none
      | w :: rest =>
        if isLow w then
          (joined? rest).map (Char.ofNat (0x10000 + (u - 0xD800) * 0x400 + (w - 0xDC00)) :: ·)
        else none
    else if isLow u then none
    else (joined? rest).map (Char.ofNat u :: ·)

/-- Where a reader is: between tokens, in a number, or in a text, with what it has read of it. In an
escape by code, `later` hexadecimal digits follow the next one. -/
inductive Mode where
  | between
  | number (negative : Bool) (digits : List Char)
  | text (codes : List Nat)
  | escape (codes : List Nat)
  | code (codes : List Nat) (later value : Nat)
  deriving DecidableEq, Repr

/-- Reads a character: the tokens that are complete with it, and where the reader is then. -/
def Mode.step : Mode → Char → Option (List Token × Mode)
  | .between, c =>
    if isGap c then some ([], .between)
    else
      match sign? c with
      | some t => some ([t], .between)
      | none =>
        if c = '"' then some ([], .text [])
        else if c = '-' then some ([], .number true [])
        else if c.isDigit then some ([], .number false [c])
        else none
  | .number negative digits, c =>
    if c.isDigit then some ([], .number negative (digits ++ [c]))
    else
      match numeral? negative digits with
      | none => none
      | some n =>
        if isGap c then some ([.int n], .between)
        else (sign? c).map fun t => ([.int n, t], .between)
  | .text codes, c =>
    if c = '"' then (joined? codes).map fun cs => ([.text (String.ofList cs)], .between)
    else if c = '\\' then some ([], .escape codes)
    else if c.toNat < 0x20 then none
    else some ([], .text (codes ++ [c.toNat]))
  | .escape codes, c =>
    if c = 'u' then some ([], .code codes 3 0)
    else (escaped? c).map fun u => ([], .text (codes ++ [u]))
  | .code codes 0 value, c =>
    (hexDigit? c).map fun d => ([], .text (codes ++ [16 * value + d]))
  | .code codes (later + 1) value, c =>
    (hexDigit? c).map fun d => ([], .code codes later (16 * value + d))

/-- Puts tokens in front of those that are read later. -/
def emit (ts : List Token) (later : Option (List Token × Mode)) : Option (List Token × Mode) :=
  later.map fun p => (ts ++ p.1, p.2)

@[simp] theorem emit_nil (later : Option (List Token × Mode)) : emit [] later = later := by
  cases later <;> rfl

theorem emit_emit (ts us : List Token) (later : Option (List Token × Mode)) :
    emit ts (emit us later) = emit (ts ++ us) later := by
  cases later <;> simp [emit]

def Mode.scan (m : Mode) : List Char → Option (List Token × Mode)
  | [] => some ([], m)
  | c :: rest =>
    match m.step c with
    | none => none
    | some (ts, next) => emit ts (next.scan rest)

theorem Mode.scan_cons {m next : Mode} {c : Char} {ts : List Token} (h : m.step c = some (ts, next))
    (rest : List Char) : m.scan (c :: rest) = emit ts (next.scan rest) := by
  rw [scan, h]

/-! ## Documents -/

mutual

/-- The document at the head of the tokens, and the tokens behind it. -/
def value? : (fuel : Nat) → List Token → Option (Json × List Token)
  | 0, _ => none
  | fuel + 1, ts =>
    match ts with
    | .int n :: rest => some (.int n, rest)
    | .text s :: rest => some (.text s, rest)
    | .openList :: rest =>
      if rest.head? = some .closeList then some (.list [], rest.tail)
      else (items? fuel rest).map fun p => (.list p.1, p.2)
    | .openObject :: rest =>
      if rest.head? = some .closeObject then some (.object [], rest.tail)
      else (fields? fuel rest).map fun p => (.object p.1, p.2)
    | _ => none

/-- The items up to the end of a list, of which there is at least one. -/
def items? : (fuel : Nat) → List Token → Option (List Json × List Token)
  | 0, _ => none
  | fuel + 1, ts =>
    match value? fuel ts with
    | some (v, .closeList :: rest) => some ([v], rest)
    | some (v, .comma :: rest) => (items? fuel rest).map fun p => (v :: p.1, p.2)
    | _ => none

/-- The fields up to the end of an object, of which there is at least one. -/
def fields? : (fuel : Nat) → List Token → Option (List (String × Json) × List Token)
  | 0, _ => none
  | fuel + 1, ts =>
    match ts with
    | .text k :: .colon :: ts =>
      match value? fuel ts with
      | some (v, .closeObject :: rest) => some ([(k, v)], rest)
      | some (v, .comma :: rest) => (fields? fuel rest).map fun p => ((k, v) :: p.1, p.2)
      | _ => none
    | _ => none

end

/-- The document that a text holds besides blanks. A blank is put behind the text, to close a number
at its end. Every step takes a token, so their number bounds the steps. -/
def decode (s : String) : Option Json :=
  match Mode.between.scan (s.toList ++ ['\n']) with
  | some (ts, .between) =>
    match value? ts.length ts with
    | some (v, []) => some v
    | _ => none
  | _ => none

/-! ## Blanks and signs -/

theorem step_gap {c : Char} (h : isGap c = true) : Mode.between.step c = some ([], .between) := by
  rw [Mode.step, if_pos h]

theorem scan_gaps {g : List Char} (h : ∀ c ∈ g, isGap c = true) (rest : List Char) :
    Mode.between.scan (g ++ rest) = Mode.between.scan rest := by
  induction g with
  | nil => rfl
  | cons c g ih =>
    rw [List.cons_append, Mode.scan_cons (step_gap (h c (List.mem_cons_self ..))), emit_nil]
    exact ih fun c' hc' => h c' (List.mem_cons_of_mem _ hc')

theorem isGap_of_sign {c : Char} {t : Token} (h : sign? c = some t) : isGap c = false := by
  rw [Bool.eq_false_iff]
  intro hgap
  simp only [isGap, Bool.or_eq_true, decide_eq_true_eq] at hgap
  rcases hgap with ((rfl | rfl) | rfl) | rfl <;> cases h

theorem scan_sign {c : Char} {t : Token} (h : sign? c = some t) (rest : List Char) :
    Mode.between.scan (c :: rest) = emit [t] (Mode.between.scan rest) := by
  apply Mode.scan_cons
  rw [Mode.step, isGap_of_sign h, h]
  rfl

/-- The characters that end a number. -/
def stops (c : Char) : Bool :=
  isGap c || (sign? c).isSome

/-- A text spells tokens if they are read from it, whatever comes behind. What comes behind may not
go on with a number. -/
def Spells (s : List Char) (ts : List Token) : Prop :=
  ∀ c rest, stops c = true →
    Mode.between.scan (s ++ c :: rest) = emit ts (Mode.between.scan (c :: rest))

/-- Blanks behind a text do not matter. -/
theorem Spells.gaps {s g : List Char} {ts : List Token} (h : Spells s ts)
    (hg : ∀ c ∈ g, isGap c = true) {c : Char} (hc : stops c = true) (rest : List Char) :
    Mode.between.scan (s ++ (g ++ c :: rest)) = emit ts (Mode.between.scan (c :: rest)) := by
  cases g with
  | nil => exact h c rest hc
  | cons d g =>
    have hd : stops d = true := by simp [stops, hg d (List.mem_cons_self ..)]
    rw [List.cons_append, h d _ hd, ← List.cons_append, scan_gaps hg]

/-! ## Integers -/

theorem not_stops_of_isDigit {c : Char} (h : c.isDigit = true) : stops c = false := by
  have hne {d : Char} (hd : d.isDigit = false) : c ≠ d := by
    rintro rfl
    rw [h] at hd
    cases hd
  have hgap : isGap c = false := by
    simp only [isGap, decide_eq_false (hne (d := ' ') rfl), decide_eq_false (hne (d := '\t') rfl),
      decide_eq_false (hne (d := '\n') rfl), decide_eq_false (hne (d := '\r') rfl), Bool.or_false]
  have hsign : sign? c = none := by
    simp only [sign?, if_neg (hne (d := '[') rfl), if_neg (hne (d := ']') rfl),
      if_neg (hne (d := '\x7b') rfl), if_neg (hne (d := '\x7d') rfl), if_neg (hne (d := ',') rfl),
      if_neg (hne (d := ':') rfl)]
  rw [stops, hgap, hsign]
  rfl

theorem step_digit {c : Char} (h : c.isDigit = true) :
    Mode.between.step c = some ([], .number false [c]) := by
  have hstops := not_stops_of_isDigit h
  simp only [stops, Bool.or_eq_false_iff] at hstops
  have hsign : sign? c = none := by simpa using hstops.2
  have hne : c ≠ '"' ∧ c ≠ '-' := by
    constructor <;> rintro rfl <;> cases h
  rw [Mode.step, hstops.1, hsign, h]
  simp only [Bool.false_eq_true, if_false, if_neg hne.1, if_neg hne.2, if_true]

theorem scan_digits {ds : List Char} (h : ∀ c ∈ ds, c.isDigit = true) (negative : Bool)
    (digits rest : List Char) :
    (Mode.number negative digits).scan (ds ++ rest) =
      (Mode.number negative (digits ++ ds)).scan rest := by
  induction ds generalizing digits with
  | nil => simp
  | cons c ds ih =>
    have hstep : (Mode.number negative digits).step c =
        some ([], .number negative (digits ++ [c])) := by
      rw [Mode.step, if_pos (h c (List.mem_cons_self ..))]
    rw [List.cons_append, Mode.scan_cons hstep, emit_nil,
      ih fun c' hc' => h c' (List.mem_cons_of_mem _ hc'), List.append_assoc]
    rfl

/-- A number is complete with the character behind it. -/
theorem scan_number {negative : Bool} {digits : List Char} {n : Int}
    (h : numeral? negative digits = some n) {c : Char} (hc : stops c = true) (rest : List Char) :
    (Mode.number negative digits).scan (c :: rest) =
      emit [.int n] (Mode.between.scan (c :: rest)) := by
  have hdigit : c.isDigit = false := by
    rw [Bool.eq_false_iff]
    intro hd
    rw [not_stops_of_isDigit hd] at hc
    cases hc
  by_cases hgap : isGap c = true
  · have hnumber : (Mode.number negative digits).step c = some ([.int n], .between) := by
      rw [Mode.step, hdigit, h, hgap]
      rfl
    rw [Mode.scan_cons hnumber, Mode.scan_cons (step_gap hgap), emit_nil]
  · obtain ⟨t, ht⟩ : ∃ t, sign? c = some t := by
      simpa [stops, hgap, Option.isSome_iff_exists] using hc
    have hnumber : (Mode.number negative digits).step c = some ([.int n, t], .between) := by
      rw [Mode.step, hdigit, h, isGap_of_sign ht, ht]
      rfl
    rw [Mode.scan_cons hnumber, scan_sign ht, emit_emit]
    rfl

theorem head?_toDigits {n : Nat} (h : n ≠ 0) : (Nat.toDigits 10 n).head? ≠ some '0' := by
  induction n using Nat.strongRecOn with
  | ind n ih =>
    by_cases hn : n < 10
    · rw [Nat.toDigits_of_lt_base hn]
      have hdigit : ∀ m < 10, m ≠ 0 → [Nat.digitChar m].head? ≠ some '0' := by decide
      exact hdigit n hn h
    · rw [Nat.toDigits_of_base_le (by decide) (by omega),
        List.head?_append_of_ne_nil _ Nat.toDigits_ne_nil]
      exact ih (n / 10) (by omega) (by omega)

theorem numeral?_toDigits (negative : Bool) (n : Nat) :
    numeral? negative (Nat.toDigits 10 n) = some (if negative then -(n : Int) else n) := by
  have hplain : ¬ ((Nat.toDigits 10 n).head? = some '0' ∧ Nat.toDigits 10 n ≠ ['0']) := by
    rintro ⟨hhead, hne⟩
    by_cases hn : n = 0
    · exact hne (by rw [hn]; rfl)
    · exact head?_toDigits hn hhead
  simp [numeral?, Nat.toDigits_ne_nil, hplain, Nat.ofDigitChars_ten_toDigits]

/-- An integer is written as its decimal digits, with a minus sign if it is negative. -/
theorem toList_int (n : Int) :
    (toString n).toList = (if n < 0 then ['-'] else []) ++ Nat.toDigits 10 n.natAbs := by
  cases n with
  | ofNat m =>
    have hsign : ¬ Int.ofNat m < 0 := Int.not_lt.mpr (Int.natCast_nonneg m)
    rw [if_neg hsign]
    exact Nat.toList_repr
  | negSucc m =>
    rw [if_pos (Int.negSucc_lt_zero m)]
    show ("-" ++ (m + 1).repr).toList = _
    rw [String.toList_append, Nat.toList_repr]
    rfl

theorem isDigit_digits (m : Nat) : ∀ c ∈ Nat.toDigits 10 m, c.isDigit = true :=
  fun _ hc => Nat.isDigit_of_mem_toDigits (by decide) (by decide) hc

theorem spells_int (n : Int) : Spells (toString n).toList [.int n] := by
  intro c rest hc
  rw [toList_int]
  by_cases hn : n < 0
  · have hvalue : numeral? true (Nat.toDigits 10 n.natAbs) = some n := by
      rw [numeral?_toDigits, if_pos rfl]
      congr 1
      omega
    have hstep : Mode.between.step '-' = some ([], .number true []) := rfl
    rw [if_pos hn, List.singleton_append, List.cons_append, Mode.scan_cons hstep, emit_nil,
      scan_digits (isDigit_digits _)]
    exact scan_number hvalue hc rest
  · have hvalue : numeral? false (Nat.toDigits 10 n.natAbs) = some n := by
      rw [numeral?_toDigits, if_neg Bool.false_ne_true]
      congr 1
      omega
    have hall := isDigit_digits n.natAbs
    obtain ⟨d, ds, hds⟩ :=
      List.exists_cons_of_ne_nil (Nat.toDigits_ne_nil (n := n.natAbs) (b := 10))
    rw [hds] at hall hvalue
    rw [if_neg hn, List.nil_append, hds, List.cons_append,
      Mode.scan_cons (step_digit (hall d (List.mem_cons_self ..))), emit_nil,
      scan_digits fun c' hc' => hall c' (List.mem_cons_of_mem _ hc')]
    exact scan_number hvalue hc rest

/-! ## Texts -/

/-- The codes that a character is escaped by: its own, or a pair of surrogates. -/
def codesOf (c : Char) : List Nat :=
  if c.toNat < 0x10000 then [c.toNat]
  else [0xD800 + (c.toNat - 0x10000) / 0x400, 0xDC00 + (c.toNat - 0x10000) % 0x400]

theorem toNat_valid (c : Char) : c.toNat < 0xD800 ∨ 0xDFFF < c.toNat ∧ c.toNat < 0x110000 :=
  c.valid

theorem joined?_codesOf (c : Char) (codes : List Nat) :
    joined? (codesOf c ++ codes) = (joined? codes).map (c :: ·) := by
  have hvalid := toNat_valid c
  by_cases hc : c.toNat < 0x10000
  · have hhigh : isHigh c.toNat = false := by simp [isHigh]; omega
    have hlow : isLow c.toNat = false := by simp [isLow]; omega
    rw [codesOf, if_pos hc, List.singleton_append, joined?.eq_def]
    simp [hhigh, hlow, Char.ofNat_toNat]
  · have hhigh : isHigh (0xD800 + (c.toNat - 0x10000) / 0x400) = true := by simp [isHigh]; omega
    have hlow : isLow (0xDC00 + (c.toNat - 0x10000) % 0x400) = true := by simp [isLow]; omega
    have hpair : 0x10000 + (0xD800 + (c.toNat - 0x10000) / 0x400 - 0xD800) * 0x400 +
        (0xDC00 + (c.toNat - 0x10000) % 0x400 - 0xDC00) = c.toNat := by omega
    simp only [codesOf, hc, if_false, List.cons_append, List.nil_append, joined?, hhigh, hlow,
      if_true, hpair, Char.ofNat_toNat]

theorem joined?_flatMap (cs : List Char) : joined? (cs.flatMap codesOf) = some cs := by
  induction cs with
  | nil => rfl
  | cons c cs ih => rw [List.flatMap_cons, joined?_codesOf, ih, Option.map_some]

theorem hexDigit?_digitChar : ∀ d < 16, hexDigit? (Nat.digitChar d) = some d := by
  decide

/-- Four hexadecimal digits give one code. -/
theorem scan_escapeUnit {n : Nat} (h : n < 0x10000) (codes : List Nat) (rest : List Char) :
    (Mode.text codes).scan (escapeUnit n ++ rest) = (Mode.text (codes ++ [n])).scan rest := by
  have hdigits : hexDigits 4 n = [Nat.digitChar (n / 16 / 16 / 16 % 16),
      Nat.digitChar (n / 16 / 16 % 16), Nat.digitChar (n / 16 % 16), Nat.digitChar (n % 16)] := rfl
  have hstep (later value d : Nat) (hd : d < 16) : (Mode.code codes (later + 1) value).step
      (Nat.digitChar d) = some ([], .code codes later (16 * value + d)) := by
    rw [Mode.step, hexDigit?_digitChar d hd]
    rfl
  have hlast (value d : Nat) (hd : d < 16) : (Mode.code codes 0 value).step (Nat.digitChar d) =
      some ([], .text (codes ++ [16 * value + d])) := by
    rw [Mode.step, hexDigit?_digitChar d hd]
    rfl
  have hbackslash : (Mode.text codes).step '\\' = some ([], .escape codes) := rfl
  have hcode : (Mode.escape codes).step 'u' = some ([], .code codes 3 0) := rfl
  have hvalue : 16 * (16 * (16 * (16 * 0 + n / 16 / 16 / 16 % 16) + n / 16 / 16 % 16) +
      n / 16 % 16) + n % 16 = n := by omega
  rw [escapeUnit, hdigits]
  simp only [List.cons_append, List.nil_append]
  rw [Mode.scan_cons hbackslash, Mode.scan_cons hcode, Mode.scan_cons (hstep 2 _ _ (by omega)),
    Mode.scan_cons (hstep 1 _ _ (by omega)), Mode.scan_cons (hstep 0 _ _ (by omega)),
    Mode.scan_cons (hlast _ _ (by omega)), hvalue]
  simp only [emit_nil]

/-- A character that is escaped by another one. -/
theorem scan_escaped {c : Char} {n : Nat} (h : escaped? c = some n) (codes : List Nat)
    (rest : List Char) :
    (Mode.text codes).scan ('\\' :: c :: rest) = (Mode.text (codes ++ [n])).scan rest := by
  have hbackslash : (Mode.text codes).step '\\' = some ([], .escape codes) := rfl
  have hc : c ≠ 'u' := by
    rintro rfl
    cases h
  have hstep : (Mode.escape codes).step c = some ([], .text (codes ++ [n])) := by
    rw [Mode.step, if_neg hc, h]
    rfl
  rw [Mode.scan_cons hbackslash, Mode.scan_cons hstep, emit_nil, emit_nil]

/-- The ways in which a character is written. -/
inductive WrittenAs (c : Char) : List Char → Prop
  | short (d : Char) (h : escaped? d = some c.toNat) : WrittenAs c ['\\', d]
  | plain (hquote : c ≠ '"') (hbackslash : c ≠ '\\') (hlow : 0x20 ≤ c.toNat)
      (hhigh : c.toNat < 0x7F) : WrittenAs c [c]
  | unit (h : c.toNat < 0x10000) : WrittenAs c (escapeUnit c.toNat)
  | pair (h : 0x10000 ≤ c.toNat) : WrittenAs c
      (escapeUnit (0xD800 + (c.toNat - 0x10000) / 0x400) ++
        escapeUnit (0xDC00 + (c.toNat - 0x10000) % 0x400))

theorem writtenAs_escapeChar (c : Char) : WrittenAs c (escapeChar c) := by
  unfold escapeChar
  refine iteInduction (fun h => .short '"' (by rw [h]; rfl)) fun hquote => ?_
  refine iteInduction (fun h => .short '\\' (by rw [h]; rfl)) fun hbackslash => ?_
  refine iteInduction (fun h => .short 'n' (by rw [h]; rfl)) fun _ => ?_
  refine iteInduction (fun h => .short 'r' (by rw [h]; rfl)) fun _ => ?_
  refine iteInduction (fun h => .short 't' (by rw [h]; rfl)) fun _ => ?_
  refine iteInduction (fun h => .short 'f' (by rw [h]; rfl)) fun _ => ?_
  refine iteInduction (fun h => .short 'b' (by rw [h]; rfl)) fun _ => ?_
  refine iteInduction (fun h => .unit (by omega)) fun hlow => ?_
  refine iteInduction (fun h => .plain hquote hbackslash (by omega) h) fun _ => ?_
  exact iteInduction (fun h => .unit h) fun h => .pair (by omega)

/-- Short escapes are ASCII, and so is what they stand for. -/
theorem lt_of_escaped {d : Char} {n : Nat} (h : escaped? d = some n) : d.toNat < 128 ∧ n < 128 := by
  have hall : ∀ p ∈ escapes, p.1.toNat < 128 ∧ p.2 < 128 := by decide
  obtain ⟨before, after, heq, -⟩ := List.lookup_eq_some_iff.mp h
  exact hall (d, n) (by simp [heq])

/-- What is escaped is read back. -/
theorem scan_escape (c : Char) (codes : List Nat) (rest : List Char) :
    (Mode.text codes).scan (escapeChar c ++ rest) = (Mode.text (codes ++ codesOf c)).scan rest := by
  have hvalid := toNat_valid c
  have hbasic (h : c.toNat < 0x10000) : codesOf c = [c.toNat] := if_pos h
  have hwritten := writtenAs_escapeChar c
  generalize escapeChar c = written at hwritten ⊢
  cases hwritten with
  | short d h =>
    have hc := (lt_of_escaped h).2
    rw [hbasic (by omega)]
    exact scan_escaped h codes rest
  | plain hquote hbackslash hlow hhigh =>
    have hstep : (Mode.text codes).step c = some ([], .text (codes ++ [c.toNat])) := by
      rw [Mode.step, if_neg hquote, if_neg hbackslash, if_neg (by omega)]
    rw [hbasic (by omega), List.singleton_append, Mode.scan_cons hstep, emit_nil]
  | unit h =>
    rw [hbasic h]
    exact scan_escapeUnit h codes rest
  | pair h =>
    rw [codesOf, if_neg (by omega), List.append_assoc, scan_escapeUnit (by omega),
      scan_escapeUnit (by omega), List.append_assoc]
    rfl

theorem scan_escapes (cs : List Char) (codes : List Nat) (rest : List Char) :
    (Mode.text codes).scan (cs.flatMap escapeChar ++ rest) =
      (Mode.text (codes ++ cs.flatMap codesOf)).scan rest := by
  induction cs generalizing codes with
  | nil => simp
  | cons c cs ih =>
    rw [List.flatMap_cons, List.flatMap_cons, List.append_assoc, scan_escape, ih,
      List.append_assoc]

theorem scan_quote (s : String) (rest : List Char) :
    Mode.between.scan ((quote s).toList ++ rest) = emit [.text s] (Mode.between.scan rest) := by
  have hopen : Mode.between.step '"' = some ([], .text []) := rfl
  have hclose : (Mode.text (s.toList.flatMap codesOf)).step '"' = some ([.text s], .between) := by
    rw [Mode.step, if_pos rfl, joined?_flatMap, Option.map_some, String.ofList_toList]
  rw [quote, String.toList_ofList, List.append_assoc, List.cons_append, Mode.scan_cons hopen,
    emit_nil, scan_escapes, List.nil_append, List.singleton_append, Mode.scan_cons hclose]

/-- There are more ways to write a text: a solidus may be escaped, hexadecimal digits have two
cases, and blanks of four kinds stand between tokens. -/
example : Mode.between.scan "[ -1\t,\r\n \"\\u00E9\\/\\ud83d\\uDE00\" ]".toList =
    some ([.openList, .int (-1), .comma, .text "é/😀", .closeList], .between) := by
  decide +kernel

/-! ## Written documents -/

theorem induct {motive : Json → Prop} (int : ∀ n, motive (int n)) (text : ∀ s, motive (text s))
    (list : ∀ items, (∀ v ∈ items, motive v) → motive (list items))
    (object : ∀ fields, (∀ k v, (k, v) ∈ fields → motive v) → motive (object fields)) :
    ∀ v, motive v
  | .int n => int n
  | .text s => text s
  | .list items => list items fun v _ => induct int text list object v
  | .object fields => object fields fun k v h =>
    have : sizeOf v < sizeOf fields := by
      have hlt := List.sizeOf_lt_of_mem h
      rw [Prod.mk.sizeOf_spec] at hlt
      omega
    induct int text list object v

mutual

/-- The tokens of a document. -/
def tokens : Json → List Token
  | .int n => [.int n]
  | .text s => [.text s]
  | .list items => .openList :: [.comma].intercalate (itemTokens items) ++ [.closeList]
  | .object fields => .openObject :: [.comma].intercalate (fieldTokens fields) ++ [.closeObject]

def itemTokens : List Json → List (List Token)
  | [] => []
  | v :: rest => tokens v :: itemTokens rest

def fieldTokens : List (String × Json) → List (List Token)
  | [] => []
  | (k, v) :: rest => (.text k :: .colon :: tokens v) :: fieldTokens rest

end

theorem isGap_break (n : Nat) :
    ∀ c ∈ ("\n" ++ String.ofList (List.replicate n ' ')).toList, isGap c = true := by
  intro c hc
  rw [String.toList_append, List.mem_append] at hc
  rcases hc with hc | hc
  · rw [List.mem_singleton.mp hc]
    rfl
  · rw [String.toList_ofList] at hc
    rw [List.eq_of_mem_replicate hc]
    rfl

theorem Layout.isGap_opening (l : Layout) (depth : Nat) :
    ∀ c ∈ (l.opening depth).toList, isGap c = true := by
  cases l with
  | none => simp [opening]
  | some n => exact isGap_break _

theorem Layout.isGap_closing (l : Layout) (depth : Nat) :
    ∀ c ∈ (l.closing depth).toList, isGap c = true := by
  cases l with
  | none => simp [closing]
  | some n => exact isGap_break _

/-- Two items have a comma between them, and blanks behind it. -/
theorem Layout.between_eq (l : Layout) (depth : Nat) :
    ∃ g, (l.between depth).toList = ',' :: g ∧ ∀ c ∈ g, isGap c = true := by
  cases l with
  | none => exact ⟨[' '], by simp [between], by simp [isGap]⟩
  | some n =>
    refine ⟨(opening (some n) depth).toList, ?_, isGap_opening _ _⟩
    rw [between, String.toList_append]
    rfl

theorem spells_nil : Spells [] [] := by
  intro c rest _
  rw [emit_nil]
  rfl

/-- Items with commas between them spell their tokens with commas between them. -/
theorem spells_intercalate {g : List Char} (hg : ∀ c ∈ g, isGap c = true) {ss : List (List Char)}
    {tss : List (List Token)} (h : List.Forall₂ Spells ss tss) :
    Spells ((',' :: g).intercalate ss) ([.comma].intercalate tss) := by
  induction h with
  | nil => exact spells_nil
  | @cons s ts ss tss hs hrest ih =>
    cases hrest with
    | nil => simpa using hs
    | @cons s' ts' ss tss hs' hrest =>
      intro c rest hc
      rw [List.intercalate_cons_cons, List.intercalate_cons_cons, List.append_assoc,
        List.append_assoc, List.cons_append, hs ',' _ rfl, scan_sign (t := .comma) rfl,
        scan_gaps hg, ih c rest hc, emit_emit, emit_emit, List.append_assoc]

/-- What stands in brackets, in any layout. -/
theorem spells_enclose (l : Layout) (depth : Nat) (opener closer : Char) {opening closing : Token}
    (ho : sign? opener = some opening) (hc : sign? closer = some closing) {items : List String}
    {tss : List (List Token)} (h : List.Forall₂ (fun s ts => Spells s.toList ts) items tss) :
    Spells (enclose l depth (String.ofList [opener]) (String.ofList [closer]) items).toList
      (opening :: [.comma].intercalate tss ++ [closing]) := by
  have hstops : stops closer = true := by simp [stops, hc]
  intro c rest _
  cases h with
  | nil =>
    have htext : (enclose l depth (String.ofList [opener]) (String.ofList [closer]) []).toList =
        [opener, closer] := by
      simp [enclose]
    rw [htext, List.cons_append, List.singleton_append, scan_sign ho, scan_sign hc, emit_emit]
    rfl
  | @cons s ts ss tss hs hrest =>
    obtain ⟨g, hbetween, hg⟩ := l.between_eq depth
    have hitems : Spells ((l.between depth).intercalate (s :: ss)).toList
        ([.comma].intercalate (ts :: tss)) := by
      rw [String.toList_intercalate, hbetween]
      apply spells_intercalate hg
      rw [List.forall₂_map_left_iff]
      exact .cons hs hrest
    have htext : (enclose l depth (String.ofList [opener]) (String.ofList [closer])
        (s :: ss)).toList = opener :: ((l.opening depth).toList ++
          (((l.between depth).intercalate (s :: ss)).toList ++
            ((l.closing depth).toList ++ [closer]))) := by
      simp only [enclose, List.isEmpty_cons, Bool.false_eq_true, if_false, String.toList_append,
        String.toList_ofList, List.append_assoc, List.cons_append, List.nil_append]
    rw [htext, List.cons_append, scan_sign ho, List.append_assoc,
      scan_gaps (l.isGap_opening depth), List.append_assoc, List.append_assoc,
      List.singleton_append, hitems.gaps (l.isGap_closing depth) hstops, scan_sign hc, emit_emit,
      emit_emit]
    rfl

theorem forall₂_renderItems (l : Layout) (depth : Nat) {items : List Json}
    (h : ∀ v ∈ items, Spells (renderAt l depth v).toList (tokens v)) :
    List.Forall₂ (fun s ts => Spells s.toList ts) (renderItems l depth items)
      (itemTokens items) := by
  induction items with
  | nil => exact .nil
  | cons v rest ih =>
    rw [renderItems, itemTokens]
    exact .cons (h v (List.mem_cons_self ..)) (ih fun w hw => h w (List.mem_cons_of_mem _ hw))

theorem forall₂_renderFields (l : Layout) (depth : Nat) {fields : List (String × Json)}
    (h : ∀ k v, (k, v) ∈ fields → Spells (renderAt l depth v).toList (tokens v)) :
    List.Forall₂ (fun s ts => Spells s.toList ts) (renderFields l depth fields)
      (fieldTokens fields) := by
  induction fields with
  | nil => exact .nil
  | cons f rest ih =>
    obtain ⟨k, v⟩ := f
    rw [renderFields, fieldTokens]
    refine .cons ?_ (ih fun k v hf => h k v (List.mem_cons_of_mem _ hf))
    intro c tail hc
    have hcolon : Mode.between.scan (": ".toList ++ ((renderAt l depth v).toList ++ c :: tail)) =
        emit (.colon :: tokens v) (Mode.between.scan (c :: tail)) := by
      have hblank : ∀ d ∈ [' '], isGap d = true := by simp [isGap]
      have hspells := h k v (List.mem_cons_self ..) c tail hc
      have hsign := scan_sign (c := ':') rfl ([' '] ++ ((renderAt l depth v).toList ++ c :: tail))
      rw [scan_gaps hblank, hspells, emit_emit] at hsign
      exact hsign
    rw [String.toList_append, String.toList_append, List.append_assoc, List.append_assoc,
      scan_quote, hcolon, emit_emit]
    rfl

/-- In every layout a document spells its tokens. -/
theorem spells_renderAt (l : Layout) (depth : Nat) (v : Json) :
    Spells (renderAt l depth v).toList (tokens v) := by
  induction v using induct generalizing depth with
  | int n =>
    rw [renderAt, tokens]
    exact spells_int n
  | text s =>
    rw [renderAt, tokens]
    exact fun c rest _ => scan_quote s (c :: rest)
  | list items ih =>
    rw [renderAt, tokens]
    exact spells_enclose l depth '[' ']' rfl rfl
      (forall₂_renderItems l (depth + 1) fun v hv => ih v hv (depth + 1))
  | object fields ih =>
    rw [renderAt, tokens]
    exact spells_enclose l depth '\x7b' '\x7d' rfl rfl
      (forall₂_renderFields l (depth + 1) fun k v hf => ih k v hf (depth + 1))

/-! ## Tokens make up the document -/

/-- The tokens of one document are read as the document, with enough fuel. -/
def ReadsBack (v : Json) : Prop :=
  ∀ fuel rest, (tokens v).length ≤ fuel → value? fuel (tokens v ++ rest) = some (v, rest)

theorem intercalate_comma (ts us : List Token) (tss : List (List Token)) :
    [Token.comma].intercalate (ts :: us :: tss) =
      ts ++ .comma :: [.comma].intercalate (us :: tss) := by
  rw [List.intercalate_cons_cons, List.append_assoc, List.singleton_append]

theorem items?_tokens {v : Json} {items : List Json} (h : ∀ w ∈ v :: items, ReadsBack w)
    (fuel : Nat) (rest : List Token)
    (hfuel : ([.comma].intercalate (itemTokens (v :: items))).length < fuel) :
    items? fuel ([.comma].intercalate (itemTokens (v :: items)) ++ .closeList :: rest) =
      some (v :: items, rest) := by
  induction items generalizing v fuel with
  | nil =>
    obtain ⟨m, rfl⟩ := Nat.exists_eq_succ_of_ne_zero (Nat.ne_zero_of_lt hfuel)
    simp only [itemTokens, List.intercalate_singleton] at hfuel ⊢
    rw [items?, h v (List.mem_cons_self ..) m _ (by omega)]
  | cons w items ih =>
    obtain ⟨m, rfl⟩ := Nat.exists_eq_succ_of_ne_zero (Nat.ne_zero_of_lt hfuel)
    rw [itemTokens, itemTokens, intercalate_comma, ← itemTokens] at hfuel ⊢
    rw [List.length_append, List.length_cons] at hfuel
    have hrest := ih (fun u hu => h u (List.mem_cons_of_mem _ hu)) m (by omega)
    rw [List.append_assoc, items?, h v (List.mem_cons_self ..) m _ (by omega)]
    simp only [List.cons_append, hrest, Option.map_some]

theorem fields?_tokens {k : String} {v : Json} {fields : List (String × Json)}
    (h : ∀ l w, (l, w) ∈ (k, v) :: fields → ReadsBack w) (fuel : Nat) (rest : List Token)
    (hfuel : ([.comma].intercalate (fieldTokens ((k, v) :: fields))).length < fuel) :
    fields? fuel ([.comma].intercalate (fieldTokens ((k, v) :: fields)) ++ .closeObject :: rest) =
      some ((k, v) :: fields, rest) := by
  induction fields generalizing k v fuel with
  | nil =>
    obtain ⟨m, rfl⟩ := Nat.exists_eq_succ_of_ne_zero (Nat.ne_zero_of_lt hfuel)
    simp only [fieldTokens, List.intercalate_singleton, List.length_cons] at hfuel ⊢
    rw [List.cons_append, List.cons_append, fields?,
      h k v (List.mem_cons_self ..) m _ (by omega)]
  | cons f fields ih =>
    obtain ⟨l, w⟩ := f
    obtain ⟨m, rfl⟩ := Nat.exists_eq_succ_of_ne_zero (Nat.ne_zero_of_lt hfuel)
    rw [fieldTokens, fieldTokens, intercalate_comma, ← fieldTokens] at hfuel ⊢
    simp only [List.length_append, List.length_cons] at hfuel
    have hrest := ih (fun j u hu => h j u (List.mem_cons_of_mem _ hu)) m (by omega)
    rw [List.append_assoc, List.cons_append, List.cons_append, fields?,
      h k v (List.mem_cons_self ..) m _ (by omega)]
    simp only [List.cons_append, hrest, Option.map_some]

/-- A list with items goes on with the first token of an item, which does not close the list. -/
theorem head?_itemTokens (v : Json) (items : List Json) (rest : List Token) :
    ([Token.comma].intercalate (itemTokens (v :: items)) ++ rest).head? ≠ some .closeList := by
  have hhead (tail : List Token) : (tokens v ++ tail).head? ≠ some .closeList := by
    cases v <;> simp [tokens]
  cases items with
  | nil =>
    simp only [itemTokens, List.intercalate_singleton]
    exact hhead rest
  | cons w items =>
    rw [itemTokens, itemTokens, intercalate_comma, List.append_assoc]
    exact hhead _

theorem head?_fieldTokens (k : String) (v : Json) (fields : List (String × Json))
    (rest : List Token) :
    ([Token.comma].intercalate (fieldTokens ((k, v) :: fields)) ++ rest).head? ≠
      some .closeObject := by
  cases fields <;> simp [fieldTokens]

theorem value?_tokens (v : Json) : ReadsBack v := by
  induction v using induct with
  | int n =>
    intro fuel rest hfuel
    obtain ⟨m, rfl⟩ := Nat.exists_eq_succ_of_ne_zero (Nat.ne_zero_of_lt hfuel)
    rw [tokens]
    rfl
  | text s =>
    intro fuel rest hfuel
    obtain ⟨m, rfl⟩ := Nat.exists_eq_succ_of_ne_zero (Nat.ne_zero_of_lt hfuel)
    rw [tokens]
    rfl
  | list items ih =>
    intro fuel rest hfuel
    rw [tokens, List.cons_append, List.length_cons, List.length_append] at hfuel
    obtain ⟨m, rfl⟩ := Nat.exists_eq_succ_of_ne_zero (Nat.ne_zero_of_lt hfuel)
    rw [tokens, List.cons_append, List.cons_append, List.append_assoc, value?]
    cases items with
    | nil => rfl
    | cons v items =>
      simp only [List.length_singleton] at hfuel
      rw [if_neg (head?_itemTokens v items _), List.singleton_append,
        items?_tokens ih m rest (by omega)]
      rfl
  | object fields ih =>
    intro fuel rest hfuel
    rw [tokens, List.cons_append, List.length_cons, List.length_append] at hfuel
    obtain ⟨m, rfl⟩ := Nat.exists_eq_succ_of_ne_zero (Nat.ne_zero_of_lt hfuel)
    rw [tokens, List.cons_append, List.cons_append, List.append_assoc, value?]
    cases fields with
    | nil => rfl
    | cons f fields =>
      obtain ⟨k, v⟩ := f
      simp only [List.length_singleton] at hfuel
      rw [if_neg (head?_fieldTokens k v fields _), List.singleton_append,
        fields?_tokens ih m rest (by omega)]
      rfl

/-- **A written document is read back,** in every layout, with blanks behind it or without. -/
theorem decode_render (l : Layout) (v : Json) {g : String} (hg : ∀ c ∈ g.toList, isGap c = true) :
    decode (v.render l ++ g) = some v := by
  have hscan : Mode.between.scan ((v.render l ++ g).toList ++ ['\n']) =
      some (tokens v, .between) := by
    rw [String.toList_append, List.append_assoc, render,
      (spells_renderAt l 0 v).gaps hg (c := '\n') rfl]
    simp [Mode.scan, Mode.step, isGap, emit]
  have hvalue := value?_tokens v (tokens v).length [] (Nat.le_refl _)
  rw [List.append_nil] at hvalue
  simp only [decode, hscan, hvalue]

end CognitiveLoad.Json
