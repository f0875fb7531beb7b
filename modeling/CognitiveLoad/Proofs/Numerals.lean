import CognitiveLoad.Proofs.LetterCase

/-!
Integers in decimal digits are read back (`integer?_toString`), unless they have more digits than
are read.
-/

namespace CognitiveLoad.Text

/-- The value of a decimal digit of ASCII. -/
def asciiDigit (c : Char) : Nat :=
  c.toNat - '0'.toNat

theorem toNat_of_isDigit {c : Char} (h : c.isDigit = true) : 0x30 ≤ c.toNat ∧ c.toNat ≤ 0x39 := by
  simpa [Char.isDigit, UInt32.le_iff_toNat_le] using h

theorem digit?_of_isDigit {c : Char} (h : c.isDigit = true) : digit? c = some (asciiDigit c) := by
  have hfind : (digitZeros.find? fun z => z ≤ c.toNat && c.toNat ≤ z + 9) = some 0x30 := by
    rw [digitZeros, List.find?_cons_of_pos]
    simpa using toNat_of_isDigit h
  rw [digit?, hfind]
  rfl

theorem moreDigits?_of_isDigit {cs : List Char} (h : ∀ c ∈ cs, c.isDigit = true) :
    moreDigits? cs = some (cs.map asciiDigit) := by
  induction cs with
  | nil => rfl
  | cons c rest ih =>
    have hc := h c (List.mem_cons_self ..)
    have hrest := ih fun c' hc' => h c' (List.mem_cons_of_mem _ hc')
    rw [moreDigits?]
    · rw [digit?_of_isDigit hc, hrest]
      rfl
    · rintro _ _ rfl
      cases hc

theorem digits?_of_isDigit {cs : List Char} (hne : cs ≠ []) (h : ∀ c ∈ cs, c.isDigit = true) :
    digits? cs = some (cs.map asciiDigit) := by
  obtain ⟨c, rest, rfl⟩ := List.exists_cons_of_ne_nil hne
  have hc := h c (List.mem_cons_self ..)
  have hrest := moreDigits?_of_isDigit fun c' hc' => h c' (List.mem_cons_of_mem _ hc')
  rw [digits?, digit?_of_isDigit hc, hrest]
  rfl

theorem decimalValue_map (cs : List Char) :
    decimalValue (cs.map asciiDigit) = Nat.ofDigitChars 10 cs 0 := by
  rw [decimalValue, List.foldl_map]
  rfl

/-- The number of decimal digits. -/
def digitCount (n : Nat) : Nat :=
  (Nat.toDigits 10 n).length

theorem isDigit_toDigits (n : Nat) : ∀ c ∈ Nat.toDigits 10 n, c.isDigit = true :=
  fun _ hc => Nat.isDigit_of_mem_toDigits (by decide) (by decide) hc

theorem natural?_toDigits {n : Nat} (h : digitCount n ≤ maxDigits) :
    natural? (Nat.toDigits 10 n) = some n := by
  have hdigits := digits?_of_isDigit Nat.toDigits_ne_nil (isDigit_toDigits n)
  have hcount : ((Nat.toDigits 10 n).map asciiDigit).length ≤ maxDigits := by
    rw [List.length_map]
    exact h
  rw [natural?, hdigits]
  simp only [Option.bind_eq_bind, Option.bind_some]
  rw [if_pos hcount, decimalValue_map, Nat.ofDigitChars_ten_toDigits]
  rfl

/-- No digit of any script is a blank. -/
theorem isNumberBlank_of_isDigit {c : Char} (h : isDigit c = true) : isNumberBlank c = false := by
  rw [Bool.eq_false_iff]
  intro hblank
  rw [isNumberBlank, Bool.and_eq_true] at hblank
  obtain ⟨r, hr, hcovers⟩ := covers_of_isBlank hblank.1
  have hwithin := CaseRun.covers_range hcovers
  obtain ⟨z, hz, hrange⟩ : ∃ z ∈ digitZeros, z ≤ c.toNat ∧ c.toNat ≤ z + 9 := by
    simpa [isDigit, digit?] using h
  have hapart : ∀ z ∈ digitZeros, ∀ r ∈ blankRuns, r.last < z ∨ z + 9 < r.first := by decide
  rcases hapart z hz r hr with hbefore | hafter <;> omega

/-- Nothing is taken from the ends of a text without blanks. -/
theorem dropEnds_of_no_blanks {cs : List Char} (h : ∀ c ∈ cs, isNumberBlank c = false) :
    dropEndWhile isNumberBlank (cs.dropWhile isNumberBlank) = cs := by
  rw [dropWhile_of_head fun c hc => h c (List.mem_of_mem_head? hc),
    dropEndWhile_of_last fun c hc => h c (List.mem_of_getLast? hc)]

/-- An integer is read back from its decimal digits. -/
theorem integer?_toString {n : Int} (h : digitCount n.natAbs ≤ maxDigits) :
    integer? (toString n) = some n := by
  have hblank : ∀ m, ∀ c ∈ Nat.toDigits 10 m, isNumberBlank c = false := by
    intro m c hc
    apply isNumberBlank_of_isDigit
    rw [isDigit, digit?_of_isDigit (isDigit_toDigits m c hc)]
    rfl
  cases n with
  | ofNat m =>
    have htext : (toString (Int.ofNat m)).toList = Nat.toDigits 10 m := Nat.toList_repr
    have hvalue : natural? (Nat.toDigits 10 m) = some m := natural?_toDigits h
    -- a digit comes first, so there is no sign
    have hsign : ∀ sign cs, Nat.toDigits 10 m = sign :: cs → sign.isDigit = true := by
      intro sign cs heq
      exact isDigit_toDigits m sign (by simp [heq])
    rw [integer?, htext, dropEnds_of_no_blanks (hblank m)]
    split
    · rename_i cs heq
      cases hsign '-' cs heq
    · rename_i cs heq
      cases hsign '+' cs heq
    · rw [hvalue]
      rfl
  | negSucc m =>
    have htext : (toString (Int.negSucc m)).toList = '-' :: Nat.toDigits 10 (m + 1) := by
      show ("-" ++ (m + 1).repr).toList = _
      rw [String.toList_append, Nat.toList_repr]
      rfl
    have hminus : ∀ c ∈ '-' :: Nat.toDigits 10 (m + 1), isNumberBlank c = false :=
      List.forall_mem_cons.mpr ⟨rfl, hblank (m + 1)⟩
    have hvalue : natural? (Nat.toDigits 10 (m + 1)) = some (m + 1) := natural?_toDigits h
    rw [integer?, htext, dropEnds_of_no_blanks hminus]
    simp only [hvalue]
    rfl

end CognitiveLoad.Text
