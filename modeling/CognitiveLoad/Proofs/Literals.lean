import Mathlib.Data.List.Basic
import Mathlib.Data.List.TakeWhile
import Mathlib.Data.Nat.Digits.Defs
import CognitiveLoad.Binary
import CognitiveLoad.Proofs.Numerals

/-!
The texts that are read as integers. `Numeral s ds n` says how an integer is written: blanks, a sign
or none, digits of any script with at most one underscore between two of them, blanks.

* `digits?_eq_some_iff`: exactly such digits are read;
* `exists_numeral`: whatever is read as an integer is written so;
* `Numeral.integer?_eq`: whatever is written so is read, unless it has too many digits.
-/

namespace CognitiveLoad.Text

/-- Digits with their values, and at most one underscore between two of them. -/
inductive Grouped : List Char → List Nat → Prop
  | last {c : Char} {d : Nat} (h : digit? c = some d) : Grouped [c] [d]
  | next {c : Char} {d : Nat} {cs : List Char} {ds : List Nat} (h : digit? c = some d)
      (rest : Grouped cs ds) : Grouped (c :: cs) (d :: ds)
  | apart {c : Char} {d : Nat} {cs : List Char} {ds : List Nat} (h : digit? c = some d)
      (rest : Grouped cs ds) : Grouped (c :: '_' :: cs) (d :: ds)

/-- A sign or none, and whether it is a minus. -/
inductive Sign : List Char → Bool → Prop
  | none : Sign [] false
  | plus : Sign ['+'] false
  | minus : Sign ['-'] true

def signed (negative : Bool) (n : Nat) : Int :=
  if negative then -n else n

/-- How an integer is written: `Numeral s ds n` if the text `s` writes `n` with the digits `ds`. -/
inductive Numeral : String → List Nat → Int → Prop
  | intro {s : String} {before sign digits after : List Char} {negative : Bool} {ds : List Nat}
      (text : s.toList = before ++ (sign ++ digits) ++ after)
      (blank_before : ∀ c ∈ before, isNumberBlank c = true)
      (blank_after : ∀ c ∈ after, isNumberBlank c = true)
      (sign_ok : Sign sign negative) (grouped : Grouped digits ds) :
      Numeral s ds (signed negative (Nat.ofDigits 10 ds.reverse))

/-! ## Digits -/

theorem decimalValue_eq_ofDigits (ds : List Nat) :
    decimalValue ds = Nat.ofDigits 10 ds.reverse := by
  rw [decimalValue, Nat.ofDigits_eq_foldr, List.foldr_reverse]
  simp only [Nat.cast_id, Nat.add_comm]

theorem digits?_cons_eq_some {c : Char} {rest : List Char} {ds : List Nat} :
    digits? (c :: rest) = some ds ↔
      ∃ d ds', digit? c = some d ∧ moreDigits? rest = some ds' ∧ d :: ds' = ds := by
  simp [digits?, Option.bind_eq_some_iff]

theorem digit?_underscore : digit? '_' = none := by
  decide

theorem moreDigits?_underscore (cs : List Char) : moreDigits? ('_' :: cs) = digits? cs := by
  cases cs with
  | nil => rw [moreDigits?, digit?_underscore] <;> simp [digits?]
  | cons c rest => rw [moreDigits?, digits?]

theorem moreDigits?_of_digits? {cs : List Char} {ds : List Nat} (h : digits? cs = some ds) :
    moreDigits? cs = some ds := by
  cases cs with
  | nil => cases h
  | cons c rest =>
    rw [moreDigits?]
    · exact h
    · -- no digit is an underscore
      rintro _ _ rfl
      obtain ⟨d, -, hd, -⟩ := digits?_cons_eq_some.mp h
      rw [digit?_underscore] at hd
      cases hd

/-- What is read behind a digit is grouped with it. -/
theorem grouped_of_moreDigits? {c : Char} {d : Nat} {rest : List Char} {ds : List Nat}
    (hc : digit? c = some d) (h : moreDigits? rest = some ds) : Grouped (c :: rest) (d :: ds) := by
  fun_induction moreDigits? rest generalizing c d ds with
  | case1 =>
    cases h
    exact .last hc
  | case2 c' rest ih =>
    obtain ⟨d', ds', hc', hrest, rfl⟩ := digits?_cons_eq_some.mp h
    exact .apart hc (ih hc' hrest)
  | case3 c' rest _ ih =>
    obtain ⟨d', ds', hc', hrest, rfl⟩ := digits?_cons_eq_some.mp h
    exact .next hc (ih hc' hrest)

/-- Exactly grouped digits are read. -/
theorem digits?_eq_some_iff {cs : List Char} {ds : List Nat} :
    digits? cs = some ds ↔ Grouped cs ds := by
  constructor
  · intro h
    cases cs with
    | nil => cases h
    | cons c rest =>
      obtain ⟨d, ds', hc, hrest, rfl⟩ := digits?_cons_eq_some.mp h
      exact grouped_of_moreDigits? hc hrest
  · intro h
    induction h with
    | last hc => exact digits?_cons_eq_some.mpr ⟨_, _, hc, rfl, rfl⟩
    | next hc _ ih => exact digits?_cons_eq_some.mpr ⟨_, _, hc, moreDigits?_of_digits? ih, rfl⟩
    | apart hc _ ih =>
      exact digits?_cons_eq_some.mpr ⟨_, _, hc, (moreDigits?_underscore _).trans ih, rfl⟩

theorem natural?_of_grouped {cs : List Char} {ds : List Nat} (h : Grouped cs ds) :
    natural? cs = if ds.length ≤ maxDigits then some (Nat.ofDigits 10 ds.reverse) else none := by
  rw [natural?, digits?_eq_some_iff.mpr h, ← decimalValue_eq_ofDigits]
  rfl

theorem grouped_of_natural? {cs : List Char} {n : Nat} (h : natural? cs = some n) :
    ∃ ds, Grouped cs ds ∧ ds.length ≤ maxDigits ∧ n = Nat.ofDigits 10 ds.reverse := by
  obtain ⟨ds, hds, hn⟩ := Option.bind_eq_some_iff.mp h
  split at hn
  · rename_i hlength
    cases hn
    exact ⟨ds, digits?_eq_some_iff.mp hds, hlength, decimalValue_eq_ofDigits ds⟩
  · cases hn

namespace Grouped

variable {cs : List Char} {ds : List Nat}

theorem isDigit_of_mem_head? (h : Grouped cs ds) : ∀ c ∈ cs.head?, isDigit c = true := by
  cases h <;> simp_all [isDigit]

theorem ne_nil (h : Grouped cs ds) : cs ≠ [] := by
  cases h <;> simp

theorem isDigit_of_mem_getLast? (h : Grouped cs ds) : ∀ c ∈ cs.getLast?, isDigit c = true := by
  induction h with
  | last hc => simp_all [isDigit]
  | next _ rest ih => rwa [List.getLast?_cons_of_ne_nil rest.ne_nil]
  | apart _ rest ih =>
    rwa [List.getLast?_cons_of_ne_nil (by simp), List.getLast?_cons_of_ne_nil rest.ne_nil]

end Grouped

/-! ## Blanks and signs -/

theorem dropEnds_append {p : Char → Bool} {before cs after : List Char}
    (hbefore : ∀ c ∈ before, p c = true) (hafter : ∀ c ∈ after, p c = true) (hne : cs ≠ [])
    (hhead : ∀ c ∈ cs.head?, p c = false) (hlast : ∀ c ∈ cs.getLast?, p c = false) :
    dropEndWhile p ((before ++ cs ++ after).dropWhile p) = cs := by
  have hstart : (before ++ cs ++ after).dropWhile p = cs ++ after := by
    rw [List.append_assoc, List.dropWhile_append_of_pos hbefore, dropWhile_of_head]
    rwa [List.head?_append_of_ne_nil _ hne]
  have hend : dropEndWhile p (cs ++ after) = dropEndWhile p cs := by
    rw [dropEndWhile, List.reverse_append, List.dropWhile_append_of_pos (by simpa using hafter)]
    rfl
  rw [hstart, hend, dropEndWhile_of_last hlast]

theorem exists_dropEnds (p : Char → Bool) (cs : List Char) :
    ∃ before after, cs = before ++ dropEndWhile p (cs.dropWhile p) ++ after ∧
      (∀ c ∈ before, p c = true) ∧ ∀ c ∈ after, p c = true := by
  refine ⟨cs.takeWhile p, ((cs.dropWhile p).reverse.takeWhile p).reverse, ?_, ?_, ?_⟩
  · rw [dropEndWhile, List.append_assoc, ← List.reverse_append, List.takeWhile_append_dropWhile,
      List.reverse_reverse, List.takeWhile_append_dropWhile]
  · intro c hc
    exact List.mem_takeWhile_imp hc
  · intro c hc
    exact List.mem_takeWhile_imp (List.mem_reverse.mp hc)

theorem signOf_append {sign digits : List Char} {negative : Bool} {ds : List Nat}
    (hsign : Sign sign negative) (hdigits : Grouped digits ds) :
    Binary.signOf (sign ++ digits) = (negative, digits) := by
  cases hsign with
  | none =>
    -- a digit comes first, so there is no sign
    have hfirst := hdigits.isDigit_of_mem_head?
    rw [List.nil_append]
    unfold Binary.signOf
    split
    · exact absurd (hfirst '-' rfl) (by decide)
    · exact absurd (hfirst '+' rfl) (by decide)
    · rfl
  | plus => rfl
  | minus => rfl

theorem exists_sign (cs : List Char) :
    ∃ sign, cs = sign ++ (Binary.signOf cs).2 ∧ Sign sign (Binary.signOf cs).1 := by
  unfold Binary.signOf
  split
  · exact ⟨['-'], rfl, .minus⟩
  · exact ⟨['+'], rfl, .plus⟩
  · exact ⟨[], rfl, .none⟩

/-- An integer is read by its blanks, its sign and its digits. -/
theorem integer?_eq_map_natural? (s : String) :
    integer? s =
      let cs := dropEndWhile isNumberBlank (s.toList.dropWhile isNumberBlank)
      (natural? (Binary.signOf cs).2).map (signed (Binary.signOf cs).1) := by
  unfold integer?
  split
  · rename_i cs heq
    simp only [heq, Binary.signOf]
    cases natural? cs <;> rfl
  · rename_i cs heq
    simp only [heq, Binary.signOf]
    cases natural? cs <;> rfl
  · simp only [Binary.signOf]
    cases natural? (dropEndWhile isNumberBlank (s.toList.dropWhile isNumberBlank)) <;> rfl

/-! ## Integers -/

/-- Whatever is read as an integer is written as one. -/
theorem exists_numeral {s : String} {n : Int} (h : integer? s = some n) :
    ∃ ds, Numeral s ds n ∧ ds.length ≤ maxDigits := by
  rw [integer?_eq_map_natural?] at h
  obtain ⟨before, after, htext, hbefore, hafter⟩ := exists_dropEnds isNumberBlank s.toList
  obtain ⟨k, hk, rfl⟩ := Option.map_eq_some_iff.mp h
  obtain ⟨ds, hds, hlength, rfl⟩ := grouped_of_natural? hk
  obtain ⟨sign, hcs, hsign⟩ :=
    exists_sign (dropEndWhile isNumberBlank (s.toList.dropWhile isNumberBlank))
  refine ⟨ds, .intro ?_ hbefore hafter hsign hds, hlength⟩
  rw [← hcs, ← htext]

theorem Sign.not_blank_of_mem {sign : List Char} {negative : Bool} (h : Sign sign negative) :
    ∀ c ∈ sign, isNumberBlank c = false := by
  cases h <;> simp <;> rfl

/-- An integer that is written is read, unless it has too many digits. -/
theorem Numeral.integer?_eq {s : String} {ds : List Nat} {n : Int} (h : Numeral s ds n) :
    integer? s = if ds.length ≤ maxDigits then some n else none := by
  obtain ⟨htext, hbefore, hafter, hsign, hdigits⟩ := h
  rename_i before sign digits after negative
  have hhead : ∀ c ∈ (sign ++ digits).head?, isNumberBlank c = false := by
    intro c hc
    cases sign with
    | nil => exact isNumberBlank_of_isDigit (hdigits.isDigit_of_mem_head? c hc)
    | cons c' rest =>
      cases hc
      exact hsign.not_blank_of_mem c (List.mem_cons_self ..)
  have hlast : ∀ c ∈ (sign ++ digits).getLast?, isNumberBlank c = false := by
    rw [List.getLast?_append_of_ne_nil _ hdigits.ne_nil]
    exact fun c hc => isNumberBlank_of_isDigit (hdigits.isDigit_of_mem_getLast? c hc)
  have hcs : dropEndWhile isNumberBlank (s.toList.dropWhile isNumberBlank) = sign ++ digits := by
    rw [htext]
    exact dropEnds_append hbefore hafter (by simp [hdigits.ne_nil]) hhead hlast
  rw [integer?_eq_map_natural?, hcs]
  simp only [signOf_append hsign hdigits, natural?_of_grouped hdigits]
  split <;> rfl

/-- A text that is read writes no other integer. -/
theorem Numeral.eq_of_integer? {s : String} {ds : List Nat} {m n : Int} (h : Numeral s ds m)
    (hread : integer? s = some n) : ds.length ≤ maxDigits ∧ m = n := by
  rw [h.integer?_eq] at hread
  split at hread
  · rename_i hlength
    exact ⟨hlength, Option.some.inj hread⟩
  · cases hread

theorem Numeral.long_of_integer? {s : String} {ds : List Nat} {n : Int} (h : Numeral s ds n)
    (hread : integer? s = none) : maxDigits < ds.length := by
  rw [h.integer?_eq] at hread
  split at hread
  · cases hread
  · rename_i hlength
    exact Nat.lt_of_not_le hlength

end CognitiveLoad.Text
