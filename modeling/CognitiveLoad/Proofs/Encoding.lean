import CognitiveLoad.Syntax.Tree

/-!
UTF-8, written and read back. The first byte of a character sets a plan, and the bytes behind it
follow the plan (`exists_planned`), so what a reader finds at the head of some bytes is known in the
three cases that matter:

* the whole encoding of a character is that character, whatever follows (`Planned.scan_append`);
* a beginning of it, with nothing behind, is one run that is cut short (`Planned.scan_take`);
* a byte from inside an encoding begins nothing (`scan_continuation`).

So the strict reader gives back what was encoded (`decode_encode`). The lenient reader does so too
(`lenient_encode_append`), and writes one replacement character for a beginning (`lenient_stub`) and
one for each byte from inside (`lenient_continuations`).
-/

namespace CognitiveLoad.Text.Utf8

/-- The bytes of a text. -/
def encode (cs : List Char) : List UInt8 :=
  cs.flatMap String.utf8EncodeChar

@[simp] theorem encode_nil : encode [] = [] := rfl

@[simp] theorem encode_cons (c : Char) (cs : List Char) :
    encode (c :: cs) = String.utf8EncodeChar c ++ encode cs :=
  List.flatMap_cons

theorem encode_append (cs ds : List Char) : encode (cs ++ ds) = encode cs ++ encode ds :=
  List.flatMap_append

theorem toList_toUTF8 (s : String) : s.toUTF8.data.toList = encode s.toList := by
  have h : (String.ofList s.toList).toUTF8 = s.toList.utf8Encode := String.toByteArray_ofList
  rw [String.ofList_toList] at h
  rw [h, List.utf8Encode, List.data_toByteArray]
  rfl

/-- A byte that only goes on with a character. -/
def isContinuation (b : UInt8) : Bool :=
  0x80 ≤ b.toNat && b.toNat ≤ 0xBF

/-! ## Plans -/

theorem plan?_one {n : Nat} (h : n < 0x80) : plan? n = some ⟨n, 0, 0, 0⟩ := by
  rw [plan?, if_pos h]

theorem plan?_two {n : Nat} (hlo : 0xC2 ≤ n) (hhi : n < 0xE0) :
    plan? n = some ⟨n - 0xC0, 1, 0x80, 0xBF⟩ := by
  rw [plan?, if_neg (by omega), if_neg (by omega), if_pos hhi]

theorem plan?_three {n : Nat} (hlo : 0xE0 ≤ n) (hhi : n < 0xF0) :
    plan? n = some ⟨n - 0xE0, 2, if n = 0xE0 then 0xA0 else 0x80,
      if n = 0xED then 0x9F else 0xBF⟩ := by
  rw [plan?, if_neg (by omega), if_neg (by omega), if_neg (by omega)]
  by_cases he : n = 0xE0
  · rw [if_pos he, if_pos he, if_neg (by omega), he]
  · rw [if_neg he, if_neg he]
    by_cases hd : n = 0xED
    · rw [if_pos hd, if_pos hd, hd]
    · rw [if_neg hd, if_neg hd, if_pos hhi]

theorem plan?_four {n : Nat} (hlo : 0xF0 ≤ n) (hhi : n ≤ 0xF4) :
    plan? n = some ⟨n - 0xF0, 3, if n = 0xF0 then 0x90 else 0x80,
      if n = 0xF4 then 0x8F else 0xBF⟩ := by
  rw [plan?, if_neg (by omega), if_neg (by omega), if_neg (by omega), if_neg (by omega),
    if_neg (by omega), if_neg (by omega)]
  by_cases h0 : n = 0xF0
  · rw [if_pos h0, if_pos h0, if_neg (by omega), h0]
  · rw [if_neg h0, if_neg h0]
    by_cases h4 : n = 0xF4
    · rw [if_neg (by omega), if_pos h4, if_pos h4, h4]
    · rw [if_pos (by omega), if_neg h4]

theorem plan?_of_isContinuation {b : UInt8} (h : isContinuation b = true) :
    plan? b.toNat = none := by
  simp only [isContinuation, Bool.and_eq_true, decide_eq_true_eq] at h
  rw [plan?, if_neg (by omega), if_pos (by omega)]

/-- The first byte is in the given range, and the others go on with a character. -/
def Fits (lo hi : Nat) : List UInt8 → Prop
  | [] => True
  | b :: rest => lo ≤ b.toNat ∧ b.toNat ≤ hi ∧ Fits 0x80 0xBF rest

theorem Fits.take {lo hi : Nat} {bs : List UInt8} (h : Fits lo hi bs) (n : Nat) :
    Fits lo hi (bs.take n) := by
  induction bs generalizing lo hi n with
  | nil => simpa using h
  | cons b bs ih =>
    cases n with
    | zero => trivial
    | succ n => exact ⟨h.1, h.2.1, ih h.2.2 n⟩

/-- The bits of a character of which the first byte gave `bits`. -/
def gather (bits : Nat) (bs : List UInt8) : Nat :=
  bs.foldl (fun n b => 64 * n + (b.toNat - 0x80)) bits

/-- The bytes `b :: bs` give a character by the plan that `b` sets. -/
structure Planned (c : Char) (b : UInt8) (bs : List UInt8) (p : Plan) : Prop where
  plan : plan? b.toNat = some p
  more : p.more = bs.length
  fits : Fits p.lo p.hi bs
  value : gather p.bits bs = c.toNat
  inner : ∀ x ∈ bs, isContinuation x = true

/-- The byte that holds the last six bits of a number. -/
def innerByte (n : Nat) : UInt8 :=
  UInt8.ofNat (n % 64 + 128)

theorem toNat_innerByte (n : Nat) : (innerByte n).toNat = n % 64 + 128 := by
  rw [innerByte, UInt8.toNat_ofNat']
  omega

theorem isContinuation_innerByte (n : Nat) : isContinuation (innerByte n) = true := by
  rw [isContinuation, toNat_innerByte, Bool.and_eq_true, decide_eq_true_eq, decide_eq_true_eq]
  omega

section

variable {c : Char}

theorem planned_one (h : c.toNat ≤ 0x7F) : ∃ p, Planned c (UInt8.ofNat c.toNat) [] p := by
  have hfirst : (UInt8.ofNat c.toNat).toNat = c.toNat := by
    rw [UInt8.toNat_ofNat']
    omega
  exact ⟨_, plan?_one (by omega), rfl, trivial, hfirst, by simp⟩

theorem planned_two (hlo : 0x7F < c.toNat) (hhi : c.toNat ≤ 0x7FF) :
    ∃ p, Planned c (UInt8.ofNat (c.toNat / 64 % 32 + 192)) [innerByte c.toNat] p := by
  have hfirst : (UInt8.ofNat (c.toNat / 64 % 32 + 192)).toNat = c.toNat / 64 + 192 := by
    rw [UInt8.toNat_ofNat']
    omega
  refine ⟨_, plan?_two (by omega) (by omega), rfl, ?_, ?_, by simp [isContinuation_innerByte]⟩
  · simp only [Fits, and_true, toNat_innerByte]
    omega
  · simp only [gather, List.foldl_cons, List.foldl_nil, hfirst, toNat_innerByte]
    omega

theorem planned_three (hlo : 0x7FF < c.toNat) (hhi : c.toNat ≤ 0xFFFF) :
    ∃ p, Planned c (UInt8.ofNat (c.toNat / 4096 % 16 + 224))
      [innerByte (c.toNat / 64), innerByte c.toNat] p := by
  have hvalid : c.toNat < 0xD800 ∨ 0xDFFF < c.toNat ∧ c.toNat < 0x110000 := c.valid
  have hfirst : (UInt8.ofNat (c.toNat / 4096 % 16 + 224)).toNat = c.toNat / 4096 + 224 := by
    rw [UInt8.toNat_ofNat']
    omega
  refine ⟨_, plan?_three (by omega) (by omega), rfl, ?_, ?_, by simp [isContinuation_innerByte]⟩
  · simp only [Fits, and_true, hfirst, toNat_innerByte]
    split <;> split <;> omega
  · simp only [gather, List.foldl_cons, List.foldl_nil, hfirst, toNat_innerByte]
    omega

theorem planned_four (h : 0xFFFF < c.toNat) :
    ∃ p, Planned c (UInt8.ofNat (c.toNat / 262144 % 8 + 240))
      [innerByte (c.toNat / 4096), innerByte (c.toNat / 64), innerByte c.toNat] p := by
  have hvalid : c.toNat < 0xD800 ∨ 0xDFFF < c.toNat ∧ c.toNat < 0x110000 := c.valid
  have hfirst : (UInt8.ofNat (c.toNat / 262144 % 8 + 240)).toNat = c.toNat / 262144 + 240 := by
    rw [UInt8.toNat_ofNat']
    omega
  refine ⟨_, plan?_four (by omega) (by omega), rfl, ?_, ?_, by simp [isContinuation_innerByte]⟩
  · simp only [Fits, and_true, hfirst, toNat_innerByte]
    split <;> split <;> omega
  · simp only [gather, List.foldl_cons, List.foldl_nil, hfirst, toNat_innerByte]
    omega

end

/-- Every character is encoded by a plan. The narrowed ranges never get in the way: a character
that takes three or four bytes needs them, and none is a surrogate or past the last code point. -/
theorem exists_planned (c : Char) :
    ∃ b bs p, String.utf8EncodeChar c = b :: bs ∧ Planned c b bs p := by
  have hval : c.val.toNat = c.toNat := rfl
  simp only [String.utf8EncodeChar, hval]
  split
  next h =>
    obtain ⟨p, hp⟩ := planned_one h
    exact ⟨_, _, p, rfl, hp⟩
  next hone =>
    split
    next h =>
      obtain ⟨p, hp⟩ := planned_two (Nat.lt_of_not_le hone) h
      exact ⟨_, _, p, rfl, hp⟩
    next htwo =>
      split
      next h =>
        obtain ⟨p, hp⟩ := planned_three (Nat.lt_of_not_le htwo) h
        exact ⟨_, _, p, rfl, hp⟩
      next hthree =>
        obtain ⟨p, hp⟩ := planned_four (Nat.lt_of_not_le hthree)
        exact ⟨_, _, p, rfl, hp⟩

theorem Planned.not_isContinuation {c : Char} {b : UInt8} {bs : List UInt8} {p : Plan}
    (h : Planned c b bs p) : isContinuation b = false := by
  cases hb : isContinuation b with
  | false => rfl
  | true =>
    have hnone := plan?_of_isContinuation hb
    rw [h.plan] at hnone
    cases hnone

/-! ## What stands at the head -/

theorem scanRest_append {lo hi : Nat} {bs : List UInt8} (h : Fits lo hi bs) (bits seen : Nat)
    (rest : List UInt8) :
    scanRest bits seen lo hi bs.length (bs ++ rest) =
      .char (Char.ofNat (gather bits bs)) (seen + bs.length) := by
  induction bs generalizing bits seen lo hi with
  | nil => rfl
  | cons b bs ih =>
    obtain ⟨hlo, hhi, hbs⟩ := h
    rw [List.length_cons, List.cons_append, scanRest, if_pos ⟨hlo, hhi⟩, ih hbs, gather, gather,
      List.foldl_cons, Nat.add_assoc, Nat.add_comm 1]

theorem scanRest_cut {lo hi more : Nat} {bs : List UInt8} (h : Fits lo hi bs)
    (hmore : bs.length < more) (bits seen : Nat) :
    scanRest bits seen lo hi more bs = .fault .cutShort (seen + bs.length) := by
  induction bs generalizing bits seen lo hi more with
  | nil =>
    cases more with
    | zero => contradiction
    | succ more => rfl
  | cons b bs ih =>
    obtain ⟨hlo, hhi, hbs⟩ := h
    cases more with
    | zero => contradiction
    | succ more =>
      rw [scanRest, if_pos ⟨hlo, hhi⟩, ih hbs (Nat.lt_of_succ_lt_succ hmore), List.length_cons,
        Nat.add_assoc, Nat.add_comm 1]

theorem Planned.scan_append {c : Char} {b : UInt8} {bs : List UInt8} {p : Plan}
    (h : Planned c b bs p) (rest : List UInt8) :
    scan b (bs ++ rest) = .char c (bs.length + 1) := by
  simp only [scan, h.plan, h.more]
  rw [scanRest_append h.fits, h.value, Char.ofNat_toNat, Nat.add_comm]

theorem Planned.scan_take {c : Char} {b : UInt8} {bs : List UInt8} {p : Plan}
    (h : Planned c b bs p) {n : Nat} (hn : n < bs.length) :
    scan b (bs.take n) = .fault .cutShort (n + 1) := by
  have hlength : (bs.take n).length = n := List.length_take_of_le (Nat.le_of_lt hn)
  simp only [scan, h.plan]
  rw [scanRest_cut (h.fits.take n) (by rw [hlength, h.more]; exact hn), hlength, Nat.add_comm]

theorem scan_continuation {b : UInt8} (h : isContinuation b = true) (rest : List UInt8) :
    scan b rest = .fault .badStart 1 := by
  simp only [scan, plan?_of_isContinuation h]

/-! ## The strict reader -/

theorem strictWithin_encode (cs : List Char) {fuel : Nat} (h : (encode cs).length ≤ fuel)
    (position : Nat) : strictWithin fuel position (encode cs) = .ok cs := by
  induction cs generalizing fuel position with
  | nil => cases fuel <;> rfl
  | cons c cs ih =>
    obtain ⟨b, bs, p, hbytes, hp⟩ := exists_planned c
    rw [encode_cons, hbytes, List.cons_append] at h ⊢
    cases fuel with
    | zero => simp at h
    | succ fuel =>
      have hrest : (encode cs).length ≤ fuel := by
        simp only [List.length_cons, List.length_append] at h
        omega
      simp only [strictWithin, hp.scan_append, Nat.add_sub_cancel, List.drop_left, ih hrest]

/-- The strict reader gives back what was encoded. -/
theorem decode_encode (cs : List Char) : decode (encode cs) = .ok cs :=
  strictWithin_encode cs (Nat.le_refl _) 0

/-! ## The lenient reader -/

/-- The characters that the lenient reader makes of some bytes. -/
def lenient (bs : List UInt8) : List Char :=
  lenientWithin bs.length bs

theorem lenientWithin_eq {n m : Nat} {bs : List UInt8} (hn : bs.length ≤ n) (hm : bs.length ≤ m) :
    lenientWithin n bs = lenientWithin m bs := by
  induction n generalizing m bs with
  | zero =>
    cases bs with
    | nil => cases m <;> rfl
    | cons b rest => simp at hn
  | succ n ih =>
    cases bs with
    | nil => cases m <;> rfl
    | cons b rest =>
      cases m with
      | zero => simp at hm
      | succ m =>
        have hdrop (k : Nat) : lenientWithin n (rest.drop k) = lenientWithin m (rest.drop k) := by
          simp only [List.length_cons] at hn hm
          apply ih <;> rw [List.length_drop] <;> omega
        simp only [lenientWithin, hdrop]

theorem lenient_cons (b : UInt8) (rest : List UInt8) :
    lenient (b :: rest) =
      match scan b rest with
      | .char c width => c :: lenient (rest.drop (width - 1))
      | .fault _ width => replacement :: lenient (rest.drop (width - 1)) := by
  have hdrop (k : Nat) : lenientWithin rest.length (rest.drop k) = lenient (rest.drop k) :=
    lenientWithin_eq (by rw [List.length_drop]; omega) (Nat.le_refl _)
  rw [lenient, List.length_cons, lenientWithin]
  cases scan b rest <;> simp only [hdrop]

theorem lenient_encode_append (cs : List Char) (rest : List UInt8) :
    lenient (encode cs ++ rest) = cs ++ lenient rest := by
  induction cs with
  | nil => rfl
  | cons c cs ih =>
    obtain ⟨b, bs, p, hbytes, hp⟩ := exists_planned c
    rw [encode_cons, hbytes, List.cons_append, List.cons_append, List.append_assoc, lenient_cons,
      hp.scan_append]
    simp only [Nat.add_sub_cancel, List.drop_left, ih, List.cons_append]

theorem lenient_encode (cs : List Char) : lenient (encode cs) = cs := by
  have h := lenient_encode_append cs []
  rwa [List.append_nil, show lenient [] = [] from rfl, List.append_nil] at h

theorem lenient_continuations {bs : List UInt8} (h : ∀ b ∈ bs, isContinuation b = true)
    (rest : List UInt8) :
    lenient (bs ++ rest) = List.replicate bs.length replacement ++ lenient rest := by
  induction bs with
  | nil => rfl
  | cons b bs ih =>
    rw [List.cons_append, lenient_cons, scan_continuation (h b (List.mem_cons_self ..))]
    simp only [Nat.sub_self, List.drop_zero, List.length_cons, List.replicate_succ,
      List.cons_append, ih fun x hx => h x (List.mem_cons_of_mem _ hx)]

/-- A beginning of the encoding of a character, neither empty nor all of it. -/
def IsStub (bs : List UInt8) : Prop :=
  ∃ c n, 0 < n ∧ n < c.utf8Size ∧ bs = (String.utf8EncodeChar c).take n

theorem lenient_stub {bs : List UInt8} (h : IsStub bs) : lenient bs = [replacement] := by
  obtain ⟨c, n, hpos, hlt, rfl⟩ := h
  obtain ⟨b, bs, p, hbytes, hp⟩ := exists_planned c
  obtain ⟨m, rfl⟩ := Nat.exists_eq_add_of_lt hpos
  rw [← String.length_utf8EncodeChar, hbytes] at hlt
  simp only [List.length_cons, Nat.zero_add, Nat.add_lt_add_iff_right] at hlt
  rw [hbytes, Nat.zero_add, List.take_succ_cons, lenient_cons, hp.scan_take hlt]
  simp only [Nat.add_sub_cancel, List.drop_take_self]
  rfl

end CognitiveLoad.Text.Utf8
