import CognitiveLoad.Proofs.Encoding

/-!
The text of a range of bytes. A range may begin or end inside a character. Its bytes are then some
that go on with a character before the range, the encodings of the characters inside it, and a
beginning of a character that it cuts off (`exists_excerpt`). The lenient reader treats these three
parts one after the other.

* `text_of_range`: what a node with any range shows of a text.
-/

namespace CognitiveLoad

namespace Text.Utf8

/-! ## Characters and their bytes -/

/-- A character of a text and the bytes it takes, from `start` up to the one before `stop`. -/
structure Span where
  char : Char
  start : Nat
  stop : Nat
  deriving DecidableEq, Repr

/-- The characters of a text whose first byte has the number `start`. -/
def spansFrom (start : Nat) : List Char → List Span
  | [] => []
  | c :: cs => ⟨c, start, start + c.utf8Size⟩ :: spansFrom (start + c.utf8Size) cs

def spans (s : String) : List Span :=
  spansFrom 0 s.toList

/-- All bytes of the character are in the range. -/
def Span.Within (i j : Nat) (σ : Span) : Prop :=
  i ≤ σ.start ∧ σ.stop ≤ j

instance (i j : Nat) (σ : Span) : Decidable (σ.Within i j) :=
  inferInstanceAs (Decidable (_ ∧ _))

/-- The range ends inside the character, and its first byte is in the range. -/
def Span.CutOff (i j : Nat) (σ : Span) : Prop :=
  i ≤ σ.start ∧ σ.start < j ∧ j < σ.stop

instance (i j : Nat) (σ : Span) : Decidable (σ.CutOff i j) :=
  inferInstanceAs (Decidable (_ ∧ _))

/-- The characters that lie wholly inside a range. -/
def whole (i j : Nat) (σs : List Span) : List Char :=
  (σs.filter (·.Within i j)).map (·.char)

theorem start_le_of_mem_spansFrom {start : Nat} {cs : List Char} {σ : Span}
    (h : σ ∈ spansFrom start cs) : start ≤ σ.start ∧ σ.start < σ.stop := by
  induction cs generalizing start with
  | nil => simp [spansFrom] at h
  | cons c cs ih =>
    have hpos := c.utf8Size_pos
    rcases List.mem_cons.mp h with rfl | h
    · exact ⟨Nat.le_refl _, Nat.lt_add_of_pos_right hpos⟩
    · have := ih h
      omega

theorem whole_cons (i j : Nat) (σ : Span) (σs : List Span) :
    whole i j (σ :: σs) = if σ.Within i j then σ.char :: whole i j σs else whole i j σs := by
  by_cases h : σ.Within i j <;> simp [whole, h]

/-- A range has nothing of the characters behind it. -/
theorem nothing_behind {i j start : Nat} (h : j ≤ start) (cs : List Char) :
    whole i j (spansFrom start cs) = [] ∧ ¬ ∃ σ ∈ spansFrom start cs, σ.CutOff i j := by
  constructor
  · rw [whole, List.map_eq_nil_iff, List.filter_eq_nil_iff]
    intro σ hσ
    have := start_le_of_mem_spansFrom hσ
    rw [decide_eq_true_eq]
    rintro ⟨-, hstop⟩
    omega
  · rintro ⟨σ, hσ, -, hstart, -⟩
    have := start_le_of_mem_spansFrom hσ
    omega

/-! ## The parts of a range -/

theorem size_toUTF8 (s : String) : s.toUTF8.size = (encode s.toList).length := by
  rw [← toList_toUTF8]
  rfl

theorem toList_extract_toUTF8 (s : String) (i j : Nat) :
    (s.toUTF8.extract i j).data.toList = ((encode s.toList).take j).drop i := by
  rw [List.drop_take, ← toList_toUTF8, ByteArray.data_extract, Array.toList_extract,
    List.extract_eq_take_drop]

theorem slice_append (xs ys : List UInt8) (i j : Nat) :
    ((xs ++ ys).take j).drop i =
      (xs.take j).drop i ++ (ys.take (j - xs.length)).drop (i - xs.length) := by
  rw [List.take_append, List.drop_append, List.length_take]
  by_cases h : xs.length ≤ j
  · rw [Nat.min_eq_right h]
  · have hnone : j - xs.length = 0 := by omega
    simp [hnone]

/-- The bytes of a range, part by part. -/
structure Excerpt (i j : Nat) (σs : List Span) (head tail slice : List UInt8) : Prop where
  bytes : slice = head ++ (encode (whole i j σs) ++ tail)
  head : ∀ b ∈ head, isContinuation b = true
  tail : (∃ σ ∈ σs, σ.CutOff i j) ∧ IsStub tail ∨ (¬ ∃ σ ∈ σs, σ.CutOff i j) ∧ tail = []

/-- Behind its first byte, the encoding of a character goes on with it. -/
theorem isContinuation_of_mem_drop {c : Char} {m n : Nat} (h : 0 < n) :
    ∀ b ∈ ((String.utf8EncodeChar c).take m).drop n, isContinuation b = true := by
  obtain ⟨b, bs, p, hbytes, hp⟩ := exists_planned c
  obtain ⟨n, rfl⟩ := Nat.exists_eq_add_of_lt h
  intro x hx
  cases m with
  | zero => simp at hx
  | succ m =>
    rw [hbytes, List.take_succ_cons, Nat.zero_add, List.drop_succ_cons] at hx
    exact hp.inner x (List.mem_of_mem_take (List.mem_of_mem_drop hx))

section

variable {i j : Nat} {σ : Span} {σs : List Span} {head tail slice : List UInt8}

/-- A character in front of which the range has no bytes, or some behind its first. -/
theorem Excerpt.cons_outside (h : Excerpt i j σs head tail slice) (hwithin : ¬ σ.Within i j)
    (hcut : ¬ σ.CutOff i j) {own : List UInt8} (hown : ∀ b ∈ own, isContinuation b = true) :
    Excerpt i j (σ :: σs) (own ++ head) tail (own ++ slice) where
  bytes := by rw [whole_cons, if_neg hwithin, h.bytes, List.append_assoc]
  head b hb := by
    rcases List.mem_append.mp hb with hb | hb
    · exact hown b hb
    · exact h.head b hb
  tail := by simpa [hcut] using h.tail

/-- A character in front that lies wholly inside the range. -/
theorem Excerpt.cons_within (h : Excerpt i j σs [] tail slice) (hwithin : σ.Within i j) :
    Excerpt i j (σ :: σs) [] tail (String.utf8EncodeChar σ.char ++ slice) where
  bytes := by
    rw [whole_cons, if_pos hwithin, h.bytes, encode_cons, List.nil_append, List.nil_append,
      List.append_assoc]
  head := h.head
  tail := by
    have hcut : ¬ σ.CutOff i j := fun hcut => Nat.not_lt_of_le hwithin.2 hcut.2.2
    simpa [hcut] using h.tail

/-- A character in front that the range cuts off. -/
theorem Excerpt.cons_cutOff (h : Excerpt i j σs [] tail slice) (hcut : σ.CutOff i j)
    (hwhole : whole i j σs = []) (hcuts : ¬ ∃ σ ∈ σs, σ.CutOff i j) {own : List UInt8}
    (hown : IsStub own) : Excerpt i j (σ :: σs) [] own (own ++ slice) where
  bytes := by
    have hwithin : ¬ σ.Within i j := fun hwithin => Nat.not_lt_of_le hwithin.2 hcut.2.2
    have hslice : slice = [] := by
      rcases h.tail with ⟨hc, -⟩ | ⟨-, htail⟩
      · exact absurd hc hcuts
      · rw [h.bytes, hwhole, htail]
        rfl
    rw [whole_cons, if_neg hwithin, hwhole, hslice, List.append_nil]
    rfl
  head := h.head
  tail := .inl ⟨⟨σ, List.mem_cons_self .., hcut⟩, hown⟩

end

/-- The bytes of a range, taken character by character. A range that begins where the text begins
has no bytes from inside a character. -/
theorem exists_excerpt (cs : List Char) (start i j : Nat) :
    ∃ head tail, Excerpt i j (spansFrom start cs) head tail
        (((encode cs).take (j - start)).drop (i - start)) ∧ (i ≤ start → head = []) := by
  induction cs generalizing start with
  | nil =>
    refine ⟨[], [], ⟨by simp [spansFrom, whole], List.forall_mem_nil _, .inr ?_⟩, fun _ => rfl⟩
    simp [spansFrom]
  | cons c cs ih =>
    obtain ⟨head, tail, h, hhead⟩ := ih (start + c.utf8Size)
    have hpos := c.utf8Size_pos
    have hlength := String.length_utf8EncodeChar c
    have hslice := slice_append (String.utf8EncodeChar c) (encode cs) (i - start) (j - start)
    rw [hlength, Nat.sub_sub, Nat.sub_sub] at hslice
    rw [encode_cons, hslice, spansFrom]
    by_cases hi : i ≤ start
    · obtain rfl := hhead (by omega)
      rw [Nat.sub_eq_zero_of_le hi, List.drop_zero]
      by_cases hbefore : j ≤ start
      · -- the range ends before the character
        have hwithin : ¬ Span.Within i j ⟨c, start, start + c.utf8Size⟩ := by
          rintro ⟨-, hstop : start + c.utf8Size ≤ j⟩
          omega
        have hcut : ¬ Span.CutOff i j ⟨c, start, start + c.utf8Size⟩ :=
          fun hcut => Nat.not_lt_of_le hbefore hcut.2.1
        rw [Nat.sub_eq_zero_of_le hbefore, List.take_zero]
        exact ⟨[], tail, h.cons_outside hwithin hcut (List.forall_mem_nil _), fun _ => rfl⟩
      · by_cases hwithin : start + c.utf8Size ≤ j
        · rw [List.take_of_length_le (by omega)]
          exact ⟨[], tail, h.cons_within ⟨hi, hwithin⟩, fun _ => rfl⟩
        · -- the range ends inside the character, so all that follows is behind the range
          have hcut : Span.CutOff i j ⟨c, start, start + c.utf8Size⟩ :=
            ⟨hi, Nat.lt_of_not_le hbefore, Nat.lt_of_not_le hwithin⟩
          obtain ⟨hwhole, hcuts⟩ :=
            nothing_behind (i := i) (Nat.le_of_lt (Nat.lt_of_not_le hwithin)) cs
          exact ⟨[], _, h.cons_cutOff hcut hwhole hcuts ⟨c, j - start, by omega, by omega, rfl⟩,
            fun _ => rfl⟩
    · -- the range begins behind the first byte of the character, or behind all of it
      have hwithin : ¬ Span.Within i j ⟨c, start, start + c.utf8Size⟩ := fun h => hi h.1
      have hcut : ¬ Span.CutOff i j ⟨c, start, start + c.utf8Size⟩ := fun h => hi h.1
      exact ⟨_, tail, h.cons_outside hwithin hcut (isContinuation_of_mem_drop (by omega)),
        fun h => absurd h hi⟩

/-- What follows the bytes from inside a character begins a character. -/
theorem Excerpt.takeWhile_eq {i j : Nat} {σs : List Span} {head tail slice : List UInt8}
    (h : Excerpt i j σs head tail slice) : slice.takeWhile isContinuation = head := by
  have hrest : (encode (whole i j σs) ++ tail).takeWhile isContinuation = [] := by
    cases whole i j σs with
    | cons c cs =>
      obtain ⟨b, bs, p, hbytes, hp⟩ := exists_planned c
      simp [hbytes, hp.not_isContinuation]
    | nil =>
      rcases h.tail with ⟨-, c, n, hpos, -, rfl⟩ | ⟨-, rfl⟩
      · obtain ⟨b, bs, p, hbytes, hp⟩ := exists_planned c
        obtain ⟨m, rfl⟩ := Nat.exists_eq_add_of_lt hpos
        simp [hbytes, hp.not_isContinuation]
      · rfl
  rw [h.bytes, List.takeWhile_append_of_pos h.head, hrest, List.append_nil]

theorem Excerpt.lenient_eq {i j : Nat} {σs : List Span} {head tail slice : List UInt8}
    (h : Excerpt i j σs head tail slice) :
    lenient slice = List.replicate (slice.takeWhile isContinuation).length replacement ++
      whole i j σs ++ if ∃ σ ∈ σs, σ.CutOff i j then [replacement] else [] := by
  have htail : lenient tail = if ∃ σ ∈ σs, σ.CutOff i j then [replacement] else [] := by
    rcases h.tail with ⟨hcut, hstub⟩ | ⟨hcut, rfl⟩
    · rw [if_pos hcut, lenient_stub hstub]
    · rw [if_neg hcut]
      rfl
  rw [h.takeWhile_eq, h.bytes, lenient_continuations h.head, lenient_encode_append, htail,
    List.append_assoc]

end Text.Utf8

open Text.Utf8

/-- **The text of a range.** Let a node have any range of bytes of the encoding of `s`.

* If the range is in order and does not reach past the end, the text is one replacement character
  for each byte that goes on with a character begun before the range, then the characters that lie
  wholly inside, then one more replacement character if a character begun in the range is cut off.
* If the range is that of `b` in `a ++ b ++ c`, the text is `b`.
* If the range is reversed or reaches past the end, the text is empty. -/
theorem Tree.text_of_range (s : String) (info : NodeInfo) (children : List Tree) :
    let i := info.startByte
    let j := info.endByte
    let shown := (Tree.node info children).text s.toUTF8
    let slice := (s.toUTF8.extract i j).data.toList
    (i ≤ j → j ≤ s.toUTF8.size →
      shown = String.ofList (List.replicate (slice.takeWhile isContinuation).length replacement ++
        whole i j (spans s) ++ if ∃ σ ∈ spans s, σ.CutOff i j then [replacement] else [])) ∧
    (∀ a b c, s = a ++ b ++ c → i = a.toUTF8.size → j = a.toUTF8.size + b.toUTF8.size →
      shown = b) ∧
    (j < i ∨ s.toUTF8.size < j → shown = "") := by
  intro i j shown slice
  have hshown (hij : i ≤ j) (hj : j ≤ s.toUTF8.size) : shown = String.ofList (lenient slice) :=
    if_pos ⟨hij, hj⟩
  have hslice : slice = ((encode s.toList).take j).drop i := toList_extract_toUTF8 s i j
  refine ⟨fun hij hj => ?_, fun a b c hs hi hj => ?_, fun h => if_neg (by omega)⟩
  · obtain ⟨head, tail, h, -⟩ := exists_excerpt s.toList 0 i j
    rw [hshown hij hj, hslice]
    exact congrArg String.ofList h.lenient_eq
  · have hbytes : encode s.toList = encode a.toList ++ encode b.toList ++ encode c.toList := by
      rw [hs, String.toList_append, String.toList_append, encode_append, encode_append]
    have hsize : s.toUTF8.size = a.toUTF8.size + b.toUTF8.size + c.toUTF8.size := by
      simp only [size_toUTF8, hbytes, List.length_append]
    have hb : slice = encode b.toList := by
      rw [hslice, hbytes, hi, hj, size_toUTF8, size_toUTF8, ← List.length_append, List.take_left,
        List.drop_left]
    rw [hshown (by omega) (by omega), hb, lenient_encode, String.ofList_toList]

/-- The text `aé€😀` has its characters at the bytes 0, 1, 3 and 6, and ends at byte 10. -/
theorem Tree.text_of_range_cut :
    let shown i j := (Tree.node ⟨0, "string", true, none, i, j, 0, 0⟩ []).text "aé€😀".toUTF8
    shown 2 8 = "\uFFFD€\uFFFD" ∧ shown 7 9 = "\uFFFD\uFFFD" ∧ shown 1 6 = "é€" ∧
      shown 6 1 = "" ∧ shown 1 11 = "" := by
  intro shown
  have h (i j : Nat) := Tree.text_of_range "aé€😀" ⟨0, "string", true, none, i, j, 0, 0⟩ []
  refine ⟨((h 2 8).1 (by decide) (by decide)).trans (by decide +kernel),
    ((h 7 9).1 (by decide) (by decide)).trans (by decide +kernel),
    (h 1 6).2.1 "a" "é€" "😀" rfl rfl rfl, (h 6 1).2.2 (by decide), (h 1 11).2.2 (by decide)⟩

end CognitiveLoad
