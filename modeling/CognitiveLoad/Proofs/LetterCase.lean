import CognitiveLoad.Settings

/-!
Names of languages are brought into a form that does not change any more. No lower-case letter has a
lower-case partner of its own (`settled_of_mem_lowerChar`), and none is blank, so a text that is
trimmed and lower-cased stays as it is when that is done again (`languageName?_again`).
-/

namespace CognitiveLoad

namespace Text

/-! ## The table of partners -/

namespace CaseRun

/-- The lower-case partner of a code point of the run. -/
def partner (r : CaseRun) (n : Nat) : Nat :=
  ((n : Int) + r.shift).toNat

/-- Whether no partner of a code point of `r` is in `r'`: the ranges are apart, or the partners are
even and `r'` is odd, or the other way round. -/
def clearOf (r r' : CaseRun) : Bool :=
  Nat.blt (r.partner r.last) r'.first || Nat.blt r'.last (r.partner r.first) ||
    ((Nat.beq (r.stride % 2) 0 || Nat.beq r.first r.last) && Nat.beq (r'.stride % 2) 0 &&
      Nat.beq ((r.partner r.first + r'.first) % 2) 1)

theorem even_sub_of_covers {r : CaseRun} {n : Nat} (h : r.covers n = true)
    (hstride : r.stride % 2 = 0) : (n - r.first) % 2 = 0 := by
  simp only [covers, Bool.and_eq_true, decide_eq_true_eq, beq_iff_eq] at h
  have hdvd : 2 ∣ n - r.first :=
    Nat.dvd_trans (Nat.dvd_of_mod_eq_zero hstride) (Nat.dvd_of_mod_eq_zero h.2)
  omega

theorem covers_range {r : CaseRun} {n : Nat} (h : r.covers n = true) :
    r.first ≤ n ∧ n ≤ r.last := by
  simp only [covers, Bool.and_eq_true, decide_eq_true_eq] at h
  exact h.1

theorem not_covers_partner {r r' : CaseRun} (h : r.clearOf r' = true)
    (hpartner : 0 ≤ (r.first : Int) + r.shift) {n : Nat} (hn : r.covers n = true) :
    r'.covers (r.partner n) = false := by
  obtain ⟨hfirst, hlast⟩ := covers_range hn
  rw [Bool.eq_false_iff]
  intro hcovers
  obtain ⟨hfirst', hlast'⟩ := covers_range hcovers
  simp only [clearOf, Bool.or_eq_true, Bool.and_eq_true, Nat.blt_eq, Nat.beq_eq] at h
  simp only [partner] at *
  rcases h with (hbefore | hafter) | ⟨⟨hodd, hstride'⟩, hparity⟩
  · omega
  · omega
  · have heven' := even_sub_of_covers hcovers hstride'
    rcases hodd with hstride | hsingle
    · have heven := even_sub_of_covers hn hstride
      omega
    · omega

end CaseRun

/-- The blank code points, as runs without partners of their own. -/
def blankRuns : List CaseRun :=
  [⟨0x09, 0x0D, 1, 0⟩, ⟨0x1C, 0x20, 1, 0⟩, ⟨0x85, 0x85, 1, 0⟩, ⟨0xA0, 0xA0, 1, 0⟩,
    ⟨0x1680, 0x1680, 1, 0⟩, ⟨0x2000, 0x200A, 1, 0⟩, ⟨0x2028, 0x2029, 1, 0⟩, ⟨0x202F, 0x202F, 1, 0⟩,
    ⟨0x205F, 0x205F, 1, 0⟩, ⟨0x3000, 0x3000, 1, 0⟩]

theorem covers_of_isBlank {c : Char} (h : isBlank c = true) :
    ∃ r ∈ blankRuns, r.covers c.toNat = true := by
  simp only [isBlank, Bool.or_eq_true, Bool.and_eq_true, decide_eq_true_eq, beq_iff_eq] at h
  simp only [blankRuns, List.mem_cons, List.not_mem_nil, or_false, exists_eq_or_imp,
    exists_eq_left, CaseRun.covers, Nat.mod_one, Bool.and_eq_true, decide_eq_true_eq,
    beq_self_eq_true, and_true]
  omega

/-- Where no partner may be: among letters with a partner, at the dotted capital I, among blanks. -/
def unsettledRuns : List CaseRun :=
  caseRuns ++ ⟨0x130, 0x130, 1, 0⟩ :: blankRuns

theorem partner_settled {r : CaseRun} (hr : r ∈ caseRuns) {n : Nat} (hn : r.covers n = true) :
    ∀ r' ∈ unsettledRuns, r'.covers (r.partner n) = false := by
  have hpartner : caseRuns.all (fun r => decide (0 ≤ (r.first : Int) + r.shift)) = true := by
    decide +kernel
  have hclear : caseRuns.all (fun r => unsettledRuns.all r.clearOf) = true := by decide +kernel
  rw [List.all_eq_true] at hpartner hclear
  intro r' hr'
  exact CaseRun.not_covers_partner (List.all_eq_true.mp (hclear r hr) r' hr')
    (by simpa using hpartner r hr) hn

/-! ## Letters that stay as they are -/

/-- A character that lower-casing leaves as it is, wherever it stands. -/
def Settled (c : Char) : Prop :=
  c.toNat ≠ 0x3A3 ∧ lowerChar c = [c]

theorem settled_of_not_covers {c : Char} (h : ∀ r ∈ unsettledRuns, r.covers c.toNat = false) :
    Settled c ∧ isBlank c = false := by
  have hsigma : c.toNat ≠ 0x3A3 := by
    intro heq
    have hcovered : unsettledRuns.any (·.covers 0x3A3) = true := by decide +kernel
    obtain ⟨r, hr, hcovers⟩ := List.any_eq_true.mp hcovered
    rw [← heq, h r hr] at hcovers
    cases hcovers
  have hdotted : c.toNat ≠ 0x130 := by
    intro heq
    have hfalse := h ⟨0x130, 0x130, 1, 0⟩ (by simp [unsettledRuns])
    rw [heq] at hfalse
    cases hfalse
  have hnone : caseRuns.find? (·.covers c.toNat) = none := by
    rw [List.find?_eq_none]
    intro r hr
    simp [h r (List.mem_append_left _ hr)]
  have hblank : isBlank c = false := by
    rw [Bool.eq_false_iff]
    intro hblank
    obtain ⟨r, hr, hcovers⟩ := covers_of_isBlank hblank
    rw [h r (by simp [unsettledRuns, hr])] at hcovers
    cases hcovers
  refine ⟨⟨hsigma, ?_⟩, hblank⟩
  rw [lowerChar, if_neg hdotted, hnone]

theorem settled_of_all {cs : List Char}
    (h : (cs.all fun c => unsettledRuns.all fun r => !r.covers c.toNat) = true) {c : Char}
    (hc : c ∈ cs) : Settled c ∧ isBlank c = false := by
  apply settled_of_not_covers
  intro r hr
  have hclear := List.all_eq_true.mp (List.all_eq_true.mp h c hc) r hr
  simpa using hclear

/-- What the dotted capital I becomes, and what stands for a code point that is none. -/
theorem settled_special {c : Char} (hc : c ∈ ['i', '\u0307', '\x00']) :
    Settled c ∧ isBlank c = false :=
  settled_of_all (by decide +kernel) hc

theorem toNat_ofNat_eq (n : Nat) : (Char.ofNat n).toNat = n ∨ Char.ofNat n = '\x00' := by
  by_cases h : n.isValidChar
  · rw [Char.ofNat, dif_pos h]
    exact .inl rfl
  · rw [Char.ofNat, dif_neg h]
    exact .inr rfl

theorem settled_partner {r : CaseRun} (hr : r ∈ caseRuns) {n : Nat} (hn : r.covers n = true) :
    Settled (Char.ofNat (r.partner n)) ∧ isBlank (Char.ofNat (r.partner n)) = false := by
  rcases toNat_ofNat_eq (r.partner n) with heq | heq
  · apply settled_of_not_covers
    intro r' hr'
    rw [heq]
    exact partner_settled hr hn r' hr'
  · rw [heq]
    exact settled_special (by simp)

/-- The lower-case form of a letter stays as it is, and is blank only if the letter is. -/
theorem settled_of_mem_lowerChar {c d : Char} (hc : c.toNat ≠ 0x3A3) (hd : d ∈ lowerChar c) :
    Settled d ∧ (isBlank c = false → isBlank d = false) := by
  by_cases hdotted : c.toNat = 0x130
  · rw [lowerChar, if_pos hdotted] at hd
    have hspecial := settled_special (List.mem_append_left ['\x00'] hd)
    exact ⟨hspecial.1, fun _ => hspecial.2⟩
  · cases hfind : caseRuns.find? (·.covers c.toNat) with
    | some r =>
      rw [lowerChar, if_neg hdotted, hfind, List.mem_singleton] at hd
      have hcovers : r.covers c.toNat = true :=
        List.find?_some (p := fun r : CaseRun => r.covers c.toNat) hfind
      have hpartner := settled_partner (List.mem_of_find?_eq_some hfind) hcovers
      rw [hd]
      exact ⟨hpartner.1, fun _ => hpartner.2⟩
    | none =>
      have hself : lowerChar c = [c] := by rw [lowerChar, if_neg hdotted, hfind]
      rw [hself, List.mem_singleton] at hd
      subst hd
      exact ⟨⟨hc, hself⟩, id⟩

/-! ## Texts that stay as they are -/

/-- What one character adds to a text in lower case. -/
theorem lowerAfter_cons_split (before rest : List Char) (c : Char) :
    ∃ here, here ≠ [] ∧ lowerAfter before (c :: rest) = here ++ lowerAfter (c :: before) rest ∧
      ∀ d ∈ here, Settled d ∧ (isBlank c = false → isBlank d = false) := by
  by_cases hc : c.toNat = 0x3A3
  · refine ⟨[if meetsCase before && !meetsCase rest then 'ς' else 'σ'], by simp, ?_, ?_⟩
    · rw [lowerAfter, if_pos hc]
    · intro d hd
      have hmem : d ∈ ['ς', 'σ'] := by
        rw [List.mem_singleton] at hd
        split at hd <;> simp [hd]
      have hsettled := settled_of_all (by decide +kernel) hmem
      exact ⟨hsettled.1, fun _ => hsettled.2⟩
  · refine ⟨lowerChar c, lowerChar_ne_nil c, ?_, fun d => settled_of_mem_lowerChar hc⟩
    rw [lowerAfter, if_neg hc]

theorem settled_of_mem_lowerAfter {before cs : List Char} :
    ∀ d ∈ lowerAfter before cs, Settled d := by
  induction cs generalizing before with
  | nil => simp [lowerAfter]
  | cons c rest ih =>
    obtain ⟨here, -, heq, hhere⟩ := lowerAfter_cons_split before rest c
    intro d hd
    rw [heq, List.mem_append] at hd
    rcases hd with hd | hd
    · exact (hhere d hd).1
    · exact ih d hd

theorem lowerAfter_settled {before cs : List Char} (h : ∀ c ∈ cs, Settled c) :
    lowerAfter before cs = cs := by
  induction cs generalizing before with
  | nil => rfl
  | cons c rest ih =>
    obtain ⟨hsigma, hself⟩ := h c (List.mem_cons_self ..)
    have hrest : ∀ c' ∈ rest, Settled c' := fun c' hc' => h c' (List.mem_cons_of_mem _ hc')
    rw [lowerAfter, if_neg hsigma, hself, ih hrest]
    rfl

theorem lower_lower (s : String) : lower (lower s) = lower s := by
  rw [lower, lower, String.toList_ofList, lowerAfter_settled settled_of_mem_lowerAfter]

/-- A text that neither begins nor ends with a blank. -/
structure Tight (cs : List Char) : Prop where
  head : ∀ c ∈ cs.head?, isBlank c = false
  last : ∀ c ∈ cs.getLast?, isBlank c = false

theorem dropWhile_of_head {p : Char → Bool} {cs : List Char} (h : ∀ c ∈ cs.head?, p c = false) :
    cs.dropWhile p = cs := by
  cases cs with
  | nil => rfl
  | cons c rest =>
    have hc : p c = false := h c rfl
    simp [hc]

theorem dropEndWhile_of_last {p : Char → Bool} {cs : List Char}
    (h : ∀ c ∈ cs.getLast?, p c = false) : dropEndWhile p cs = cs := by
  rw [← List.head?_reverse] at h
  rw [dropEndWhile, dropWhile_of_head h, List.reverse_reverse]

theorem Tight.trim_eq {s : String} (h : Tight s.toList) : trim s = s := by
  rw [trim, dropWhile_of_head h.head, dropEndWhile_of_last h.last, String.ofList_toList]

theorem not_blank_head_dropWhile (cs : List Char) :
    ∀ c ∈ (cs.dropWhile isBlank).head?, isBlank c = false := by
  intro c hc
  have hhead := List.head?_dropWhile_not isBlank cs
  rw [Option.mem_def.mp hc] at hhead
  exact hhead

theorem tight_trim (s : String) : Tight (trim s).toList := by
  have hprefix : dropEndWhile isBlank (s.toList.dropWhile isBlank) <+:
      s.toList.dropWhile isBlank := by
    rw [← List.reverse_suffix, dropEndWhile, List.reverse_reverse]
    exact List.dropWhile_suffix isBlank
  rw [trim, String.toList_ofList]
  constructor
  · intro c hc
    obtain ⟨blanks, hblanks⟩ := hprefix
    apply not_blank_head_dropWhile s.toList
    rw [← hblanks, List.head?_append, Option.mem_def.mp hc]
    rfl
  · rw [dropEndWhile, List.getLast?_reverse]
    exact not_blank_head_dropWhile _

theorem lowerAfter_eq_nil {before cs : List Char} (h : lowerAfter before cs = []) : cs = [] := by
  cases cs with
  | nil => rfl
  | cons c rest =>
    obtain ⟨here, hne, heq, -⟩ := lowerAfter_cons_split before rest c
    rw [heq] at h
    exact absurd (List.append_eq_nil_iff.mp h).1 hne

theorem not_blank_head_lowerAfter {before cs : List Char} (h : ∀ c ∈ cs.head?, isBlank c = false) :
    ∀ d ∈ (lowerAfter before cs).head?, isBlank d = false := by
  cases cs with
  | nil => simp [lowerAfter]
  | cons c rest =>
    obtain ⟨here, hne, heq, hhere⟩ := lowerAfter_cons_split before rest c
    obtain ⟨first, others, rfl⟩ := List.exists_cons_of_ne_nil hne
    intro d hd
    rw [heq, List.cons_append, List.head?_cons, Option.mem_some] at hd
    subst hd
    exact (hhere first (List.mem_cons_self ..)).2 (h c rfl)

theorem not_blank_last_lowerAfter {before cs : List Char}
    (h : ∀ c ∈ cs.getLast?, isBlank c = false) :
    ∀ d ∈ (lowerAfter before cs).getLast?, isBlank d = false := by
  induction cs generalizing before with
  | nil => simp [lowerAfter]
  | cons c rest ih =>
    obtain ⟨here, hne, heq, hhere⟩ := lowerAfter_cons_split before rest c
    intro d hd
    rw [heq, List.getLast?_append] at hd
    cases rest with
    | nil =>
      rw [lowerAfter, List.getLast?_nil, Option.none_or] at hd
      exact (hhere d (List.mem_of_getLast? hd)).2 (h c rfl)
    | cons c' rest =>
      have hlater : ∀ e ∈ (c' :: rest).getLast?, isBlank e = false := by
        rw [List.getLast?_cons_cons] at h
        exact h
      cases hend : (lowerAfter (c :: before) (c' :: rest)).getLast? with
      | none => exact absurd (lowerAfter_eq_nil (List.getLast?_eq_none_iff.mp hend)) (by simp)
      | some e =>
        rw [hend, Option.some_or, Option.mem_some] at hd
        subst hd
        exact ih hlater e hend

/-- A trimmed text in lower case is trimmed and in lower case. -/
theorem trim_lower_trim (s : String) : trim (lower (trim s)) = lower (trim s) := by
  apply Tight.trim_eq
  rw [lower, String.toList_ofList]
  have htight := tight_trim s
  exact ⟨not_blank_head_lowerAfter htight.head, not_blank_last_lowerAfter htight.last⟩

end Text

/-- The name of a language is its own name. -/
theorem languageName?_again (s : String) :
    (languageName? s).bind languageName? = languageName? s := by
  unfold languageName?
  dsimp only
  split
  · rfl
  · rename_i hne
    rw [Option.bind_some, Text.trim_lower_trim, Text.lower_lower, if_neg hne]

end CognitiveLoad
