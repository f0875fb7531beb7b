import Mathlib.Algebra.Order.Floor.Semifield
import Mathlib.Data.Rat.Floor
import CognitiveLoad.Proofs.Literals
import CognitiveLoad.Settings

/-!
Which thresholds are accepted. The right answer to a value that stands for a natural number is this
number, and every other value is to be refused.

* `Binary.magnitude_eq_floor`: numbers with a fraction are cut off exactly;
* `Offer.rightAnswer_iff`: the answer is right for all values but three kinds, `Offer.Slips`:
  infinite numbers, fractions above -1, and texts with too many digits.
-/

namespace CognitiveLoad

/-- The value of `finite negative m e`. -/
def Binary.value (negative : Bool) (m : Nat) (e : Int) : ℚ :=
  if negative then -(m * 2 ^ e) else m * 2 ^ e

/-- An error that refuses settings; the other one says that a conversion failed. -/
def SettingsError.IsRefusal (e : SettingsError) : Prop :=
  e ≠ .infinite

namespace Offer

/-- The number that a value stands for, if any. -/
def Denotes : Offer → ℚ → Prop
  | plain (.int n), q => q = n
  | plain (.bool b), q => q = if b then 1 else 0
  | plain (.text s), q => ∃ ds n, Text.Numeral s ds n ∧ q = n
  | binary (.finite negative m e), q => q = Binary.value negative m e
  | _, _ => False

/-- The right answers to a value: the natural number it stands for, and a refusal if there is
none. -/
def RightAnswer (v : Offer) : Except SettingsError Nat → Prop
  | .ok n => v.Denotes n
  | .error e => e.IsRefusal ∧ ∀ n : Nat, ¬ v.Denotes n

/-- The values that are judged wrongly. -/
inductive Slips : Offer → Prop
  | infinite (negative : Bool) : Slips (binary (.infinite negative))
  | fraction {negative : Bool} {m : Nat} {e : Int} (above : -1 < Binary.value negative m e)
      (between : ∀ n : Int, Binary.value negative m e ≠ n) :
      Slips (binary (.finite negative m e))
  | overlong {s : String} {ds : List Nat} {n : Int} (written : Text.Numeral s ds n)
      (nonneg : 0 ≤ n) (long : Text.maxDigits < ds.length) : Slips (plain (.text s))

end Offer

/-! ## Cutting off the fraction -/

theorem Binary.magnitude_eq_floor (m : Nat) (e : Int) : magnitude m e = ⌊(m * 2 ^ e : ℚ)⌋₊ := by
  cases e with
  | ofNat k =>
    have hvalue : (m * 2 ^ Int.ofNat k : ℚ) = ((m * 2 ^ k : Nat) : ℚ) := by simp
    rw [magnitude, hvalue, Nat.floor_natCast, Nat.shiftLeft_eq]
  | negSucc k =>
    have hvalue : (m * 2 ^ Int.negSucc k : ℚ) = (m : ℚ) / ((2 ^ (k + 1) : Nat) : ℚ) := by
      rw [zpow_negSucc, div_eq_mul_inv, Nat.cast_pow, Nat.cast_ofNat]
    rw [magnitude, hvalue, Nat.floor_div_eq_div, Nat.shiftRight_eq_div_pow]

namespace Offer

theorem threshold_of_integer {v : Offer} {n : Int} (h : v.integer = .ok n) :
    v.threshold = if 0 ≤ n then .ok n.toNat else .error .negative := by
  rw [threshold, h]
  cases n <;> rfl

theorem threshold_of_error {v : Offer} {e : SettingsError} (h : v.integer = .error e) :
    v.threshold = .error e := by
  rw [threshold, h]

/-- A number with a fraction is refused from -1 downwards, and its fraction is cut off above. -/
theorem threshold_finite (negative : Bool) (m : Nat) (e : Int) :
    (binary (.finite negative m e)).threshold =
      if Binary.value negative m e ≤ -1 then .error .negative
      else .ok ⌊Binary.value negative m e⌋₊ := by
  have hfloor := Binary.magnitude_eq_floor m e
  have hnonneg : (0 : ℚ) ≤ m * 2 ^ e := mul_nonneg (Nat.cast_nonneg m) (zpow_nonneg zero_le_two e)
  rw [threshold_of_integer rfl]
  cases negative with
  | false =>
    have hvalue : Binary.value false m e = m * 2 ^ e := rfl
    have habove : ¬ Binary.value false m e ≤ -1 := by
      rw [hvalue]
      linarith
    rw [if_neg habove, hvalue, ← hfloor]
    simp
  | true =>
    have hvalue : Binary.value true m e = -(m * 2 ^ e) := rfl
    have hbelow : Binary.value true m e ≤ -1 ↔ 0 < Binary.magnitude m e := by
      rw [hvalue, hfloor, Nat.floor_pos, neg_le_neg_iff]
    have hzero : ⌊Binary.value true m e⌋₊ = 0 :=
      Nat.floor_of_nonpos (by rw [hvalue]; exact neg_nonpos.mpr hnonneg)
    rw [hzero]
    by_cases hmagnitude : 0 < Binary.magnitude m e
    · rw [if_pos (hbelow.mpr hmagnitude)]
      simp [Nat.ne_of_gt hmagnitude]
    · rw [if_neg (hbelow.not.mpr hmagnitude)]
      simp [Nat.eq_zero_of_not_pos hmagnitude]

/-! ## Right answers -/

theorem rightAnswer_of_integer {v : Offer} {n : Int} (h : v.integer = .ok n)
    (hv : ∀ q, v.Denotes q ↔ q = n) : v.RightAnswer v.threshold := by
  rw [threshold_of_integer h]
  split
  · rename_i hn
    refine (hv _).mpr ?_
    exact_mod_cast Int.toNat_of_nonneg hn
  · rename_i hn
    refine ⟨nofun, fun k hk => hn ?_⟩
    have hkn : (k : Int) = n := by exact_mod_cast (hv _).mp hk
    omega

theorem rightAnswer_of_error {v : Offer} {e : SettingsError} (h : v.integer = .error e)
    (he : e.IsRefusal) (hv : ∀ q, ¬ v.Denotes q) : v.RightAnswer v.threshold := by
  rw [threshold_of_error h]
  exact ⟨he, fun n => hv n⟩

theorem rightAnswer_finite_iff (negative : Bool) (m : Nat) (e : Int) :
    (binary (.finite negative m e)).RightAnswer (binary (.finite negative m e)).threshold ↔
      ¬ (binary (.finite negative m e)).Slips := by
  rw [threshold_finite]
  split
  · rename_i hbelow
    have hslips : ¬ (binary (.finite negative m e)).Slips := by
      intro hslips
      cases hslips with
      | fraction above _ => exact absurd hbelow (not_le.mpr above)
    refine iff_of_true ⟨nofun, fun n (hn : (n : ℚ) = Binary.value negative m e) => ?_⟩ hslips
    have hpos : (0 : ℚ) ≤ n := Nat.cast_nonneg n
    linarith
  · rename_i habove
    constructor
    · intro (hright : ((⌊Binary.value negative m e⌋₊ : Nat) : ℚ) = _) hslips
      cases hslips with
      | fraction _ between => exact between _ (by exact_mod_cast hright.symm)
    · intro hslips
      -- an integer above -1 is its own integer part
      obtain ⟨n, hn⟩ : ∃ n : Int, Binary.value negative m e = n := by
        by_contra hno
        exact hslips (.fraction (not_le.mp habove) (not_exists.mp hno))
      show ((⌊Binary.value negative m e⌋₊ : Nat) : ℚ) = Binary.value negative m e
      rw [hn] at habove ⊢
      have hnonneg : 0 ≤ n := by
        have : (-1 : Int) < n := by exact_mod_cast not_le.mp habove
        omega
      obtain ⟨k, rfl⟩ := Int.eq_ofNat_of_zero_le hnonneg
      simp

theorem rightAnswer_text_iff (s : String) :
    (plain (.text s)).RightAnswer (plain (.text s)).threshold ↔ ¬ (plain (.text s)).Slips := by
  cases hread : Text.integer? s with
  | some n =>
    have hinteger : (plain (.text s)).integer = .ok n := by rw [integer, hread]
    refine iff_of_true (rightAnswer_of_integer hinteger fun q => ⟨?_, ?_⟩) ?_
    · rintro ⟨ds, n', hn', rfl⟩
      rw [(hn'.eq_of_integer? hread).2]
    · rintro rfl
      obtain ⟨ds, hn, -⟩ := Text.exists_numeral hread
      exact ⟨ds, n, hn, rfl⟩
    · intro hslips
      cases hslips with
      | overlong written _ long => exact absurd (written.eq_of_integer? hread).1 (not_le.mpr long)
  | none =>
    have hinteger : (plain (.text s)).integer = .error (.notInteger (Text.quoted s)) := by
      rw [integer, hread]
    rw [threshold_of_error hinteger]
    constructor
    · rintro ⟨-, hdenotes⟩ hslips
      cases hslips with
      | overlong written nonneg _ =>
        obtain ⟨k, hk⟩ := Int.eq_ofNat_of_zero_le nonneg
        exact hdenotes k ⟨_, _, written, by exact_mod_cast hk.symm⟩
    · intro hslips
      refine ⟨nofun, ?_⟩
      rintro k ⟨ds, n, hn, hk⟩
      have hkn : (k : Int) = n := by exact_mod_cast hk
      exact hslips (.overlong hn (by omega) (hn.long_of_integer? hread))

/-- The answer is right for all values but three kinds. -/
theorem rightAnswer_iff (v : Offer) : v.RightAnswer v.threshold ↔ ¬ v.Slips := by
  cases v with
  | plain v =>
    cases v with
    | int n => exact iff_of_true (rightAnswer_of_integer rfl fun q => Iff.rfl) nofun
    | bool b =>
      refine iff_of_true (rightAnswer_of_integer rfl fun q => ?_) nofun
      cases b <;> simp [Denotes]
    | text s => exact rightAnswer_text_iff s
    | null => exact iff_of_true (rightAnswer_of_error rfl nofun fun _ => id) nofun
    | list items => exact iff_of_true (rightAnswer_of_error rfl nofun fun _ => id) nofun
  | binary x =>
    cases x with
    | nan => exact iff_of_true (rightAnswer_of_error rfl nofun fun _ => id) nofun
    | infinite negative =>
      exact iff_of_false (fun hright => hright.1 rfl) (not_not.mpr (.infinite negative))
    | finite negative m e => exact rightAnswer_finite_iff negative m e

theorem threshold_of_overlong {s : String} {ds : List Nat} {n : Int} (h : Text.Numeral s ds n)
    (hlong : Text.maxDigits < ds.length) :
    (plain (.text s)).threshold = .error (.notInteger (Text.quoted s)) := by
  apply threshold_of_error
  rw [integer, h.integer?_eq, if_neg (not_le.mpr hlong)]

/-- Only an infinite number fails in another way than by a refusal. -/
theorem threshold_eq_infinite_iff (v : Offer) :
    v.threshold = .error .infinite ↔ ∃ negative, v = binary (.infinite negative) := by
  constructor
  · intro h
    have hslips : v.Slips := by
      by_contra hno
      have hright := v.rightAnswer_iff.mpr hno
      rw [h] at hright
      exact hright.1 rfl
    cases hslips with
    | infinite negative => exact ⟨negative, rfl⟩
    | fraction above _ =>
      rw [threshold_finite, if_neg (not_le.mpr above)] at h
      cases h
    | overlong written _ long =>
      rw [threshold_of_overlong written long] at h
      cases h
  · rintro ⟨negative, rfl⟩
    rfl

end Offer

namespace Settings.Request

theorem map_threshold_check (r : Settings.Request) :
    r.check.map Settings.threshold = r.threshold.threshold := by
  rw [check]
  cases r.threshold.threshold <;> rfl

/-- **A threshold is checked rightly, with three exceptions.** For every request:

* if its threshold stands for a natural number, the settings have this number, and otherwise they
  are refused, exactly if the threshold is neither an infinite number nor a fraction above -1 nor a
  text with too many digits of a natural number;
* an infinite number, and nothing else, ends in an error that is no refusal;
* of a number above -1 the fraction is cut off, so that -0.5 is accepted as 0;
* a text with too many digits is refused, whatever integer it writes. -/
theorem check_right_iff (r : Settings.Request) :
    (r.threshold.RightAnswer (r.check.map Settings.threshold) ↔ ¬ r.threshold.Slips) ∧
    (r.check.map Settings.threshold = .error .infinite ↔
      ∃ negative, r.threshold = .binary (.infinite negative)) ∧
    (∀ negative m e, r.threshold = .binary (.finite negative m e) →
      -1 < Binary.value negative m e →
      r.check.map Settings.threshold = .ok ⌊Binary.value negative m e⌋₊) ∧
    ∀ s ds n, r.threshold = .plain (.text s) → Text.Numeral s ds n →
      Text.maxDigits < ds.length →
      r.check.map Settings.threshold = .error (.notInteger (Text.quoted s)) := by
  rw [map_threshold_check]
  refine ⟨r.threshold.rightAnswer_iff, r.threshold.threshold_eq_infinite_iff, ?_, ?_⟩
  · intro negative m e hfinite habove
    rw [hfinite, Offer.threshold_finite, if_neg (not_le.mpr habove)]
  · intro s ds n htext hwritten hlong
    rw [htext, Offer.threshold_of_overlong hwritten hlong]

/-- Zero, written with the given number of digits. -/
def zeros (k : Nat) : String :=
  String.ofList (List.replicate k '0')

theorem numeral_zeros (k : Nat) : Text.Numeral (zeros (k + 1)) (List.replicate (k + 1) 0) 0 := by
  have hgrouped : Text.Grouped (List.replicate (k + 1) '0') (List.replicate (k + 1) 0) := by
    induction k with
    | zero => exact .last rfl
    | succ k ih => exact .next rfl ih
  have hvalue : Text.signed false (Nat.ofDigits 10 (List.replicate (k + 1) 0).reverse) = 0 := by
    rw [List.reverse_replicate, Nat.ofDigits_replicate_zero]
    rfl
  have htext : (zeros (k + 1)).toList = [] ++ ([] ++ List.replicate (k + 1) '0') ++ [] := by
    simp [zeros]
  rw [← hvalue]
  exact .intro htext nofun nofun .none hgrouped

/-- -0.5, infinity and zero with one digit too many are judged wrongly. -/
theorem check_right_iff_wrong :
    let half : Request := { threshold := .binary (.finite true (2 ^ 52) (-53)) }
    let infinity : Request := { threshold := .binary (.infinite false) }
    let long : Request := { threshold := .plain (.text (zeros 4301)) }
    (Binary.read? "-0.5").map .binary = some half.threshold ∧
      (half.check.map Settings.threshold = .ok 0 ∧ ¬ half.threshold.Denotes 0) ∧
      (Binary.read? "inf").map .binary = some infinity.threshold ∧
      infinity.check.map Settings.threshold = .error .infinite ∧
      long.check.map Settings.threshold = .error (.notInteger (Text.quoted (zeros 4301))) ∧
      long.threshold.Denotes 0 := by
  intro half infinity long
  have hhalf : Binary.read? "-0.5" = some (.finite true (2 ^ 52) (-53)) := by decide +kernel
  have hinfinity : Binary.read? "inf" = some (.infinite false) := by decide +kernel
  have hvalue : Binary.value true (2 ^ 52) (-53) = -1 / 2 := by
    norm_num [Binary.value]
  refine ⟨by rw [hhalf]; rfl, ⟨?_, ?_⟩, by rw [hinfinity]; rfl, ?_, ?_, ?_⟩
  · rw [half.check_right_iff.2.2.1 _ _ _ rfl (by rw [hvalue]; norm_num), hvalue,
      Nat.floor_of_nonpos (by norm_num)]
  · show (0 : ℚ) ≠ _
    rw [hvalue]
    norm_num
  · exact infinity.check_right_iff.2.1.mpr ⟨false, rfl⟩
  · exact long.check_right_iff.2.2.2 _ _ _ rfl (numeral_zeros 4300)
      (by rw [List.length_replicate]; decide)
  · exact ⟨_, _, numeral_zeros 4300, by simp⟩

end Settings.Request

end CognitiveLoad
