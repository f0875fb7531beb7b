import CognitiveLoad.Text.CaseTable

/-!
Lower-casing of whole texts. Every upper-case letter goes to its partner; two letters need more
than a table: capital I with a dot becomes two characters, and a capital sigma becomes a final
sigma where it ends a word.
-/

namespace CognitiveLoad.Text

def CaseRun.covers (r : CaseRun) (n : Nat) : Bool :=
  r.first ≤ n && n ≤ r.last && (n - r.first) % r.stride == 0

/-- The lower-case form of one letter, apart from where it stands. -/
def lowerChar (c : Char) : List Char :=
  if c.toNat = 0x130 then ['i', '\u0307']
  else
    match caseRuns.find? (·.covers c.toNat) with
    | some r => [Char.ofNat ((c.toNat : Int) + r.shift).toNat]
    | none => [c]

theorem lowerChar_ne_nil (c : Char) : lowerChar c ≠ [] := by
  unfold lowerChar
  split
  · simp
  · split <;> simp

def isCased (c : Char) : Bool :=
  casedRanges.any fun r => r.1 ≤ c.toNat && c.toNat ≤ r.2

def isCaseIgnorable (c : Char) : Bool :=
  caseIgnorableRanges.any fun r => r.1 ≤ c.toNat && c.toNat ≤ r.2

/-- Whether the nearest character that is not passed over has case. -/
def meetsCase (cs : List Char) : Bool :=
  ((cs.dropWhile isCaseIgnorable).head?.map isCased).getD false

/-- Lower-cases the characters that follow `before`, which is given nearest first. -/
def lowerAfter (before : List Char) : List Char → List Char
  | [] => []
  | c :: rest =>
    let here :=
      if c.toNat = 0x3A3 then
        [if meetsCase before && !meetsCase rest then 'ς' else 'σ']
      else lowerChar c
    here ++ lowerAfter (c :: before) rest

def lower (s : String) : String :=
  String.ofList (lowerAfter [] s.toList)

/-- Only the empty text is empty in lower case. -/
theorem lower_ne_empty {s : String} (h : s ≠ "") : lower s ≠ "" := by
  intro hl
  have hnil : lowerAfter [] s.toList = [] := by
    rw [← String.toList_ofList (l := lowerAfter [] s.toList)]
    exact congrArg String.toList hl
  cases hs : s.toList with
  | nil => exact h (String.toList_eq_nil_iff.mp hs)
  | cons c rest =>
    rw [hs, lowerAfter] at hnil
    have hhere := (List.append_eq_nil_iff.mp hnil).1
    split at hhere
    · cases hhere
    · exact lowerChar_ne_nil c hhere

end CognitiveLoad.Text
