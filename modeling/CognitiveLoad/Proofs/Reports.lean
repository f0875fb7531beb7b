import Mathlib.Algebra.Order.Ring.Int
import CognitiveLoad.Proofs.Decoding
import CognitiveLoad.Report

/-!
JSON reports carry their findings. A report is read back as the document it was written from, and a
document tells all of a finding but its parameters.

* `ascii_renderAt`: a document is written in ASCII;
* `Finding.eq_of_toJson`: findings with the same document differ at most in their parameters;
* `json_carries_findings`: so do the findings of equal reports, position by position.
-/

namespace CognitiveLoad

namespace Json

/-! ## ASCII -/

def Ascii (s : List Char) : Prop :=
  ∀ c ∈ s, c.toNat < 128

theorem ascii_append {s t : List Char} (hs : Ascii s) (ht : Ascii t) : Ascii (s ++ t) := by
  intro c hc
  rcases List.mem_append.mp hc with hc | hc
  · exact hs c hc
  · exact ht c hc

theorem ascii_intercalate {sep : List Char} (hsep : Ascii sep) {ss : List (List Char)}
    (h : ∀ s ∈ ss, Ascii s) : Ascii (sep.intercalate ss) := by
  induction ss with
  | nil => simp [Ascii]
  | cons s rest ih =>
    have hs := h s (List.mem_cons_self ..)
    have hrest := ih fun t ht => h t (List.mem_cons_of_mem _ ht)
    cases rest with
    | nil => simpa using hs
    | cons t rest =>
      rw [List.intercalate_cons_cons]
      exact ascii_append (ascii_append hs hsep) hrest

theorem ascii_of_isGap {g : List Char} (h : ∀ c ∈ g, isGap c = true) : Ascii g := by
  intro c hc
  have hgap := h c hc
  simp only [isGap, Bool.or_eq_true, decide_eq_true_eq] at hgap
  rcases hgap with ((rfl | rfl) | rfl) | rfl <;> decide

theorem ascii_int (n : Int) : Ascii (toString n).toList := by
  rw [toList_int]
  apply ascii_append
  · split <;> simp [Ascii]
  · intro c hc
    have hdigit := isDigit_digits _ c hc
    simp only [Char.isDigit, Bool.and_eq_true, decide_eq_true_eq, UInt32.le_iff_toNat_le] at hdigit
    exact Nat.lt_of_le_of_lt hdigit.2 (by decide)

theorem ascii_escapeUnit (n : Nat) : Ascii (escapeUnit n) := by
  have hdigit : ∀ d < 16, (Nat.digitChar d).toNat < 128 := by decide
  have hhex (w m : Nat) : Ascii (Text.hexDigits w m) := by
    induction w generalizing m with
    | zero => simp [Text.hexDigits, Ascii]
    | succ w ih =>
      rw [Text.hexDigits]
      refine ascii_append (ih _) fun c hc => ?_
      rw [List.mem_singleton.mp hc]
      exact hdigit _ (Nat.mod_lt _ (by decide))
  have hmarks : Ascii ['\\', 'u'] := by
    simp [Ascii]
  exact ascii_append hmarks (hhex 4 n)

theorem ascii_escapeChar (c : Char) : Ascii (escapeChar c) := by
  have hwritten := writtenAs_escapeChar c
  generalize escapeChar c = written at hwritten ⊢
  cases hwritten with
  | short d h =>
    have hd := (lt_of_escaped h).1
    simpa [Ascii] using hd
  | plain hquote hbackslash hlow hhigh =>
    intro d hd
    rw [List.mem_singleton.mp hd]
    omega
  | unit h => exact ascii_escapeUnit _
  | pair h => exact ascii_append (ascii_escapeUnit _) (ascii_escapeUnit _)

theorem ascii_quote (s : String) : Ascii (quote s).toList := by
  have hmark : Ascii ['"'] := by simp [Ascii]
  have hinner : Ascii (s.toList.flatMap escapeChar) := by
    intro c hc
    obtain ⟨d, -, hd⟩ := List.mem_flatMap.mp hc
    exact ascii_escapeChar d c hd
  rw [quote, String.toList_ofList]
  exact ascii_append (ascii_append hmark hinner) hmark

theorem ascii_enclose (l : Layout) (depth : Nat) {opener closer : String}
    (ho : Ascii opener.toList) (hc : Ascii closer.toList) {items : List String}
    (h : ∀ s ∈ items, Ascii s.toList) : Ascii (enclose l depth opener closer items).toList := by
  obtain ⟨g, hbetween, hg⟩ := l.between_eq depth
  have hcomma : Ascii [','] := by simp [Ascii]
  have hitems : Ascii ((l.between depth).intercalate items).toList := by
    rw [String.toList_intercalate, hbetween]
    apply ascii_intercalate (ascii_append hcomma (ascii_of_isGap hg))
    intro s hs
    obtain ⟨t, ht, rfl⟩ := List.mem_map.mp hs
    exact h t ht
  unfold enclose
  split
  · rw [String.toList_append]
    exact ascii_append ho hc
  · simp only [String.toList_append]
    exact ascii_append (ascii_append (ascii_append (ascii_append ho
      (ascii_of_isGap (l.isGap_opening depth))) hitems)
      (ascii_of_isGap (l.isGap_closing depth))) hc

theorem ascii_renderItems (l : Layout) (depth : Nat) {items : List Json}
    (h : ∀ v ∈ items, Ascii (renderAt l depth v).toList) :
    ∀ s ∈ renderItems l depth items, Ascii s.toList := by
  induction items with
  | nil => simp [renderItems]
  | cons v rest ih =>
    rw [renderItems, List.forall_mem_cons]
    exact ⟨h v (List.mem_cons_self ..), ih fun w hw => h w (List.mem_cons_of_mem _ hw)⟩

theorem ascii_renderFields (l : Layout) (depth : Nat) {fields : List (String × Json)}
    (h : ∀ k v, (k, v) ∈ fields → Ascii (renderAt l depth v).toList) :
    ∀ s ∈ renderFields l depth fields, Ascii s.toList := by
  induction fields with
  | nil => simp [renderFields]
  | cons f rest ih =>
    obtain ⟨k, v⟩ := f
    have hcolon : Ascii ": ".toList := by simp [Ascii]
    rw [renderFields, List.forall_mem_cons]
    refine ⟨?_, ih fun k v hf => h k v (List.mem_cons_of_mem _ hf)⟩
    rw [String.toList_append, String.toList_append]
    exact ascii_append (ascii_append (ascii_quote k) hcolon) (h k v (List.mem_cons_self ..))

/-- A document is written in ASCII. -/
theorem ascii_renderAt (l : Layout) (depth : Nat) (v : Json) :
    Ascii (renderAt l depth v).toList := by
  induction v using induct generalizing depth with
  | int n =>
    rw [renderAt]
    exact ascii_int n
  | text s =>
    rw [renderAt]
    exact ascii_quote s
  | list items ih =>
    rw [renderAt]
    exact ascii_enclose l depth (by simp [Ascii]) (by simp [Ascii])
      (ascii_renderItems l (depth + 1) fun v hv => ih v hv (depth + 1))
  | object fields ih =>
    rw [renderAt]
    exact ascii_enclose l depth (by simp [Ascii]) (by simp [Ascii])
      (ascii_renderFields l (depth + 1) fun k v hf => ih k v hf (depth + 1))

end Json

/-! ## Documents of findings -/

theorem Category.name_injective : Function.Injective Category.name := by
  intro a b h
  cases a <;> cases b <;> first | rfl | exact absurd h (by decide)

theorem Factor.toJson_injective : Function.Injective Factor.toJson := by
  intro f g h
  simp only [toJson, Json.object.injEq, List.cons.injEq, Prod.mk.injEq, Json.text.injEq,
    Json.int.injEq, true_and, and_true] at h
  obtain ⟨hdescription, hincrement, hline, hcategory⟩ := h
  cases f
  cases g
  rw [Factor.mk.injEq]
  exact ⟨hdescription, hincrement, hline, Category.name_injective hcategory⟩

namespace Finding

/-- The list of increments is left out where it is empty, and can be told nevertheless. -/
theorem factors_eq_of_toJson {fs gs : List Factor}
    (h : (if !fs.isEmpty then [("factors", Json.list (fs.map Factor.toJson))] else []) =
      if !gs.isEmpty then [("factors", Json.list (gs.map Factor.toJson))] else []) : fs = gs := by
  cases fs with
  | nil =>
    cases gs with
    | nil => rfl
    | cons g gs => cases h
  | cons f fs =>
    cases gs with
    | nil => cases h
    | cons g gs =>
      simp only [List.isEmpty_cons, Bool.not_false, if_true, List.cons.injEq, Prod.mk.injEq,
        Json.list.injEq, true_and, and_true] at h
      exact List.map_injective_iff.mpr Factor.toJson_injective h

/-- Findings with the same document differ at most in their parameters. -/
theorem eq_of_toJson {f g : Finding} (h : f.toJson true = g.toJson true) :
    f = { g with parameters := f.parameters } := by
  simp only [toJson, Json.object.injEq, Bool.true_and] at h
  obtain ⟨hfields, hfactors⟩ := List.append_inj h rfl
  simp only [List.cons.injEq, Prod.mk.injEq, Json.text.injEq, Json.int.injEq, true_and,
    and_true] at hfields
  obtain ⟨hfile, hfunction, hcomplexity, hstart, hend, hlanguage⟩ := hfields
  cases f
  cases g
  rw [Finding.mk.injEq]
  exact ⟨hfile, hlanguage, hfunction, hstart, hend, hcomplexity, factors_eq_of_toJson hfactors, rfl⟩

end Finding

namespace Report

theorem total_eq_sum (fs : List Finding) : Finding.total fs = (fs.map (·.complexity)).sum := by
  simp [Finding.total, List.sum]

/-- A report is read back as the document it was written from. -/
theorem decode_json (indent : Option Int) (fs : List Finding) :
    Json.decode (json indent fs) = some (document fs) :=
  Json.decode_render _ _ (by simp [Json.isGap])

theorem forall₂_of_document {fs gs : List Finding} (h : document fs = document gs) :
    List.Forall₂ (fun f g => f = { g with parameters := f.parameters }) fs gs := by
  have hresults : fs.map (·.toJson true) = gs.map (·.toJson true) := by
    simp only [document, Json.object.injEq, List.cons.injEq, Prod.mk.injEq, Json.list.injEq,
      true_and, and_true] at h
    exact h.2
  have hsame : List.Forall₂ (fun f g => Finding.toJson f true = Finding.toJson g true) fs gs := by
    rw [← List.forall₂_map_right_iff, ← List.forall₂_map_left_iff, hresults, List.forall₂_same]
    exact fun _ _ => rfl
  exact hsame.imp fun _ _ hfg => Finding.eq_of_toJson hfg

/-- **A JSON report loses nothing it carries.** With any indent, lists of findings that have the
same report are of the same length and differ, position by position, at most in their parameters. A
report is ASCII, and holds the findings in order and the sum of their complexities. -/
theorem json_carries_findings (indent : Option Int) :
    (∀ fs gs, json indent fs = json indent gs →
      List.Forall₂ (fun f g => f = { g with parameters := f.parameters }) fs gs) ∧
    ∀ fs, (∀ c ∈ (json indent fs).toList, c.toNat < 128) ∧
      Json.decode (json indent fs) = some (.object
        [("total_complexity", .int (fs.map (·.complexity)).sum),
          ("results", .list (fs.map (·.toJson true)))]) := by
  refine ⟨fun fs gs h => ?_, fun fs => ⟨?_, ?_⟩⟩
  · have hdecode := congrArg Json.decode h
    rw [decode_json, decode_json] at hdecode
    exact forall₂_of_document (Option.some.inj hdecode)
  · have hnewline : Json.Ascii "\n".toList := by simp [Json.Ascii]
    rw [json, String.toList_append]
    exact Json.ascii_append (Json.ascii_renderAt _ 0 _) hnewline
  · rw [decode_json, document, total_eq_sum]

/-- A finding whose name has a quote and a character past the basic plane. -/
def quotedFinding (parameters : List String) : Finding :=
  { file := "a.py", language := "python", function := "f\"😀", startLine := 1, endLine := 2,
    complexity := 1, factors := [⟨"if (structural)", 1, 2, .structural⟩], parameters }

/-- The two lists have the same report and differ in the parameters of a function. -/
theorem json_carries_findings_quoted :
    json (some 2) [quotedFinding ["x"]] = json (some 2) [quotedFinding []] ∧
      List.Forall₂ (fun f g => f = { g with parameters := f.parameters }) [quotedFinding ["x"]]
        [quotedFinding []] ∧
      quotedFinding ["x"] ≠ quotedFinding [] := by
  have hsame : json (some 2) [quotedFinding ["x"]] = json (some 2) [quotedFinding []] := rfl
  exact ⟨hsame, (json_carries_findings (some 2)).1 _ _ hsame, by decide⟩

end Report

end CognitiveLoad
