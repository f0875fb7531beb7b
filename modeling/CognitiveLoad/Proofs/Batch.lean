import Mathlib.Algebra.Order.BigOperators.Group.List
import Mathlib.Algebra.Order.Ring.Int
import CognitiveLoad.Proofs.Outcome
import CognitiveLoad.Proofs.Partition

/-!
Two ways to the scores of a text: a survey looks its definitions up and scores them one by one, and
a batch scores the bodies kept with its routines.

* `Scorer.batch_value`: a batch adds up the scores of its routines and never fails;
* `Survey.ofText_value`: a survey holds the findings of all definitions against its threshold;
* `Survey.agrees_with_batch`: where no two definitions begin at one byte and no body is a function,
  both give the same increments.
-/

namespace CognitiveLoad

/-! ## Batches -/

namespace Scorer

theorem batchFrom_value (s : Scorer) (text : String) (routines : List Routine) (sum : Score) :
    (s.batchFrom text sum routines).value = .ok
      { sum with
        total := sum.total + (routines.map fun r => (s.score text r.body).value.total).sum
        factors := sum.factors ++ routines.flatMap fun r => (s.score text r.body).value.factors
        functions := routines.foldl (fun m r => m.enter r.name (s.score text r.body).value.total)
          sum.functions } := by
  induction routines generalizing sum with
  | nil => simp [batchFrom]
  | cons r rest ih =>
    have hnonneg : ∀ f ∈ (s.score text r.body).value.factors, 0 ≤ f.increment := by
      intro f hf
      have := s.one_le_increment hf
      omega
    have hmerge := Score.merge_eq_ok hnonneg sum r.name
    simp only [batchFrom, Traced.value_bind, hmerge, ih, Score.foldl_push, ← total_score]
    simp [Int.add_assoc]

/-- A batch adds up the scores of its routines and keeps the last under each name. -/
theorem batch_value (s : Scorer) (text : String) (routines : List Routine) :
    (s.batch text routines).value = .ok
      { total := (routines.map fun r => (s.score text r.body).value.total).sum
        factors := routines.flatMap fun r => (s.score text r.body).value.factors
        functions := routines.foldl (fun m r => m.enter r.name (s.score text r.body).value.total)
          {} } := by
  rw [batch, batchFrom_value]
  simp

theorem total_nonneg (s : Scorer) (text : String) (p : Tree.Placed) :
    0 ≤ (s.score text p).value.total := by
  rw [total_score]
  apply List.sum_nonneg
  intro n hn
  obtain ⟨f, hf, rfl⟩ := List.mem_map.mp hn
  have := s.one_le_increment hf
  omega

end Scorer

/-! ## Definitions of a text -/

theorem Dialect.routines_value (d : Dialect) (text : String) (tree : Tree) :
    (d.routines text tree).value =
      (Outline.definitions d text.toUTF8 tree).value.map (Routine.ofDefinition d text.toUTF8) := rfl

namespace Reader

/-- The definitions that a reader finds in a text; there are none in an empty text or without a
tree. -/
def outline (r : Reader) (parsers : Parsers) (text : String) : List Definition :=
  if text = "" then []
  else
    match parsers.tree? r.dialect text with
    | some tree => (Outline.definitions r.dialect text.toUTF8 tree).value
    | none => []

theorem parse_value (r : Reader) (parsers : Parsers) (text : String) :
    (r.parse parsers text).value = parsers.tree? r.dialect text := by
  unfold parse
  cases parsers.tree? r.dialect text <;> rfl

theorem routines_value (r : Reader) (parsers : Parsers) (text file : String) :
    (r.routines parsers text file).value =
      (r.outline parsers text).map (Routine.ofDefinition r.dialect text.toUTF8) := by
  unfold routines outline
  by_cases ht : text = ""
  · simp [ht]
  · simp only [ht, if_false, Traced.value_bind, parse_value]
    cases parsers.tree? r.dialect text with
    | none => rfl
    | some tree => exact r.dialect.routines_value text tree

end Reader

/-- No two definitions of a tree begin at one byte, and no definition has a function for its
body. -/
structure Dialect.Separate (d : Dialect) (source : ByteArray) (tree : Tree) : Prop where
  starts : ((Outline.definitions d source tree).value.map (·.node.startByte)).Nodup
  bodies : ∀ e ∈ (Outline.definitions d source tree).value,
    (d.vocabulary.asFunction (e.node.child d.vocabulary.bodyField)).isMissing = true

/-- A function and its body have the same score, unless the body is a function itself. -/
theorem Scorer.score_body {d : Dialect} {s : Scorer} (hs : s.vocabulary = d.vocabulary)
    (text : String) (parent : Tree) {node : Tree} (hf : d.vocabulary.roleOf node = .function)
    (hbody : (d.vocabulary.asFunction (node.child d.vocabulary.bodyField)).isMissing = true) :
    (s.score text ⟨node, node.child d.vocabulary.bodyField⟩).value =
      (s.score text ⟨parent, node⟩).value := by
  have hown : s.bodyOf ⟨node, node.child d.vocabulary.bodyField⟩ =
      ⟨node, node.child d.vocabulary.bodyField⟩ := by
    simp [bodyOf, hs, hbody]
  have hnode : s.bodyOf ⟨parent, node⟩ = ⟨node, node.child d.vocabulary.bodyField⟩ :=
    bodyOf_of_function hs hf
  rw [score_value, score_value, hown, hnode]

namespace Survey

variable (s : Survey)

theorem assessAll_value (r : Reader) (text file : String) (definitions : List Definition)
    (routines : List Routine) :
    (s.assessAll r text file definitions routines).value =
      routines.filterMap fun routine => (s.assess r text file definitions routine).value := by
  induction routines with
  | nil => rfl
  | cons routine rest ih =>
    simp only [assessAll, Traced.value_bind, Traced.value_pure, ih, List.filterMap_cons]
    cases (s.assess r text file definitions routine).value <;> rfl

/-- The findings of a text are those of its definitions that reach the threshold. -/
theorem ofText_value {r : Reader} {text file : String} {asked : Option String}
    (hr : (s.catalog.create s.parsers ((s.languageFor file asked).getD "")).value = .ok (some r)) :
    (s.ofText text file asked).value = .ok
      ((r.outline s.parsers text).filterMap fun e =>
        (s.candidate? r text file (r.outline s.parsers text)
          (Routine.ofDefinition r.dialect text.toUTF8 e)).filter
            (reaches s.settings.threshold)) := by
  simp only [ofText, Traced.value_bind, hr, Reader.outline]
  by_cases ht : text = ""
  · simp [ht]
  · simp only [ht, if_false, Traced.value_bind, Reader.parse_value]
    cases s.parsers.tree? r.dialect text with
    | none => rfl
    | some tree =>
      simp only [Traced.value_map, ofTree, Traced.value_bind, Traced.value_pure, assessAll_value,
        assess_value, Dialect.routines_value, List.filterMap_map]
      rfl

/-! ## The two ways agree -/

/-- Where no two definitions begin at one byte, each is found by its own. -/
theorem definitionAt?_eq_some {definitions : List Definition} {e : Definition}
    (h : (definitions.map (·.node.startByte)).Nodup) (he : e ∈ definitions) :
    definitionAt? definitions e.node.startByte = some e := by
  unfold definitionAt?
  cases hfind : definitions.reverse.find? (·.node.startByte = e.node.startByte) with
  | none =>
    rw [List.find?_eq_none] at hfind
    exact absurd (by simp) (hfind e (List.mem_reverse.mpr he))
  | some e' =>
    have hmem : e' ∈ definitions := List.mem_reverse.mp (List.mem_of_find?_eq_some hfind)
    have hbyte : e'.node.startByte = e.node.startByte := by simpa using List.find?_some hfind
    rw [List.inj_on_of_nodup_map h hmem he hbyte]

variable {r : Reader} {text : String}

/-- The finding of a definition. -/
def finding (r : Reader) (text file : String) (e : Definition) : Finding :=
  .ofRoutine (Routine.ofDefinition r.dialect text.toUTF8 e)
    ((s.scorer r.dialect).score text ⟨.missing, e.node⟩).value file r.language

theorem outline_separate
    (h : ∀ tree, s.parsers.tree? r.dialect text = some tree →
      r.dialect.Separate text.toUTF8 tree) :
    ((r.outline s.parsers text).map (·.node.startByte)).Nodup ∧
      ∀ e ∈ r.outline s.parsers text,
        ((s.scorer r.dialect).score text
            (Routine.ofDefinition r.dialect text.toUTF8 e).body).value =
          ((s.scorer r.dialect).score text ⟨.missing, e.node⟩).value := by
  unfold Reader.outline
  by_cases ht : text = ""
  · simp [ht]
  · simp only [ht, if_false]
    cases htree : s.parsers.tree? r.dialect text with
    | none => simp
    | some tree =>
      have hsep := h tree htree
      refine ⟨hsep.starts, fun e he => ?_⟩
      obtain ⟨-, hrole, -⟩ := Outline.reaches_of_mem_listing r.dialect text.toUTF8 [] tree he
      exact Scorer.score_body rfl text .missing hrole (hsep.bodies e he)

/-- Without a threshold every definition has a finding. -/
theorem ofText_eq_map {file : String} {asked : Option String}
    (hr : (s.catalog.create s.parsers ((s.languageFor file asked).getD "")).value = .ok (some r))
    (hthreshold : s.settings.threshold = 0)
    (hstarts : ((r.outline s.parsers text).map (·.node.startByte)).Nodup) :
    (s.ofText text file asked).value =
      .ok ((r.outline s.parsers text).map (s.finding r text file)) := by
  rw [s.ofText_value hr, ← List.filterMap_eq_map]
  congr 1
  apply List.filterMap_congr
  intro e he
  have hfound : s.candidate? r text file (r.outline s.parsers text)
      (Routine.ofDefinition r.dialect text.toUTF8 e) = some (s.finding r text file e) := by
    unfold candidate?
    have hat : definitionAt? (r.outline s.parsers text)
        (Routine.ofDefinition r.dialect text.toUTF8 e).startByte = some e :=
      definitionAt?_eq_some hstarts he
    rw [hat]
    rfl
  -- no increment is negative, so no total is below a threshold of zero
  have hreaches : reaches s.settings.threshold (s.finding r text file e) = true := by
    rw [reaches_iff, hthreshold]
    exact Scorer.total_nonneg ..
  rw [hfound, Option.filter_some, if_pos hreaches]
  rfl

/-- Where bodies score like their definitions, a batch adds up the findings. -/
theorem batch_eq_findings (file label : String)
    (h : ∀ e ∈ r.outline s.parsers text,
      ((s.scorer r.dialect).score text (Routine.ofDefinition r.dialect text.toUTF8 e).body).value =
        ((s.scorer r.dialect).score text ⟨.missing, e.node⟩).value) :
    let fs := (r.outline s.parsers text).map (s.finding r text file)
    ((s.scorer r.dialect).batch text (r.routines s.parsers text label).value).value = .ok
      { total := (fs.map (·.complexity)).sum
        factors := fs.flatMap (·.factors)
        functions := fs.foldl (fun m f => m.enter f.function f.complexity) {} } := by
  simp only [Scorer.batch_value, r.routines_value, List.map_map, List.flatMap_map, List.foldl_map]
  congr 2
  · congr 1
    apply List.map_congr_left
    intro e he
    exact congrArg Score.total (h e he)
  · apply List.flatMap_congr
    intro e he
    exact congrArg Score.factors (h e he)
  · apply List.foldl_ext
    intro m e he
    rw [h e he]
    rfl

/-- **Survey and batch agree.** Take a text in a language for which a reader can be started, and a
survey without threshold. If no two definitions of the text begin at one byte and none has a
function for its body, the findings list the increments of the batch of its routines and add up to
its total, and the batch keeps under each name the complexity of the last finding of that name. -/
theorem agrees_with_batch (s : Survey) (r : Reader) (text file label : String)
    (asked : Option String)
    (hr : (s.catalog.create s.parsers ((s.languageFor file asked).getD "")).value = .ok (some r))
    (hthreshold : s.settings.threshold = 0)
    (htree : ∀ tree, s.parsers.tree? r.dialect text = some tree →
      r.dialect.Separate text.toUTF8 tree) :
    ∃ fs sum, (s.ofText text file asked).value = .ok fs ∧
      (Scorer.batch ⟨r.dialect.vocabulary, s.settings.countOperators⟩ text
        (r.routines s.parsers text label).value).value = .ok sum ∧
      fs.flatMap (·.factors) = sum.factors ∧
      (fs.map (·.complexity)).sum = sum.total ∧
      ∀ name, sum.functions.get? name =
        (fs.filter (·.function = name)).getLast?.map (·.complexity) := by
  obtain ⟨hstarts, hscore⟩ := s.outline_separate htree
  refine ⟨_, _, s.ofText_eq_map hr hthreshold hstarts, s.batch_eq_findings file label hscore, rfl,
    rfl, fun name => ?_⟩
  have hempty : ({} : Roster Int).get? name = none := rfl
  rw [Roster.get?_foldl_enter, hempty, Option.or_none]

def sampleSurvey : Survey :=
  ⟨sampleParsers, sampleCatalog, {}, .empty none⟩

theorem separate_sample : Dialect.python.Separate "fgf".toUTF8 sampleTree where
  starts := by decide +kernel
  bodies := by decide +kernel

/-- Two functions of the sample have the name `f`, and the batch keeps the second. -/
theorem agrees_with_batch_sample :
    let scorer : Scorer := ⟨Dialect.python.vocabulary, true⟩
    let batch := scorer.batch "fgf" (Dialect.python.reader.routines sampleParsers "fgf" "").value
    (∃ fs sum, (sampleSurvey.ofText "fgf" "a.py" none).value = .ok fs ∧ batch.value = .ok sum ∧
      fs.flatMap (·.factors) = sum.factors ∧ (fs.map (·.complexity)).sum = sum.total ∧
      ∀ name, sum.functions.get? name =
        (fs.filter (·.function = name)).getLast?.map (·.complexity)) ∧
    batch.value.toOption.map (fun sum => (sum.total, sum.functions.get? "f")) =
      some (6, some 1) := by
  refine ⟨agrees_with_batch sampleSurvey Dialect.python.reader "fgf" "a.py" "" none
    (by decide +kernel) rfl ?_, by decide +kernel⟩
  intro tree htree
  have hsample : sampleSurvey.parsers.tree? .python "fgf" = some sampleTree := by rfl
  cases hsample.symm.trans htree
  exact separate_sample

end Survey

end CognitiveLoad
