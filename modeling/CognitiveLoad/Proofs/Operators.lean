import Mathlib.Data.List.Forall2
import CognitiveLoad.Proofs.Descent
import CognitiveLoad.Proofs.Outcome

/-!
What counting logical operators adds. With and without it the walk takes the same steps at the same
levels, so the increments without it are those with it, less the ones for logical expressions
(`charges_without_operators`). A survey that does not count them therefore reports some of the
functions that it reports otherwise, each with the rest of its increments (`operators_only_add`).
-/

namespace CognitiveLoad

namespace Factor

def isFundamental (f : Factor) : Bool :=
  f.category = .fundamental

/-- The increments that are not for logical expressions. -/
def others (fs : List Factor) : List Factor :=
  fs.filter fun f => !f.isFundamental

/-- The number of increments for logical expressions. -/
def fundamentals (fs : List Factor) : Nat :=
  (fs.filter isFundamental).length

theorem others_of_fundamental {fs : List Factor} (h : ∀ f ∈ fs, f.category = .fundamental) :
    others fs = [] := by
  rw [others, List.filter_eq_nil_iff]
  intro f hf
  simp [isFundamental, h f hf]

theorem others_of_not_fundamental {fs : List Factor} (h : ∀ f ∈ fs, f.category ≠ .fundamental) :
    others fs = fs := by
  rw [others, List.filter_eq_self]
  intro f hf
  simp [isFundamental, h f hf]

/-- Where logical expressions count one each, the other increments make up the rest of the sum. -/
theorem sum_eq_others_add {fs : List Factor}
    (h : ∀ f ∈ fs, f.category = .fundamental → f.increment = 1) :
    (fs.map (·.increment)).sum =
      ((others fs).map (·.increment)).sum + fundamentals fs := by
  induction fs with
  | nil => rfl
  | cons f rest ih =>
    have hrest := ih fun g hg => h g (List.mem_cons_of_mem _ hg)
    by_cases hf : f.category = .fundamental
    · have hone := h f (List.mem_cons_self ..) hf
      have hothers : others (f :: rest) = others rest := by
        simp [others, isFundamental, hf]
      have hcount : fundamentals (f :: rest) = fundamentals rest + 1 := by
        simp [fundamentals, isFundamental, hf]
      rw [List.map_cons, List.sum_cons, hrest, hone, hothers, hcount]
      omega
    · have hothers : others (f :: rest) = f :: others rest := by
        simp [others, isFundamental, hf]
      have hcount : fundamentals (f :: rest) = fundamentals rest := by
        simp [fundamentals, isFundamental, hf]
      rw [List.map_cons, List.sum_cons, hrest, hothers, hcount, List.map_cons, List.sum_cons]
      omega

end Factor

namespace Scorer

variable (v : Vocabulary)

theorem factors_without_operators (source : ByteArray) (level : Nat) (parent node : Tree) :
    factors ⟨v, false⟩ source level parent node =
      Factor.others (factors ⟨v, true⟩ source level parent node) := by
  have hcontrol : controlFactors ⟨v, false⟩ level parent node =
      Factor.others (controlFactors ⟨v, true⟩ level parent node) :=
    (Factor.others_of_not_fundamental fun f hf => (mem_controlFactors ⟨v, true⟩ hf).1).symm
  have hoperator : Factor.others (operatorFactors ⟨v, true⟩ source parent node) = [] :=
    Factor.others_of_fundamental fun f hf => (mem_operatorFactors ⟨v, true⟩ source hf).1
  simp only [factors, Bool.false_eq_true, if_false, if_true, hcontrol]
  split
  · exact hoperator.symm
  · split
    · rfl
    · rfl

theorem charges_without_operators (source : ByteArray) (level : Nat) (parent t : Tree) :
    charges ⟨v, false⟩ source level parent t =
      Factor.others (charges ⟨v, true⟩ source level parent t) := by
  induction t using Tree.induct generalizing level parent with
  | missing => rfl
  | node info cs ih =>
    by_cases hf : v.roleOf (.node info cs) = .function
    · rw [charges_of_function ⟨v, false⟩ source hf, charges_of_function ⟨v, true⟩ source hf]
      rfl
    · -- the flag is read where increments are listed and nowhere else
      have hopens : opensLevel ⟨v, false⟩ parent (.node info cs) =
          opensLevel ⟨v, true⟩ parent (.node info cs) := rfl
      rw [charges_node ⟨v, false⟩ source hf, charges_node ⟨v, true⟩ source hf,
        factors_without_operators, hopens, Factor.others, Factor.others, List.filter_append,
        List.filter_flatMap]
      congr 1
      apply List.flatMap_congr
      intro c hc
      exact ih c hc _ _

theorem score_without_operators (text : String) (p : Tree.Placed) :
    let on := (score ⟨v, true⟩ text p).value
    let off := (score ⟨v, false⟩ text p).value
    off.factors = Factor.others on.factors ∧
      on.total = off.total + Factor.fundamentals on.factors := by
  have hbody : bodyOf ⟨v, false⟩ p = bodyOf ⟨v, true⟩ p := rfl
  simp only [score_value, hbody, charges_without_operators]
  refine ⟨trivial, Factor.sum_eq_others_add fun f hf => ?_⟩
  exact (mem_charges ⟨v, true⟩ text.toUTF8 hf).2

end Scorer

/-! ## Surveys -/

/-- A finding less its increments for logical expressions. -/
def Finding.withoutOperators (f : Finding) : Finding :=
  { f with
    complexity := f.complexity - Factor.fundamentals f.factors
    factors := Factor.others f.factors }

namespace Survey

theorem screened_operators (parsers : Parsers) (catalog : Catalog) (settings : Settings)
    (ignore : Ignore.Matcher) :
    Screened Finding.withoutOperators
      ⟨parsers, catalog, { settings with countOperators := true }, ignore⟩
      ⟨parsers, catalog, { settings with countOperators := false }, ignore⟩ where
  parsers := rfl
  catalog := rfl
  ignore := rfl
  language := rfl
  recursive := rfl
  candidate? r text file definitions routine := by
    unfold candidate?
    cases definitionAt? definitions routine.startByte with
    | none => rfl
    | some d =>
      obtain ⟨hfactors, htotal⟩ :=
        Scorer.score_without_operators r.dialect.vocabulary text ⟨.missing, d.node⟩
      simp only [Option.map_some, Finding.ofRoutine, Finding.withoutOperators, scorer, hfactors,
        htotal, Int.add_sub_cancel]
  reaches f hf := by
    rw [reaches_iff] at hf ⊢
    simp only [Finding.withoutOperators] at hf ⊢
    omega

theorem withoutOperators_le (f : Finding) : f.withoutOperators.complexity ≤ f.complexity := by
  simp only [Finding.withoutOperators]
  omega

theorem screen_sublist (threshold : Nat) (gs : List Finding) :
    List.SublistForall₂ (fun f g => f = g.withoutOperators ∧ f.complexity ≤ g.complexity)
      (screen Finding.withoutOperators threshold gs) gs := by
  rw [List.sublistForall₂_iff]
  refine ⟨gs.filter (reaches threshold ∘ Finding.withoutOperators), ?_, List.filter_sublist⟩
  rw [screen, List.filter_map, List.forall₂_map_left_iff, List.forall₂_same]
  intro g _
  exact ⟨rfl, withoutOperators_le g⟩

/-- **Logical operators only add.** Not to count them takes their increments away and nothing else:
the other increments keep their order, amounts and lines. So every function that a survey reports
without counting them is among those reported with them, in the same order, with the rest of its
increments there and a complexity that is not smaller. -/
theorem operators_only_add :
    (∀ (v : Vocabulary) (text : String) (p : Tree.Placed),
      let on := (Scorer.score ⟨v, true⟩ text p).value
      let off := (Scorer.score ⟨v, false⟩ text p).value
      off.factors = on.factors.filter (·.category ≠ .fundamental) ∧
        on.total - off.total = (on.factors.filter (·.category = .fundamental)).length) ∧
    ∀ (parsers : Parsers) (engine : Ignore.Engine) (catalog : Catalog) (settings : Settings)
      (ws : Workspace) (q : Question),
      let on := outcome parsers engine catalog { settings with countOperators := true } ws q
      let off := outcome parsers engine catalog { settings with countOperators := false } ws q
      (∀ e, off = .error e ↔ on = .error e) ∧
        ∀ fs, off = .ok fs → ∃ gs, on = .ok gs ∧
          List.SublistForall₂ (fun f g => f = g.withoutOperators ∧ f.complexity ≤ g.complexity)
            fs gs := by
  constructor
  · intro v text p on off
    obtain ⟨hfactors, htotal⟩ := Scorer.score_without_operators v text p
    refine ⟨?_, ?_⟩
    · rw [hfactors]
      simp [Factor.others, Factor.isFundamental, on]
    · rw [htotal]
      exact add_sub_cancel_left _ _
  · intro parsers engine catalog settings ws q on off
    have hscreen : off = on.map (screen Finding.withoutOperators settings.threshold) :=
      outcome_screened engine (fun ignore => screened_operators parsers catalog settings ignore) rfl
        ws q
    refine ⟨fun e => by rw [hscreen, map_error_iff], fun fs hfs => ?_⟩
    rw [hscreen] at hfs
    cases hon : on with
    | error e =>
      rw [hon] at hfs
      cases hfs
    | ok gs =>
      rw [hon] at hfs
      cases hfs
      exact ⟨gs, rfl, screen_sublist settings.threshold gs⟩

theorem operators_only_add_sample :
    let count := fun b => outcome sampleParsers Ignore.globs sampleCatalog { countOperators := b }
      {} (.text "fgf" "a.py" none)
    ∃ fs gs, count false = .ok fs ∧ count true = .ok gs ∧
      List.SublistForall₂ (fun f g => f = g.withoutOperators ∧ f.complexity ≤ g.complexity) fs gs ∧
      fs.map (·.complexity) = [1, 3, 1] ∧ gs.map (·.complexity) = [2, 3, 1] := by
  intro count
  have hoff : (count false).toOption.map (List.map (·.complexity)) = some [1, 3, 1] := by
    decide +kernel
  have hon : (count true).toOption.map (List.map (·.complexity)) = some [2, 3, 1] := by
    decide +kernel
  cases hfs : count false with
  | error e =>
    rw [hfs] at hoff
    cases hoff
  | ok fs =>
    obtain ⟨gs, hgs, hsub⟩ := (operators_only_add.2 sampleParsers Ignore.globs sampleCatalog {} {}
      (.text "fgf" "a.py" none)).2 fs hfs
    change count true = .ok gs at hgs
    rw [hfs] at hoff
    rw [hgs] at hon
    exact ⟨fs, gs, rfl, hgs, hsub, Option.some.inj hoff, Option.some.inj hon⟩

end Survey

end CognitiveLoad
