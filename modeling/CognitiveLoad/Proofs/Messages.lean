import CognitiveLoad.Survey

/-!
What computations write. Outlines and scores are told for debugging only (`debug_definitions`,
`debug_score`), and a survey says that a language is not supported exactly if the catalog has no
reader for it (`Survey.unsupported_iff`).
-/

namespace CognitiveLoad

namespace Traced

variable {α β : Type} {P : Entry → Prop}

/-- Every message written has the property `P`. -/
def Writes (x : Traced α) (P : Entry → Prop) : Prop :=
  ∀ e ∈ x.log, P e

theorem writes_pure (a : α) : (pure a : Traced α).Writes P := by
  intro e he
  cases he

theorem Writes.bind {x : Traced α} {f : α → Traced β} (hx : x.Writes P)
    (hf : (f x.value).Writes P) : (x >>= f).Writes P := by
  intro e he
  rw [log_bind, List.mem_append] at he
  exact he.elim (hx e) (hf e)

theorem writes_note {level : Level} {origin : Origin} {message : String}
    (h : P ⟨level, origin, message⟩) : (note level origin message).Writes P := by
  intro e he
  cases List.mem_singleton.mp he
  exact h

theorem writes_note_bind {level : Level} {origin : Origin} {message : String}
    {f : Unit → Traced β} (h : P ⟨level, origin, message⟩) (hf : (f ()).Writes P) :
    (note level origin message >>= f).Writes P :=
  (writes_note h).bind hf

theorem Writes.map {x : Traced α} (hx : x.Writes P) (f : α → β) : (f <$> x).Writes P := by
  intro e he
  rw [map_eq_pure_bind, log_bind, log_pure, List.append_nil] at he
  exact hx e he

theorem Writes.mono {x : Traced α} {Q : Entry → Prop} (hx : x.Writes P) (h : ∀ e, P e → Q e) :
    x.Writes Q :=
  fun e he => h e (hx e he)

theorem writes_forM {f : α → Traced PUnit} (h : ∀ a, (f a).Writes P) (l : List α) :
    (l.forM f).Writes P := by
  induction l with
  | nil => exact writes_pure _
  | cons a rest ih => exact (h a).bind ih

end Traced

/-! ## For debugging -/

def Entry.IsDebug (e : Entry) : Prop :=
  e.level = .debug

theorem Dialect.debug_definitionName (d : Dialect) (source : ByteArray) (definition : Tree) :
    (d.definitionName source definition).Writes Entry.IsDebug := by
  cases d with
  | python => exact Traced.writes_pure _
  | cpp =>
    unfold definitionName
    dsimp only
    split
    · exact Traced.writes_note_bind rfl (Traced.writes_pure _)
    · exact Traced.writes_pure _

namespace Outline

theorem debug_step (d : Dialect) (source : ByteArray) {st : State} (h : ∀ e ∈ st.log, e.IsDebug) :
    ∀ e ∈ (step d source st).log, e.IsDebug := by
  unfold step
  split
  · exact h
  · rename_i scope node rest _
    have hname := d.debug_definitionName source (d.vocabulary.asFunction node)
    dsimp only
    split
    · exact h
    · split
      · simpa only [List.forall_mem_append] using ⟨h, hname⟩
      · simpa only [List.forall_mem_append, List.forall_mem_singleton] using ⟨⟨h, hname⟩, rfl⟩

theorem debug_advance (d : Dialect) (source : ByteArray) (n : Nat) {st : State}
    (h : ∀ e ∈ st.log, e.IsDebug) : ∀ e ∈ (advance d source n st).log, e.IsDebug := by
  induction n generalizing st with
  | zero => exact h
  | succ n ih => exact ih (debug_step d source h)

theorem debug_definitions (d : Dialect) (source : ByteArray) (root : Tree) :
    (definitions d source root).Writes Entry.IsDebug :=
  debug_advance d source _ (by simp)

end Outline

theorem Dialect.debug_routines (d : Dialect) (text : String) (tree : Tree) :
    (d.routines text tree).Writes Entry.IsDebug := by
  refine (Outline.debug_definitions d text.toUTF8 tree).bind ?_
  refine Traced.writes_note_bind rfl ?_
  refine Traced.Writes.bind (Traced.writes_forM (fun r => ?_) _) (Traced.writes_pure _)
  exact Traced.writes_note rfl

theorem Scorer.debug_score (s : Scorer) (source : String) (p : Tree.Placed) :
    (s.score source p).Writes Entry.IsDebug := by
  unfold score
  dsimp only
  split
  · exact Traced.writes_note_bind rfl (Traced.writes_pure _)
  · split
    · exact Traced.writes_note_bind rfl (Traced.writes_pure _)
    · intro e he
      rcases List.mem_cons.mp he with rfl | he
      · rfl
      · obtain ⟨note, -, rfl⟩ := List.mem_map.mp he
        cases note <;> rfl

/-! ## Unsupported languages -/

/-- The warning of a survey that it cannot read the language of a file. -/
def Entry.isUnsupported (e : Entry) : Bool :=
  e.level = .warning && e.origin = .survey &&
    "Unsupported language for ".toList.isPrefixOf e.message.toList

theorem Entry.supported_of_ne {e : Entry} (h : e.level ≠ .warning) : e.isUnsupported = false := by
  simp [isUnsupported, h]

theorem Entry.IsDebug.ne_warning {e : Entry} (h : e.IsDebug) : e.level ≠ .warning := by
  have hlevel : e.level = .debug := h
  simp [hlevel]

theorem Entry.IsDebug.supported {e : Entry} (h : e.IsDebug) : e.isUnsupported = false :=
  supported_of_ne h.ne_warning

theorem Reader.unwarned_start (r : Reader) (parsers : Parsers) :
    (r.start parsers).Writes (·.level ≠ .warning) := by
  unfold start
  split
  · exact Traced.writes_pure _
  · exact Traced.writes_note_bind (by simp) (Traced.writes_pure _)

theorem Catalog.unwarned_create (c : Catalog) (parsers : Parsers) (language : String) :
    (c.create parsers language).Writes (·.level ≠ .warning) := by
  unfold create
  split
  · exact Traced.writes_pure _
  · rename_i r _
    refine (r.unwarned_start parsers).bind ?_
    split <;> exact Traced.writes_pure _

theorem Reader.unwarned_parse (r : Reader) (parsers : Parsers) (text : String) :
    (r.parse parsers text).Writes (·.level ≠ .warning) := by
  unfold parse
  split
  · exact Traced.writes_pure _
  · exact Traced.writes_note_bind (by simp) (Traced.writes_pure _)

namespace Survey

variable (s : Survey)

theorem supported_assess (r : Reader) (text file : String) (definitions : List Definition)
    (routine : Routine) :
    (s.assess r text file definitions routine).Writes (·.isUnsupported = false) := by
  unfold assess
  split
  · refine Traced.writes_note_bind ?_ (Traced.writes_pure _)
    simp [Entry.isUnsupported, ToString.toString, List.isPrefixOf]
  · refine (((s.scorer r.dialect).debug_score text _).mono fun e he => he.supported).bind ?_
    refine Traced.writes_note_bind rfl ?_
    split <;> exact Traced.writes_pure _

theorem supported_assessAll (r : Reader) (text file : String) (definitions : List Definition)
    (routines : List Routine) :
    (s.assessAll r text file definitions routines).Writes (·.isUnsupported = false) := by
  induction routines with
  | nil => exact Traced.writes_pure _
  | cons routine rest ih =>
    exact (s.supported_assess r text file definitions routine).bind
      (ih.bind (Traced.writes_pure _))

theorem supported_ofTree (r : Reader) (text file : String) (tree : Tree) :
    (s.ofTree r text file tree).Writes (·.isUnsupported = false) := by
  refine ((r.dialect.debug_routines text tree).mono fun e he => he.supported).bind ?_
  refine ((Outline.debug_definitions r.dialect text.toUTF8 tree).mono
    fun e he => he.supported).bind ?_
  refine (s.supported_assessAll r text file _ _).bind ?_
  exact Traced.writes_note_bind rfl (Traced.writes_pure _)

theorem supported_ofText {text file : String} {asked : Option String}
    (h : (s.catalog.create s.parsers ((s.languageFor file asked).getD "")).value ≠ .ok none) :
    (s.ofText text file asked).Writes (·.isUnsupported = false) := by
  refine ((s.catalog.unwarned_create s.parsers _).mono fun e he => e.supported_of_ne he).bind ?_
  split
  · exact Traced.writes_pure _
  · rename_i hnone
    exact absurd hnone h
  · rename_i r _
    split
    · refine Traced.writes_note_bind ?_ (Traced.writes_pure _)
      simp [Entry.isUnsupported, ToString.toString, List.isPrefixOf]
    · refine ((r.unwarned_parse s.parsers text).mono fun e he => e.supported_of_ne he).bind ?_
      split
      · exact Traced.writes_note_bind rfl (Traced.writes_pure _)
      · exact (s.supported_ofTree r text file _).map _

/-- A survey says that a language is not supported exactly if the catalog has no reader for it. -/
theorem unsupported_iff (text file : String) (asked : Option String) :
    (∃ e ∈ (s.ofText text file asked).log, e.isUnsupported = true) ↔
      (s.catalog.create s.parsers ((s.languageFor file asked).getD "")).value = .ok none := by
  constructor
  · rintro ⟨e, he, hunsupported⟩
    refine Classical.byContradiction fun h => ?_
    rw [s.supported_ofText h e he] at hunsupported
    cases hunsupported
  · intro h
    let shown := (s.languageFor file asked).getD "None"
    refine ⟨⟨.warning, .survey, s!"Unsupported language for {shownFile file}: {shown}"⟩, ?_, ?_⟩
    · simp only [ofText, Traced.log_bind, h, List.mem_append]
      exact .inr (.inl (List.mem_singleton_self _))
    · simp [Entry.isUnsupported, ToString.toString, List.isPrefixOf]

theorem supported_ofFile {p : Path}
    (h : (s.catalog.create s.parsers ((s.languageFor p.toString none).getD "")).value ≠ .ok none)
    (ws : Workspace) : (s.ofFile ws p).Writes (·.isUnsupported = false) := by
  refine Traced.writes_note_bind rfl ?_
  split
  · exact Traced.writes_pure _
  · exact Traced.writes_note_bind rfl (Traced.writes_pure _)
  · exact s.supported_ofText h

end Survey

end CognitiveLoad
