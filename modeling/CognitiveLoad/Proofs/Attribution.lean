import CognitiveLoad.Proofs.Batch
import CognitiveLoad.Proofs.Messages

/-!
Which definition a survey scores for a routine. Routines and definitions come from two walks of one
tree and are brought together by their start bytes only, so of several definitions at one byte the
last one stands for all.

* `definitionAt?_eq_getLast?`: looking up a start byte gives the last definition there;
* `located_ofText`: a survey locates every routine;
* `attributes_scores`: each routine is reported with the score of the definition located for it.
-/

namespace CognitiveLoad

/-- The warning of a survey that it has no definition for a routine. -/
def Entry.isUnlocated (e : Entry) : Bool :=
  e.level = .warning && e.origin = .survey && "Could not locate ".toList.isPrefixOf e.message.toList

theorem Entry.located_of_ne {e : Entry} (h : e.level ≠ .warning) : e.isUnlocated = false := by
  simp [isUnlocated, h]

namespace Survey

variable (s : Survey)

/-! ## Looking definitions up -/

theorem definitionAt?_eq_getLast? (definitions : List Definition) (startByte : Nat) :
    definitionAt? definitions startByte =
      (definitions.filter (·.node.startByte = startByte)).getLast? := by
  rw [definitionAt?, ← List.head?_filter, List.filter_reverse, List.head?_reverse]

/-- A definition stands at the start byte of each of the definitions. -/
theorem isSome_definitionAt? {definitions : List Definition} {e : Definition}
    (he : e ∈ definitions) : (definitionAt? definitions e.node.startByte).isSome = true := by
  rw [definitionAt?, List.find?_isSome]
  exact ⟨e, List.mem_reverse.mpr he, by simp⟩

/-! ## Located routines -/

theorem unwarned_assess {r : Reader} {text file : String} {definitions : List Definition}
    {routine : Routine} (h : (definitionAt? definitions routine.startByte).isSome = true) :
    (s.assess r text file definitions routine).Writes (·.level ≠ .warning) := by
  obtain ⟨e, he⟩ := Option.isSome_iff_exists.mp h
  unfold assess
  rw [he]
  refine (((s.scorer r.dialect).debug_score text _).mono fun e he => he.ne_warning).bind ?_
  refine Traced.writes_note_bind (by simp) ?_
  split <;> exact Traced.writes_pure _

theorem unwarned_assessAll {r : Reader} {text file : String} {definitions : List Definition}
    {routines : List Routine}
    (h : ∀ u ∈ routines, (definitionAt? definitions u.startByte).isSome = true) :
    (s.assessAll r text file definitions routines).Writes (·.level ≠ .warning) := by
  induction routines with
  | nil => exact Traced.writes_pure _
  | cons u rest ih =>
    have hrest := ih fun w hw => h w (List.mem_cons_of_mem _ hw)
    exact (s.unwarned_assess (h u (List.mem_cons_self ..))).bind
      (hrest.bind (Traced.writes_pure _))

theorem unwarned_ofTree (r : Reader) (text file : String) (tree : Tree) :
    (s.ofTree r text file tree).Writes (·.level ≠ .warning) := by
  refine ((r.dialect.debug_routines text tree).mono fun e he => he.ne_warning).bind ?_
  refine ((Outline.debug_definitions r.dialect text.toUTF8 tree).mono
    fun e he => he.ne_warning).bind ?_
  -- both walks find the same definitions, so a routine comes from one of those looked up
  refine (s.unwarned_assessAll fun u hu => ?_).bind ?_
  · rw [Dialect.routines_value] at hu
    obtain ⟨e, he, rfl⟩ := List.mem_map.mp hu
    exact isSome_definitionAt? he
  · exact Traced.writes_note_bind (by simp) (Traced.writes_pure _)

/-- A survey never says that it could not locate a routine. -/
theorem located_ofText (text file : String) (asked : Option String) :
    (s.ofText text file asked).Writes (·.isUnlocated = false) := by
  refine ((s.catalog.unwarned_create s.parsers _).mono fun e he => e.located_of_ne he).bind ?_
  split
  · exact Traced.writes_pure _
  · refine Traced.writes_note_bind ?_ (Traced.writes_pure _)
    simp [Entry.isUnlocated, ToString.toString, List.isPrefixOf]
  · rename_i r _
    split
    · refine Traced.writes_note_bind ?_ (Traced.writes_pure _)
      simp [Entry.isUnlocated, ToString.toString, List.isPrefixOf]
    · refine ((r.unwarned_parse s.parsers text).mono fun e he => e.located_of_ne he).bind ?_
      split
      · exact Traced.writes_note_bind rfl (Traced.writes_pure _)
      · exact ((s.unwarned_ofTree r text file _).mono fun e he => e.located_of_ne he).map _

/-! ## Reported scores -/

/-- The definition located for a routine. -/
def located (definitions : List Definition) (u : Routine) : Definition :=
  (definitionAt? definitions u.startByte).getD ⟨.missing, []⟩

theorem definitionAt?_eq_located {d : Dialect} {source : ByteArray} {definitions : List Definition}
    {u : Routine} (hu : u ∈ definitions.map (Routine.ofDefinition d source)) :
    definitionAt? definitions u.startByte = some (located definitions u) := by
  obtain ⟨e, he, rfl⟩ := List.mem_map.mp hu
  obtain ⟨e', he'⟩ := Option.isSome_iff_exists.mp (isSome_definitionAt? he)
  have hat : definitionAt? definitions (Routine.ofDefinition d source e).startByte = some e' := he'
  rw [located, hat]
  rfl

/-- The findings of a parsed text, each with the score of the definition located for its routine. -/
theorem ofText_eq_located {r : Reader} {text file : String} {asked : Option String} {tree : Tree}
    (hr : (s.catalog.create s.parsers ((s.languageFor file asked).getD "")).value = .ok (some r))
    (htext : text ≠ "") (htree : s.parsers.tree? r.dialect text = some tree) :
    let definitions := (Outline.definitions r.dialect text.toUTF8 tree).value
    (s.ofText text file asked).value = .ok
      (((r.dialect.routines text tree).value.map fun u =>
        Finding.ofRoutine u
          ((s.scorer r.dialect).score text ⟨.missing, (located definitions u).node⟩).value
          file r.language).filter (reaches s.settings.threshold)) := by
  intro definitions
  have houtline : r.outline s.parsers text = definitions := by
    rw [Reader.outline, if_neg htext, htree]
  rw [s.ofText_value hr, houtline, Dialect.routines_value, List.map_map, ← List.filterMap_eq_filter,
    List.filterMap_map]
  congr 1
  apply List.filterMap_congr
  intro e he
  have hat := definitionAt?_eq_located
    (List.mem_map_of_mem (f := Routine.ofDefinition r.dialect text.toUTF8) he)
  rw [candidate?, hat]
  simp [Option.filter, Option.guard]

/-- **Every routine has its score.** A survey of a text never misses the definition of a routine.
Its findings are, in the order of the routines, those whose score reaches the threshold, and the
score is that of the last definition, in document order, that begins where the routine does. Where
no two definitions begin at one byte, that is the routine's own. The complexity of a finding is the
sum of its increments, all of which are at least one. -/
theorem attributes_scores (s : Survey) (text file : String) (asked : Option String) :
    (∀ e ∈ (s.ofText text file asked).log, e.isUnlocated = false) ∧
    ∀ r, (s.catalog.create s.parsers ((s.languageFor file asked).getD "")).value = .ok (some r) →
      (text = "" → (s.ofText text file asked).value = .ok []) ∧
      (text ≠ "" → ∀ tree, s.parsers.tree? r.dialect text = some tree →
        let definitions := (Outline.definitions r.dialect text.toUTF8 tree).value
        let routines := (r.dialect.routines text tree).value
        let scorer : Scorer := ⟨r.dialect.vocabulary, s.settings.countOperators⟩
        (definitions.map (·.node)).Sublist tree.nodes ∧
        routines = definitions.map (Routine.ofDefinition r.dialect text.toUTF8) ∧
        ∃ used : Routine → Definition,
          (∀ u ∈ routines,
            (definitions.filter (·.node.startByte = u.startByte)).getLast? = some (used u)) ∧
          ((definitions.map (·.node.startByte)).Nodup → routines.map used = definitions) ∧
          ∃ fs, (s.ofText text file asked).value = .ok fs ∧
            fs = (routines.map fun u =>
              let score := (scorer.score text ⟨.missing, (used u).node⟩).value
              { file
                language := r.language
                function := u.name
                startLine := u.startLine
                endLine := u.endLine
                complexity := score.total
                factors := score.factors
                parameters := u.parameters }).filter
              (fun f => (s.settings.threshold : Int) ≤ f.complexity) ∧
            ∀ f ∈ fs, f.complexity = (f.factors.map (·.increment)).sum ∧
              ∀ g ∈ f.factors, 1 ≤ g.increment) := by
  refine ⟨s.located_ofText text file asked, fun r hr => ⟨fun ht => ?_, fun ht tree htree => ?_⟩⟩
  · rw [s.ofText_value hr, Reader.outline, if_pos ht]
    rfl
  · intro definitions routines scorer
    have hroutines : routines = definitions.map (Routine.ofDefinition r.dialect text.toUTF8) :=
      Dialect.routines_value ..
    refine ⟨?_, hroutines, located definitions, ?_, ?_, _, s.ofText_eq_located hr ht htree, rfl, ?_⟩
    · exact Outline.map_node_listing_sublist ..
    · intro u hu
      rw [← definitionAt?_eq_getLast?]
      exact definitionAt?_eq_located (hroutines ▸ hu)
    · intro hstarts
      have hown : ∀ e ∈ definitions,
          located definitions (Routine.ofDefinition r.dialect text.toUTF8 e) = e := by
        intro e he
        have hat : definitionAt? definitions
            (Routine.ofDefinition r.dialect text.toUTF8 e).startByte = some e :=
          definitionAt?_eq_some hstarts he
        rw [located, hat]
        rfl
      rw [hroutines, List.map_map]
      exact (List.map_congr_left hown).trans (List.map_id _)
    · intro f hf
      obtain ⟨u, -, rfl⟩ := List.mem_map.mp (List.mem_filter.mp hf).1
      exact ⟨scorer.total_score .., fun g hg => scorer.one_le_increment hg⟩

/-- Two functions that begin at one byte; only the second has a loop. -/
def sharedStart : Tree :=
  .ofListing [some ⟨"module", true, none, 0, 2, 0, 1, 2⟩,
    some ⟨"function_definition", true, none, 0, 1, 0, 0, 2⟩,
    some ⟨"identifier", true, some "name", 0, 1, 0, 0, 0⟩,
    some ⟨"block", true, some "body", 1, 1, 0, 0, 0⟩,
    some ⟨"function_definition", true, none, 0, 2, 1, 1, 2⟩,
    some ⟨"identifier", true, some "name", 1, 2, 1, 1, 0⟩,
    some ⟨"block", true, some "body", 2, 2, 1, 1, 1⟩,
    some ⟨"while_statement", true, none, 2, 2, 1, 1, 0⟩]

def sharedSurvey : Survey :=
  ⟨{ tree? := fun _ _ => some sharedStart }, sampleCatalog, { threshold := 1 }, .empty none⟩

/-- Both functions are reported with the score of the second. -/
theorem attributes_scores_shared :
    sharedSurvey.parsers.tree? .python "fg" = some sharedStart ∧
    (∀ e ∈ (sharedSurvey.ofText "fg" "a.py" none).log, e.isUnlocated = false) ∧
    ∃ fs, (sharedSurvey.ofText "fg" "a.py" none).value = .ok fs ∧
      fs.map (fun f => (f.function, f.startLine, f.complexity)) = [("f", 1, 1), ("g", 2, 1)] ∧
      ∀ f ∈ fs, f.complexity = (f.factors.map (·.increment)).sum ∧
        ∀ g ∈ f.factors, 1 ≤ g.increment := by
  have htree : sharedSurvey.parsers.tree? .python "fg" = some sharedStart := rfl
  obtain ⟨hlog, hfindings⟩ := attributes_scores sharedSurvey "fg" "a.py" none
  obtain ⟨-, -, used, -, -, fs, hfs, -, hsum⟩ :=
    (hfindings Dialect.python.reader (by decide +kernel)).2 (by decide) sharedStart htree
  have hshown : ((sharedSurvey.ofText "fg" "a.py" none).value.toOption.map
      (List.map fun f => (f.function, f.startLine, f.complexity))) =
      some [("f", 1, 1), ("g", 2, 1)] := by
    decide +kernel
  rw [hfs] at hshown
  exact ⟨htree, hlog, fs, hfs, Option.some.inj hshown, hsum⟩

end Survey

end CognitiveLoad
