import Mathlib.Tactic.SplitIfs
import CognitiveLoad.CommandLine.Run
import CognitiveLoad.Proofs.Outcome

/-!
How runs of the command end. A run that comes to its end writes the whole report, fails with a
message or tells a usage error, and the arguments, the settings and the path decide which of these
it is (`run_ends_in_three_ways`). A run breaks off in two cases only: an option that is read as a
text has no value, or the path is longer than the system takes.

Two limits of the model bear on this. Every directory of a workspace may be searched; below one that
may not, it could not be told whether a path exists, which would be a third case. And a report is a
text, so nothing is said about characters that an output has no code for; such a report would fail.
-/

namespace CognitiveLoad

/-! ## Paths that cannot be looked up -/

namespace Workspace

/-- What can be in the way of a path. -/
def IsObstacle (c : Cause) : Prop :=
  c = .nameTooLong ∨ c = .notFound ∨ c = .notDirectory

theorem isObstacle_of_step {ws : Workspace} {here : Place} {name : String} {c : Cause}
    (h : ws.step here name = .error c) : IsObstacle c := by
  unfold step at h
  split at h
  · split_ifs at h <;> cases h <;> simp [IsObstacle]
  · cases h
    simp [IsObstacle]

theorem isObstacle_of_walk {ws : Workspace} {names : List String} {c : Cause} {here : Place}
    (h : ws.walk here names = .error c) : IsObstacle c := by
  unfold walk at h
  induction names generalizing here with
  | nil => cases h
  | cons name rest ih =>
    rw [List.foldlM_cons] at h
    cases hstep : ws.step here name with
    | error c' =>
      rw [hstep] at h
      cases h
      exact isObstacle_of_step hstep
    | ok next =>
      rw [hstep] at h
      exact ih h

theorem isObstacle_of_look {ws : Workspace} {p : Path} {c : Cause} (h : ws.look p = .error c) :
    IsObstacle c := by
  unfold look at h
  split_ifs at h
  · cases h
    exact .inl rfl
  · cases hwalk : ws.walk (ws.start p.anchor) p.parts with
    | error c' =>
      rw [hwalk] at h
      cases h
      exact isObstacle_of_walk hwalk
    | ok place =>
      rw [hwalk] at h
      cases h

/-- The path is handed to the system, which finds it too long. -/
def TooLong (ws : Workspace) (p : Path) : Prop :=
  hasNull p.toString = false ∧ ws.look p = .error .nameTooLong

/-- Whether a path exists can be told of every path that is not too long. -/
theorem exists?_eq_error_iff {ws : Workspace} {p : Path} {e : FileError} :
    ws.exists? p = .error e ↔ ws.TooLong p ∧ e = .refused .nameTooLong p.toString := by
  unfold exists? node? TooLong
  cases hnull : hasNull p.toString with
  | true => simp [Except.map]
  | false =>
    cases hlook : ws.look p with
    | ok node => simp [Except.map]
    | error c =>
      obtain rfl | rfl | rfl := isObstacle_of_look hlook
      · simp [Except.map, eq_comm]
      · simp [Except.map]
      · simp [Except.map]

end Workspace

namespace CommandLine

/-! ## The report -/

section Report

variable (parsers : Parsers) (engine : Ignore.Engine) (ws : Workspace) (config : Configuration)
  (path : Path)

/-- What is found at a path with the catalog of all languages. -/
def analysis : Except Failure (List Finding) :=
  match (Catalog.standard parsers).value with
  | .error e => .error (.parser e)
  | .ok catalog =>
    Survey.outcome parsers engine catalog config.analysis ws
      (.path path (some config.analysis.recursive))

/-- The catalog of all languages has no reader for the language that is set. -/
def Misnamed : Prop :=
  ∃ catalog, (Catalog.standard parsers).value = .ok catalog ∧
    ∃ language ∈ config.analysis.language, catalog.supports language = false

/-- A computation that failed and said so. -/
structure Failed (t : Traced Outcome) : Prop where
  value : t.value = .failed
  log : ∃ e ∈ t.log, e.level = .error

theorem failed_fail (message : String) : Failed (fail message) :=
  ⟨rfl, ⟨.error, .command, message⟩, List.mem_singleton_self _, rfl⟩

theorem Failed.bind {α : Type} {x : Traced α} {f : α → Traced Outcome} (h : Failed (f x.value)) :
    Failed (x >>= f) := by
  obtain ⟨e, he, hlevel⟩ := h.log
  exact ⟨h.value, e, List.mem_append_right _ he, hlevel⟩

variable {parsers config} in
theorem misnamed_iff {catalog : Catalog} (h : (Catalog.standard parsers).value = .ok catalog) :
    Misnamed parsers config ↔ config.analysis.language.all catalog.supports = false := by
  unfold Misnamed
  rw [h]
  cases config.analysis.language <;> simp

/-- How the report on a path ends at which something stands. -/
theorem reportOn_ends :
    (Misnamed parsers config ∧
        ∃ message, (reportOn parsers engine ws config path).value = .usage message) ∨
      ¬ Misnamed parsers config ∧
        match analysis parsers engine ws config path with
        | .error _ => Failed (reportOn parsers engine ws config path)
        | .ok fs => (reportOn parsers engine ws config path).value =
          .report (Report.write config.output.verbose fs config.output.format) := by
  unfold reportOn analysis
  cases hstandard : (Catalog.standard parsers).value with
  | error e =>
    refine .inr ⟨?_, ?_⟩
    · rintro ⟨catalog, hcatalog, -⟩
      cases hstandard.symm.trans hcatalog
    · apply Failed.bind
      rw [hstandard]
      exact failed_fail _
  | ok catalog =>
    -- The language is looked at before the patterns are compiled, so a run that has both wrong
    -- tells the language.
    rw [misnamed_iff hstandard]
    cases hall : config.analysis.language.all catalog.supports with
    | false =>
      refine .inl ⟨rfl, unsupported catalog (config.analysis.language.getD ""), ?_⟩
      simp [hstandard, hall]
    | true =>
      refine .inr ⟨by simp, ?_⟩
      simp only [Survey.outcome]
      cases hmake : Survey.make parsers engine catalog config.analysis with
      | error e =>
        apply Failed.bind
        simp only [hstandard, hall, hmake, if_true]
        exact failed_fail _
      | ok survey =>
        simp only [Survey.findings]
        cases hfound : (survey.ofPath ws path (some config.analysis.recursive)).value with
        | error e =>
          apply Failed.bind
          simp only [hstandard, hall, hmake, if_true]
          apply Failed.bind
          rw [hfound]
          exact failed_fail _
        | ok fs => simp [hstandard, hall, hmake, hfound]

end Report

/-! ## Stages of a run -/

section Stages

variable (parsers : Parsers) (engine : Ignore.Engine) (ws : Workspace) (env : Environment)
  (arguments : List String)

/-- The arguments are no arguments of the command, or the settings are refused. -/
def Invalid : Prop :=
  (∃ e, parse arguments = .error (.usage e)) ∨
    ∃ text o e, parse arguments = .ok (text, o) ∧ configure env o = .error (.settings e)

/-- The arguments and the environment lead to a path and settings. -/
def Configured (path : Path) (config : Configuration) : Prop :=
  ∃ text o, parse arguments = .ok (text, o) ∧ path = .ofString text ∧ configure env o = .ok config

/-- The run asks for what the command does not do. -/
def Refused : Prop :=
  Invalid env arguments ∨
    ∃ path config, Configured env arguments path config ∧ ws.exists? path = .ok true ∧
      Misnamed parsers config

/-- There is nothing to report on, or it cannot be analysed. -/
def Fails : Prop :=
  ∃ path config, Configured env arguments path config ∧
    (ws.exists? path = .ok false ∨ ∃ e, analysis parsers engine ws config path = .error e)

/-- The run finds something to report, and this is all of it. -/
def Reports (text : String) : Prop :=
  ∃ path config fs, Configured env arguments path config ∧
    analysis parsers engine ws config path = .ok fs ∧
    text = Report.write config.output.verbose fs config.output.format

/-- Where a run breaks off: an option that is read as a text has no value, or the path is too long.
These are all cases as long as every directory may be searched: whether a path exists below one that
may not could not be told either. -/
def BreaksOff : Fault → Prop
  | .emptyValue => ∃ text o, parse arguments = .ok (text, o) ∧
      (o.language = .empty ∨ o.format = .empty) ∧ configure env o = .error (.fault .emptyValue)
  | .file e => ∃ path config, Configured env arguments path config ∧ ws.TooLong path ∧
      e = .refused .nameTooLong path.toString

/-- The end of a run that failed: nothing but messages, one of them an error. -/
structure Exit.IsFailure (x : Exit) : Prop where
  code : x.code = 1
  stdout : x.stdout = ""
  usageError : x.usageError = none
  log : ∃ e ∈ x.log, e.level = .error

/-- The end of a run that was asked for what the command does not do. -/
structure Exit.IsUsage (x : Exit) : Prop where
  code : x.code = 2
  stdout : x.stdout = ""
  usageError : x.usageError.isSome = true

/-- The end of a run with a report. -/
structure Exit.IsReport (x : Exit) : Prop where
  code : x.code = 0
  stdout : Reports parsers engine ws env arguments x.stdout
  usageError : x.usageError = none

/-- The end of a run and what decides it. -/
structure Exit.IsEnd (x : Exit) : Prop where
  kinds : x.IsReport parsers engine ws env arguments ∨ x.IsFailure ∨ x.IsUsage
  usage_iff : x.code = 2 ↔ Refused parsers ws env arguments
  failure_iff : ¬ Refused parsers ws env arguments →
    (x.code = 1 ↔ Fails parsers engine ws env arguments)
  not_breaksOff : ∀ fault, ¬ BreaksOff ws env arguments fault

/-- What a run can come to: it breaks off, or it ends. -/
def Ends : Except Fault Exit → Prop
  | .error fault => BreaksOff ws env arguments fault
  | .ok x => x.IsEnd parsers engine ws env arguments

variable {parsers engine ws env arguments}

theorem Configured.unique {path path' : Path} {config config' : Configuration}
    (h : Configured env arguments path config) (h' : Configured env arguments path' config') :
    path' = path ∧ config' = config := by
  obtain ⟨text, o, hparse, rfl, hconfig⟩ := h
  obtain ⟨text', o', hparse', rfl, hconfig'⟩ := h'
  cases hparse.symm.trans hparse'
  cases hconfig.symm.trans hconfig'
  exact ⟨rfl, rfl⟩

theorem Configured.not_invalid {path : Path} {config : Configuration}
    (h : Configured env arguments path config) : ¬ Invalid env arguments := by
  obtain ⟨text, o, hparse, -, hconfig⟩ := h
  simp [Invalid, hparse, hconfig]

theorem Exit.IsFailure.isEnd {x : Exit} (h : x.IsFailure)
    (hrefused : ¬ Refused parsers ws env arguments) (hfails : Fails parsers engine ws env arguments)
    (hbreaks : ∀ fault, ¬ BreaksOff ws env arguments fault) :
    x.IsEnd parsers engine ws env arguments where
  kinds := .inr (.inl h)
  usage_iff := by simp [h.code, hrefused]
  failure_iff _ := by simp [h.code, hfails]
  not_breaksOff := hbreaks

theorem Exit.IsUsage.isEnd {x : Exit} (h : x.IsUsage) (hrefused : Refused parsers ws env arguments)
    (hbreaks : ∀ fault, ¬ BreaksOff ws env arguments fault) :
    x.IsEnd parsers engine ws env arguments where
  kinds := .inr (.inr h)
  usage_iff := by simp [h.code, hrefused]
  failure_iff hnot := absurd hrefused hnot
  not_breaksOff := hbreaks

theorem Exit.IsReport.isEnd {x : Exit} (h : x.IsReport parsers engine ws env arguments)
    (hrefused : ¬ Refused parsers ws env arguments)
    (hfails : ¬ Fails parsers engine ws env arguments)
    (hbreaks : ∀ fault, ¬ BreaksOff ws env arguments fault) :
    x.IsEnd parsers engine ws env arguments where
  kinds := .inl h
  usage_iff := by simp [h.code, hrefused]
  failure_iff _ := by simp [h.code, hfails]
  not_breaksOff := hbreaks

/-! ## The course of a run -/

/-- What is left of a run with settings. -/
def leave (config : Configuration) (t : Traced Outcome) : Exit :=
  t.value.exit (atLeast (shownLevel config) t.log)

theorem error_of_bind {ε α β : Type} {x : Except ε α} {f : α → Except ε β} {e : ε}
    (h : x >>= f = .error e) : x = .error e ∨ ∃ a, x = .ok a ∧ f a = .error e := by
  cases x with
  | error e' =>
    cases h
    exact .inl rfl
  | ok a => exact .inr ⟨a, rfl, h⟩

theorem checked_ne_fault {α : Type} {x : Except SettingsError α} {f : Fault} :
    checked x ≠ .error (.fault f) := by
  cases x <;> simp [checked, Except.mapError]

theorem textOr_eq_fault {α β : Type} {standard : β} {set : α → β} {g : Given α} {f : Fault}
    (h : textOr standard set g = .error (.fault f)) : f = .emptyValue ∧ g = .empty := by
  cases g <;> cases h
  exact ⟨rfl, rfl⟩

/-- Settings break off only where an option that is read as a text has no value. -/
theorem configure_eq_fault {o : Options} {f : Fault} (h : configure env o = .error (.fault f)) :
    f = .emptyValue ∧ (o.language = .empty ∨ o.format = .empty) := by
  -- Stage by stage; what is checked is refused, and only the two texts break off.
  obtain hbase | ⟨base, -, h⟩ := error_of_bind h
  · exact absurd hbase checked_ne_fault
  obtain hthreshold | ⟨threshold, -, h⟩ := error_of_bind h
  · exact absurd hthreshold checked_ne_fault
  obtain hlanguage | ⟨language, -, h⟩ := error_of_bind h
  · exact (textOr_eq_fault hlanguage).imp_right .inl
  obtain hformat | ⟨format, -, h⟩ := error_of_bind h
  · exact (textOr_eq_fault hformat).imp_right .inr
  obtain houtput | ⟨output, -, h⟩ := error_of_bind h
  · exact absurd houtput checked_ne_fault
  · cases h

theorem breaksOff_of_fault {text : String} {o : Options} {f : Fault}
    (hparse : parse arguments = .ok (text, o)) (hconfig : configure env o = .error (.fault f)) :
    BreaksOff ws env arguments f := by
  obtain ⟨rfl, hempty⟩ := configure_eq_fault hconfig
  exact ⟨text, o, hparse, hempty, hconfig⟩

theorem not_breaksOff_of_invalid (h : Invalid env arguments) (fault : Fault) :
    ¬ BreaksOff ws env arguments fault := by
  cases fault with
  | emptyValue =>
    rintro ⟨text, o, hparse, -, hconfig⟩
    obtain ⟨e, husage⟩ | ⟨text', o', e, hparse', hrefused⟩ := h
    · cases hparse.symm.trans husage
    · cases hparse.symm.trans hparse'
      cases hconfig.symm.trans hrefused
  | file e =>
    rintro ⟨path, config, hconfigured, -⟩
    exact hconfigured.not_invalid h

theorem run_ends_of_invalid (h : Invalid env arguments) :
    Ends parsers engine ws env arguments (run parsers engine ws env arguments) := by
  have hrun : ∃ message, run parsers engine ws env arguments = .ok ⟨2, "", some message, []⟩ := by
    unfold run
    obtain ⟨e, hparse⟩ | ⟨text, o, e, hparse, hconfig⟩ := h
    · rw [hparse]
      exact ⟨e.message, rfl⟩
    · simp only [hparse, hconfig]
      exact ⟨e.message, rfl⟩
  obtain ⟨message, hrun⟩ := hrun
  rw [hrun]
  exact Exit.IsUsage.isEnd ⟨rfl, rfl, rfl⟩ (.inl h) (not_breaksOff_of_invalid h)

section Configured

variable {path : Path} {config : Configuration} (h : Configured env arguments path config)
include h

theorem run_of_configured :
    run parsers engine ws env arguments =
      (report parsers engine ws config path).map (leave config) := by
  obtain ⟨text, o, hparse, rfl, hconfig⟩ := h
  simp only [run, hparse, hconfig]
  cases report parsers engine ws config (.ofString text) <;> rfl

theorem refused_iff :
    Refused parsers ws env arguments ↔ ws.exists? path = .ok true ∧ Misnamed parsers config := by
  refine ⟨?_, fun hmisnamed => .inr ⟨path, config, h, hmisnamed⟩⟩
  rintro (hinvalid | ⟨path', config', h', hmisnamed⟩)
  · exact absurd hinvalid h.not_invalid
  · obtain ⟨rfl, rfl⟩ := h.unique h'
    exact hmisnamed

theorem fails_iff :
    Fails parsers engine ws env arguments ↔
      ws.exists? path = .ok false ∨ ∃ e, analysis parsers engine ws config path = .error e := by
  refine ⟨?_, fun hfails => ⟨path, config, h, hfails⟩⟩
  rintro ⟨path', config', h', hfails⟩
  obtain ⟨rfl, rfl⟩ := h.unique h'
  exact hfails

theorem breaksOff_iff {fault : Fault} :
    BreaksOff ws env arguments fault ↔ ∃ e, ws.exists? path = .error e ∧ fault = .file e := by
  cases fault with
  | emptyValue =>
    obtain ⟨text, o, hparse, rfl, hconfig⟩ := h
    simp [BreaksOff, hparse, hconfig]
  | file e =>
    simp only [Workspace.exists?_eq_error_iff, BreaksOff, Fault.file.injEq]
    constructor
    · rintro ⟨path', config', h', hlong, he⟩
      obtain ⟨rfl, rfl⟩ := h.unique h'
      exact ⟨e, ⟨hlong, he⟩, rfl⟩
    · rintro ⟨e', ⟨hlong, he⟩, rfl⟩
      exact ⟨path, config, h, hlong, he⟩

end Configured

/-- Errors are shown by every run. -/
theorem isFailure_of_failed {t : Traced Outcome} (h : Failed t) (config : Configuration) :
    (leave config t).IsFailure := by
  obtain ⟨e, he, hlevel⟩ := h.log
  have hshown : e ∈ atLeast (shownLevel config) t.log := by
    refine List.mem_filter.mpr ⟨he, ?_⟩
    rw [hlevel, shownLevel]
    split <;> rfl
  rw [leave, h.value]
  exact ⟨rfl, rfl, rfl, e, hshown, hlevel⟩

/-- The end of a run that has settings. -/
theorem report_ends {path : Path} {config : Configuration}
    (h : Configured env arguments path config) :
    Ends parsers engine ws env arguments
      ((report parsers engine ws config path).map (leave config)) := by
  unfold report
  cases hexists : ws.exists? path with
  | error e => exact (breaksOff_iff h).mpr ⟨e, hexists, rfl⟩
  | ok found =>
    have hbreaks : ∀ fault, ¬ BreaksOff ws env arguments fault := by
      intro fault
      simp [breaksOff_iff h, hexists]
    cases found with
    | false =>
      have hrefused : ¬ Refused parsers ws env arguments := by simp [refused_iff h, hexists]
      have hfails : Fails parsers engine ws env arguments := (fails_iff h).mpr (.inl hexists)
      exact (isFailure_of_failed (failed_fail _) config).isEnd hrefused hfails hbreaks
    | true =>
      obtain ⟨hmisnamed, message, hvalue⟩ | ⟨hnamed, hends⟩ :=
        reportOn_ends parsers engine ws config path
      · have hrefused : Refused parsers ws env arguments := (refused_iff h).mpr ⟨hexists, hmisnamed⟩
        refine Exit.IsUsage.isEnd ?_ hrefused hbreaks
        rw [leave, hvalue]
        exact ⟨rfl, rfl, rfl⟩
      · have hrefused : ¬ Refused parsers ws env arguments := by simp [refused_iff h, hnamed]
        cases hanalysis : analysis parsers engine ws config path with
        | error e =>
          rw [hanalysis] at hends
          have hfails : Fails parsers engine ws env arguments :=
            (fails_iff h).mpr (.inr ⟨e, hanalysis⟩)
          exact (isFailure_of_failed hends config).isEnd hrefused hfails hbreaks
        | ok fs =>
          rw [hanalysis] at hends
          have hfails : ¬ Fails parsers engine ws env arguments := by
            simp [fails_iff h, hexists, hanalysis]
          refine Exit.IsReport.isEnd ?_ hrefused hfails hbreaks
          rw [leave, hends]
          exact ⟨rfl, ⟨path, config, fs, h, hanalysis, rfl⟩, rfl⟩

end Stages

/-- **A run has three ends.** A run that does not ask for help ends with the whole report, with a
failure or with a usage error. It ends with a usage error exactly if it is refused, and of the
others exactly those fail that have nothing to report on or cannot analyse it. Only an option
without the text that it is read as, and a path that is too long, break a run off. -/
theorem run_ends_in_three_ways (parsers : Parsers) (engine : Ignore.Engine) (ws : Workspace)
    (env : Environment) (arguments : List String) (h : parse arguments ≠ .error .help) :
    Ends parsers engine ws env arguments (run parsers engine ws env arguments) := by
  cases hparse : parse arguments with
  | error stop =>
    cases stop with
    | help => exact absurd hparse h
    | usage e => exact run_ends_of_invalid (.inl ⟨e, hparse⟩)
  | ok parsed =>
    obtain ⟨text, o⟩ := parsed
    cases hconfig : configure env o with
    | error e =>
      cases e with
      | settings e => exact run_ends_of_invalid (.inr ⟨text, o, e, hparse, hconfig⟩)
      | fault f =>
        simp only [run, hparse, hconfig]
        exact breaksOff_of_fault hparse hconfig
    | ok config =>
      have hconfigured : Configured env arguments (.ofString text) config :=
        ⟨text, o, hparse, rfl, hconfig⟩
      rw [run_of_configured hconfigured]
      exact report_ends hconfigured

theorem ne_help_of_isSome {arguments : List String}
    (h : (parse arguments).toOption.isSome = true) : parse arguments ≠ .error .help := by
  intro hhelp
  rw [hhelp] at h
  cases h

/-- A report, a failure, a usage error, and an option without its text, at which the run breaks
off. -/
theorem run_ends_in_three_ways_sample :
    let result := run Survey.sampleParsers Ignore.globs Survey.sampleWorkspace []
    let ends := fun arguments =>
      Ends Survey.sampleParsers Ignore.globs Survey.sampleWorkspace [] arguments (result arguments)
    (ends ["src"] ∧ ends ["lib"] ∧ ends ["-lcobol", "src"] ∧ ends ["-l=--", "src"]) ∧
      [["src"], ["lib"], ["-lcobol", "src"], ["-l=--", "src"]].map
        (fun arguments => (result arguments).toOption.map (·.code)) =
          [some 0, some 1, some 2, none] := by
  intro result ends
  have hends : ∀ arguments, (parse arguments).toOption.isSome = true → ends arguments := by
    intro arguments h
    exact run_ends_in_three_ways Survey.sampleParsers Ignore.globs Survey.sampleWorkspace []
      arguments (ne_help_of_isSome h)
  refine ⟨⟨hends _ ?_, hends _ ?_, hends _ ?_, hends _ ?_⟩, ?_⟩
  all_goals decide +kernel

end CommandLine

end CognitiveLoad
