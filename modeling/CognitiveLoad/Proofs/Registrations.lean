import CognitiveLoad.Catalog

/-!
A catalog as a function of the registrations that went through. Whatever else is asked of a catalog,
and whatever is refused, leaves it as it is (`catalog_step`), so a session makes its catalog out of
the registrations in it, one after the other (`catalog_run`). Of these the last one that has to do
with a language or with an extension decides about it (`Records`, `records_run`).
-/

namespace CognitiveLoad.Catalog

/-! ## Registrations -/

/-- A reader entered under an identifier. -/
structure Registration where
  reader : Reader
  language : String
  deriving DecidableEq, Repr

/-- Whether an extension is among those that the reader claims, apart from leading dots and case. -/
def Registration.claims (e : Registration) (ext : String) : Bool :=
  e.reader.extensions.any fun claimed => plainExtension claimed = plainExtension ext

/-- The catalog after a registration. -/
def record (c : Catalog) (e : Registration) : Catalog where
  readers := c.readers.enter e.language e.reader
  owners :=
    e.reader.extensions.foldl (fun r ext => r.enter (plainExtension ext) e.language) c.owners

theorem claimAll_value (c : Catalog) (language : String) (exts : List String) :
    (claimAll c language exts).value =
      { c with
        owners := exts.foldl (fun r ext => r.enter (plainExtension ext) language) c.owners } := by
  induction exts generalizing c with
  | nil => rfl
  | cons ext rest ih =>
    have hclaim : (c.claim language ext).value =
        { c with owners := c.owners.enter (plainExtension ext) language } := by
      unfold claim
      dsimp only
      split <;> rfl
    rw [claimAll, Traced.value_bind, hclaim, ih]
    rfl

theorem register_value (c : Catalog) (r : Reader) (language : Option String) :
    (c.register r language).value = c.record ⟨r, identifier r language⟩ := by
  simp only [register, Traced.value_bind, Traced.value_pure, claimAll_value]
  rfl

/-! ## Sessions -/

/-- What a step enters: the reader to be registered, where it can be started. -/
def Step.registration? (parsers : Parsers) : Step → Option Registration
  | .register (some r) language =>
    (r.start parsers).value.toOption.map fun r => ⟨r, identifier r language⟩
  | _ => none

/-- The registrations that went through, each step being taken with the parsers at hand then. -/
def history (steps : List (Parsers × Step)) : List Registration :=
  steps.filterMap fun step => step.2.registration? step.1

namespace Session

variable (s : Session)

theorem catalog_count (language : String) : (s.count language).catalog = s.catalog := by
  unfold count
  split <;> rfl

theorem catalog_create (parsers : Parsers) (language : Option String) :
    (s.create parsers language).value.2.catalog = s.catalog := by
  unfold create
  cases language.bind s.catalog.reader? with
  | none => rfl
  | some r =>
    simp only [Traced.value_bind]
    cases (r.start parsers (s.loadsOf (Text.lower (language.getD "")))).value with
    | ok r => exact s.catalog_count _
    | error e => exact s.catalog_count _

/-- **Step lemma.** A step enters its registration, if that goes through, and changes nothing in the
catalog otherwise. -/
theorem catalog_step (parsers : Parsers) (step : Step) :
    (s.step parsers step).value.2.catalog =
      (step.registration? parsers).elim s.catalog s.catalog.record := by
  cases step with
  | register reader language =>
    cases reader with
    | none => rfl
    | some r =>
      simp only [Session.step, Step.registration?, Traced.value_bind]
      cases (r.start parsers).value with
      | error e => rfl
      | ok r => exact register_value s.catalog r language
  | createForLanguage language => exact s.catalog_create parsers language
  | createForPath path => exact s.catalog_create parsers _
  | languageForPath path => rfl
  | isSupported language => rfl
  | languages => rfl
  | extensions => rfl

/-- The session after some steps. -/
def run (steps : List (Parsers × Step)) : Session :=
  steps.foldl (fun s step => (s.step step.1 step.2).value.2) s

/-- **Run lemma.** The catalog is made of the registrations of the session. -/
theorem catalog_run (steps : List (Parsers × Step)) :
    (s.run steps).catalog = (history steps).foldl record s.catalog := by
  induction steps generalizing s with
  | nil => rfl
  | cons step rest ih =>
    have hrest := ih (s.step step.1 step.2).value.2
    rw [catalog_step] at hrest
    refine hrest.trans ?_
    unfold history
    rw [List.filterMap_cons]
    cases step.2.registration? step.1 <;> rfl

end Session

/-! ## The last registration decides -/

/-- A catalog tells of each language and each extension what the last registration in a list that
has to do with it says, and the owner of an extension is always listed. -/
structure Records (c : Catalog) (entered : List Registration) : Prop where
  reader : ∀ id, c.readers.get? id =
    (entered.filter (·.language = id)).getLast?.map (·.reader)
  owner : ∀ ext, c.owners.get? (plainExtension ext) =
    (entered.filter (·.claims ext)).getLast?.map (·.language)
  listed : ∀ e ∈ c.owners.entries, e.2 ∈ c.readers.names

theorem records_empty : Records {} [] where
  reader _ := rfl
  owner _ := rfl
  listed e he := by cases he

theorem getLast?_filter_concat {α β : Type} (p : α → Bool) (f : α → β) (before : List α) (a : α) :
    ((before ++ [a]).filter p).getLast?.map f =
      if p a then some (f a) else (before.filter p).getLast?.map f := by
  rw [List.filter_append]
  cases h : p a with
  | true => simp [h]
  | false => simp [h]

theorem owner_record (c : Catalog) (e : Registration) (ext : String) :
    (c.record e).owners.get? (plainExtension ext) =
      if e.claims ext then some e.language else c.owners.get? (plainExtension ext) := by
  have hget : (c.record e).owners.get? (plainExtension ext) = _ :=
    Roster.get?_foldl_enter plainExtension (fun _ => e.language) e.reader.extensions c.owners _
  rw [hget]
  cases hf : (e.reader.extensions.filter (plainExtension · = plainExtension ext)).getLast? with
  | none =>
    have hclaims : e.claims ext = false := by
      rw [List.getLast?_eq_none_iff, List.filter_eq_nil_iff] at hf
      simpa [Registration.claims] using hf
    simp [hclaims]
  | some claimed =>
    have hclaims : e.claims ext = true := by
      have hmem := List.mem_of_getLast? hf
      rw [List.mem_filter] at hmem
      exact List.any_eq_true.mpr ⟨claimed, hmem⟩
    simp [hclaims]

theorem mem_entries_foldl_enter {β : Type} {name : β → String} {value : String} {items : List β}
    {r : Roster String} {e : String × String}
    (h : e ∈ (items.foldl (fun r b => r.enter (name b) value) r).entries) :
    e ∈ r.entries ∨ e.2 = value := by
  induction items generalizing r with
  | nil => exact .inl h
  | cons b rest ih =>
    rcases ih h with h | h
    · exact (Roster.mem_entries_enter h).imp_right (congrArg Prod.snd ·)
    · exact .inr h

theorem Records.record {c : Catalog} {entered : List Registration} (h : c.Records entered)
    (e : Registration) : (c.record e).Records (entered ++ [e]) where
  reader id := by
    show (c.readers.enter e.language e.reader).get? id = _
    rw [Roster.get?_enter, getLast?_filter_concat, h.reader]
    by_cases hid : id = e.language
    · simp [hid]
    · simp [hid, Ne.symm hid]
  owner ext := by rw [owner_record, getLast?_filter_concat, h.owner]
  listed entry hentry := by
    show entry.2 ∈ (c.readers.enter e.language e.reader).names
    rw [Roster.mem_names_enter]
    rcases mem_entries_foldl_enter hentry with hold | hnew
    · exact .inr (h.listed entry hold)
    · exact .inl hnew

theorem Records.foldl_record {c : Catalog} {entered : List Registration} (h : c.Records entered)
    (es : List Registration) : (es.foldl Catalog.record c).Records (entered ++ es) := by
  induction es generalizing c entered with
  | nil => simpa using h
  | cons e rest ih => simpa using ih (h.record e)

/-! ## Sessions from the start -/

/-- The registrations behind the catalog of the languages that can be analysed. -/
def standardRegistrations : List Registration :=
  [⟨Dialect.cpp.reader, "cpp"⟩, ⟨Dialect.python.reader, "python"⟩]

/-- The catalog is built exactly if both parsers can be built. -/
theorem standard_value (parsers : Parsers) :
    (standard parsers).value =
      match parsers.failure? .cpp, parsers.failure? .python with
      | some cause, _ => .error ⟨"cpp", cause⟩
      | none, some cause => .error ⟨"python", cause⟩
      | none, none => .ok (standardRegistrations.foldl record {}) := by
  have hcpp : identifier Dialect.cpp.reader none = "cpp" := by decide +kernel
  have hpython : identifier Dialect.python.reader none = "python" := by decide +kernel
  simp only [standard, registerAll, Traced.value_bind, Reader.start_value, Reader.obstacle?_reader]
  cases parsers.failure? .cpp with
  | some cause => rfl
  | none =>
    simp only [Traced.value_bind, Reader.start_value, Reader.obstacle?_reader, register_value, hcpp]
    cases parsers.failure? .python with
    | some cause => rfl
    | none =>
      simp only [Traced.value_bind, Traced.value_pure, register_value, hpython]
      rfl

/-- The standard catalog does not depend on the parsers with which it was built, and these can be
built ever again. -/
theorem of_standard {parsers : Parsers} {c : Catalog} (h : (standard parsers).value = .ok c) :
    c = standardRegistrations.foldl record {} ∧ ∀ d, parsers.failure? d = none := by
  rw [standard_value] at h
  split at h
  · cases h
  · cases h
  · rename_i hcpp hpython
    refine ⟨(Except.ok.inj h).symm, fun d => ?_⟩
    cases d with
    | python => exact hpython
    | cpp => exact hcpp

/-- A session begins with no languages, or with those that can be analysed. -/
inductive Session.Begins : Session → List Registration → Prop
  | empty : Begins {} []
  | standard {parsers : Parsers} {c : Catalog} (h : (Catalog.standard parsers).value = .ok c) :
    Begins { catalog := c } standardRegistrations

/-- **Run lemma**, as to what is looked up. -/
theorem records_run {s : Session} {before : List Registration} (h : s.Begins before)
    (steps : List (Parsers × Step)) :
    (s.run steps).catalog.Records (before ++ history steps) := by
  have hstart : s.catalog.Records before := by
    cases h with
    | empty => exact records_empty
    | standard h =>
      rw [(of_standard h).1]
      exact records_empty.foldl_record standardRegistrations
  rw [Session.catalog_run]
  exact hstart.foldl_record (history steps)

theorem Records.reader?_eq {c : Catalog} {entered : List Registration} (h : c.Records entered)
    {y : String} (hy : y ≠ "") :
    c.reader? y = (entered.filter (·.language = Text.lower y)).getLast?.map (·.reader) := by
  rw [reader?, if_neg hy, h.reader]

theorem plainExtension_of_no_dot {ext : String} (h : '.' ∉ ext.toList) :
    plainExtension ext = Text.lower ext := by
  have hdrop : ext.toList.dropWhile (· == '.') = ext.toList := by
    cases hext : ext.toList with
    | nil => rfl
    | cons c rest =>
      have hc : c ≠ '.' := by
        rintro rfl
        simp [hext] at h
      simp [hc]
  rw [plainExtension, hdrop, String.ofList_toList]

theorem Records.languageOf?_eq {c : Catalog} {entered : List Registration} (h : c.Records entered)
    {path : String} (hpath : (Path.ofString path).extension ≠ "") :
    c.languageOf? path =
      (entered.filter (·.claims (Path.ofString path).extension)).getLast?.map (·.language) := by
  have hplain := plainExtension_of_no_dot (Path.dot_notMem_extensionOf (Path.ofString path).name)
  rw [← h.owner, languageOf?]
  exact (if_neg (Text.lower_ne_empty hpath)).trans (congrArg _ hplain.symm)

/-- How the start of a reader is told. -/
def Reply.ofStart : Except ParserError Reader → Reply
  | .ok r => .reader (some r)
  | .error e => .refused e

section Answers

variable {s : Session} {entered : List Registration} (h : s.catalog.Records entered)
  (parsers : Parsers)

include h

theorem Records.createForLanguage_reply {y : String} (hy : y ≠ "") :
    (s.step parsers (.createForLanguage (some y))).value.1 =
      match (entered.filter (·.language = Text.lower y)).getLast? with
      | none => .reader none
      | some e => .ofStart (e.reader.start parsers (s.loadsOf (Text.lower y))).value := by
  have hreader := h.reader?_eq hy
  simp only [Session.step, Session.create, Option.bind_some, Option.getD_some, hreader]
  cases (entered.filter (·.language = Text.lower y)).getLast? with
  | none => rfl
  | some e =>
    simp only [Option.map_some, Traced.value_bind]
    cases (e.reader.start parsers (s.loadsOf (Text.lower y))).value <;> rfl

theorem Records.isSupported_reply (y : String) :
    (s.step parsers (.isSupported (some y))).value.1 =
      .answer (y ≠ "" && (entered.filter (·.language = Text.lower y)).getLast?.isSome) := by
  simp only [Session.step, Traced.value_pure, Option.any_some, supports]
  by_cases hy : y = ""
  · simp [hy, reader?]
  · simp [hy, h.reader?_eq hy]

theorem Records.languageForPath_reply {path : String}
    (hpath : (Path.ofString path).extension ≠ "") :
    (s.step parsers (.languageForPath (some path))).value.1 =
      .language ((entered.filter (·.claims (Path.ofString path).extension)).getLast?.map
        (·.language)) := by
  simp only [Session.step, Traced.value_pure, Session.languageOf?, Option.bind_some,
    h.languageOf?_eq hpath]

end Answers

/-- **A catalog is a function of its registrations.** Take a session that begins with no languages
or with those that can be analysed, and any steps, each with the parsers at hand then. Whatever is
asked next: a reader for a language is started from the last registration under that language, in
whatever case, and there is none without such a registration; a language is supported exactly if
there is such a registration; the empty identifier is neither supported nor served; a path with an
extension belongs to the language of the last registration that claims the extension; every owner
of an extension is listed; and a step that enters nothing changes nothing. -/
theorem session_follows_history {s : Session} {before : List Registration} (h : s.Begins before)
    (steps : List (Parsers × Step)) (parsers : Parsers) :
    let now := s.run steps
    let entered := before ++ history steps
    let reply := fun step => (now.step parsers step).value.1
    let registered := fun y : String => (entered.filter (·.language = Text.lower y)).getLast?
    (∀ y, y ≠ "" → reply (.createForLanguage (some y)) =
      match registered y with
      | none => .reader none
      | some e => .ofStart (e.reader.start parsers (now.loadsOf (Text.lower y))).value) ∧
    (∀ y, reply (.isSupported (some y)) = .answer (y ≠ "" && (registered y).isSome)) ∧
    reply (.createForLanguage (some "")) = .reader none ∧
    reply (.createForLanguage none) = .reader none ∧
    reply (.isSupported none) = .answer false ∧
    (∀ path, (Path.ofString path).extension ≠ "" → reply (.languageForPath (some path)) =
      .language ((entered.filter (·.claims (Path.ofString path).extension)).getLast?.map
        (·.language))) ∧
    (∀ ext language, (ext, language) ∈ now.catalog.owners.entries →
      language ∈ now.catalog.readers.names) ∧
    ∀ step, step.registration? parsers = none →
      (now.step parsers step).value.2.catalog = now.catalog := by
  intro now entered reply registered
  have hrecords : now.catalog.Records entered := records_run h steps
  refine ⟨fun y hy => hrecords.createForLanguage_reply parsers hy,
    hrecords.isSupported_reply parsers, rfl, rfl, rfl,
    fun path hpath => hrecords.languageForPath_reply parsers hpath,
    fun ext language he => hrecords.listed (ext, language) he, fun step hstep => ?_⟩
  rw [Session.catalog_step, hstep]
  rfl

/-- A reader that can be started once, claims an extension of another language, and spells its own
one in capitals. -/
def fragileReader : Reader :=
  ⟨"FragileReader", .cpp, "Rust", [".RS", "h"], some 1⟩

/-- The reader is registered and asked for; then nothing is registered, and a reader that cannot be
started. -/
def fragileSteps : List (Parsers × Step) :=
  [.register (some fragileReader) none, .createForLanguage (some "RUST"), .register none none,
    .register (some { fragileReader with loadLimit := some 0 }) (some "python")].map
    (⟨fun _ _ => none, fun _ => none⟩, ·)

theorem session_follows_history_fragile :
    let now := Session.run { catalog := standardRegistrations.foldl record {} } fragileSteps
    let reply := fun step => (now.step ⟨fun _ _ => none, fun _ => none⟩ step).value.1
    reply (.createForLanguage (some "rUST")) =
      .refused ⟨"Rust", "grammar library missing"⟩ ∧
    reply (.isSupported (some "rust")) = .answer true ∧
    reply (.languageForPath (some "src/a.tar.H")) = .language (some "rust") := by
  intro now reply
  have hbegins : Session.Begins { catalog := standardRegistrations.foldl record {} }
      standardRegistrations :=
    .standard (standard_value ⟨fun _ _ => none, fun _ => none⟩)
  obtain ⟨hcreate, hsupported, -, -, -, hpath, -⟩ :=
    session_follows_history hbegins fragileSteps ⟨fun _ _ => none, fun _ => none⟩
  refine ⟨(hcreate "rUST" (by decide)).trans ?_, (hsupported "rust").trans ?_,
    (hpath "src/a.tar.H" (by decide +kernel)).trans ?_⟩
  · decide +kernel
  · decide +kernel
  · decide +kernel

end CognitiveLoad.Catalog
