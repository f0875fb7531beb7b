import Mathlib.Algebra.BigOperators.Ring.Finset
import CognitiveLoad.Proofs.Reports
import CognitiveLoad.Proofs.Tracked

/-!
Files that are printed more than once. A repository is surveyed line by line as its tracked files
are printed, so a file counts as often as its path is printed, as that of an unmerged file is.

* `sum_eq_sum_eraseDups_iff`, `flatMap_eraseDups_iff`: when repeated elements add nothing;
* `Survey.ofRepository_of_printed`: the findings are those in the files that take part, in the order
  in which these are printed;
* `Survey.ofRepository_counts_lines`: each file is reported once exactly if those that are printed
  more than once have no findings.
-/

namespace CognitiveLoad

/-! ## Repeated elements -/

section Repeated

variable {α : Type} [DecidableEq α]

theorem eraseDups_concat (l : List α) (a : α) :
    (l ++ [a]).eraseDups = if a ∈ l then l.eraseDups else l.eraseDups ++ [a] := by
  rw [List.eraseDups_append]
  by_cases h : a ∈ l
  · simp [List.removeAll, h]
  · have hstays : [a].removeAll l = [a] := by simp [List.removeAll, h]
    rw [if_neg h, hstays]
    rfl

theorem nodup_eraseDups (l : List α) : l.eraseDups.Nodup := by
  induction l using List.reverseRecOn with
  | nil => simp
  | append_singleton l a ih =>
    rw [eraseDups_concat]
    split
    · exact ih
    · rename_i ha
      rw [List.nodup_append]
      refine ⟨ih, List.nodup_singleton a, ?_⟩
      intro b hb c hc hbc
      rw [List.mem_singleton] at hc
      rw [hbc, hc, List.mem_eraseDups] at hb
      exact ha hb

/-- Elements that occur more than once satisfy `P`. -/
def RepeatsOnly (P : α → Prop) (l : List α) : Prop :=
  ∀ a ∈ l, 1 < l.count a → P a

theorem repeatsOnly_concat {P : α → Prop} {l : List α} {a : α} :
    RepeatsOnly P (l ++ [a]) ↔ RepeatsOnly P l ∧ (a ∈ l → P a) := by
  have hcount : ∀ b, (l ++ [a]).count b = l.count b + if a = b then 1 else 0 := by
    intro b
    rw [List.count_append, List.count_singleton]
    simp
  constructor
  · intro h
    refine ⟨fun b hb hmany => h b (List.mem_append_left _ hb) ?_, fun ha => ?_⟩
    · rw [hcount]
      omega
    · have hone := List.count_pos_iff.mpr ha
      apply h a (List.mem_append_left _ ha)
      rw [hcount, if_pos rfl]
      omega
  · rintro ⟨hl, ha⟩ b hb hmany
    rw [hcount] at hmany
    by_cases hab : a = b
    · subst hab
      rw [if_pos rfl] at hmany
      exact ha (List.count_pos_iff.mp (by omega))
    · rw [if_neg hab] at hmany
      exact hl b (List.count_pos_iff.mp (by omega)) (by omega)

/-- Every element counts as often as it occurs. -/
theorem sum_eq_sum_count (l : List α) (g : α → Int) :
    (l.map g).sum = (l.eraseDups.map fun a => (l.count a : Int) * g a).sum := by
  have hsame : l.eraseDups.toFinset = l.toFinset := by
    ext a
    simp
  rw [Finset.sum_list_map_count, ← hsame, List.sum_toFinset _ (nodup_eraseDups l)]
  simp

theorem sum_eraseDups_le {l : List α} {g : α → Int} (hg : ∀ a ∈ l, 0 ≤ g a) :
    (l.eraseDups.map g).sum ≤ (l.map g).sum := by
  induction l using List.reverseRecOn with
  | nil => simp
  | append_singleton l a ih =>
    have hl := ih fun b hb => hg b (List.mem_append_left _ hb)
    have ha := hg a (by simp)
    rw [eraseDups_concat]
    split <;> simp <;> omega

/-- A sum is that over the different elements if those that repeat add nothing. -/
theorem sum_eq_sum_eraseDups_iff {l : List α} {g : α → Int} (hg : ∀ a ∈ l, 0 ≤ g a) :
    (l.map g).sum = (l.eraseDups.map g).sum ↔ RepeatsOnly (g · = 0) l := by
  induction l using List.reverseRecOn with
  | nil => simp [RepeatsOnly]
  | append_singleton l a ih =>
    have hl : ∀ b ∈ l, 0 ≤ g b := fun b hb => hg b (List.mem_append_left _ hb)
    have ha := hg a (by simp)
    have hle := sum_eraseDups_le hl
    rw [repeatsOnly_concat, ← ih hl, eraseDups_concat]
    split
    · rename_i hmem
      simp only [List.map_append, List.sum_append, List.map_cons, List.map_nil, List.sum_singleton,
        hmem, true_implies]
      omega
    · rename_i hmem
      simp [hmem]

theorem flatMap_eraseDups_iff {β : Type} (l : List α) (items : α → List β) :
    l.flatMap items = l.eraseDups.flatMap items ↔ RepeatsOnly (items · = []) l := by
  constructor
  · intro h
    have hlength := congrArg (fun bs => (bs.length : Int)) h
    simp only [List.length_flatMap, Nat.cast_list_sum, List.map_map] at hlength
    intro a ha hmany
    have hzero := (sum_eq_sum_eraseDups_iff (fun _ _ => Int.natCast_nonneg _)).mp hlength a ha hmany
    exact List.length_eq_zero_iff.mp (Int.natCast_eq_zero.mp hzero)
  · intro h
    induction l using List.reverseRecOn with
    | nil => rfl
    | append_singleton l a ih =>
      obtain ⟨hl, ha⟩ := repeatsOnly_concat.mp h
      rw [eraseDups_concat]
      split
      · rename_i hmem
        simp [ih hl, ha hmem]
      · simp [ih hl]

end Repeated

section Shares

variable {ε α β : Type}

theorem mapM_flatten_cons (f : α → Except ε (List β)) (a : α) (rest : List α) :
    ((a :: rest).mapM f).map List.flatten =
      (f a).bind fun here => ((rest.mapM f).map List.flatten).map (here ++ ·) := by
  rw [List.mapM_cons]
  cases f a with
  | error e => rfl
  | ok here => cases rest.mapM f <;> rfl

/-- Elements that contribute nothing can be left out. -/
theorem mapM_flatten_filter (p : α → Bool) (f : α → Except ε (List β)) (l : List α) :
    (l.mapM fun a => if p a then f a else .ok []).map List.flatten =
      ((l.filter p).mapM f).map List.flatten := by
  induction l with
  | nil => rfl
  | cons a rest ih =>
    rw [mapM_flatten_cons, ih, List.filter_cons]
    cases p a with
    | true => exact (mapM_flatten_cons f a _).symm
    | false =>
      simp only [Bool.false_eq_true, if_false, Except.bind]
      cases ((rest.filter p).mapM f).map List.flatten <;> rfl

theorem error_of_mapM_flatten {f : α → Except ε (List β)} {l : List α} {e : ε}
    (h : (l.mapM f).map List.flatten = .error e) : ∃ a ∈ l, f a = .error e := by
  induction l with
  | nil => cases h
  | cons a rest ih =>
    rw [mapM_flatten_cons] at h
    cases hhere : f a with
    | error e' =>
      rw [hhere] at h
      cases h
      exact ⟨a, List.mem_cons_self .., hhere⟩
    | ok here =>
      rw [hhere] at h
      cases hrest : (rest.mapM f).map List.flatten with
      | error e' =>
        rw [hrest] at h ih
        cases h
        obtain ⟨b, hb, hfails⟩ := ih rfl
        exact ⟨b, List.mem_cons_of_mem _ hb, hfails⟩
      | ok others =>
        rw [hrest] at h
        cases h

end Shares

namespace Survey

variable (s : Survey)

/-! ## Files that take part -/

/-- The files that take part in a survey. -/
def taken (ignore : Ignore.Matcher) (files : List Path) : List Path :=
  files.filter fun p => (s.takes ignore p).value

/-- The findings in a repository are those in the printed files that take part. -/
theorem ofRepository_of_printed {ws : Workspace} {root : Path} {text : String}
    (hrepo : ws.isRepository root = .ok true) (hanswer : ws.answer root = .printed text) :
    (s.ofRepository ws root).value =
      ((s.taken (s.ignore.withRoot root) (Workspace.printedPaths root text)).mapM fun p =>
        (s.ofFile ws p).value).map List.flatten := by
  have hfiles : (ws.listTracked root).value = .ok (Workspace.printedPaths root text) := by
    simp only [Workspace.listTracked, hrepo, hanswer]
    rfl
  rw [s.ofRepository_value hrepo hfiles]
  exact mapM_flatten_filter ..

/-- No complexity is negative. -/
theorem complexity_nonneg_of_ofText {text file : String} {asked : Option String}
    {fs : List Finding} (h : (s.ofText text file asked).value = .ok fs) :
    ∀ f ∈ fs, 0 ≤ f.complexity := by
  cases hcreate : (s.catalog.create s.parsers ((s.languageFor file asked).getD "")).value with
  | error e =>
    simp only [ofText, Traced.value_bind, hcreate] at h
    cases h
  | ok reader =>
    cases reader with
    | none =>
      rw [s.ofText_value_of_none hcreate] at h
      cases h
      simp
    | some r =>
      rw [s.ofText_value hcreate] at h
      cases h
      intro f hf
      obtain ⟨e, -, he⟩ := List.mem_filterMap.mp hf
      have hreaches := reaches_iff.mp (Option.filter_eq_some_iff.mp he).2
      omega

theorem complexity_nonneg_of_ofFile {ws : Workspace} {p : Path} {fs : List Finding}
    (h : (s.ofFile ws p).value = .ok fs) : ∀ f ∈ fs, 0 ≤ f.complexity := by
  simp only [ofFile, Traced.value_bind] at h
  split at h
  · cases h
  · cases h
    simp
  · exact s.complexity_nonneg_of_ofText h

theorem total_nonneg {fs : List Finding} (h : ∀ f ∈ fs, 0 ≤ f.complexity) :
    0 ≤ Finding.total fs := by
  rw [Report.total_eq_sum]
  apply List.sum_nonneg
  intro n hn
  obtain ⟨f, hf, rfl⟩ := List.mem_map.mp hn
  exact h f hf

theorem total_flatMap (files : List Path) (own : Path → List Finding) :
    Finding.total (files.flatMap own) = (files.map fun p => Finding.total (own p)).sum := by
  simp only [Report.total_eq_sum]
  induction files with
  | nil => rfl
  | cons p rest ih =>
    rw [List.flatMap_cons, List.map_append, List.sum_append, ih, List.map_cons, List.sum_cons]

/-- With the catalog of all languages only a path with a null character stops a survey. -/
theorem hasNull_of_ofFile {ws : Workspace} {p : Path} {e : Failure}
    (hs : (Catalog.standard s.parsers).value = .ok s.catalog)
    (h : (s.ofFile ws p).value = .error e) :
    e = .file .nullCharacter ∧ hasNull p.toString = true := by
  simp only [ofFile, Traced.value_bind] at h
  split at h
  · rename_i hread
    cases h
    refine ⟨rfl, ?_⟩
    unfold Workspace.read at hread
    split at hread
    · assumption
    · split at hread
      · cases hread
      · cases hread
      · cases hread
      · split at hread <;> cases hread
  · cases h
  · rename_i text hread
    obtain ⟨fs, hfs⟩ := ofText_ok hs text p.toString none
    rw [hfs] at h
    cases h

/-- **A tracked file counts as often as it is printed.** Take a survey with the catalog of all
languages, with any settings, and a repository with whatever text is printed about its files; let
`files` be the printed files that take part, line by line. The survey stops only at a path that
holds a null character. Otherwise, with `own` for the findings at each file:

* the findings are those at the files, one after the other, and their total is the sum over the
  different files, each taken as often as it is printed;
* every different file is reported once exactly if those that are printed more than once have no
  findings;
* the total is the sum over the different files exactly if those have a total of zero. -/
theorem ofRepository_counts_lines {parsers : Parsers} {engine : Ignore.Engine}
    {request : Settings.Request} {s : Survey}
    (hs : (prepare parsers engine request).value = .ok s) (ws : Workspace) (root : Path)
    (text : String)
    (hrepo : ws.isRepository root = .ok true) (hanswer : ws.answer root = .printed text) :
    let files := s.taken (s.ignore.withRoot root) (Workspace.printedPaths root text)
    let result := (s.ofRepository ws root).value
    (result = .error (.file .nullCharacter) ∧ ∃ p ∈ files, hasNull p.toString = true) ∨
      ∃ fs, ∃ own : Path → List Finding, result = .ok fs ∧
        (∀ p ∈ files, (s.ofFile ws p).value = .ok (own p)) ∧
        fs = files.flatMap own ∧
        Finding.total fs =
          (files.eraseDups.map fun p => (files.count p : Int) * Finding.total (own p)).sum ∧
        (fs = files.eraseDups.flatMap own ↔ ∀ p ∈ files, 1 < files.count p → own p = []) ∧
        (Finding.total fs = (files.eraseDups.map fun p => Finding.total (own p)).sum ↔
          ∀ p ∈ files, 1 < files.count p → Finding.total (own p) = 0) := by
  intro files result
  have hvalue : result = (files.mapM fun p => (s.ofFile ws p).value).map List.flatten :=
    s.ofRepository_of_printed hrepo hanswer
  cases hend : (files.mapM fun p => (s.ofFile ws p).value).map List.flatten with
  | error e =>
    obtain ⟨p, hp, hfails⟩ := error_of_mapM_flatten hend
    obtain ⟨rfl, hnull⟩ := s.hasNull_of_ofFile (of_prepare hs).1 hfails
    exact .inl ⟨hvalue.trans hend, p, hp, hnull⟩
  | ok fs =>
    let own := fun p => (s.ofFile ws p).value.toOption.getD []
    have hown : ∀ p ∈ files, (s.ofFile ws p).value = .ok (own p) := by
      intro p hp
      obtain ⟨here, hhere⟩ := ok_of_mapM_flatten hend p hp
      simp only [own, hhere]
      rfl
    have hfs : fs = files.flatMap own := Except.ok.inj (hend.symm.trans (mapM_flatten_eq_ok hown))
    have hnonneg : ∀ p ∈ files, 0 ≤ Finding.total (own p) := fun p hp =>
      total_nonneg (s.complexity_nonneg_of_ofFile (hown p hp))
    refine .inr ⟨fs, own, hvalue.trans hend, hown, hfs, ?_, ?_, ?_⟩
    · rw [hfs, total_flatMap, sum_eq_sum_count]
    · rw [hfs]
      exact flatMap_eraseDups_iff files own
    · rw [hfs, total_flatMap]
      exact sum_eq_sum_eraseDups_iff hnonneg

/-- A repository with two files, one of which is not merged and printed once for each stage. -/
def unmergedWorkspace : Workspace where
  entries := [("src", .directory [(".git", .directory []), ("a.py", .file "fgf".toUTF8),
    ("b.py", .file "fgf".toUTF8)])]
  tracked := [("src", .printed "a.py\na.py\na.py\nb.py\n")]

theorem ofRepository_counts_lines_unmerged :
    let result := (sampleSurvey.ofRepository unmergedWorkspace (.ofString "src")).value
    ∃ fs, ∃ own : Path → List Finding, result = .ok fs ∧
      Finding.total fs = 3 * Finding.total (own (.ofString "src/a.py")) +
        Finding.total (own (.ofString "src/b.py")) ∧
      fs ≠ own (.ofString "src/a.py") ++ own (.ofString "src/b.py") ∧
      Finding.total fs = 24 := by
  intro result
  let files := ["src/a.py", "src/a.py", "src/a.py", "src/b.py"].map Path.ofString
  have hs : (prepare sampleParsers Ignore.globs {}).value = .ok sampleSurvey := rfl
  have hfiles : sampleSurvey.taken (sampleSurvey.ignore.withRoot (.ofString "src"))
      (Workspace.printedPaths (.ofString "src") "a.py\na.py\na.py\nb.py\n") = files := by
    decide +kernel
  have hanswer : unmergedWorkspace.answer (.ofString "src") =
      .printed "a.py\na.py\na.py\nb.py\n" := by decide +kernel
  have hnone : ∀ p ∈ files, hasNull p.toString = false := by decide +kernel
  have hdistinct : files.eraseDups = [.ofString "src/a.py", .ofString "src/b.py"] := by
    decide +kernel
  have hthree : files.count (.ofString "src/a.py") = 3 := by decide +kernel
  have hone : files.count (.ofString "src/b.py") = 1 := by decide +kernel
  have htotal : result.toOption.map (Finding.total ·) = some 24 := by decide +kernel
  have hfound : (sampleSurvey.ofFile unmergedWorkspace (.ofString "src/a.py")).value.toOption.map
      List.length = some 3 := by decide +kernel
  rcases hfiles ▸ ofRepository_counts_lines hs unmergedWorkspace _ _ rfl hanswer with
    ⟨-, p, hp, hnull⟩ | ⟨fs, own, hend, hown, -, hsum, honce, -⟩
  · cases (hnone p hp).symm.trans hnull
  · rw [hdistinct] at hsum honce
    refine ⟨fs, own, hend, ?_, ?_, ?_⟩
    · simpa [hthree, hone] using hsum
    · intro heq
      have hmem : Path.ofString "src/a.py" ∈ files := List.mem_cons_self ..
      have hnothing : own (.ofString "src/a.py") = [] := by
        refine honce.mp ?_ _ hmem (by omega)
        simpa using heq
      rw [hown _ hmem, hnothing] at hfound
      cases hfound
    · have hlast : result = .ok fs := hend
      rw [hlast] at htotal
      exact Option.some.inj htotal

end Survey

end CognitiveLoad
