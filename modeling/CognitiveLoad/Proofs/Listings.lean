import CognitiveLoad.Proofs.Walks

/-!
Exactly the right files are listed. A listing looks at the names below a directory that lead over
directories that may be listed and are not skipped (`Open`), and its files are those among them,
each once and in the order of their paths.

* `FileNode.mem_visited_iff`: what a listing looks at, said by the names alone;
* `FileNode.Reordered.find?`: names lead alike in whatever order entries are enumerated;
* `Workspace.listed_or_stopped`: so a listing gives these files, unless it is stopped at a path that
  the system does not take;
* `Workspace.list_exact`: and the order of enumeration does not show in it;
* `Workspace.list_detour`: a listing that is stopped.
-/

namespace CognitiveLoad

namespace FileNode

/-! ## The names that a listing looks at -/

/-- A listing gets to where the names lead: every directory on the way may be listed, that in which
the names begin included, none that is named on the way is skipped, and without `recursive` there is
none. -/
structure Open (recursive : Bool) (denied : List String → Bool) (names : List String) : Prop where
  listable : ∀ above, above <+: names → above ≠ names → denied above = false
  descended : ∀ name ∈ names.dropLast, name ∉ Workspace.skipped
  direct : recursive = false → names.length = 1

variable {recursive : Bool} {denied : List String → Bool}

theorem open_singleton {name : String} : Open recursive denied [name] ↔ denied [] = false := by
  constructor
  · intro h
    exact h.listable [] List.nil_prefix (by simp)
  · intro h
    refine ⟨fun above hprefix hne => ?_, by simp, fun _ => rfl⟩
    rcases List.prefix_cons_iff.mp hprefix with rfl | ⟨more, rfl, hmore⟩
    · exact h
    · rw [List.prefix_nil] at hmore
      exact absurd (congrArg _ hmore) hne

theorem open_cons_cons {name next : String} {rest : List String} :
    Open recursive denied (name :: next :: rest) ↔
      denied [] = false ∧ Workspace.descends recursive name = true ∧
        Open recursive (fun names => denied (name :: names)) (next :: rest) := by
  constructor
  · intro h
    have hrecursive : recursive = true := by
      cases recursive with
      | true => rfl
      | false => simpa using h.direct rfl
    refine ⟨h.listable [] List.nil_prefix (by simp), ?_, ?_, ?_, ?_⟩
    · simp [Workspace.descends, hrecursive, h.descended name (by simp)]
    · intro above hprefix hne
      exact h.listable (name :: above) (List.cons_prefix_cons.mpr ⟨rfl, hprefix⟩)
        (by simpa using hne)
    · intro c hc
      exact h.descended c (by simpa using .inr hc)
    · intro hdirect
      rw [hrecursive] at hdirect
      cases hdirect
  · rintro ⟨hdenied, hdescends, h⟩
    simp only [Workspace.descends, Bool.and_eq_true, Bool.not_eq_true', List.contains_eq_mem,
      decide_eq_false_iff_not] at hdescends
    obtain ⟨hrecursive, hname⟩ := hdescends
    refine ⟨fun above hprefix hne => ?_, fun c hc => ?_, fun hdirect => ?_⟩
    · rcases List.prefix_cons_iff.mp hprefix with rfl | ⟨more, rfl, hmore⟩
      · exact hdenied
      · exact h.listable more hmore (by simpa using hne)
    · rw [List.dropLast_cons_of_ne_nil (by simp), List.mem_cons] at hc
      rcases hc with rfl | hc
      · exact hname
      · exact h.descended c hc
    · rw [hrecursive] at hdirect
      cases hdirect

theorem mem_visited_cons {entries : List (String × FileNode)} (h : areProper entries = true)
    {name : String} {rest : List String} {node : FileNode} :
    (name :: rest, node) ∈ visited recursive denied entries ↔
      ∃ next, entries.lookup name = some next ∧
        (rest, node) ∈ visitedFrom recursive (fun names => denied (name :: names)) name next := by
  rw [visited_eq_flatMap, List.mem_flatMap]
  constructor
  · rintro ⟨⟨name', next⟩, he, hmem⟩
    obtain ⟨v, hv, heq⟩ := List.mem_map.mp hmem
    cases heq
    exact ⟨next, (of_areProper h he).2.1, hv⟩
  · rintro ⟨next, hlookup, hv⟩
    exact ⟨(name, next), Roster.mem_of_lookup hlookup, List.mem_map.mpr ⟨_, hv, rfl⟩⟩

theorem mem_visitedFrom {name : String} {next : FileNode} {v : List String × FileNode} :
    v ∈ visitedFrom recursive denied name next ↔
      v = ([], next) ∨ ∃ inside, next = directory inside ∧
        Workspace.descends recursive name = true ∧ denied [] = false ∧
          v ∈ visited recursive denied inside := by
  cases next with
  | file bytes => simp [visitedFrom]
  | special => simp [visitedFrom]
  | directory inside =>
    rw [visitedFrom, List.mem_cons]
    cases Workspace.descends recursive name <;> cases denied [] <;> simp

/-- What a listing of a proper directory looks at. -/
theorem mem_visited_iff {entries : List (String × FileNode)} (h : areProper entries = true)
    (hdenied : denied [] = false) {names : List String} {node : FileNode} :
    (names, node) ∈ visited recursive denied entries ↔
      names ≠ [] ∧ find? entries names = some node ∧ Open recursive denied names := by
  induction names generalizing entries denied with
  | nil =>
    constructor
    · intro hv
      exact absurd rfl (leads_of_mem_visited h hv).ne_nil
    · intro hne
      exact absurd rfl hne.1
  | cons name rest ih =>
    rw [mem_visited_cons h, find?_cons_eq_some]
    cases rest with
    | nil =>
      rw [open_singleton]
      constructor
      · rintro ⟨next, hlookup, hv⟩
        refine ⟨by simp, ⟨next, hlookup, ?_⟩, hdenied⟩
        obtain heq | ⟨inside, rfl, -, -, hinside⟩ := mem_visitedFrom.mp hv
        · cases heq
          exact follow_nil _
        · have hproper := (of_areProper h (Roster.mem_of_lookup hlookup)).2.2
          exact absurd rfl (leads_of_mem_visited hproper hinside).ne_nil
      · rintro ⟨-, ⟨next, hlookup, hfollow⟩, -⟩
        rw [follow_nil, Option.some.injEq] at hfollow
        exact ⟨next, hlookup, mem_visitedFrom.mpr (.inl (by rw [hfollow]))⟩
    | cons second rest =>
      rw [open_cons_cons]
      constructor
      · rintro ⟨next, hlookup, hv⟩
        obtain heq | ⟨inside, rfl, hdescends, hlistable, hinside⟩ := mem_visitedFrom.mp hv
        · cases heq
        · have hproper := (of_areProper h (Roster.mem_of_lookup hlookup)).2.2
          obtain ⟨-, hfind, hopen⟩ := (ih hproper hlistable).mp hinside
          exact ⟨by simp, ⟨_, hlookup, hfind⟩, hdenied, hdescends, hopen⟩
      · rintro ⟨-, ⟨next, hlookup, hfollow⟩, -, hdescends, hopen⟩
        refine ⟨next, hlookup, mem_visitedFrom.mpr ?_⟩
        cases next with
        | file bytes => cases hfollow
        | special => cases hfollow
        | directory inside =>
          have hproper := (of_areProper h (Roster.mem_of_lookup hlookup)).2.2
          have hlistable := hopen.listable [] List.nil_prefix (by simp)
          exact .inr ⟨inside, rfl, hdescends, hlistable,
            (ih hproper hlistable).mpr ⟨by simp, hfollow, hopen⟩⟩

/-! ## The order in which entries are enumerated -/

/-- The entries of a directory and of those below it in another order. -/
inductive Reordered : List (String × FileNode) → List (String × FileNode) → Prop
  | refl (entries : List (String × FileNode)) : Reordered entries entries
  | swap (e e' : String × FileNode) (rest : List (String × FileNode)) :
      Reordered (e :: e' :: rest) (e' :: e :: rest)
  | later (e : String × FileNode) {rest rest' : List (String × FileNode)} :
      Reordered rest rest' → Reordered (e :: rest) (e :: rest')
  | inside (name : String) {entries entries' : List (String × FileNode)}
      (rest : List (String × FileNode)) : Reordered entries entries' →
      Reordered ((name, directory entries) :: rest) ((name, directory entries') :: rest)
  | trans {first second third : List (String × FileNode)} :
      Reordered first second → Reordered second third → Reordered first third

/-- A node without what is in it. -/
def bare : FileNode → FileNode
  | directory _ => directory []
  | node => node

theorem map_bare_eq_file {node : Option FileNode} {bytes : ByteArray} :
    node.map bare = some (file bytes) ↔ node = some (file bytes) := by
  cases node with
  | none => simp
  | some node => cases node <;> simp [bare]

theorem find?_entry (name : String) (node : FileNode) (rest : List (String × FileNode))
    (first : String) (more : List String) :
    find? ((name, node) :: rest) (first :: more) =
      if first = name then node.follow more else find? rest (first :: more) := by
  rw [find?_cons, find?_cons, Roster.lookup_cons_ite]
  split <;> rfl

namespace Reordered

variable {entries entries' : List (String × FileNode)}

theorem names_perm (h : Reordered entries entries') :
    (entries.map Prod.fst).Perm (entries'.map Prod.fst) := by
  induction h with
  | refl entries => exact .refl _
  | swap e e' rest => exact .swap ..
  | later e _ ih => exact ih.cons _
  | inside name rest _ _ => exact .refl _
  | trans _ _ ih ih' => exact ih.trans ih'

theorem areProper (h : Reordered entries entries') (hproper : FileNode.areProper entries = true) :
    FileNode.areProper entries' = true := by
  induction h with
  | refl entries => exact hproper
  | swap e e' rest =>
    simp only [FileNode.areProper, List.map_cons, List.contains_cons, Bool.not_or,
      Bool.and_eq_true, Bool.not_eq_true', beq_eq_false_iff_ne] at hproper ⊢
    obtain ⟨⟨⟨he, hne, hfresh⟩, hnode⟩, ⟨⟨he', hfresh'⟩, hnode'⟩, hrest⟩ := hproper
    exact ⟨⟨⟨he', hne.symm, hfresh'⟩, hnode'⟩, ⟨⟨he, hfresh⟩, hnode⟩, hrest⟩
  | later e hrest ih =>
    simp only [FileNode.areProper, Bool.and_eq_true, hrest.names_perm.contains_eq] at hproper ⊢
    exact ⟨hproper.1, ih hproper.2⟩
  | inside name rest _ ih =>
    simp only [FileNode.areProper, isProper, Bool.and_eq_true] at hproper ⊢
    exact ⟨⟨hproper.1.1, ih hproper.1.2⟩, hproper.2⟩
  | trans _ _ ih ih' => exact ih' (ih hproper)

/-- Names lead alike. -/
theorem find? (h : Reordered entries entries') (hproper : FileNode.areProper entries = true)
    (names : List String) :
    (FileNode.find? entries' names).map bare = (FileNode.find? entries names).map bare := by
  induction h generalizing names with
  | refl entries => rfl
  | swap e e' rest =>
    obtain ⟨name, node⟩ := e
    obtain ⟨name', node'⟩ := e'
    have hne : name ≠ name' :=
      (List.pairwise_cons.mp (pairwise_names hproper)).1 (name', node') (List.mem_cons_self ..)
    cases names with
    | nil => rfl
    | cons first more =>
      simp only [find?_entry]
      by_cases hfirst : first = name
      · simp [hfirst, hne]
      · simp [hfirst]
  | later e _ ih =>
    simp only [FileNode.areProper, Bool.and_eq_true] at hproper
    cases names with
    | nil => rfl
    | cons first more =>
      rw [find?_entry, find?_entry]
      split
      · rfl
      · exact ih hproper.2 _
  | inside name rest _ ih =>
    simp only [FileNode.areProper, isProper, Bool.and_eq_true] at hproper
    cases names with
    | nil => rfl
    | cons first more =>
      rw [find?_entry, find?_entry]
      split
      · exact ih hproper.1.2 more
      · rfl
  | trans h _ ih ih' => rw [ih' (h.areProper hproper), ih hproper]

end Reordered

end FileNode

/-! ## Exactly these files -/

namespace Workspace

variable {ws : Workspace}

/-- A listing of the directory at a path looks at what the names lead to. -/
structure LooksAt (denied : List String) (root : Path) (recursive : Bool)
    (tree : List (String × FileNode)) (names : List String) (node : FileNode) : Prop where
  ne_nil : names ≠ []
  find? : FileNode.find? tree names = some node
  isOpen : FileNode.Open recursive (deniedBelow denied root) names

theorem mem_visited_iff_looksAt {denied : List String} {root : Path} {recursive : Bool}
    {tree : List (String × FileNode)} (htree : FileNode.areProper tree = true)
    (hroot : denied.contains root.toString = false) {names : List String} {node : FileNode} :
    (names, node) ∈ FileNode.visited recursive (deniedBelow denied root) tree ↔
      LooksAt denied root recursive tree names node := by
  rw [FileNode.mem_visited_iff htree (deniedBelow_nil denied root ▸ hroot)]
  exact ⟨fun ⟨hne, hfind, hopen⟩ => ⟨hne, hfind, hopen⟩, fun h => ⟨h.ne_nil, h.find?, h.isOpen⟩⟩

/-- The files that a listing looks at, each once and in the order of their paths. -/
structure Lists (denied : List String) (root : Path) (recursive : Bool)
    (tree : List (String × FileNode)) (files : List Path) : Prop where
  increasing : files.Pairwise fun p q => p.key < q.key
  mem_iff : ∀ f, f ∈ files ↔ ∃ names bytes, f = root.below names ∧
    LooksAt denied root recursive tree names (.file bytes)

section

variable {denied : List String} {root : Path} {recursive : Bool}
  {tree tree' : List (String × FileNode)}

theorem LooksAt.root_listable {names : List String} {node : FileNode}
    (h : LooksAt denied root recursive tree names node) :
    denied.contains root.toString = false := by
  have hlistable := h.isOpen.listable [] List.nil_prefix h.ne_nil.symm
  rwa [deniedBelow_nil] at hlistable

theorem lists_nil (h : denied.contains root.toString = true) :
    Lists denied root recursive tree [] := by
  refine ⟨List.Pairwise.nil, fun f => ⟨fun hf => absurd hf List.not_mem_nil, ?_⟩⟩
  rintro ⟨names, bytes, -, hlooks⟩
  cases h.symm.trans hlooks.root_listable

/-- Sorted, the files below a directory are those that are to be listed. -/
theorem lists_sortedFiles (htree : FileNode.areProper tree = true)
    (hroot : ws.denied.contains root.toString = false) :
    Lists ws.denied root recursive tree ((ws.sortedFiles root recursive tree).map root.below) := by
  have hperm := List.mergeSort_perm
    (FileNode.filesWithin recursive (deniedBelow ws.denied root) tree) fun a b => !decide (b < a)
  refine ⟨?_, fun f => ?_⟩
  · have hnodup : (ws.sortedFiles root recursive tree).Nodup :=
      hperm.nodup_iff.mpr (FileNode.nodup_filesWithin recursive _ htree)
    have hsorted : (ws.sortedFiles root recursive tree).Pairwise fun a b => ¬ b < a :=
      pairwise_mergeSort_names _
    rw [List.pairwise_map]
    refine (hnodup.and hsorted).imp ?_
    rintro a b ⟨hne, hle⟩
    have hlt : a < b := by
      by_contra hge
      exact hne (List.le_antisymm hle hge)
    have hkey := root.le_below b a
    rw [Path.le] at hkey
    simpa [hlt] using hkey
  · rw [List.mem_map]
    constructor
    · rintro ⟨names, hnames, rfl⟩
      obtain ⟨bytes, hv⟩ := FileNode.mem_filesWithin.mp (hperm.mem_iff.mp hnames)
      exact ⟨names, bytes, rfl, (mem_visited_iff_looksAt htree hroot).mp hv⟩
    · rintro ⟨names, bytes, rfl, hlooks⟩
      have hv := (mem_visited_iff_looksAt htree hroot).mpr hlooks
      exact ⟨names, hperm.mem_iff.mpr (FileNode.mem_filesWithin.mpr ⟨bytes, hv⟩), rfl⟩

/-- There is one such list. -/
theorem Lists.unique {files files' : List Path} (h : Lists denied root recursive tree files)
    (h' : Lists denied root recursive tree files') : files' = files := by
  have hnodup : ∀ {l : List Path}, (l.Pairwise fun p q => p.key < q.key) → l.Nodup := by
    intro l hl
    refine hl.imp ?_
    rintro p q hlt rfl
    exact List.lt_irrefl _ hlt
  have hperm : files'.Perm files :=
    (List.perm_ext_iff_of_nodup (hnodup h'.increasing) (hnodup h.increasing)).mpr fun f => by
      rw [h'.mem_iff, h.mem_iff]
  refine hperm.eq_of_pairwise ?_ h'.increasing h.increasing
  intro p q _ _ hpq hqp
  exact absurd hqp (List.lt_asymm hpq)

/-- A listing looks at the same names in whatever order the entries are enumerated. -/
theorem LooksAt.reordered {names : List String} {node' : FileNode}
    (hlooks : LooksAt denied root recursive tree' names node')
    (h : FileNode.Reordered tree tree') (htree : FileNode.areProper tree = true) :
    ∃ node, LooksAt denied root recursive tree names node ∧ node.bare = node'.bare := by
  have hfind := h.find? htree names
  rw [hlooks.find?, Option.map_some] at hfind
  obtain ⟨node, hnode, hbare⟩ := Option.map_eq_some_iff.mp hfind.symm
  exact ⟨node, ⟨hlooks.ne_nil, hnode, hlooks.isOpen⟩, hbare⟩

theorem looksAt_file_iff_of_reordered (h : FileNode.Reordered tree tree')
    (htree : FileNode.areProper tree = true) {names : List String} {bytes : ByteArray} :
    LooksAt denied root recursive tree' names (.file bytes) ↔
      LooksAt denied root recursive tree names (.file bytes) := by
  have hfind : FileNode.find? tree' names = some (.file bytes) ↔
      FileNode.find? tree names = some (.file bytes) := by
    rw [← FileNode.map_bare_eq_file, h.find? htree, FileNode.map_bare_eq_file]
  exact ⟨fun hl => ⟨hl.ne_nil, hfind.mp hl.find?, hl.isOpen⟩,
    fun hl => ⟨hl.ne_nil, hfind.mpr hl.find?, hl.isOpen⟩⟩

theorem Lists.reordered {files : List Path} (hlists : Lists denied root recursive tree' files)
    (h : FileNode.Reordered tree tree') (htree : FileNode.areProper tree = true) :
    Lists denied root recursive tree files := by
  refine ⟨hlists.increasing, fun f => ?_⟩
  simp only [hlists.mem_iff, looksAt_file_iff_of_reordered h htree]

end

/-- The files of a directory are listed, unless something that is looked at lies at a path longer
than the system takes. -/
theorem listed_or_stopped {root : Path} (hp : root.Plain) {tree : List (String × FileNode)}
    (htree : FileNode.areProper tree = true)
    (hd : ws.node? root = .ok (some (.directory tree))) (recursive : Bool) :
    (∃ files, (ws.list root.toString recursive).value = .ok files ∧
      Lists ws.denied root recursive tree files ∧
      ∀ names node, LooksAt ws.denied root recursive tree names node →
        isLongPath (root.below names).toString = false) ∨
    ∃ names node, LooksAt ws.denied root recursive tree names node ∧
      isLongPath (root.below names).toString = true ∧
      (ws.list root.toString recursive).value =
        .error (.refused .nameTooLong (root.below names).toString) := by
  obtain ⟨there, hstands⟩ := stands_of_node? hd
  rw [list_value ws hp, hstands.noNull, hstands.look]
  cases hroot : ws.denied.contains root.toString with
  | true =>
    refine .inl ⟨[], rfl, lists_nil hroot, fun names node hlooks => ?_⟩
    cases hroot.symm.trans hlooks.root_listable
  | false =>
    simp only [Bool.false_eq_true, if_false]
    cases hstopped : stoppedAt? ws.denied recursive root tree with
    | none =>
      refine .inl ⟨_, rfl, lists_sortedFiles htree hroot, fun names node hlooks => ?_⟩
      have hv := (mem_visited_iff_looksAt htree hroot).mpr hlooks
      exact (stoppedAt?_eq_none_iff hroot).mp hstopped _ (List.mem_map.mpr ⟨_, hv, rfl⟩)
    | some q =>
      obtain ⟨hmem, hlong⟩ := of_stoppedAt?_eq_some hroot hstopped
      obtain ⟨⟨names, node⟩, hv, rfl⟩ := List.mem_map.mp hmem
      exact .inr ⟨names, node, (mem_visited_iff_looksAt htree hroot).mp hv, hlong, rfl⟩

/-- A directory that is there is listed by exactly its files: those at names that lead over
directories that may be listed, none but the first of which has a name that is skipped, and without
`recursive` at one name alone. They stand in the order of their paths, each once, and in whatever
order the entries are enumerated. Only a path that is too long stops the listing. -/
theorem list_exact {d : String} {tree : List (String × FileNode)}
    (htree : FileNode.areProper tree = true)
    (hd : ws.node? (.ofString d) = .ok (some (.directory tree))) (recursive : Bool) :
    (∃ files, (ws.list d recursive).value = .ok files ∧
      Lists ws.denied (.ofString d) recursive tree files ∧
      (∀ names node, LooksAt ws.denied (.ofString d) recursive tree names node →
        isLongPath ((Path.ofString d).below names).toString = false) ∧
      ∀ (ws' : Workspace) tree', FileNode.Reordered tree tree' → ws'.denied = ws.denied →
        ws'.node? (.ofString d) = .ok (some (.directory tree')) →
        (ws'.list d recursive).value = .ok files) ∨
    ∃ names node, LooksAt ws.denied (.ofString d) recursive tree names node ∧
      isLongPath ((Path.ofString d).below names).toString = true ∧
      (ws.list d recursive).value =
        .error (.refused .nameTooLong ((Path.ofString d).below names).toString) := by
  have hp := Path.plain_ofString d
  rw [list_text]
  obtain ⟨files, hfiles, hlists, hshort⟩ | hstopped := listed_or_stopped hp htree hd recursive
  · refine .inl ⟨files, hfiles, hlists, hshort, fun ws' tree' hreordered hdenied hd' => ?_⟩
    rw [list_text]
    obtain ⟨files', hfiles', hlists', -⟩ | ⟨names, node', hlooks', hlong, -⟩ :=
      listed_or_stopped hp (hreordered.areProper htree) hd' recursive
    · rw [hdenied] at hlists'
      rw [hfiles', hlists.unique (hlists'.reordered hreordered htree)]
    · rw [hdenied] at hlooks'
      obtain ⟨node, hlooks, -⟩ := hlooks'.reordered hreordered htree
      rw [hshort names node hlooks] at hlong
      cases hlong
  · exact .inr hstopped

/-- A directory whose own name is one that is skipped. In it are a directory that may not be listed,
one that is skipped, one of which neither holds, and something that is no file. -/
def venvFiles : List (String × FileNode) :=
  [("locked", .directory [("c.py", .file .empty)]),
    ("node_modules", .directory [("d.py", .file .empty)]), ("pipe", .special),
    ("pkg", .directory [("a.py", .file .empty), ("b.py", .file .empty)]), ("z.py", .file .empty)]

def venvWorkspace : Workspace where
  entries := [("venv", .directory venvFiles)]
  denied := ["venv/locked"]

/-- The same with some entries in another order. -/
def shuffledFiles : List (String × FileNode) :=
  [("node_modules", .directory [("d.py", .file .empty)]),
    ("locked", .directory [("c.py", .file .empty)]), ("pipe", .special),
    ("pkg", .directory [("b.py", .file .empty), ("a.py", .file .empty)]), ("z.py", .file .empty)]

def shuffledWorkspace : Workspace where
  entries := [("venv", .directory shuffledFiles)]
  denied := ["venv/locked"]

theorem list_venvWorkspace :
    (venvWorkspace.list "venv" true).value =
      .ok [.ofString "venv/pkg/a.py", .ofString "venv/pkg/b.py", .ofString "venv/z.py"] := by
  have hlook : venvWorkspace.look (.ofString "venv") = .ok (.directory venvFiles) := rfl
  have hfiles : FileNode.filesWithin true (deniedBelow venvWorkspace.denied (.ofString "venv"))
      venvFiles = [["pkg", "a.py"], ["pkg", "b.py"], ["z.py"]] := rfl
  exact list_of_sorted _ hlook (by decide +kernel) (by decide +kernel) (by decide +kernel) hfiles
    (by decide +kernel)

theorem reordered_venvFiles : FileNode.Reordered venvFiles shuffledFiles :=
  (FileNode.Reordered.swap _ _ _).trans
    (.later _ (.later _ (.later _ (.inside _ _ (.swap _ _ _)))))

theorem list_exact_venv :
    let files : List Path :=
      [.ofString "venv/pkg/a.py", .ofString "venv/pkg/b.py", .ofString "venv/z.py"]
    Lists ["venv/locked"] (.ofString "venv") true venvFiles files ∧
      (shuffledWorkspace.list "venv" true).value = .ok files := by
  have hproper : FileNode.areProper venvFiles = true := by decide +kernel
  have hd : venvWorkspace.node? (.ofString "venv") = .ok (some (.directory venvFiles)) := rfl
  obtain ⟨files, hfiles, hlists, -, horder⟩ | ⟨names, node, -, -, hstopped⟩ :=
    list_exact hproper hd true
  · cases hfiles.symm.trans list_venvWorkspace
    exact ⟨hlists, horder shuffledWorkspace shuffledFiles reordered_venvFiles rfl rfl⟩
  · cases hstopped.symm.trans list_venvWorkspace

/-! ## A listing that is stopped -/

/-- Names that lead into a directory and out of it again, a number of times, before they go on. -/
def detours : Nat → List String → List String
  | 0, rest => rest
  | n + 1, rest => "src" :: ".." :: detours n rest

theorem detours_append (n : Nat) (rest names : List String) :
    detours n rest ++ names = detours n (rest ++ names) := by
  induction n with
  | zero => rfl
  | succ n ih => simp only [detours, List.cons_append, ih]

theorem mem_detours {n : Nat} {rest : List String} {c : String} (h : c ∈ detours n rest) :
    c = "src" ∨ c = ".." ∨ c ∈ rest := by
  induction n with
  | zero => exact .inr (.inr h)
  | succ n ih =>
    rcases List.mem_cons.mp h with rfl | h
    · exact .inl rfl
    · rcases List.mem_cons.mp h with rfl | h
      · exact .inr (.inl rfl)
      · exact ih h

theorem size_detours (n : Nat) {rest : List String} (h : rest ≠ []) :
    (Path.toString ⟨.relative, detours n rest⟩).utf8ByteSize =
      7 * n + ("/".intercalate rest).utf8ByteSize := by
  induction n with
  | zero => simp [Path.toString, detours, Anchor.text, h]
  | succ n ih =>
    have hmore : ∃ c more, detours n rest = c :: more := by
      cases n with
      | zero => exact List.exists_cons_of_ne_nil h
      | succ n => exact ⟨_, _, rfl⟩
    obtain ⟨c, more, hmore⟩ := hmore
    have hsrc : "src".utf8ByteSize = 3 := rfl
    have hslash : "/".utf8ByteSize = 1 := rfl
    have hdots : "..".utf8ByteSize = 2 := rfl
    simp only [Path.toString, detours, hmore, Anchor.text, List.isEmpty_cons, Bool.and_false,
      Bool.false_eq_true, if_false, String.empty_append, String.intercalate_cons_cons,
      String.utf8ByteSize_append, hsrc, hslash, hdots] at ih ⊢
    omega

def detourFiles : List (String × FileNode) :=
  [("main.py", .file .empty)]

def detourWorkspace : Workspace where
  entries := [("src", .directory detourFiles)]

/-- A long way to a directory. -/
def detour (n : Nat) : Path :=
  ⟨.relative, detours n ["src"]⟩

theorem of_mem_detour {n : Nat} {c : String} (h : c ∈ (detour n).parts) :
    Path.IsComponent c ∧ hasNull c = false := by
  rcases mem_detours h with rfl | rfl | h
  · exact ⟨⟨by decide, by decide, by decide⟩, rfl⟩
  · exact ⟨⟨by decide, by decide, by decide⟩, rfl⟩
  · rw [List.mem_singleton.mp h]
    exact ⟨⟨by decide, by decide, by decide⟩, rfl⟩

theorem plain_detour (n : Nat) : (detour n).Plain :=
  fun _ hc => (of_mem_detour hc).1

theorem walk_detours (n : Nat) (rest : List String) :
    detourWorkspace.walk [] (detours n rest) = detourWorkspace.walk [] rest := by
  induction n with
  | zero => rfl
  | succ n ih =>
    -- one detour leads back to where it began
    have hdetour : detourWorkspace.walk [] ["src", ".."] = .ok [] := rfl
    have hsplit : detours (n + 1) rest = ["src", ".."] ++ detours n rest := rfl
    rw [hsplit, walk_append, hdetour]
    exact ih

theorem node?_detour {n : Nat} (h : 7 * n + 3 ≤ maxPathSize) :
    detourWorkspace.node? (detour n) = .ok (some (.directory detourFiles)) := by
  have hnull : hasNull (detour n).toString = false := by
    rw [Path.hasNull_toString, List.any_eq_false]
    intro c hc
    simp [(of_mem_detour hc).2]
  have hfits : isLongPath (detour n).toString = false := by
    rw [isLongPath, detour, size_detours n (by simp), decide_eq_false_iff_not]
    exact Nat.not_lt.mpr h
  have hwalk : detourWorkspace.walk (detourWorkspace.start (detour n).anchor) (detour n).parts =
      .ok ["src"] := walk_detours n ["src"]
  simp only [node?, look, hnull, hfits, hwalk]
  rfl

/-- A directory whose path is just short enough is not listed, because the path of its one entry is
not. -/
theorem list_detour {n : Nat} (hfits : 7 * n + 3 ≤ maxPathSize) (hlong : maxPathSize < 7 * n + 11) :
    LooksAt detourWorkspace.denied (detour n) true detourFiles ["main.py"] (.file .empty) ∧
      (detourWorkspace.list (detour n).toString true).value =
        .error (.refused .nameTooLong ((detour n).below ["main.py"]).toString) := by
  have hproper : FileNode.areProper detourFiles = true := by decide
  have hlooks : LooksAt detourWorkspace.denied (detour n) true detourFiles ["main.py"]
      (.file .empty) := ⟨by simp, rfl, FileNode.open_singleton.mpr rfl⟩
  refine ⟨hlooks, ?_⟩
  obtain ⟨files, -, -, hshort⟩ | ⟨names, node, hlooks', -, hstopped⟩ :=
    listed_or_stopped (plain_detour n) hproper (node?_detour hfits) true
  · have hpath : isLongPath ((detour n).below ["main.py"]).toString = true := by
      rw [isLongPath, Path.below, detour, detours_append, size_detours n (by simp),
        decide_eq_true_eq]
      exact hlong
    rw [hshort _ _ hlooks] at hpath
    cases hpath
  · -- there is nothing else to look at
    have hnames : names = ["main.py"] := by
      have hv := (mem_visited_iff_looksAt hproper rfl).mpr hlooks'
      simp only [detourFiles, FileNode.visited, FileNode.visitedFrom, List.map_cons, List.map_nil,
        List.append_nil, List.mem_singleton] at hv
      exact congrArg Prod.fst hv
    rw [hnames] at hstopped
    exact hstopped

/-- So a file that is there and may be seen is not always listed. -/
theorem list_stopped_on_detour :
    FileNode.areProper detourFiles = true ∧
      detourWorkspace.node? (detour 584) = .ok (some (.directory detourFiles)) ∧
      LooksAt detourWorkspace.denied (detour 584) true detourFiles ["main.py"] (.file .empty) ∧
      (detourWorkspace.list (detour 584).toString true).value =
        .error (.refused .nameTooLong ((detour 584).below ["main.py"]).toString) :=
  ⟨by decide, node?_detour (by decide), list_detour (by decide) (by decide)⟩

end Workspace

end CognitiveLoad
