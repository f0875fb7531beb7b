import CognitiveLoad.Proofs.Profile

/-!
Control flow apart from the language it is written in. A `Statement` says how the flow of control
goes; `Statement.python` and `Statement.cpp` are its trees in the two languages, which differ in
how a conditional goes on: with clauses side by side, or with each conditional in the `else` of the
one before.

* `profile_python`, `profile_cpp`: either tree has the profile that `Statement.effort` reads off
  the statement;
* `writings_score_alike`: so the two score alike, at every level.
-/

namespace CognitiveLoad.Flow

open Scorer CognitiveLoad.Metric

/-! ## Statements -/

/-- Code that steers nothing: no node of it is a construct, a function or a logical expression. -/
def Straight (v : Vocabulary) (t : Tree) : Prop :=
  ∀ u ∈ t.nodes, v.roleOf u = .other ∨ v.roleOf u = .operator ∧ v.operator? u = none

/-- A piece of straight-line code, as each language writes it. -/
structure Leaf where
  tree : Dialect → Tree
  straight : ∀ d, Straight d.vocabulary (tree d)

inductive Connective where
  | both
  | either
  deriving DecidableEq, Repr

inductive Condition where
  | leaf (l : Leaf)
  | join (o : Connective) (a b : Condition)

mutual

inductive Statement where
  | leaf (l : Leaf)
  | block (body : List Statement)
  | branch (c : Condition) (body : List Statement) (rest : Alternative)
  | whileLoop (c : Condition) (body : List Statement)
  | rangeLoop (x : Leaf) (items : Condition) (body : List Statement)
  | attempt (body : List Statement) (handlers : List Clause)
  | select (subject : Condition) (cases : List Clause)

/-- How a conditional goes on. -/
inductive Alternative where
  | nothing
  | elseIf (c : Condition) (body : List Statement) (rest : Alternative)
  | otherwise (body : List Statement)

/-- A handler with what it catches, or a case with its pattern. -/
inductive Clause where
  | mk (label : Leaf) (body : List Statement)

end

/-! ## Trees -/

abbrev keyword (type : String) : Tree :=
  .node ⟨0, type, false, none, 0, 0, 0, 0⟩ []

abbrev construct (type : String) (cs : List Tree) : Tree :=
  .node ⟨0, type, true, none, 0, 0, 0, 0⟩ cs

def unlabelled : Tree → Tree
  | .missing => .missing
  | .node info cs => .node { info with field := none } cs

def Leaf.write (d : Dialect) (l : Leaf) : Tree :=
  unlabelled (l.tree d)

def Connective.token : Dialect → Connective → String
  | .python, .both => "and"
  | .python, .either => "or"
  | .cpp, .both => "&&"
  | .cpp, .either => "||"

/-- The token between the operands of an expression. -/
abbrev Connective.mark (d : Dialect) (o : Connective) : Tree :=
  .node ⟨0, o.token d, false, some "operator", 0, 0, 0, 0⟩ []

def expressionType : Dialect → String
  | .python => "boolean_operator"
  | .cpp => "binary_expression"

def Condition.write (d : Dialect) : Condition → Tree
  | .leaf l => l.write d
  | .join o a b =>
    construct (expressionType d) [a.write d, o.mark d, b.write d]

mutual

/-- Clauses of a conditional stand side by side under it. -/
def Statement.python : Statement → Tree
  | .leaf l => l.write .python
  | .block body => construct "block" (pythonAll body)
  | .branch c body rest =>
    construct "if_statement" ([keyword "if", c.write .python, keyword ":",
      construct "block" (pythonAll body)] ++ rest.python)
  | .whileLoop c body =>
    construct "while_statement" [keyword "while", c.write .python, keyword ":",
      construct "block" (pythonAll body)]
  | .rangeLoop x items body =>
    construct "for_statement" [keyword "for", x.write .python, keyword "in", items.write .python,
      keyword ":", construct "block" (pythonAll body)]
  | .attempt body handlers =>
    construct "try_statement" ([keyword "try", keyword ":", construct "block" (pythonAll body)] ++
      pythonClauses "except_clause" "except" handlers)
  | .select subject cases =>
    construct "match_statement" [keyword "match", subject.write .python, keyword ":",
      construct "block" (pythonClauses "case_clause" "case" cases)]

def Alternative.python : Alternative → List Tree
  | .nothing => []
  | .elseIf c body rest =>
    construct "elif_clause" [keyword "elif", c.write .python, keyword ":",
      construct "block" (pythonAll body)] :: rest.python
  | .otherwise body =>
    [construct "else_clause" [keyword "else", keyword ":", construct "block" (pythonAll body)]]

def pythonClauses (type word : String) : List Clause → List Tree
  | [] => []
  | .mk l body :: rest =>
    construct type [keyword word, l.write .python, keyword ":",
      construct "block" (pythonAll body)] :: pythonClauses type word rest

def pythonAll : List Statement → List Tree
  | [] => []
  | st :: rest => st.python :: pythonAll rest

end

def compound (body : List Tree) : Tree :=
  construct "compound_statement" ([keyword "\x7b"] ++ body ++ [keyword "\x7d"])

def parenthesized (c : Condition) : Tree :=
  construct "condition_clause" [keyword "(", c.write .cpp, keyword ")"]

mutual

/-- Each conditional of a chain stands in the `else` of the one before. -/
def Statement.cpp : Statement → Tree
  | .leaf l => l.write .cpp
  | .block body => compound (cppAll body)
  | .branch c body rest =>
    construct "if_statement" ([keyword "if", parenthesized c, compound (cppAll body)] ++ rest.cpp)
  | .whileLoop c body =>
    construct "while_statement" [keyword "while", parenthesized c, compound (cppAll body)]
  | .rangeLoop x items body =>
    construct "for_range_loop" [keyword "for", keyword "(", x.write .cpp, keyword ":",
      items.write .cpp, keyword ")", compound (cppAll body)]
  | .attempt body handlers =>
    construct "try_statement" ([keyword "try", compound (cppAll body)] ++ cppHandlers handlers)
  | .select subject cases =>
    construct "switch_statement" [keyword "switch", parenthesized subject,
      compound (cppCases cases)]

def Alternative.cpp : Alternative → List Tree
  | .nothing => []
  | .elseIf c body rest =>
    [construct "else_clause" [keyword "else", construct "if_statement"
      ([keyword "if", parenthesized c, compound (cppAll body)] ++ rest.cpp)]]
  | .otherwise body =>
    [construct "else_clause" [keyword "else", compound (cppAll body)]]

def cppHandlers : List Clause → List Tree
  | [] => []
  | .mk l body :: rest =>
    construct "catch_clause" [keyword "catch", l.write .cpp, compound (cppAll body)] ::
      cppHandlers rest

/-- The statements of a case stand in the case itself. -/
def cppCases : List Clause → List Tree
  | [] => []
  | .mk l body :: rest =>
    construct "case_statement" ([keyword "case", l.write .cpp, keyword ":"] ++ cppAll body) ::
      cppCases rest

def cppAll : List Statement → List Tree
  | [] => []
  | st :: rest => st.cpp :: cppAll rest

end

/-! ## Effort -/

def Condition.effort (count : Bool) (around : Option Connective) :
    Condition → List (Category × Int)
  | .leaf _ => []
  | .join o a b =>
    (if count && around ≠ some o then [(.fundamental, 1)] else []) ++
      (a.effort count (some o) ++ b.effort count (some o))

mutual

/-- What a statement adds at a level, read off the statement. -/
def Statement.effort (count : Bool) (level : Nat) : Statement → List (Category × Int)
  | .leaf _ => []
  | .block body => effortAll count level body
  | .branch c body rest =>
    opening level ++ (c.effort count none ++ (effortAll count (level + 1) body ++
      rest.effort count (level + 1)))
  | .whileLoop c body =>
    opening level ++ (c.effort count none ++ effortAll count (level + 1) body)
  | .rangeLoop _ items body =>
    opening level ++ (items.effort count none ++ effortAll count (level + 1) body)
  | .attempt body handlers =>
    effortAll count level body ++ handlersEffort count level handlers
  | .select subject cases =>
    opening level ++ (subject.effort count none ++ casesEffort count (level + 1) cases)

/-- All clauses of a chain are at the level of the body of its conditional. -/
def Alternative.effort (count : Bool) (level : Nat) : Alternative → List (Category × Int)
  | .nothing => []
  | .elseIf c body rest =>
    (.hybrid, 1) :: (c.effort count none ++ (effortAll count level body ++
      rest.effort count level))
  | .otherwise body => (.structural, 1) :: effortAll count level body

def handlersEffort (count : Bool) (level : Nat) : List Clause → List (Category × Int)
  | [] => []
  | .mk _ body :: rest =>
    opening level ++ (effortAll count (level + 1) body ++ handlersEffort count level rest)

def casesEffort (count : Bool) (level : Nat) : List Clause → List (Category × Int)
  | [] => []
  | .mk _ body :: rest =>
    (.structural, 1) :: (effortAll count level body ++ casesEffort count level rest)

def effortAll (count : Bool) (level : Nat) : List Statement → List (Category × Int)
  | [] => []
  | st :: rest => st.effort count level ++ effortAll count level rest

end

/-! ## Parts of a tree -/

abbrev scorer (d : Dialect) (count : Bool) : Scorer :=
  ⟨d.vocabulary, count⟩

theorem profile_of_straight (s : Scorer) (source : ByteArray) {t : Tree}
    (h : Straight s.vocabulary t) (level : Nat) (parent : Tree) :
    s.profile source level parent t = [] := by
  induction t using Tree.induct generalizing parent with
  | missing => rfl
  | node info cs ih =>
    have hbelow : cs.flatMap (s.profile source level (.node info cs)) = [] := by
      rw [List.flatMap_eq_nil_iff]
      intro c hc
      exact ih c hc (fun u hu => h u ((Tree.nodes_child_sublist hc).subset hu)) _
    rcases h _ (Tree.self_mem_nodes rfl) with hr | ⟨hr, ho⟩
    · rw [s.profile_of_other source level parent hr, hbelow]
    · rw [s.profile_of_operator_none source level parent hr ho, hbelow]

theorem straight_unlabelled {v : Vocabulary} {t : Tree} (h : Straight v t) :
    Straight v (unlabelled t) := by
  cases t with
  | missing => exact h
  | node info cs =>
    intro u hu
    rw [unlabelled, Tree.nodes_node] at hu
    rcases List.mem_cons.mp hu with rfl | hu
    · exact h (.node info cs) (Tree.self_mem_nodes rfl)
    · exact h u (by rw [Tree.nodes_node]; exact List.mem_cons_of_mem _ hu)

def keywords : List String :=
  ["if", "elif", "else", "while", "for", "in", "try", "except", "catch", "match", "switch", "case",
    ":", "(", ")", "\x7b", "\x7d", "and", "or", "&&", "||"]

theorem lookup_keyword (d : Dialect) :
    ∀ word ∈ keywords, d.vocabulary.roles.lookup word = none := by
  cases d <;> decide

section Parts

variable (d : Dialect) (count : Bool) (source : ByteArray) (level : Nat) (parent : Tree)

theorem profile_leaf (l : Leaf) :
    (scorer d count).profile source level parent (l.write d) = [] :=
  profile_of_straight _ source (straight_unlabelled (l.straight d)) level parent

theorem profile_token {info : NodeInfo} (h : info.type ∈ keywords) :
    (scorer d count).profile source level parent (.node info []) = [] := by
  have hr : d.vocabulary.roleOf (.node info []) = .other := by
    rw [Vocabulary.roleOf, lookup_keyword d _ h]
    rfl
  rw [(scorer d count).profile_of_other source level parent hr]
  rfl

theorem profile_keyword {word : String} (h : word ∈ keywords) :
    (scorer d count).profile source level parent (keyword word) = [] :=
  profile_token d count source level parent h

theorem profile_mark (o : Connective) :
    (scorer d count).profile source level parent (o.mark d) = [] :=
  profile_token d count source level parent (by cases d <;> cases o <;> decide)

theorem token_injective : Function.Injective (Connective.token d) := by
  intro o o' h
  cases d <;> cases o <;> cases o' <;> simp_all [Connective.token]

theorem hasField_write (c : Condition) (f : String) : (c.write d).hasField f = false := by
  cases c with
  | join o a b => rfl
  | leaf l =>
    rw [Condition.write, Leaf.write]
    cases l.tree d <;> rfl

theorem operator?_write_join (o : Connective) (a b : Condition) :
    d.vocabulary.operator? ((Condition.join o a b).write d) = some (o.token d) := by
  have hchild : ((Condition.join o a b).write d).child "operator" = o.mark d := by
    rw [Condition.write, Tree.child, Tree.children, List.find?_cons, hasField_write]
    rfl
  rw [Vocabulary.operator?, hchild]
  cases d <;> cases o <;> rfl

/-- `around` is the connective of the expression that a condition is an operand of. -/
theorem profile_condition (c : Condition) (around : Option Connective)
    (h : d.vocabulary.operator? parent = around.map (·.token d)) :
    (scorer d count).profile source level parent (c.write d) = c.effort count around := by
  induction c generalizing parent around with
  | leaf l => exact profile_leaf d count source level parent l
  | join o a b iha ihb =>
    have ho := operator?_write_join d o a b
    have hlike : d.vocabulary.operator? parent = some (o.token d) ↔ around = some o := by
      rw [h, ← Option.map_some, (Option.map_injective (token_injective d)).eq_iff]
    rw [Condition.write] at ho ⊢
    rw [(scorer d count).profile_of_operator source level parent ho, Condition.effort]
    simp only [List.flatMap_cons, List.flatMap_nil, List.append_nil, List.nil_append, profile_mark,
      iha _ (some o) ho, ihb _ (some o) ho, ne_eq, hlike]

theorem profile_of_opening {type : String} {cs : List Tree}
    (h : (d.vocabulary.roleOf (construct type cs)).nests = true)
    (hp : (scorer d count).continues parent = false) :
    (scorer d count).profile source level parent (construct type cs) =
      opening level ++
        cs.flatMap ((scorer d count).profile source (level + 1) (construct type cs)) := by
  refine (scorer d count).profile_of_nests source level parent h ?_
  rintro ⟨-, hc⟩
  rcases hc with hc | hc <;> simp [continues, hc] at hp

end Parts

/-! ## Conditionals with clauses side by side -/

section Python

variable (count : Bool) (source : ByteArray)

theorem profile_block (level : Nat) (parent : Tree) (cs : List Tree) :
    (scorer .python count).profile source level parent (construct "block" cs) =
      cs.flatMap ((scorer .python count).profile source level (construct "block" cs)) :=
  (scorer .python count).profile_of_other source level parent rfl

mutual

theorem profile_python : ∀ (st : Statement) (level : Nat) (parent : Tree),
    (scorer .python count).continues parent = false →
    (scorer .python count).profile source level parent st.python = st.effort count level
  | .leaf l, level, parent, _ => profile_leaf .python count source level parent l
  | .block body, level, parent, _ => by
    rw [Statement.python, profile_block, Statement.effort, profile_pythonAll body level _ rfl]
  | .branch c body rest, level, parent, h => by
    rw [Statement.python, profile_of_opening .python count source level parent rfl h,
      Statement.effort]
    simp (disch := decide) only [List.flatMap_append, List.flatMap_cons, List.flatMap_nil,
      profile_keyword, profile_block, List.append_nil, List.nil_append, List.append_assoc]
    rw [profile_condition .python count source _ _ c none rfl, profile_pythonAll body _ _ rfl,
      profile_alternative_python rest]
  | .whileLoop c body, level, parent, h => by
    rw [Statement.python, profile_of_opening .python count source level parent rfl h,
      Statement.effort]
    simp (disch := decide) only [List.flatMap_cons, List.flatMap_nil, profile_keyword,
      profile_block, List.append_nil, List.nil_append]
    rw [profile_condition .python count source _ _ c none rfl, profile_pythonAll body _ _ rfl]
  | .rangeLoop x items body, level, parent, h => by
    rw [Statement.python, profile_of_opening .python count source level parent rfl h,
      Statement.effort]
    simp (disch := decide) only [List.flatMap_cons, List.flatMap_nil, profile_keyword,
      profile_leaf, profile_block, List.append_nil, List.nil_append]
    rw [profile_condition .python count source _ _ items none rfl, profile_pythonAll body _ _ rfl]
  | .attempt body handlers, level, parent, _ => by
    rw [Statement.python, (scorer .python count).profile_of_other source level parent rfl,
      Statement.effort]
    simp (disch := decide) only [List.flatMap_append, List.flatMap_cons, List.flatMap_nil,
      profile_keyword, profile_block, List.append_nil, List.nil_append]
    rw [profile_pythonAll body _ _ rfl, profile_handlers_python handlers _ _ rfl]
  | .select subject cases, level, parent, h => by
    rw [Statement.python, profile_of_opening .python count source level parent rfl h,
      Statement.effort]
    simp (disch := decide) only [List.flatMap_cons, List.flatMap_nil, profile_keyword,
      profile_block, List.append_nil, List.nil_append]
    rw [profile_condition .python count source _ _ subject none rfl, profile_cases_python cases]

theorem profile_alternative_python : ∀ (rest : Alternative) (level : Nat) (parent : Tree),
    rest.python.flatMap ((scorer .python count).profile source level parent) =
      rest.effort count level
  | .nothing, _, _ => rfl
  | .elseIf c body rest, level, parent => by
    rw [Alternative.python, List.flatMap_cons,
      (scorer .python count).profile_of_elseIf source level parent rfl, Alternative.effort]
    simp (disch := decide) only [List.flatMap_cons, List.flatMap_nil, profile_keyword,
      profile_block, List.append_nil, List.nil_append, List.cons_append, List.append_assoc]
    rw [profile_condition .python count source _ _ c none rfl, profile_pythonAll body _ _ rfl,
      profile_alternative_python rest level parent]
  | .otherwise body, level, parent => by
    have hw : ¬ Wrapping Dialect.python.vocabulary (construct "else_clause"
        [keyword "else", keyword ":", construct "block" (pythonAll body)]) := by
      rintro ⟨-, u, hu, hrole⟩
      cases hu
      cases hrole
    rw [Alternative.python, List.flatMap_singleton,
      (scorer .python count).profile_of_else source level parent rfl hw, Alternative.effort]
    simp (disch := decide) only [List.flatMap_cons, List.flatMap_nil, profile_keyword,
      profile_block, List.append_nil, List.nil_append]
    rw [profile_pythonAll body _ _ rfl]

theorem profile_handlers_python : ∀ (handlers : List Clause) (level : Nat) (parent : Tree),
    (scorer .python count).continues parent = false →
    (pythonClauses "except_clause" "except" handlers).flatMap
        ((scorer .python count).profile source level parent) =
      handlersEffort count level handlers
  | [], _, _, _ => rfl
  | .mk l body :: rest, level, parent, h => by
    rw [pythonClauses, List.flatMap_cons,
      profile_of_opening .python count source level parent rfl h, handlersEffort]
    simp (disch := decide) only [List.flatMap_cons, List.flatMap_nil, profile_keyword,
      profile_leaf, profile_block, List.append_nil, List.nil_append, List.append_assoc]
    rw [profile_pythonAll body _ _ rfl, profile_handlers_python rest level parent h]

theorem profile_cases_python : ∀ (cases : List Clause) (level : Nat) (parent : Tree),
    (pythonClauses "case_clause" "case" cases).flatMap
        ((scorer .python count).profile source level parent) =
      casesEffort count level cases
  | [], _, _ => rfl
  | .mk l body :: rest, level, parent => by
    rw [pythonClauses, List.flatMap_cons,
      (scorer .python count).profile_of_case source level parent rfl, casesEffort]
    simp (disch := decide) only [List.flatMap_cons, List.flatMap_nil, profile_keyword,
      profile_leaf, profile_block, List.append_nil, List.nil_append, List.cons_append]
    rw [profile_pythonAll body _ _ rfl, profile_cases_python rest level parent]

theorem profile_pythonAll : ∀ (body : List Statement) (level : Nat) (parent : Tree),
    (scorer .python count).continues parent = false →
    (pythonAll body).flatMap ((scorer .python count).profile source level parent) =
      effortAll count level body
  | [], _, _, _ => rfl
  | st :: rest, level, parent, h => by
    rw [pythonAll, List.flatMap_cons, effortAll, profile_python st level parent h,
      profile_pythonAll rest level parent h]

end

end Python

/-! ## Conditionals inside each other -/

section Cpp

variable (count : Bool) (source : ByteArray)

theorem profile_compound (level : Nat) (parent : Tree) (cs : List Tree) :
    (scorer .cpp count).profile source level parent (compound cs) =
      cs.flatMap ((scorer .cpp count).profile source level (compound cs)) := by
  rw [compound, (scorer .cpp count).profile_of_other source level parent rfl]
  simp (disch := decide) only [List.flatMap_append, List.flatMap_cons, List.flatMap_nil,
    profile_keyword, List.append_nil, List.nil_append]

theorem profile_parenthesized (level : Nat) (parent : Tree) (c : Condition) :
    (scorer .cpp count).profile source level parent (parenthesized c) = c.effort count none := by
  rw [parenthesized, (scorer .cpp count).profile_of_other source level parent rfl]
  simp (disch := decide) only [List.flatMap_cons, List.flatMap_nil, profile_keyword,
    List.append_nil, List.nil_append]
  rw [profile_condition .cpp count source _ _ c none rfl]

mutual

theorem profile_cpp : ∀ (st : Statement) (level : Nat) (parent : Tree),
    (scorer .cpp count).continues parent = false →
    (scorer .cpp count).profile source level parent st.cpp = st.effort count level
  | .leaf l, level, parent, _ => profile_leaf .cpp count source level parent l
  | .block body, level, parent, _ => by
    rw [Statement.cpp, profile_compound, Statement.effort, profile_cppAll body level _ rfl]
  | .branch c body rest, level, parent, h => by
    rw [Statement.cpp, profile_of_opening .cpp count source level parent rfl h, Statement.effort]
    simp (disch := decide) only [List.flatMap_append, List.flatMap_cons, List.flatMap_nil,
      profile_keyword, profile_parenthesized, profile_compound, List.append_nil, List.nil_append,
      List.append_assoc]
    rw [profile_cppAll body _ _ rfl, profile_alternative_cpp rest]
  | .whileLoop c body, level, parent, h => by
    rw [Statement.cpp, profile_of_opening .cpp count source level parent rfl h, Statement.effort]
    simp (disch := decide) only [List.flatMap_cons, List.flatMap_nil, profile_keyword,
      profile_parenthesized, profile_compound, List.append_nil, List.nil_append]
    rw [profile_cppAll body _ _ rfl]
  | .rangeLoop x items body, level, parent, h => by
    rw [Statement.cpp, profile_of_opening .cpp count source level parent rfl h, Statement.effort]
    simp (disch := decide) only [List.flatMap_cons, List.flatMap_nil, profile_keyword,
      profile_leaf, profile_compound, List.append_nil, List.nil_append]
    rw [profile_condition .cpp count source _ _ items none rfl, profile_cppAll body _ _ rfl]
  | .attempt body handlers, level, parent, _ => by
    rw [Statement.cpp, (scorer .cpp count).profile_of_other source level parent rfl,
      Statement.effort]
    simp (disch := decide) only [List.flatMap_append, List.flatMap_cons, List.flatMap_nil,
      profile_keyword, profile_compound, List.append_nil, List.nil_append]
    rw [profile_cppAll body _ _ rfl, profile_handlers_cpp handlers _ _ rfl]
  | .select subject cases, level, parent, h => by
    rw [Statement.cpp, profile_of_opening .cpp count source level parent rfl h, Statement.effort]
    simp (disch := decide) only [List.flatMap_cons, List.flatMap_nil, profile_keyword,
      profile_parenthesized, profile_compound, List.append_nil, List.nil_append]
    rw [profile_cases_cpp cases]

-- The branch around a conditional adds nothing and the conditional counts as an `else if`, so the
-- level stays that of the first conditional however long the chain is.
theorem profile_alternative_cpp : ∀ (rest : Alternative) (level : Nat) (parent : Tree),
    rest.cpp.flatMap ((scorer .cpp count).profile source level parent) = rest.effort count level
  | .nothing, _, _ => rfl
  | .elseIf c body rest, level, parent => by
    have hw : Wrapping Dialect.cpp.vocabulary (construct "else_clause" [keyword "else",
        construct "if_statement"
          ([keyword "if", parenthesized c, compound (cppAll body)] ++ rest.cpp)]) :=
      ⟨rfl, _, rfl, rfl⟩
    rw [Alternative.cpp, List.flatMap_singleton,
      (scorer .cpp count).profile_of_wrapping source level parent hw, Alternative.effort]
    simp (disch := decide) only [List.flatMap_cons, List.flatMap_nil, profile_keyword,
      List.append_nil, List.nil_append]
    rw [(scorer .cpp count).profile_of_chained source level _ ⟨rfl, .inl rfl⟩]
    simp (disch := decide) only [List.flatMap_append, List.flatMap_cons, List.flatMap_nil,
      profile_keyword, profile_parenthesized, profile_compound, List.append_nil, List.nil_append,
      List.append_assoc]
    rw [profile_cppAll body _ _ rfl, profile_alternative_cpp rest]
  | .otherwise body, level, parent => by
    have hw : ¬ Wrapping Dialect.cpp.vocabulary
        (construct "else_clause" [keyword "else", compound (cppAll body)]) := by
      rintro ⟨-, u, hu, hrole⟩
      cases hu
      cases hrole
    rw [Alternative.cpp, List.flatMap_singleton,
      (scorer .cpp count).profile_of_else source level parent rfl hw, Alternative.effort]
    simp (disch := decide) only [List.flatMap_cons, List.flatMap_nil, profile_keyword,
      profile_compound, List.append_nil, List.nil_append]
    rw [profile_cppAll body _ _ rfl]

theorem profile_handlers_cpp : ∀ (handlers : List Clause) (level : Nat) (parent : Tree),
    (scorer .cpp count).continues parent = false →
    (cppHandlers handlers).flatMap ((scorer .cpp count).profile source level parent) =
      handlersEffort count level handlers
  | [], _, _, _ => rfl
  | .mk l body :: rest, level, parent, h => by
    rw [cppHandlers, List.flatMap_cons, profile_of_opening .cpp count source level parent rfl h,
      handlersEffort]
    simp (disch := decide) only [List.flatMap_cons, List.flatMap_nil, profile_keyword,
      profile_leaf, profile_compound, List.append_nil, List.nil_append, List.append_assoc]
    rw [profile_cppAll body _ _ rfl, profile_handlers_cpp rest level parent h]

theorem profile_cases_cpp : ∀ (cases : List Clause) (level : Nat) (parent : Tree),
    (cppCases cases).flatMap ((scorer .cpp count).profile source level parent) =
      casesEffort count level cases
  | [], _, _ => rfl
  | .mk l body :: rest, level, parent => by
    rw [cppCases, List.flatMap_cons,
      (scorer .cpp count).profile_of_case source level parent rfl, casesEffort]
    simp (disch := decide) only [List.flatMap_cons, profile_keyword, profile_leaf,
      List.nil_append, List.cons_append]
    rw [profile_cppAll body _ _ rfl, profile_cases_cpp rest level parent]

theorem profile_cppAll : ∀ (body : List Statement) (level : Nat) (parent : Tree),
    (scorer .cpp count).continues parent = false →
    (cppAll body).flatMap ((scorer .cpp count).profile source level parent) =
      effortAll count level body
  | [], _, _, _ => rfl
  | st :: rest, level, parent, h => by
    rw [cppAll, List.flatMap_cons, effortAll, profile_cpp st level parent h,
      profile_cppAll rest level parent h]

end

end Cpp

/-! ## The two score alike -/

def kinds (sc : Score) : List (Category × Int) :=
  sc.factors.map fun f => (f.category, f.increment)

/-- The score at the end of a walk over a tree that stands `level` levels deep. -/
def scoreAt (s : Scorer) (source : ByteArray) (level : Nat) (p : Tree.Placed) : Score :=
  (s.run source { agenda := [.visit p], score := { nesting := level } }).score

theorem kinds_scoreAt (s : Scorer) (source : ByteArray) (level : Nat) (p : Tree.Placed) :
    kinds (scoreAt s source level p) = s.profile source level p.parent p.node := by
  rw [scoreAt, s.score_run_visit, Score.foldl_push]
  rfl

theorem total_scoreAt (s : Scorer) (source : ByteArray) (level : Nat) (p : Tree.Placed) :
    (scoreAt s source level p).total = ((kinds (scoreAt s source level p)).map (·.2)).sum := by
  rw [scoreAt, s.score_run_visit, Score.foldl_push]
  simp [kinds, Function.comp_def]

theorem score_eq_scoreAt (s : Scorer) (text : String) (p : Tree.Placed) :
    kinds (s.score text p).value = kinds (scoreAt s text.toUTF8 0 (s.bodyOf p)) ∧
      (s.score text p).value.total = (scoreAt s text.toUTF8 0 (s.bodyOf p)).total := by
  rw [s.score_value, scoreAt, s.score_run_visit, Score.foldl_push]
  simp [kinds]

section Alike

variable {st : Statement} {count : Bool} {p : Tree.Placed} (source : ByteArray) (level : Nat)

theorem kinds_python (h : p.node.shape = st.python.shape)
    (hp : (scorer .python count).continues p.parent = false) :
    kinds (scoreAt (scorer .python count) source level p) = st.effort count level := by
  rw [kinds_scoreAt, profile_eq_of_shape _ source h]
  exact profile_python count source st level p.parent hp

theorem kinds_cpp (h : p.node.shape = st.cpp.shape)
    (hp : (scorer .cpp count).continues p.parent = false) :
    kinds (scoreAt (scorer .cpp count) source level p) = st.effort count level := by
  rw [kinds_scoreAt, profile_eq_of_shape _ source h]
  exact profile_cpp count source st level p.parent hp

end Alike

/-- Two functions with the same flow of control, one in each language, get the same increments and
the same total, and so do their bodies at any level. Numbers, places and labels of the nodes and
both texts are free; a body must not stand in an `else`, where a conditional would go on with an
earlier one. -/
theorem writings_score_alike (st : Statement) (count : Bool) (text₁ text₂ : String)
    (p₁ p₂ : Tree.Placed)
    (h₁ : ((scorer .python count).bodyOf p₁).node.shape = st.python.shape)
    (h₂ : ((scorer .cpp count).bodyOf p₂).node.shape = st.cpp.shape)
    (hp₁ : (scorer .python count).continues ((scorer .python count).bodyOf p₁).parent = false)
    (hp₂ : (scorer .cpp count).continues ((scorer .cpp count).bodyOf p₂).parent = false) :
    let score₁ := ((scorer .python count).score text₁ p₁).value
    let score₂ := ((scorer .cpp count).score text₂ p₂).value
    let at₁ := fun level => scoreAt (scorer .python count) text₁.toUTF8 level
      ((scorer .python count).bodyOf p₁)
    let at₂ := fun level => scoreAt (scorer .cpp count) text₂.toUTF8 level
      ((scorer .cpp count).bodyOf p₂)
    (kinds score₁ = st.effort count 0 ∧ kinds score₁ = kinds score₂ ∧
      score₁.total = score₂.total) ∧
    ∀ level, kinds (at₁ level) = st.effort count level ∧ kinds (at₁ level) = kinds (at₂ level) ∧
      (at₁ level).total = (at₂ level).total := by
  intro score₁ score₂ at₁ at₂
  have hlevel : ∀ level, kinds (at₁ level) = st.effort count level ∧
      kinds (at₁ level) = kinds (at₂ level) ∧ (at₁ level).total = (at₂ level).total := by
    intro level
    have hkinds₁ : kinds (at₁ level) = st.effort count level := kinds_python _ level h₁ hp₁
    have hkinds₂ : kinds (at₂ level) = st.effort count level := kinds_cpp _ level h₂ hp₂
    refine ⟨hkinds₁, hkinds₁.trans hkinds₂.symm, ?_⟩
    calc (at₁ level).total
        = ((kinds (at₁ level)).map (·.2)).sum := total_scoreAt ..
      _ = ((kinds (at₂ level)).map (·.2)).sum := by rw [hkinds₁, hkinds₂]
      _ = (at₂ level).total := (total_scoreAt ..).symm
  obtain ⟨hk₁, ht₁⟩ : kinds score₁ = kinds (at₁ 0) ∧ score₁.total = (at₁ 0).total :=
    score_eq_scoreAt ..
  obtain ⟨hk₂, ht₂⟩ : kinds score₂ = kinds (at₂ 0) ∧ score₂.total = (at₂ 0).total :=
    score_eq_scoreAt ..
  rw [hk₁, hk₂, ht₁, ht₂]
  exact ⟨hlevel 0, hlevel⟩

/-- A name, the same in both languages. -/
def name : Leaf where
  tree _ := construct "identifier" []
  straight d u hu := by
    rw [Tree.nodes_node] at hu
    cases List.mem_singleton.mp hu
    cases d <;> exact .inl rfl

/-- A function with the given body. -/
def functionWith : Tree → Tree.Placed
  | .missing => ⟨.missing, .missing⟩
  | .node info cs =>
    ⟨.missing, construct "function_definition" [.node { info with field := some "body" } cs]⟩

/-- A loop in a conditional with a logical expression, with an `else if` and an `else`. -/
def guarded : Statement :=
  .block [.branch (.join .both (.leaf name) (.leaf name)) [.whileLoop (.leaf name) []]
    (.elseIf (.leaf name) [] (.otherwise []))]

theorem writings_score_alike_guarded :
    let score₁ := ((scorer .python true).score "" (functionWith guarded.python)).value
    let score₂ := ((scorer .cpp true).score "" (functionWith guarded.cpp)).value
    kinds score₁ = [(.structural, 1), (.fundamental, 1), (.structural, 1), (.nesting, 1),
      (.hybrid, 1), (.structural, 1)] ∧ kinds score₁ = kinds score₂ ∧
      score₁.total = score₂.total :=
  (writings_score_alike guarded true "" "" (functionWith guarded.python)
    (functionWith guarded.cpp) rfl rfl rfl rfl).1

end CognitiveLoad.Flow
