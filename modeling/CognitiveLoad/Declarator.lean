import CognitiveLoad.Syntax.Tree

/-!
Declarator chains of the C family. A declared name lies under any number of pointers, references,
arrays, parameter lists and parentheses; the functions here follow the chain inwards to the name,
and to the parameter list that belongs to it.
-/

namespace CognitiveLoad.Declarator

/-- Nodes that are the declared name. -/
def nameTypes : List String :=
  ["identifier", "field_identifier", "destructor_name", "operator_name", "operator_cast"]

/-- Nodes that carry the declared name in their `name` field. -/
def scopedTypes : List String :=
  ["qualified_identifier", "template_function", "template_method"]

/-- Children of a declarator that never lead to the name. -/
def besideName : List String :=
  ["parameter_list", "type_qualifier", "attribute_specifier", "attribute_declaration",
    "ms_call_modifier", "ms_pointer_modifier", "trailing_return_type", "noexcept",
    "throw_specifier", "virtual_specifier", "ref_qualifier", "comment"]

/-- The next declarator inwards: the one in the `declarator` field, or else the first named child
that can lead to the name. -/
def inner (t : Tree) : Tree :=
  let labelled := t.child "declarator"
  if labelled.isMissing then
    (t.namedChildren.find? fun c => !besideName.contains c.type).getD .missing
  else labelled

def isName (t : Tree) : Bool :=
  nameTypes.contains t.type

def isScoped (t : Tree) : Bool :=
  scopedTypes.contains t.type

/-- A name that is empty is none. -/
def nonempty? (s : String) : Option String :=
  if s = "" then none else some s

def nameWithin (source : ByteArray) : (fuel : Nat) → Tree → Option String
  | 0, _ => none
  | fuel + 1, t =>
    if t.isMissing then none
    else if isName t then nonempty? (t.text source)
    else if isScoped t then nameWithin source fuel (t.child "name")
    else nameWithin source fuel (inner t)

/-- The name at the end of the chain. Every step goes down the tree, so its size bounds the
steps. -/
def name? (source : ByteArray) (t : Tree) : Option String :=
  nameWithin source t.size t

def parametersWithin : (fuel : Nat) → (found t : Tree) → Tree
  | 0, found, _ => found
  | fuel + 1, found, t =>
    if t.isMissing then found
    else
      let found := if t.type = "function_declarator" then t.child "parameters" else found
      if isName t || isScoped t then found else parametersWithin fuel found (inner t)

/-- The parameter list of the innermost function declarator on the chain: the ones further out
belong to a function that is returned. -/
def parameters (t : Tree) : Tree :=
  parametersWithin t.size .missing t

theorem inner_eq_missing_or_mem (t : Tree) : inner t = .missing ∨ inner t ∈ t.children := by
  unfold inner
  simp only
  split
  · cases h : t.namedChildren.find? fun c => !besideName.contains c.type with
    | none => simp
    | some c =>
      have := List.mem_of_find?_eq_some h
      exact .inr (List.mem_filter.1 this).1
  · exact t.child_eq_missing_or_mem "declarator"

theorem size_inner_lt (info : NodeInfo) (cs : List Tree) :
    (inner (.node info cs)).size < (Tree.node info cs).size := by
  rcases inner_eq_missing_or_mem (.node info cs) with h | h
  · simp [h, Tree.size]
  · have := Tree.size_le_sizeAll h
    simp only [Tree.children] at this
    simp only [Tree.size]
    omega

end CognitiveLoad.Declarator
