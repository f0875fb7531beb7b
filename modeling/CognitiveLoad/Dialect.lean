import CognitiveLoad.Declarator
import CognitiveLoad.Log
import CognitiveLoad.Vocabulary

/-!
The languages that can be analysed: the roles of their node types, and where a function definition
keeps its name and its parameters.
-/

namespace CognitiveLoad

inductive Dialect where
  | python
  | cpp
  deriving DecidableEq, Repr

namespace Dialect

def name : Dialect → String
  | python => "python"
  | cpp => "cpp"

/-- The file extensions of the language. -/
def extensions : Dialect → List String
  | python => ["py"]
  | cpp => ["cpp", "cxx", "cc", "c", "hpp", "hxx", "hh", "h"]

def vocabulary : Dialect → Vocabulary
  | python =>
    { name := "python"
      roles := [
        ("if_statement", .conditional),
        ("elif_clause", .elseIf),
        ("else_clause", .elseBranch),
        ("for_statement", .rangeLoop),
        ("while_statement", .whileLoop),
        ("except_clause", .handler),
        ("except_group_clause", .handler),
        ("match_statement", .switch),
        ("case_clause", .caseBranch),
        ("function_definition", .function),
        ("boolean_operator", .operator)]
      operators := ["and", "or"]
      wrappers := ["decorated_definition"] }
  | cpp =>
    { name := "cpp"
      roles := [
        ("if_statement", .conditional),
        ("else_clause", .elseBranch),
        ("for_statement", .forLoop),
        ("for_range_loop", .rangeLoop),
        ("while_statement", .whileLoop),
        ("do_statement", .doWhile),
        ("catch_clause", .handler),
        ("switch_statement", .switch),
        ("case_statement", .caseBranch),
        ("function_definition", .function),
        ("binary_expression", .operator)]
      operators := ["&&", "||", "and", "or"] }

/-! ## Names -/

/-- The name of a definition, without the names around it. -/
def definitionName (source : ByteArray) (definition : Tree) : Dialect → Traced (Option String)
  | python => pure (Declarator.nonempty? ((definition.child "name").text source))
  | cpp =>
    let declarator := definition.child "declarator"
    if declarator.isMissing then do
      Traced.note .debug .declarator "Could not find declarator node"
      return none
    else pure (Declarator.name? source declarator)

/-! ## Parameters -/

/-- Parameters that carry their name in the `name` field. -/
def namedParameterTypes : List String :=
  ["default_parameter", "typed_default_parameter"]

/-- Parameters that carry their name in their first named child. -/
def wrappedParameterTypes : List String :=
  ["typed_parameter", "list_splat_pattern", "dictionary_splat_pattern"]

def parameterNodeWithin : (fuel : Nat) → Tree → Tree
  | 0, _ => .missing
  | fuel + 1, t =>
    if t.type = "identifier" then t
    else if namedParameterTypes.contains t.type then parameterNodeWithin fuel (t.child "name")
    else if wrappedParameterTypes.contains t.type then
      parameterNodeWithin fuel (t.namedChildren.headD .missing)
    else .missing

/-- The identifier that names a parameter; a separator has none. -/
def parameterNode (t : Tree) : Tree :=
  parameterNodeWithin t.size t

/-- Parameters of the C family that can have a name. -/
def declaredParameterTypes : List String :=
  ["parameter_declaration", "optional_parameter_declaration", "variadic_parameter_declaration"]

/-- The names of the parameters of a definition, in order. -/
def parameters (source : ByteArray) (definition : Tree) : Dialect → List String
  | python =>
    (definition.child "parameters").namedChildren.filterMap fun p =>
      let n := parameterNode p
      if n.isMissing then none else some (n.text source)
  | cpp =>
    (Declarator.parameters (definition.child "declarator")).namedChildren.filterMap fun p =>
      if declaredParameterTypes.contains p.type then
        Declarator.name? source (p.child "declarator")
      else none

end Dialect

end CognitiveLoad
