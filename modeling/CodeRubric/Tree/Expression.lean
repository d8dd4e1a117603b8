import CodeRubric.Tree.Pattern

/-! The tree that stands for functional, object-oriented, imperative and logic programs alike. No
rule says which constructs may be combined: an object may hold a logic rule. -/
namespace CodeRubric

mutual

inductive Expression where
  | typeAlias (name : String)
  | record (name : String)
  | typeSignature (name : String) (types : List String)
  | entryPoint (name : String) (body : Expression)
  | function (name : String) (equations : List Equation)
  | procedure (name : String) (equations : List Equation)
  | method (name : String) (equations : List Equation)
  | variable (name : String) (initializer : Expression)
  | attribute (name : String) (initializer : Expression)
  | object (name : String) (body : Expression)
  | rule (name : String) (params : List Pattern) (body : List Expression)
  | fact (name : String) (params : List Pattern)
  | reference (name : String)
  | application (callee : Expression) (arguments : List Expression)
  | send (receiver selector : Expression) (arguments : List Expression)
  | lambda (params : List Pattern) (body : Expression)
  | assignment (name : String) (value : Expression)
  | ifThenElse (condition thenBranch elseBranch : Expression)
  | whileLoop (condition body : Expression)
  | repeatLoop (count body : Expression)
  | patternMatch (scrutinee : Expression) (equations : List Equation)
  | switch (scrutinee : Expression) (cases : List Branch)
  | sequence (items : List Expression)
  | returned (value : Expression)
  /-- The consultation of a predicate by name inside a rule. -/
  | exist (name : String) (params : List Pattern)
  | negation (goal : Expression)
  | findall (template generator result : Expression)
  | forAll (generator condition : Expression)
  | comprehension (result : Expression) (statements : List Statement)
  | number (value : Float)
  | bool (value : Bool)
  | string (value : String)
  | symbol (value : String)
  | tuple (items : List Expression)
  | list (items : List Expression)
  | nil
  /-- An object without a name. -/
  | objectLiteral (body : Expression)
  | equal
  | notEqual
  /-- A construct that has no better place in the tree. -/
  | other

/-- Parameters and the body they are bound in. -/
structure Equation where
  params : List Pattern
  body : EquationBody

inductive EquationBody where
  | unguarded (value : Expression)
  /-- Alternatives in order of preference. -/
  | guarded (guards : List Branch)

/-- A guard, or the case of a switch, with what it leads to. -/
structure Branch where
  condition : Expression
  result : Expression

/-- A clause of a comprehension. -/
inductive Statement where
  | generator (pattern : Pattern) (source : Expression)
  | qualifier (condition : Expression)
  | binding (name : String) (value : Expression)

end

instance : Inhabited Expression := ⟨.nil⟩

namespace Branch

/-- The condition, then the result. -/
def expressions (branch : Branch) : List Expression := [branch.condition, branch.result]

end Branch

namespace EquationBody

/-- The expressions of a body, each condition before its result. -/
def expressions : EquationBody → List Expression
  | .unguarded value => [value]
  | .guarded guards => guards.flatMap Branch.expressions

def isGuarded : EquationBody → Bool
  | .guarded _ => true
  | .unguarded _ => false

end EquationBody

namespace Equation

def unguarded (params : List Pattern) (value : Expression) : Equation := ⟨params, .unguarded value⟩

def guarded (params : List Pattern) (guards : List Branch) : Equation := ⟨params, .guarded guards⟩

def arity (equation : Equation) : Nat := equation.params.length

def expressions (equation : Equation) : List Expression := equation.body.expressions

end Equation

namespace Statement

/-- The one expression of a clause. -/
def expression : Statement → Expression
  | .generator _ source => source
  | .qualifier condition => condition
  | .binding _ value => value

end Statement

namespace Expression

/-- A message whose selector is a plain name. -/
def sendNamed (receiver : Expression) (selector : String) (arguments : List Expression) :
    Expression :=
  .send receiver (.reference selector) arguments

/-- Statements one after another; no statement is `nil`, and a single one stands for itself. -/
def sequenceOf : List Expression → Expression
  | [] => .nil
  | [item] => item
  | items => .sequence items

end Expression

end CodeRubric
