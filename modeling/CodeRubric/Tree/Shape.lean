import CodeRubric.Tree.Kind

/-! What a single node declares and holds, and the accessors that insist on one shape. -/
namespace CodeRubric

/-- A node was asked for something that only nodes of another shape have. -/
structure ShapeMismatch where
  expected : String
  found : String
deriving DecidableEq, Repr

def ShapeMismatch.message (mismatch : ShapeMismatch) : String :=
  "shape mismatch: expected " ++ mismatch.expected ++ ", found " ++ mismatch.found

namespace Expression

/-- The identifier that a declaration binds. -/
def declaredName? : Expression → Option String
  | .typeAlias name => some name
  | .record name => some name
  | .typeSignature name _ => some name
  | .entryPoint name _ => some name
  | .function name _ => some name
  | .procedure name _ => some name
  | .method name _ => some name
  | .variable name _ => some name
  | .attribute name _ => some name
  | .object name _ => some name
  | .rule name _ _ => some name
  | .fact name _ => some name
  | _ => none

def isDeclaration (e : Expression) : Bool := e.declaredName?.isSome

def declares (e : Expression) (name : String) : Bool := e.declaredName? == some name

theorem declares_iff {e : Expression} {name : String} :
    e.declares name = true ↔ e.declaredName? = some name := by
  simp [declares]

/-- The identifier that a plain reference or the consultation of a predicate refers to. -/
def referredName? : Expression → Option String
  | .reference name => some name
  | .exist name _ => some name
  | _ => none

/-- The equations of functions, procedures, methods and pattern matches. -/
def equations? : Expression → Option (List Equation)
  | .function _ equations => some equations
  | .procedure _ equations => some equations
  | .method _ equations => some equations
  | .patternMatch _ equations => some equations
  | _ => none

/-- The parameter lists of functions, procedures and methods, one per equation, and of lambdas,
rules and facts. -/
def parameterLists : Expression → List (List Pattern)
  | .function _ equations => equations.map Equation.params
  | .procedure _ equations => equations.map Equation.params
  | .method _ equations => equations.map Equation.params
  | .lambda params _ => [params]
  | .rule _ params _ => [params]
  | .fact _ params => [params]
  | _ => []

/-- Functions, procedures and methods. -/
def isComputation : Expression → Bool
  | .function .. | .procedure .. | .method .. => true
  | _ => false

theorem isComputation_eq_kind (e : Expression) :
    e.isComputation = (e.kind == .function || (e.kind == .procedure || e.kind == .method)) := by
  cases e <;> rfl

/-- Declarations that have a body of their own. Variables and attributes are part of the code
around them. -/
def ownsBody : Expression → Bool
  | .entryPoint .. | .function .. | .procedure .. | .method .. | .object .. | .rule .. => true
  | _ => false

/-- The body of the only equation of a function, procedure or method. -/
def singleEquationBody (e : Expression) : Except ShapeMismatch EquationBody :=
  let expected := "function, procedure or method with exactly one equation"
  if e.isComputation then
    match e.equations?.getD [] with
    | [only] => .ok only.body
    | equations =>
      .error ⟨expected, e.kind.name ++ " with " ++ toString equations.length ++ " equations"⟩
  else .error ⟨expected, e.kind.name⟩

/-- The value of the only equation, which must have no guards. -/
def unguardedBody (e : Expression) : Except ShapeMismatch Expression := do
  match ← e.singleEquationBody with
  | .unguarded value => .ok value
  | .guarded _ => .error ⟨"unguarded single equation", "guarded " ++ e.kind.name⟩

end Expression

end CodeRubric
