import CodeRubric.Inspection.Basic
import CodeRubric.Name.Target

/-! Questions about what a program declares. -/
namespace CodeRubric.Inspection

open Name (Target)

/-- Whether the node declares an identifier that the target accepts. -/
def declaresAccepted (target : Target) (e : Expression) : Bool :=
  e.declaredName?.any target.accepts

/-- Some node of a given shape declares an identifier that the target accepts. -/
def declaresShaped (shape : Expression → Bool) (target : Target) : Inspection :=
  contains fun e => shape e && declaresAccepted target e

def declares : Target → Inspection := declaresShaped fun _ => true

def declaresKind (kind : Kind) : Target → Inspection := declaresShaped fun e => e.kind == kind

def declaresComputation : Target → Inspection := declaresShaped Expression.isComputation

/-- A predicate is given by facts, by rules, or by both. -/
def declaresPredicate (target : Target) : Inspection :=
  either (declaresKind .fact target) (declaresKind .rule target)

/-- A declaration refers to its own name from within itself. -/
def declaresRecursive (target : Target) : Inspection :=
  contains fun e =>
    match e.declaredName? with
    | some name => target.accepts name && e.references.contains name
    | none => false

/-- Whether one of the node's parameter lists has the given length. -/
def hasArity (arity : Nat) (e : Expression) : Bool :=
  e.parameterLists.any fun params => params.length == arity

/-- Something has the given arity. A lambda has no name, so only an unconstrained target accepts
it. -/
def declaresWithArity (arity : Nat) (target : Target) : Inspection :=
  contains fun e =>
    let accepted := match e with
      | .lambda .. => target.isUnconstrained
      | _ => declaresAccepted target e
    accepted && hasArity arity e

/-- A declaration has the anonymous pattern for a parameter; its place inside another pattern
does not count, and neither do lambdas. -/
def declaresAnonymous (target : Target) : Inspection :=
  contains fun e =>
    declaresAccepted target e && e.parameterLists.any fun params => params.any Pattern.isWildcard

end CodeRubric.Inspection
