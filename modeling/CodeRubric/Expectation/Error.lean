/-! Why a rubric line cannot be interpreted. -/
namespace CodeRubric

inductive SpecError where
  | unknownVerb (verb : String)
  | invalidArity (text : String)
  | emptyTarget (spec : String)
  | malformedInspection (spec : String)
  | malformedScope (spec : String)
deriving DecidableEq, Repr

def SpecError.message : SpecError → String
  | .unknownVerb verb => "unknown verb `" ++ verb ++ "`"
  | .invalidArity text => "invalid arity `" ++ text ++ "`"
  | .emptyTarget spec => "empty target in `" ++ spec ++ "`"
  | .malformedInspection spec => "malformed inspection `" ++ spec ++ "`"
  | .malformedScope spec => "malformed scope `" ++ spec ++ "`"

end CodeRubric
