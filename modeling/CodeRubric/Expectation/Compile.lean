import CodeRubric.Expectation.Question
import CodeRubric.Expectation.Scope
import CodeRubric.Log
import CodeRubric.Text.Quoted

/-! Expectations, the lines of a rubric, and the inspections they compile to. A line that cannot be
interpreted is satisfied by every program. -/
namespace CodeRubric

open Name (LikeMode)

structure Expectation where
  scope : String
  inspection : String
deriving DecidableEq, Repr

structure CompilerConfig where
  /-- How `~name` objects compare identifiers. -/
  likeMode : LikeMode := .equivalent
deriving DecidableEq, Repr, Inhabited

/-- What a line says: where to look and what to ask. -/
structure Requirement where
  scope : Scope
  question : Question
deriving DecidableEq, Repr

/-- The negation applies to the answer in the scope, not to the question within it. -/
def Requirement.inspection (config : CompilerConfig) (requirement : Requirement) : Inspection :=
  let sliced := requirement.scope.slice (requirement.question.query.inspection config.likeMode)
  if requirement.question.negated then Inspection.negate sliced else sliced

namespace Expectation

/-- The reading of a line; of two faults the one in the scope is reported. -/
def requirement (expectation : Expectation) : Except SpecError Requirement := do
  let scope ← Scope.parse expectation.scope
  let question ← Question.parse expectation.inspection
  return ⟨scope, question⟩

def tryCompile (config : CompilerConfig) (expectation : Expectation) :
    Except SpecError Inspection :=
  expectation.requirement.map (Requirement.inspection config)

def compile (config : CompilerConfig) (expectation : Expectation) : Inspection :=
  match expectation.tryCompile config with
  | .ok inspection => inspection
  | .error _ => Inspection.always

/-- What is logged when a line is compiled. -/
def compileLog (expectation : Expectation) : LogLine :=
  let scope := Text.quoted expectation.scope
  let inspection := Text.quoted expectation.inspection
  let line := "(" ++ scope ++ ", " ++ inspection ++ ")"
  match expectation.requirement with
  | .ok _ => ⟨.debug, "compiled expectation " ++ line⟩
  | .error fault =>
    ⟨.warn, "expectation " ++ line ++ " is vacuously satisfied: " ++ fault.message⟩

end Expectation

end CodeRubric
