import CodeRubric.Analysis.Basic

/-! Rubrics: expectations together with the settings they are compiled under. -/
namespace CodeRubric

structure Rubric where
  config : CompilerConfig := {}
  expectations : List Expectation := []
deriving DecidableEq, Repr

namespace Rubric

/-- One inspection per expectation, in their order. -/
def compile (rubric : Rubric) : List Inspection :=
  rubric.expectations.map (Expectation.compile rubric.config)

def evaluate (rubric : Rubric) (tree : Expression) : List Verdict :=
  evaluateAll rubric.config rubric.expectations tree

def analyze (rubric : Rubric) (parser : SourceParser) (source : String) : Outcome :=
  CodeRubric.analyze parser rubric.config rubric.expectations source

end Rubric

end CodeRubric
