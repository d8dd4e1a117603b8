import CodeRubric.Expectation.Compile
import CodeRubric.Tree.Decoding

/-! Expectations evaluated against trees and against sources. A source that cannot be parsed gets no
verdicts at all. -/
namespace CodeRubric

structure ParseError where
  message : String
deriving DecidableEq, Repr

def ParseError.display (fault : ParseError) : String := "parse failure: " ++ fault.message

abbrev SourceParser := String → Except ParseError Expression

/-- The parser of sources that are the JSON form of a tree. -/
def jsonParser : SourceParser := fun source =>
  match Expression.ofText? source with
  | some tree => .ok tree
  | none => .error ⟨"the text is not the JSON form of a tree"⟩

structure Verdict where
  expectation : Expectation
  passed : Bool
deriving DecidableEq, Repr

inductive Outcome where
  | verdicts (results : List Verdict)
  | unavailable (reason : ParseError)
deriving DecidableEq, Repr

namespace Outcome

def results? : Outcome → Option (List Verdict)
  | .verdicts results => some results
  | .unavailable _ => none

def isAvailable (outcome : Outcome) : Bool := outcome.results?.isSome

/-- What is logged when a source is analyzed. -/
def log : Outcome → List LogLine
  | .verdicts _ => []
  | .unavailable reason => [⟨.info, "analysis unavailable: " ++ reason.display⟩]

end Outcome

/-- One verdict per expectation, in their order. -/
def evaluateAll (config : CompilerConfig) (expectations : List Expectation) (tree : Expression) :
    List Verdict :=
  expectations.map fun expectation => ⟨expectation, expectation.compile config tree⟩

def analyze (parser : SourceParser) (config : CompilerConfig) (expectations : List Expectation)
    (source : String) : Outcome :=
  match parser source with
  | .ok tree => .verdicts (evaluateAll config expectations tree)
  | .error reason => .unavailable reason

end CodeRubric
