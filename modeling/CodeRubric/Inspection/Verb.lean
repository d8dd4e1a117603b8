import CodeRubric.Inspection.Declares
import CodeRubric.Inspection.Uses

/-! The vocabulary of rubric lines: verbs, their names and the questions they stand for. -/
namespace CodeRubric

open Name (Target)

inductive Verb where
  | anonymousVariable | arity0 | arity1 | arity2 | arity3 | assignment | attribute | binding
  | classObject | composition | comprehension | computation | conditional | cut | directRecursion
  | entryPoint | fact | fail | findall | forAll | function | guards | ifThenElse | lambda
  | messageSend | method | negation | object | patternMatching | predicate | procedure | record
  | repeatLoop | returned | rule | switch | typeAlias | typeSignature | unifyOperator | usage
  | variable | whileLoop
deriving DecidableEq, Repr

namespace Verb

/-- Every verb once, in the order of their names. -/
def all : List Verb :=
  [.anonymousVariable, .arity0, .arity1, .arity2, .arity3, .assignment, .attribute, .binding,
    .classObject, .composition, .comprehension, .computation, .conditional, .cut, .directRecursion,
    .entryPoint, .fact, .fail, .findall, .forAll, .function, .guards, .ifThenElse, .lambda,
    .messageSend, .method, .negation, .object, .patternMatching, .predicate, .procedure, .record,
    .repeatLoop, .returned, .rule, .switch, .typeAlias, .typeSignature, .unifyOperator, .usage,
    .variable, .whileLoop]

def name : Verb → String
  | .anonymousVariable => "HasAnonymousVariable"
  | .arity0 => "HasArity0"
  | .arity1 => "HasArity1"
  | .arity2 => "HasArity2"
  | .arity3 => "HasArity3"
  | .assignment => "HasAssignment"
  | .attribute => "HasAttribute"
  | .binding => "HasBinding"
  | .classObject => "HasClass"
  | .composition => "HasComposition"
  | .comprehension => "HasComprehension"
  | .computation => "HasComputation"
  | .conditional => "HasConditional"
  | .cut => "HasCut"
  | .directRecursion => "HasDirectRecursion"
  | .entryPoint => "HasEntryPoint"
  | .fact => "HasFact"
  | .fail => "HasFail"
  | .findall => "HasFindall"
  | .forAll => "HasForall"
  | .function => "HasFunction"
  | .guards => "HasGuards"
  | .ifThenElse => "HasIf"
  | .lambda => "HasLambda"
  | .messageSend => "HasMessageSend"
  | .method => "HasMethod"
  | .negation => "HasNot"
  | .object => "HasObject"
  | .patternMatching => "HasPatternMatching"
  | .predicate => "HasPredicate"
  | .procedure => "HasProcedure"
  | .record => "HasRecord"
  | .repeatLoop => "HasRepeat"
  | .returned => "HasReturn"
  | .rule => "HasRule"
  | .switch => "HasSwitch"
  | .typeAlias => "HasTypeAlias"
  | .typeSignature => "HasTypeSignature"
  | .unifyOperator => "HasUnifyOperator"
  | .usage => "HasUsage"
  | .variable => "HasVariable"
  | .whileLoop => "HasWhile"

/-- The verb of a given name, case included. -/
def ofName? (name : String) : Option Verb := all.find? fun verb => verb.name == name

theorem ofName?_name (verb : Verb) : ofName? verb.name = some verb := by
  cases verb <;> decide

/-- The question that a verb asks about a target. Verbs about constructs that bind no name ask
the same of every target. -/
def inspection : Verb → Target → Inspection
  | .anonymousVariable, target => Inspection.declaresAnonymous target
  | .arity0, target => Inspection.declaresWithArity 0 target
  | .arity1, target => Inspection.declaresWithArity 1 target
  | .arity2, target => Inspection.declaresWithArity 2 target
  | .arity3, target => Inspection.declaresWithArity 3 target
  | .assignment, target => Inspection.assigns target
  | .attribute, target => Inspection.declaresKind .attribute target
  | .binding, target => Inspection.declares target
  | .classObject, target => Inspection.declaresKind .object target
  | .composition, _ => Inspection.usesComposition
  | .comprehension, _ => Inspection.usesKind .comprehension
  | .computation, target => Inspection.declaresComputation target
  | .conditional, _ => Inspection.usesConditional
  | .cut, _ => Inspection.usesCut
  | .directRecursion, target => Inspection.declaresRecursive target
  | .entryPoint, target => Inspection.declaresKind .entryPoint target
  | .fact, target => Inspection.declaresKind .fact target
  | .fail, _ => Inspection.usesFail
  | .findall, _ => Inspection.usesKind .findall
  | .forAll, _ => Inspection.usesKind .forAll
  | .function, target => Inspection.declaresKind .function target
  | .guards, _ => Inspection.usesGuards
  | .ifThenElse, _ => Inspection.usesKind .ifThenElse
  | .lambda, _ => Inspection.usesKind .lambda
  | .messageSend, target => Inspection.sends target
  | .method, target => Inspection.declaresKind .method target
  | .negation, _ => Inspection.usesKind .negation
  | .object, target => Inspection.declaresKind .object target
  | .patternMatching, _ => Inspection.usesKind .patternMatch
  | .predicate, target => Inspection.declaresPredicate target
  | .procedure, target => Inspection.declaresKind .procedure target
  | .record, target => Inspection.declaresKind .record target
  | .repeatLoop, _ => Inspection.usesKind .repeatLoop
  | .returned, _ => Inspection.usesKind .returned
  | .rule, target => Inspection.declaresKind .rule target
  | .switch, _ => Inspection.usesKind .switch
  | .typeAlias, target => Inspection.declaresKind .typeAlias target
  | .typeSignature, target => Inspection.declaresKind .typeSignature target
  | .unifyOperator, _ => Inspection.usesUnification
  | .usage, target => Inspection.uses target
  | .variable, target => Inspection.declaresKind .variable target
  | .whileLoop, _ => Inspection.usesKind .whileLoop

end Verb

end CodeRubric
