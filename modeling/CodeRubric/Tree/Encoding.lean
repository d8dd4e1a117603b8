import CodeRubric.Json.Part
import CodeRubric.Tree.Kind

/-! The JSON form of trees. A number that is not finite has no JSON form and becomes `null`, which
reads back as no number. -/
namespace CodeRubric

open Json (Value Member Tagged)

def stringsToJson (texts : List String) : Value := .array (texts.map .string)

mutual

def Pattern.toJson : Pattern → Value
  | .variable name => Tagged.toValue "Variable" (.string name)
  | .literal value => Tagged.toValue "Literal" (.string value)
  | .binary left operator right =>
    Tagged.toValue "InfixApplication"
      (.object [⟨"left", left.toJson⟩, ⟨"operator", .string operator⟩, ⟨"right", right.toJson⟩])
  | .application name args =>
    Tagged.toValue "Application"
      (.object [⟨"name", .string name⟩, ⟨"args", .array (Pattern.allToJson args)⟩])
  | .tuple items => Tagged.toValue "Tuple" (.array (Pattern.allToJson items))
  | .list items => Tagged.toValue "List" (.array (Pattern.allToJson items))
  | .functor name args =>
    Tagged.toValue "Functor"
      (.object [⟨"name", .string name⟩, ⟨"args", .array (Pattern.allToJson args)⟩])
  | .named name pattern =>
    Tagged.toValue "As" (.object [⟨"name", .string name⟩, ⟨"pattern", pattern.toJson⟩])
  | .wildcard => Tagged.bareValue "Wildcard"
  | .other => Tagged.bareValue "Other"
termination_by structural x => x

def Pattern.allToJson : List Pattern → List Value
  | [] => []
  | pattern :: rest => pattern.toJson :: Pattern.allToJson rest
termination_by structural x => x

end

def paramsToJson (params : List Pattern) : Value := .array (Pattern.allToJson params)

/-- The JSON form of a node of some kind. -/
def Kind.toValue (kind : Kind) (contents : Value) : Value := Tagged.toValue kind.name contents

mutual

def Expression.toJson : Expression → Value
  | .typeAlias name => Kind.toValue .typeAlias (.object [⟨"name", .string name⟩])
  | .record name => Kind.toValue .record (.object [⟨"name", .string name⟩])
  | .typeSignature name types =>
    Kind.toValue .typeSignature
      (.object [⟨"name", .string name⟩, ⟨"types", stringsToJson types⟩])
  | .entryPoint name body =>
    Kind.toValue .entryPoint (.object [⟨"name", .string name⟩, ⟨"body", body.toJson⟩])
  | .function name equations =>
    Kind.toValue .function
      (.object [⟨"name", .string name⟩, ⟨"equations", .array (Equation.allToJson equations)⟩])
  | .procedure name equations =>
    Kind.toValue .procedure
      (.object [⟨"name", .string name⟩, ⟨"equations", .array (Equation.allToJson equations)⟩])
  | .method name equations =>
    Kind.toValue .method
      (.object [⟨"name", .string name⟩, ⟨"equations", .array (Equation.allToJson equations)⟩])
  | .variable name initializer =>
    Kind.toValue .variable
      (.object [⟨"name", .string name⟩, ⟨"initializer", initializer.toJson⟩])
  | .attribute name initializer =>
    Kind.toValue .attribute
      (.object [⟨"name", .string name⟩, ⟨"initializer", initializer.toJson⟩])
  | .object name body =>
    Kind.toValue .object (.object [⟨"name", .string name⟩, ⟨"body", body.toJson⟩])
  | .rule name params body =>
    Kind.toValue .rule
      (.object [⟨"name", .string name⟩, ⟨"params", paramsToJson params⟩,
        ⟨"body", .array (Expression.allToJson body)⟩])
  | .fact name params =>
    Kind.toValue .fact (.object [⟨"name", .string name⟩, ⟨"params", paramsToJson params⟩])
  | .reference name => Kind.toValue .reference (.string name)
  | .application callee arguments =>
    Kind.toValue .application
      (.object [⟨"callee", callee.toJson⟩, ⟨"arguments", .array (Expression.allToJson arguments)⟩])
  | .send receiver selector arguments =>
    Kind.toValue .send
      (.object [⟨"receiver", receiver.toJson⟩, ⟨"selector", selector.toJson⟩,
        ⟨"arguments", .array (Expression.allToJson arguments)⟩])
  | .lambda params body =>
    Kind.toValue .lambda (.object [⟨"params", paramsToJson params⟩, ⟨"body", body.toJson⟩])
  | .assignment name value =>
    Kind.toValue .assignment (.object [⟨"name", .string name⟩, ⟨"value", value.toJson⟩])
  | .ifThenElse condition thenBranch elseBranch =>
    Kind.toValue .ifThenElse
      (.object [⟨"condition", condition.toJson⟩, ⟨"then_branch", thenBranch.toJson⟩,
        ⟨"else_branch", elseBranch.toJson⟩])
  | .whileLoop condition body =>
    Kind.toValue .whileLoop (.object [⟨"condition", condition.toJson⟩, ⟨"body", body.toJson⟩])
  | .repeatLoop count body =>
    Kind.toValue .repeatLoop (.object [⟨"count", count.toJson⟩, ⟨"body", body.toJson⟩])
  | .patternMatch scrutinee equations =>
    Kind.toValue .patternMatch
      (.object [⟨"scrutinee", scrutinee.toJson⟩,
        ⟨"equations", .array (Equation.allToJson equations)⟩])
  | .switch scrutinee cases =>
    Kind.toValue .switch
      (.object [⟨"scrutinee", scrutinee.toJson⟩, ⟨"cases", .array (Branch.allToJson cases)⟩])
  | .sequence items => Kind.toValue .sequence (.array (Expression.allToJson items))
  | .returned value => Kind.toValue .returned value.toJson
  | .exist name params =>
    Kind.toValue .exist (.object [⟨"name", .string name⟩, ⟨"params", paramsToJson params⟩])
  | .negation goal => Kind.toValue .negation goal.toJson
  | .findall template generator result =>
    Kind.toValue .findall
      (.object [⟨"template", template.toJson⟩, ⟨"generator", generator.toJson⟩,
        ⟨"result", result.toJson⟩])
  | .forAll generator condition =>
    Kind.toValue .forAll
      (.object [⟨"generator", generator.toJson⟩, ⟨"condition", condition.toJson⟩])
  | .comprehension result statements =>
    Kind.toValue .comprehension
      (.object [⟨"result", result.toJson⟩,
        ⟨"statements", .array (Statement.allToJson statements)⟩])
  | .number value =>
    Kind.toValue .number (if value.isFinite then .number value else .null)
  | .bool value => Kind.toValue .bool (.bool value)
  | .string value => Kind.toValue .string (.string value)
  | .symbol value => Kind.toValue .symbol (.string value)
  | .tuple items => Kind.toValue .tuple (.array (Expression.allToJson items))
  | .list items => Kind.toValue .list (.array (Expression.allToJson items))
  | .nil => Tagged.bareValue Kind.nil.name
  | .objectLiteral body => Kind.toValue .objectLiteral body.toJson
  | .equal => Tagged.bareValue Kind.equal.name
  | .notEqual => Tagged.bareValue Kind.notEqual.name
  | .other => Tagged.bareValue Kind.other.name
termination_by structural x => x

def Expression.allToJson : List Expression → List Value
  | [] => []
  | item :: rest => item.toJson :: Expression.allToJson rest
termination_by structural x => x

def Equation.toJson : Equation → Value
  | ⟨params, body⟩ => .object [⟨"params", paramsToJson params⟩, ⟨"body", body.toJson⟩]
termination_by structural x => x

def Equation.allToJson : List Equation → List Value
  | [] => []
  | equation :: rest => equation.toJson :: Equation.allToJson rest
termination_by structural x => x

def EquationBody.toJson : EquationBody → Value
  | .unguarded value => Tagged.toValue "Unguarded" value.toJson
  | .guarded guards => Tagged.toValue "Guarded" (.array (Branch.allToJson guards))
termination_by structural x => x

def Branch.toJson : Branch → Value
  | ⟨condition, result⟩ => .array [condition.toJson, result.toJson]
termination_by structural x => x

def Branch.allToJson : List Branch → List Value
  | [] => []
  | branch :: rest => branch.toJson :: Branch.allToJson rest
termination_by structural x => x

def Statement.toJson : Statement → Value
  | .generator pattern source =>
    Tagged.toValue "Generator"
      (.object [⟨"pattern", pattern.toJson⟩, ⟨"source", source.toJson⟩])
  | .qualifier condition => Tagged.toValue "Qualifier" condition.toJson
  | .binding name value =>
    Tagged.toValue "Let" (.object [⟨"name", .string name⟩, ⟨"value", value.toJson⟩])
termination_by structural x => x

def Statement.allToJson : List Statement → List Value
  | [] => []
  | statement :: rest => statement.toJson :: Statement.allToJson rest
termination_by structural x => x

end

end CodeRubric
