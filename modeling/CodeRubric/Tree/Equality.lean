import CodeRubric.Tree.Expression

/-! Structural comparison of trees. Numbers are compared as numbers, so the two zeros agree and a
value that is not a number differs from itself. -/
namespace CodeRubric

mutual

def Expression.same : Expression → Expression → Bool
  | .typeAlias name, .typeAlias name' => name == name'
  | .record name, .record name' => name == name'
  | .typeSignature name types, .typeSignature name' types' => name == name' && types == types'
  | .entryPoint name body, .entryPoint name' body' => name == name' && body.same body'
  | .function name equations, .function name' equations' =>
    name == name' && Equation.sameAll equations equations'
  | .procedure name equations, .procedure name' equations' =>
    name == name' && Equation.sameAll equations equations'
  | .method name equations, .method name' equations' =>
    name == name' && Equation.sameAll equations equations'
  | .variable name value, .variable name' value' => name == name' && value.same value'
  | .attribute name value, .attribute name' value' => name == name' && value.same value'
  | .object name body, .object name' body' => name == name' && body.same body'
  | .rule name params body, .rule name' params' body' =>
    name == name' && params == params' && Expression.sameAll body body'
  | .fact name params, .fact name' params' => name == name' && params == params'
  | .reference name, .reference name' => name == name'
  | .application callee arguments, .application callee' arguments' =>
    callee.same callee' && Expression.sameAll arguments arguments'
  | .send receiver selector arguments, .send receiver' selector' arguments' =>
    receiver.same receiver' && selector.same selector' && Expression.sameAll arguments arguments'
  | .lambda params body, .lambda params' body' => params == params' && body.same body'
  | .assignment name value, .assignment name' value' => name == name' && value.same value'
  | .ifThenElse condition yes no, .ifThenElse condition' yes' no' =>
    condition.same condition' && yes.same yes' && no.same no'
  | .whileLoop condition body, .whileLoop condition' body' =>
    condition.same condition' && body.same body'
  | .repeatLoop count body, .repeatLoop count' body' => count.same count' && body.same body'
  | .patternMatch scrutinee equations, .patternMatch scrutinee' equations' =>
    scrutinee.same scrutinee' && Equation.sameAll equations equations'
  | .switch scrutinee cases, .switch scrutinee' cases' =>
    scrutinee.same scrutinee' && Branch.sameAll cases cases'
  | .sequence items, .sequence items' => Expression.sameAll items items'
  | .returned value, .returned value' => value.same value'
  | .exist name params, .exist name' params' => name == name' && params == params'
  | .negation goal, .negation goal' => goal.same goal'
  | .findall template generator result, .findall template' generator' result' =>
    template.same template' && generator.same generator' && result.same result'
  | .forAll generator condition, .forAll generator' condition' =>
    generator.same generator' && condition.same condition'
  | .comprehension result statements, .comprehension result' statements' =>
    result.same result' && Statement.sameAll statements statements'
  | .number value, .number value' => value == value'
  | .bool value, .bool value' => value == value'
  | .string value, .string value' => value == value'
  | .symbol value, .symbol value' => value == value'
  | .tuple items, .tuple items' => Expression.sameAll items items'
  | .list items, .list items' => Expression.sameAll items items'
  | .nil, .nil => true
  | .objectLiteral body, .objectLiteral body' => body.same body'
  | .equal, .equal => true
  | .notEqual, .notEqual => true
  | .other, .other => true
  | _, _ => false
termination_by structural x => x

def Expression.sameAll : List Expression → List Expression → Bool
  | [], [] => true
  | item :: rest, item' :: rest' => item.same item' && Expression.sameAll rest rest'
  | _, _ => false
termination_by structural x => x

def Equation.same : Equation → Equation → Bool
  | ⟨params, body⟩, ⟨params', body'⟩ => params == params' && body.same body'
termination_by structural x => x

def Equation.sameAll : List Equation → List Equation → Bool
  | [], [] => true
  | item :: rest, item' :: rest' => item.same item' && Equation.sameAll rest rest'
  | _, _ => false
termination_by structural x => x

def EquationBody.same : EquationBody → EquationBody → Bool
  | .unguarded value, .unguarded value' => value.same value'
  | .guarded guards, .guarded guards' => Branch.sameAll guards guards'
  | _, _ => false
termination_by structural x => x

def Branch.same : Branch → Branch → Bool
  | ⟨condition, result⟩, ⟨condition', result'⟩ => condition.same condition' && result.same result'
termination_by structural x => x

def Branch.sameAll : List Branch → List Branch → Bool
  | [], [] => true
  | item :: rest, item' :: rest' => item.same item' && Branch.sameAll rest rest'
  | _, _ => false
termination_by structural x => x

def Statement.same : Statement → Statement → Bool
  | .generator pattern source, .generator pattern' source' =>
    pattern == pattern' && source.same source'
  | .qualifier condition, .qualifier condition' => condition.same condition'
  | .binding name value, .binding name' value' => name == name' && value.same value'
  | _, _ => false
termination_by structural x => x

def Statement.sameAll : List Statement → List Statement → Bool
  | [], [] => true
  | item :: rest, item' :: rest' => item.same item' && Statement.sameAll rest rest'
  | _, _ => false
termination_by structural x => x

end

instance : BEq Expression := ⟨Expression.same⟩

end CodeRubric
