import CodeRubric.Tree.Expression

/-! The immediate sub-expressions of a node, and their replacement. Patterns and names are no
expressions and are never among them. -/
namespace CodeRubric

/-- The immediate sub-expressions from left to right. -/
def Expression.children : Expression → List Expression
  | .entryPoint _ body => [body]
  | .function _ equations => equations.flatMap Equation.expressions
  | .procedure _ equations => equations.flatMap Equation.expressions
  | .method _ equations => equations.flatMap Equation.expressions
  | .variable _ initializer => [initializer]
  | .attribute _ initializer => [initializer]
  | .object _ body => [body]
  | .rule _ _ body => body
  | .application callee arguments => callee :: arguments
  | .send receiver selector arguments => receiver :: selector :: arguments
  | .lambda _ body => [body]
  | .assignment _ value => [value]
  | .ifThenElse condition thenBranch elseBranch => [condition, thenBranch, elseBranch]
  | .whileLoop condition body => [condition, body]
  | .repeatLoop count body => [count, body]
  | .patternMatch scrutinee equations => scrutinee :: equations.flatMap Equation.expressions
  | .switch scrutinee cases => scrutinee :: cases.flatMap Branch.expressions
  | .sequence items => items
  | .returned value => [value]
  | .negation goal => [goal]
  | .findall template generator result => [template, generator, result]
  | .forAll generator condition => [generator, condition]
  | .comprehension result statements => result :: statements.map Statement.expression
  | .tuple items => items
  | .list items => items
  | .objectLiteral body => [body]
  | .typeAlias _ | .record _ | .typeSignature _ _ | .fact _ _ | .reference _ | .exist _ _
  | .number _ | .bool _ | .string _ | .symbol _ | .nil | .equal | .notEqual | .other => []

/-- The branches with their conditions and results taken, in this order, from a list of
expressions twice as long. -/
def Branch.refillAll : List Branch → List Expression → List Branch
  | _ :: rest, condition :: result :: more => ⟨condition, result⟩ :: refillAll rest more
  | branches, _ => branches

def EquationBody.refill : EquationBody → List Expression → EquationBody
  | .unguarded _, value :: _ => .unguarded value
  | .unguarded value, [] => .unguarded value
  | .guarded guards, expressions => .guarded (Branch.refillAll guards expressions)

/-- The equations with the expressions of their bodies taken, in order, from a list. -/
def Equation.refillAll : List Equation → List Expression → List Equation
  | [], _ => []
  | equation :: rest, expressions =>
    let held := equation.expressions.length
    ⟨equation.params, equation.body.refill (expressions.take held)⟩ ::
      refillAll rest (expressions.drop held)

def Statement.refill : Statement → Expression → Statement
  | .generator pattern _, source => .generator pattern source
  | .qualifier _, condition => .qualifier condition
  | .binding name _, value => .binding name value

/-- The node with its immediate sub-expressions replaced from left to right by a list of as many
expressions. Everything else about the node stays. -/
def Expression.withChildren : Expression → List Expression → Expression
  | .entryPoint name _, [body] => .entryPoint name body
  | .function name equations, r => .function name (Equation.refillAll equations r)
  | .procedure name equations, r => .procedure name (Equation.refillAll equations r)
  | .method name equations, r => .method name (Equation.refillAll equations r)
  | .variable name _, [initializer] => .variable name initializer
  | .attribute name _, [initializer] => .attribute name initializer
  | .object name _, [body] => .object name body
  | .rule name params _, body => .rule name params body
  | .application _ _, callee :: arguments => .application callee arguments
  | .send _ _ _, receiver :: selector :: arguments => .send receiver selector arguments
  | .lambda params _, [body] => .lambda params body
  | .assignment name _, [value] => .assignment name value
  | .ifThenElse _ _ _, [condition, thenBranch, elseBranch] =>
    .ifThenElse condition thenBranch elseBranch
  | .whileLoop _ _, [condition, body] => .whileLoop condition body
  | .repeatLoop _ _, [count, body] => .repeatLoop count body
  | .patternMatch _ equations, scrutinee :: r =>
    .patternMatch scrutinee (Equation.refillAll equations r)
  | .switch _ cases, scrutinee :: r => .switch scrutinee (Branch.refillAll cases r)
  | .sequence _, items => .sequence items
  | .returned _, [value] => .returned value
  | .negation _, [goal] => .negation goal
  | .findall _ _ _, [template, generator, result] => .findall template generator result
  | .forAll _ _, [generator, condition] => .forAll generator condition
  | .comprehension _ statements, result :: r =>
    .comprehension result (statements.zipWith Statement.refill r)
  | .tuple _, items => .tuple items
  | .list _, items => .list items
  | .objectLiteral _, [body] => .objectLiteral body
  | node, _ => node

end CodeRubric
