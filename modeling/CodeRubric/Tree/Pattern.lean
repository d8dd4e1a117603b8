/-! Binding shapes: parameters, rule heads and match arms. -/
namespace CodeRubric

inductive Pattern where
  | variable (name : String)
  | literal (value : String)
  /-- An operator between two patterns, such as `x:xs`. -/
  | binary (left : Pattern) (operator : String) (right : Pattern)
  | application (name : String) (args : List Pattern)
  | tuple (items : List Pattern)
  | list (items : List Pattern)
  /-- A compound logic term, such as `point(X, Y)`. -/
  | functor (name : String) (args : List Pattern)
  /-- A name for the whole of what another pattern matches. -/
  | named (name : String) (pattern : Pattern)
  | wildcard
  | other
deriving Inhabited

namespace Pattern

def isWildcard : Pattern → Bool
  | .wildcard => true
  | _ => false

mutual
def same : Pattern → Pattern → Bool
  | .variable name, .variable name' => name == name'
  | .literal value, .literal value' => value == value'
  | .binary left operator right, .binary left' operator' right' =>
    same left left' && operator == operator' && same right right'
  | .application name args, .application name' args' => name == name' && sameAll args args'
  | .tuple items, .tuple items' => sameAll items items'
  | .list items, .list items' => sameAll items items'
  | .functor name args, .functor name' args' => name == name' && sameAll args args'
  | .named name pattern, .named name' pattern' => name == name' && same pattern pattern'
  | .wildcard, .wildcard => true
  | .other, .other => true
  | _, _ => false
termination_by structural x => x

def sameAll : List Pattern → List Pattern → Bool
  | [], [] => true
  | pattern :: rest, pattern' :: rest' => same pattern pattern' && sameAll rest rest'
  | _, _ => false
termination_by structural x => x
end

instance : BEq Pattern := ⟨same⟩

end Pattern

end CodeRubric
