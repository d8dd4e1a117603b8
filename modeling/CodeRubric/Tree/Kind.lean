import CodeRubric.Tree.Expression

/-! The kinds of tree nodes and their names in texts and messages. -/
namespace CodeRubric

inductive Kind where
  | typeAlias | record | typeSignature | entryPoint | function | procedure | method | variable
  | attribute | object | rule | fact | reference | application | send | lambda | assignment
  | ifThenElse | whileLoop | repeatLoop | patternMatch | switch | sequence | returned | exist
  | negation | findall | forAll | comprehension | number | bool | string | symbol | tuple | list
  | nil | objectLiteral | equal | notEqual | other
deriving DecidableEq, Repr

namespace Kind

/-- Every kind once. -/
def all : List Kind :=
  [.typeAlias, .record, .typeSignature, .entryPoint, .function, .procedure, .method, .variable,
    .attribute, .object, .rule, .fact, .reference, .application, .send, .lambda, .assignment,
    .ifThenElse, .whileLoop, .repeatLoop, .patternMatch, .switch, .sequence, .returned, .exist,
    .negation, .findall, .forAll, .comprehension, .number, .bool, .string, .symbol, .tuple, .list,
    .nil, .objectLiteral, .equal, .notEqual, .other]

def name : Kind → String
  | .typeAlias => "TypeAlias"
  | .record => "Record"
  | .typeSignature => "TypeSignature"
  | .entryPoint => "EntryPoint"
  | .function => "Function"
  | .procedure => "Procedure"
  | .method => "Method"
  | .variable => "Variable"
  | .attribute => "Attribute"
  | .object => "Object"
  | .rule => "Rule"
  | .fact => "Fact"
  | .reference => "Reference"
  | .application => "Application"
  | .send => "Send"
  | .lambda => "Lambda"
  | .assignment => "Assignment"
  | .ifThenElse => "If"
  | .whileLoop => "While"
  | .repeatLoop => "Repeat"
  | .patternMatch => "Match"
  | .switch => "Switch"
  | .sequence => "Sequence"
  | .returned => "Return"
  | .exist => "Exist"
  | .negation => "Not"
  | .findall => "Findall"
  | .forAll => "Forall"
  | .comprehension => "Comprehension"
  | .number => "Number"
  | .bool => "Bool"
  | .string => "String"
  | .symbol => "Symbol"
  | .tuple => "Tuple"
  | .list => "List"
  | .nil => "Nil"
  | .objectLiteral => "ObjectLiteral"
  | .equal => "Equal"
  | .notEqual => "NotEqual"
  | .other => "Other"

/-- The kind of a given name, case included. -/
def ofName? (name : String) : Option Kind := all.find? fun kind => kind.name == name

theorem ofName?_name (kind : Kind) : ofName? kind.name = some kind := by
  cases kind <;> decide

end Kind

def Expression.kind : Expression → Kind
  | .typeAlias .. => .typeAlias
  | .record .. => .record
  | .typeSignature .. => .typeSignature
  | .entryPoint .. => .entryPoint
  | .function .. => .function
  | .procedure .. => .procedure
  | .method .. => .method
  | .variable .. => .variable
  | .attribute .. => .attribute
  | .object .. => .object
  | .rule .. => .rule
  | .fact .. => .fact
  | .reference .. => .reference
  | .application .. => .application
  | .send .. => .send
  | .lambda .. => .lambda
  | .assignment .. => .assignment
  | .ifThenElse .. => .ifThenElse
  | .whileLoop .. => .whileLoop
  | .repeatLoop .. => .repeatLoop
  | .patternMatch .. => .patternMatch
  | .switch .. => .switch
  | .sequence .. => .sequence
  | .returned .. => .returned
  | .exist .. => .exist
  | .negation .. => .negation
  | .findall .. => .findall
  | .forAll .. => .forAll
  | .comprehension .. => .comprehension
  | .number .. => .number
  | .bool .. => .bool
  | .string .. => .string
  | .symbol .. => .symbol
  | .tuple .. => .tuple
  | .list .. => .list
  | .nil => .nil
  | .objectLiteral .. => .objectLiteral
  | .equal => .equal
  | .notEqual => .notEqual
  | .other => .other

end CodeRubric
