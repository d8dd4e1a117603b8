import CodeRubric.Json.Part
import CodeRubric.Json.Reader
import CodeRubric.Tree.Kind

/-! Trees read from their JSON form. -/
namespace CodeRubric

open Json (Value Part Tagged)

/-- The tags of patterns, in order. -/
def Pattern.tags : List String :=
  ["Variable", "Literal", "InfixApplication", "Application", "Tuple", "List", "Functor", "As",
    "Wildcard", "Other"]

/-- A pattern read by means of a reader for the patterns inside it. -/
def Pattern.layer (inner : Part → Option Pattern) (part : Part) : Option Pattern := do
  let node ← Tagged.ofPart? Pattern.tags part
  match node.tag with
  | "Variable" => return .variable (← (← node.contents).string?)
  | "Literal" => return .literal (← (← node.contents).string?)
  | "InfixApplication" =>
    let contents ← node.contents
    return .binary (← contents.field "left" inner) (← contents.field "operator" Part.string?)
      (← contents.field "right" inner)
  | "Application" =>
    let contents ← node.contents
    return .application (← contents.field "name" Part.string?)
      (← contents.field "args" (Part.listOf inner))
  | "Tuple" => return .tuple (← (← node.contents).listOf inner)
  | "List" => return .list (← (← node.contents).listOf inner)
  | "Functor" =>
    let contents ← node.contents
    return .functor (← contents.field "name" Part.string?)
      (← contents.field "args" (Part.listOf inner))
  | "As" =>
    let contents ← node.contents
    return .named (← contents.field "name" Part.string?) (← contents.field "pattern" inner)
  | "Wildcard" => node.bare .wildcard
  | "Other" => node.bare .other
  | _ => none

def Pattern.ofPart? : Part → Option Pattern := Part.readDeep Pattern.layer

def paramsOfPart? : Part → Option (List Pattern) := Part.listOf Pattern.ofPart?

/-- A branch is the array of its two expressions. -/
def Branch.read (inner : Part → Option Expression) (part : Part) : Option Branch :=
  match part.value with
  | .array [condition, result] =>
    return ⟨← inner (part.inside condition), ← inner (part.inside result)⟩
  | _ => none

/-- The tags of equation bodies, in order. -/
def EquationBody.tags : List String := ["Unguarded", "Guarded"]

def EquationBody.read (inner : Part → Option Expression) (part : Part) : Option EquationBody := do
  let node ← Tagged.ofPart? EquationBody.tags part
  match node.tag with
  | "Unguarded" => return .unguarded (← inner (← node.contents))
  | "Guarded" => return .guarded (← (← node.contents).listOf (Branch.read inner))
  | _ => none

def Equation.read (inner : Part → Option Expression) (part : Part) : Option Equation := do
  match ← part.slots? [["params"], ["body"]] with
  | [some params, some body] => return ⟨← paramsOfPart? params, ← EquationBody.read inner body⟩
  | _ => none

/-- The tags of statements, in order. -/
def Statement.tags : List String := ["Generator", "Qualifier", "Let"]

def Statement.read (inner : Part → Option Expression) (part : Part) : Option Statement := do
  let node ← Tagged.ofPart? Statement.tags part
  let contents ← node.contents
  match node.tag with
  | "Generator" =>
    return .generator (← contents.field "pattern" Pattern.ofPart?) (← contents.field "source" inner)
  | "Qualifier" => return .qualifier (← inner contents)
  | "Let" =>
    return .binding (← contents.field "name" Part.string?) (← contents.field "value" inner)
  | _ => none

/-- The node of a kind that holds `contents`. -/
def Expression.ofContents? (inner : Part → Option Expression) (contents : Part) :
    Kind → Option Expression
  | .typeAlias => return .typeAlias (← contents.field "name" Part.string?)
  | .record => return .record (← contents.field "name" Part.string?)
  | .typeSignature =>
    return .typeSignature (← contents.field "name" Part.string?)
      (← contents.field "types" (Part.listOf Part.string?))
  | .entryPoint =>
    return .entryPoint (← contents.field "name" Part.string?) (← contents.field "body" inner)
  | .function =>
    return .function (← contents.field "name" Part.string?)
      (← contents.field "equations" (Part.listOf (Equation.read inner)))
  | .procedure =>
    return .procedure (← contents.field "name" Part.string?)
      (← contents.field "equations" (Part.listOf (Equation.read inner)))
  | .method =>
    return .method (← contents.field "name" Part.string?)
      (← contents.field "equations" (Part.listOf (Equation.read inner)))
  | .variable =>
    return .variable (← contents.field "name" Part.string?)
      (← contents.field "initializer" inner)
  | .attribute =>
    return .attribute (← contents.field "name" Part.string?)
      (← contents.field "initializer" inner)
  | .object =>
    return .object (← contents.field "name" Part.string?) (← contents.field "body" inner)
  | .rule =>
    return .rule (← contents.field "name" Part.string?) (← contents.field "params" paramsOfPart?)
      (← contents.field "body" (Part.listOf inner))
  | .fact =>
    return .fact (← contents.field "name" Part.string?) (← contents.field "params" paramsOfPart?)
  | .reference => return .reference (← contents.string?)
  | .application =>
    return .application (← contents.field "callee" inner)
      (← contents.field "arguments" (Part.listOf inner))
  | .send =>
    return .send (← contents.field "receiver" inner) (← contents.field "selector" inner)
      (← contents.field "arguments" (Part.listOf inner))
  | .lambda =>
    return .lambda (← contents.field "params" paramsOfPart?) (← contents.field "body" inner)
  | .assignment =>
    return .assignment (← contents.field "name" Part.string?) (← contents.field "value" inner)
  | .ifThenElse =>
    return .ifThenElse (← contents.field "condition" inner) (← contents.field "then_branch" inner)
      (← contents.field "else_branch" inner)
  | .whileLoop =>
    return .whileLoop (← contents.field "condition" inner) (← contents.field "body" inner)
  | .repeatLoop =>
    return .repeatLoop (← contents.field "count" inner) (← contents.field "body" inner)
  | .patternMatch =>
    return .patternMatch (← contents.field "scrutinee" inner)
      (← contents.field "equations" (Part.listOf (Equation.read inner)))
  | .switch =>
    return .switch (← contents.field "scrutinee" inner)
      (← contents.field "cases" (Part.listOf (Branch.read inner)))
  | .sequence => return .sequence (← contents.listOf inner)
  | .returned => return .returned (← inner contents)
  | .exist =>
    return .exist (← contents.field "name" Part.string?) (← contents.field "params" paramsOfPart?)
  | .negation => return .negation (← inner contents)
  | .findall =>
    return .findall (← contents.field "template" inner) (← contents.field "generator" inner)
      (← contents.field "result" inner)
  | .forAll =>
    return .forAll (← contents.field "generator" inner) (← contents.field "condition" inner)
  | .comprehension =>
    return .comprehension (← contents.field "result" inner)
      (← contents.field "statements" (Part.listOf (Statement.read inner)))
  | .number => return .number (← contents.number?)
  | .bool => return .bool (← contents.bool?)
  | .string => return .string (← contents.string?)
  | .symbol => return .symbol (← contents.string?)
  | .tuple => return .tuple (← contents.listOf inner)
  | .list => return .list (← contents.listOf inner)
  | .objectLiteral => return .objectLiteral (← inner contents)
  | .nil | .equal | .notEqual | .other => none

/-- An expression read by means of a reader for the expressions inside it. -/
def Expression.layer (inner : Part → Option Expression) (part : Part) : Option Expression := do
  let node ← Tagged.ofPart? (Kind.all.map Kind.name) part
  match ← Kind.ofName? node.tag with
  | .nil => node.bare .nil
  | .equal => node.bare .equal
  | .notEqual => node.bare .notEqual
  | .other => node.bare .other
  | kind => Expression.ofContents? inner (← node.contents) kind

def Expression.ofPart? : Part → Option Expression := Part.readDeep Expression.layer

def Pattern.ofJson? (value : Value) : Option Pattern := Pattern.ofPart? ⟨value, false⟩

def Expression.ofJson? (value : Value) : Option Expression := Expression.ofPart? ⟨value, false⟩

def EquationBody.ofJson? (value : Value) : Option EquationBody :=
  EquationBody.read Expression.ofPart? ⟨value, false⟩

def Equation.ofJson? (value : Value) : Option Equation :=
  Equation.read Expression.ofPart? ⟨value, false⟩

def Statement.ofJson? (value : Value) : Option Statement :=
  Statement.read Expression.ofPart? ⟨value, false⟩

def paramsOfJson? : Value → Option (List Pattern) := Value.listOf Pattern.ofJson?

/-- The tree whose JSON form a text is. -/
def Expression.ofText? (text : String) : Option Expression :=
  (Value.ofChars? text.toList).bind Expression.ofJson?

end CodeRubric
