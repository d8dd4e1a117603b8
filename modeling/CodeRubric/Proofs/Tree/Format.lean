import CodeRubric.Tree.Layers

/-! The JSON format of trees as a table: for each tag, what its contents are and which keys are
known in them. The readers ask for what the table lists and for nothing else, and they fail if any
of it cannot be read. -/
namespace CodeRubric.Format

open Json (Value Member Part Tagged)

/-- The types whose values have a tag. -/
inductive TaggedType where
  | pattern
  | expression
  | body
  | statement
deriving DecidableEq, Repr

/-- What a value can be read as. -/
inductive Form where
  | text
  | flag
  | number
  | list (item : Form)
  | branch
  | equation
  | tagged (type : TaggedType)
deriving DecidableEq, Repr

/-- What an alternative holds: nothing, a single value, or an object with these fields. -/
inductive Shape where
  | nothing
  | one (form : Form)
  | fields (known : List (String × Form))
deriving DecidableEq, Repr

abbrev Form.pattern : Form := .tagged .pattern

abbrev Form.expression : Form := .tagged .expression

section Table

def patternShape? : String → Option Shape
  | "Variable" | "Literal" => some (.one .text)
  | "InfixApplication" =>
    some (.fields [("left", .pattern), ("operator", .text), ("right", .pattern)])
  | "Application" | "Functor" => some (.fields [("name", .text), ("args", .list .pattern)])
  | "Tuple" | "List" => some (.one (.list .pattern))
  | "As" => some (.fields [("name", .text), ("pattern", .pattern)])
  | "Wildcard" | "Other" => some .nothing
  | _ => none

def kindShape : Kind → Shape
  | .typeAlias | .record => .fields [("name", .text)]
  | .typeSignature => .fields [("name", .text), ("types", .list .text)]
  | .entryPoint | .object => .fields [("name", .text), ("body", .expression)]
  | .function | .procedure | .method => .fields [("name", .text), ("equations", .list .equation)]
  | .variable | .attribute => .fields [("name", .text), ("initializer", .expression)]
  | .rule => .fields [("name", .text), ("params", .list .pattern), ("body", .list .expression)]
  | .fact | .exist => .fields [("name", .text), ("params", .list .pattern)]
  | .reference | .string | .symbol => .one .text
  | .application => .fields [("callee", .expression), ("arguments", .list .expression)]
  | .send =>
    .fields [("receiver", .expression), ("selector", .expression),
      ("arguments", .list .expression)]
  | .lambda => .fields [("params", .list .pattern), ("body", .expression)]
  | .assignment => .fields [("name", .text), ("value", .expression)]
  | .ifThenElse =>
    .fields [("condition", .expression), ("then_branch", .expression),
      ("else_branch", .expression)]
  | .whileLoop => .fields [("condition", .expression), ("body", .expression)]
  | .repeatLoop => .fields [("count", .expression), ("body", .expression)]
  | .patternMatch => .fields [("scrutinee", .expression), ("equations", .list .equation)]
  | .switch => .fields [("scrutinee", .expression), ("cases", .list .branch)]
  | .sequence | .tuple | .list => .one (.list .expression)
  | .returned | .negation | .objectLiteral => .one .expression
  | .findall =>
    .fields [("template", .expression), ("generator", .expression), ("result", .expression)]
  | .forAll => .fields [("generator", .expression), ("condition", .expression)]
  | .comprehension =>
    .fields [("result", .expression), ("statements", .list (.tagged .statement))]
  | .number => .one .number
  | .bool => .one .flag
  | .nil | .equal | .notEqual | .other => .nothing

def bodyShape? : String → Option Shape
  | "Unguarded" => some (.one .expression)
  | "Guarded" => some (.one (.list .branch))
  | _ => none

def statementShape? : String → Option Shape
  | "Generator" => some (.fields [("pattern", .pattern), ("source", .expression)])
  | "Qualifier" => some (.one .expression)
  | "Let" => some (.fields [("name", .text), ("value", .expression)])
  | _ => none

/-- What the alternative with this tag holds. -/
def TaggedType.shape? : TaggedType → String → Option Shape
  | .pattern, tag => patternShape? tag
  | .expression, tag => (Kind.ofName? tag).map kindShape
  | .body, tag => bodyShape? tag
  | .statement, tag => statementShape? tag

def equationFields : List (String × Form) :=
  [("params", .list .pattern), ("body", .tagged .body)]

/-- The fields of a value that is read as an object of known fields. -/
def Shape.record? : Shape → Option (List (String × Form))
  | .fields known => some known
  | .one .equation => some equationFields
  | _ => none

end Table

section Readers

/-- The tags in order. -/
def TaggedType.tags : TaggedType → List String
  | .pattern => Pattern.tags
  | .expression => Kind.all.map Kind.name
  | .body => EquationBody.tags
  | .statement => Statement.tags

def TaggedType.Data : TaggedType → Type
  | .pattern => Pattern
  | .expression => Expression
  | .body => EquationBody
  | .statement => Statement

def TaggedType.read : (type : TaggedType) → Part → Option type.Data
  | .pattern => Pattern.ofPart?
  | .expression => Expression.ofPart?
  | .body => EquationBody.read Expression.ofPart?
  | .statement => Statement.read Expression.ofPart?

def Form.Data : Form → Type
  | .text => String
  | .flag => Bool
  | .number => Float
  | .list item => List item.Data
  | .branch => Branch
  | .equation => Equation
  | .tagged type => type.Data

def Form.read : (form : Form) → Part → Option form.Data
  | .text => Part.string?
  | .flag => Part.bool?
  | .number => Part.number?
  | .list item => Part.listOf item.read
  | .branch => Branch.read Expression.ofPart?
  | .equation => Equation.read Expression.ofPart?
  | .tagged type => type.read

/-- Whatever is asked of the two parts, the answers are the same. -/
def Shape.Alike : Shape → Part → Part → Prop
  | .nothing, part, part' => part.value = .null ↔ part'.value = .null
  | .one form, part, part' => form.read part = form.read part'
  | .fields known, part, part' =>
    ∀ field ∈ known, part.field field.1 field.2.read = part'.field field.1 field.2.read

/-- Whatever is asked of the part has an answer. -/
def Shape.Answered : Shape → Part → Prop
  | .nothing, part => part.value = .null
  | .one form, part => (form.read part).isSome = true
  | .fields known, part =>
    ∀ field ∈ known, (part.field field.1 field.2.read).isSome = true

/-- No key is known twice. -/
def Shape.Distinct : Shape → Prop
  | .fields known => (known.map Prod.fst).Nodup
  | _ => True

end Readers

section Contents

variable {part part' : Part}

theorem ofContents?_of_alike {kind : Kind} (alike : (kindShape kind).Alike part part') :
    Expression.ofContents? Expression.ofPart? part kind =
      Expression.ofContents? Expression.ofPart? part' kind := by
  cases kind <;>
    simp only [kindShape, Shape.Alike, Form.read, TaggedType.read, Form.Data, TaggedType.Data,
      List.forall_mem_cons, List.not_mem_nil, false_implies, implies_true, and_true] at alike <;>
    simp only [Expression.ofContents?, paramsOfPart?, alike]

theorem answered_of_ofContents? {kind : Kind} {tree : Expression}
    (read : Expression.ofContents? Expression.ofPart? part kind = some tree) :
    (kindShape kind).Answered part := by
  cases kind <;>
    simp only [Expression.ofContents?, paramsOfPart?, Option.bind_eq_bind, Option.bind_eq_some_iff,
      reduceCtorEq] at read <;>
    simp only [kindShape, Shape.Answered, Form.read, TaggedType.read, Form.Data, TaggedType.Data,
      List.forall_mem_cons, List.not_mem_nil, false_implies, implies_true, and_true,
      Option.isSome_iff_exists] <;>
    grind

theorem bare_of_alike {α : Type} (alike : Shape.nothing.Alike part part') (tag : String)
    (result : α) :
    Tagged.bare ⟨tag, some part⟩ result = Tagged.bare ⟨tag, some part'⟩ result := by
  obtain ⟨value, held⟩ := part
  obtain ⟨value', held'⟩ := part'
  cases value <;> cases value' <;> simp_all [Tagged.bare, Shape.Alike]

/-- Only an alternative that holds nothing may be given without contents. -/
def Shape.AnsweredBy (shape : Shape) : Option Part → Prop
  | none => shape = .nothing
  | some part => shape.Answered part

theorem answeredBy_of_bare {α : Type} {node : Tagged} {result found : α}
    (bare : node.bare result = some found) : Shape.nothing.AnsweredBy node.contents := by
  unfold Tagged.bare at bare
  split at bare
  · next missing => simp [missing, Shape.AnsweredBy]
  · next held => simp [held, Shape.AnsweredBy, Shape.Answered]
  · cases bare

end Contents

namespace TaggedType

variable {type : TaggedType} {part part' : Part} {tag : String} {shape : Shape}

theorem distinct_of_shape? (known : type.shape? tag = some shape) : shape.Distinct := by
  cases type with
  | pattern =>
    simp only [shape?, patternShape?] at known
    split at known <;> cases known <;> simp [Shape.Distinct]
  | expression =>
    obtain ⟨kind, -, rfl⟩ := Option.map_eq_some_iff.mp known
    cases kind <;> simp [kindShape, Shape.Distinct]
  | body =>
    simp only [shape?, bodyShape?] at known
    split at known <;> cases known <;> simp [Shape.Distinct]
  | statement =>
    simp only [shape?, statementShape?] at known
    split at known <;> cases known <;> simp [Shape.Distinct]

/-- The part is read by its tag and contents. -/
theorem exists_read_eq_bind (type : TaggedType) :
    ∃ next : Tagged → Option type.Data,
      ∀ part, type.read part = (Tagged.ofPart? type.tags part).bind next := by
  cases type with
  | pattern => exact ⟨_, Pattern.ofPart?_eq⟩
  | expression => exact ⟨_, Expression.ofPart?_eq⟩
  | body => exact ⟨_, fun _ => rfl⟩
  | statement => exact ⟨_, fun _ => rfl⟩

theorem read_of_same_node
    (same : Tagged.ofPart? type.tags part = Tagged.ofPart? type.tags part') :
    type.read part = type.read part' := by
  obtain ⟨next, read⟩ := type.exists_read_eq_bind
  rw [read, read, same]

/-- Contents in which everything that is asked for is the same are read alike. -/
theorem read_of_alike {contents contents' : Part}
    (node : Tagged.ofPart? type.tags part = some ⟨tag, some contents⟩)
    (node' : Tagged.ofPart? type.tags part' = some ⟨tag, some contents'⟩)
    (known : type.shape? tag = some shape) (alike : shape.Alike contents contents') :
    type.read part = type.read part' := by
  cases type with
  | pattern =>
    simp only [tags] at node node'
    simp only [shape?, patternShape?] at known
    simp only [read, Data, Pattern.ofPart?_eq part, Pattern.ofPart?_eq part', Pattern.layer, node,
      node', Option.bind_eq_bind, Option.bind_some]
    split at known <;> cases known
    case h_9 | h_10 => exact bare_of_alike alike _ _
    all_goals
      simp only [Shape.Alike, Form.read, read, Form.Data, Data, List.forall_mem_cons,
        List.not_mem_nil, false_implies, implies_true, and_true] at alike
      simp only [alike]
  | expression =>
    simp only [tags] at node node'
    obtain ⟨kind, named, rfl⟩ := Option.map_eq_some_iff.mp known
    simp only [read, Data, Expression.ofPart?_eq part, Expression.ofPart?_eq part',
      Expression.layer, node, node', Option.bind_eq_bind, Option.bind_some, named]
    cases kind with
    | nil | equal | notEqual | other => exact bare_of_alike alike _ _
    | _ => exact ofContents?_of_alike alike
  | body =>
    simp only [tags] at node node'
    simp only [shape?, bodyShape?] at known
    simp only [read, Data, EquationBody.read, node, node', Option.bind_eq_bind, Option.bind_some]
    split at known <;> cases known
    all_goals
      simp only [Shape.Alike, Form.read, read, Form.Data, Data] at alike
      simp only [alike]
  | statement =>
    simp only [tags] at node node'
    simp only [shape?, statementShape?] at known
    simp only [read, Data, Statement.read, node, node', Option.bind_eq_bind, Option.bind_some]
    split at known <;> cases known
    all_goals
      simp only [Shape.Alike, Form.read, read, Form.Data, Data, List.forall_mem_cons,
        List.not_mem_nil, false_implies, implies_true, and_true] at alike
      simp only [alike]

/-- An alternative that holds nothing may be given `null` for contents. -/
theorem read_of_null {held : Bool}
    (node : Tagged.ofPart? type.tags part = some ⟨tag, none⟩)
    (node' : Tagged.ofPart? type.tags part' = some ⟨tag, some ⟨.null, held⟩⟩)
    (known : type.shape? tag = some .nothing) : type.read part = type.read part' := by
  cases type with
  | pattern =>
    simp only [tags] at node node'
    simp only [shape?, patternShape?] at known
    simp only [read, Data, Pattern.ofPart?_eq part, Pattern.ofPart?_eq part', Pattern.layer, node,
      node', Option.bind_eq_bind, Option.bind_some]
    split at known <;> cases known <;> rfl
  | expression =>
    simp only [tags] at node node'
    obtain ⟨kind, named, nothing⟩ := Option.map_eq_some_iff.mp known
    simp only [read, Data, Expression.ofPart?_eq part, Expression.ofPart?_eq part',
      Expression.layer, node, node', Option.bind_eq_bind, Option.bind_some, named]
    cases kind with
    | nil | equal | notEqual | other => rfl
    | _ => cases nothing
  | body =>
    simp only [shape?, bodyShape?] at known
    split at known <;> cases known
  | statement =>
    simp only [shape?, statementShape?] at known
    split at known <;> cases known

/-- The part has a tag of the table, and contents that answer everything asked. -/
def Answered (type : TaggedType) (part : Part) : Prop :=
  ∃ tag contents shape, Tagged.ofPart? type.tags part = some ⟨tag, contents⟩ ∧
    type.shape? tag = some shape ∧ shape.AnsweredBy contents

theorem answered_of_pattern {found : Pattern} (read : Pattern.ofPart? part = some found) :
    pattern.Answered part := by
  rw [Pattern.ofPart?_eq] at read
  obtain ⟨⟨tag, contents⟩, node, read⟩ := Option.bind_eq_some_iff.mp read
  refine ⟨tag, contents, ?_⟩
  simp only at read
  split at read
  case h_9 | h_10 => exact ⟨_, node, rfl, answeredBy_of_bare read⟩
  case h_11 => cases read
  all_goals
    refine ⟨_, node, rfl, ?_⟩
    simp only [Option.bind_eq_bind, Option.bind_eq_some_iff] at read
    obtain ⟨contents, rfl, read⟩ := read
    simp only [Shape.AnsweredBy, Shape.Answered, Form.read, TaggedType.read, Form.Data, Data,
      List.forall_mem_cons, List.not_mem_nil, false_implies, implies_true, and_true,
      Option.isSome_iff_exists]
    grind

theorem answered_of_expression {found : Expression} (read : Expression.ofPart? part = some found) :
    expression.Answered part := by
  rw [Expression.ofPart?_eq] at read
  obtain ⟨⟨tag, contents⟩, node, read⟩ := Option.bind_eq_some_iff.mp read
  obtain ⟨kind, named, read⟩ := Option.bind_eq_some_iff.mp read
  refine ⟨tag, contents, kindShape kind, node, by simp [shape?, named], ?_⟩
  cases kind with
  | nil | equal | notEqual | other => exact answeredBy_of_bare read
  | _ =>
    simp only [Option.bind_eq_bind, Option.bind_eq_some_iff] at read
    obtain ⟨contents, rfl, inside⟩ := read
    exact answered_of_ofContents? inside

theorem answered_of_body {found : EquationBody}
    (read : EquationBody.read Expression.ofPart? part = some found) : body.Answered part := by
  obtain ⟨⟨tag, contents⟩, node, read⟩ := Option.bind_eq_some_iff.mp read
  refine ⟨tag, contents, ?_⟩
  simp only at read
  split at read
  case h_3 => cases read
  all_goals
    refine ⟨_, node, rfl, ?_⟩
    simp only [Option.bind_eq_bind, Option.bind_eq_some_iff] at read
    obtain ⟨contents, rfl, value, read, -⟩ := read
    simp [Shape.AnsweredBy, Shape.Answered, Form.read, TaggedType.read, Form.Data, Data, read]

theorem answered_of_statement {found : Statement}
    (read : Statement.read Expression.ofPart? part = some found) : statement.Answered part := by
  obtain ⟨⟨tag, contents⟩, node, read⟩ := Option.bind_eq_some_iff.mp read
  obtain ⟨contents, rfl, read⟩ := Option.bind_eq_some_iff.mp read
  refine ⟨tag, some contents, ?_⟩
  simp only at read
  split at read
  case h_4 => cases read
  all_goals
    refine ⟨_, node, rfl, ?_⟩
    simp only [Option.bind_eq_bind, Option.bind_eq_some_iff] at read
    simp only [Shape.AnsweredBy, Shape.Answered, Form.read, TaggedType.read, Form.Data, Data,
      List.forall_mem_cons, List.not_mem_nil, false_implies, implies_true, and_true,
      Option.isSome_iff_exists]
    grind

theorem answered_of_read (answered : (type.read part).isSome = true) : type.Answered part := by
  obtain ⟨data, found⟩ := Option.isSome_iff_exists.mp answered
  cases type with
  | pattern => exact answered_of_pattern found
  | expression => exact answered_of_expression found
  | body => exact answered_of_body found
  | statement => exact answered_of_statement found

theorem read_of_no_node (missing : Tagged.ofPart? type.tags part = none) :
    type.read part = none := by
  obtain ⟨next, read⟩ := type.exists_read_eq_bind
  rw [read, missing, Option.bind_none]

theorem read_of_unknown {contents : Option Part}
    (node : Tagged.ofPart? type.tags part = some ⟨tag, contents⟩)
    (unknown : type.shape? tag = none) : type.read part = none := by
  rw [← Option.not_isSome_iff_eq_none]
  intro answered
  obtain ⟨tag', contents', shape, node', known, -⟩ := answered_of_read answered
  obtain ⟨rfl, -⟩ : tag = tag' ∧ contents = contents' := by
    simpa using Option.some.inj (node.symm.trans node')
  rw [unknown] at known
  cases known

theorem answeredBy_of_node {contents : Option Part} (answered : (type.read part).isSome = true)
    (node : Tagged.ofPart? type.tags part = some ⟨tag, contents⟩)
    (known : type.shape? tag = some shape) : shape.AnsweredBy contents := by
  obtain ⟨tag', contents', shape', node', known', inside⟩ := answered_of_read answered
  obtain ⟨rfl, rfl⟩ : tag = tag' ∧ contents = contents' := by
    simpa using Option.some.inj (node.symm.trans node')
  obtain rfl := Option.some.inj (known.symm.trans known')
  exact inside

end TaggedType

end CodeRubric.Format
