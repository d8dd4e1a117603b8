import CodeRubric.Proofs.Tree.Frame

/-! What a node shows of itself, and the two sides of replacing its children: the new children are
in the places where the old ones were, and what the node shows is as before. A node is its frame
with its children in it, so that nothing else can come of a replacement. -/
namespace CodeRubric

/-- How many guards there are, if there are to be guards. -/
def EquationBody.guardCount? : EquationBody → Option Nat
  | .unguarded _ => none
  | .guarded guards => some guards.length

namespace Statement

def pattern? : Statement → Option Pattern
  | .generator pattern _ => some pattern
  | _ => none

def name? : Statement → Option String
  | .binding name _ => some name
  | _ => none

end Statement

/-- What a node shows of itself, apart from its children. -/
structure Surface where
  kind : Kind
  declaredName : Option String
  /-- The names that it refers to, consults or assigns to, and those that its clauses bind. -/
  otherNames : List String
  /-- The parameters of each equation, its own parameters, the patterns of its clauses. -/
  patterns : List (List Pattern)
  types : List String
  /-- The node itself if it is a literal. -/
  literal : Option Expression
  /-- The arity of each equation and, if it has guards, their number. -/
  equations : List (Nat × Option Nat)
  caseCount : Nat
  clauseCount : Nat

namespace Expression

def otherNames : Expression → List String
  | .reference name => [name]
  | .exist name _ => [name]
  | .assignment name _ => [name]
  | .comprehension _ statements => statements.filterMap Statement.name?
  | _ => []

def patternLists : Expression → List (List Pattern)
  | .function _ equations => equations.map Equation.params
  | .procedure _ equations => equations.map Equation.params
  | .method _ equations => equations.map Equation.params
  | .patternMatch _ equations => equations.map Equation.params
  | .lambda params _ => [params]
  | .rule _ params _ => [params]
  | .fact _ params => [params]
  | .exist _ params => [params]
  | .comprehension _ statements => [statements.filterMap Statement.pattern?]
  | _ => []

def types : Expression → List String
  | .typeSignature _ types => types
  | _ => []

def literal? : Expression → Option Expression
  | .number value => some (.number value)
  | .bool value => some (.bool value)
  | .string value => some (.string value)
  | .symbol value => some (.symbol value)
  | _ => none

def caseCount : Expression → Nat
  | .switch _ cases => cases.length
  | _ => 0

def clauseCount : Expression → Nat
  | .comprehension _ statements => statements.length
  | _ => 0

def surface (e : Expression) : Surface where
  kind := e.kind
  declaredName := e.declaredName?
  otherNames := e.otherNames
  patterns := e.patternLists
  types := e.types
  literal := e.literal?
  equations := (e.equations?.getD []).map fun equation =>
    (equation.arity, equation.body.guardCount?)
  caseCount := e.caseCount
  clauseCount := e.clauseCount

end Expression

section Surfaces

theorem EquationBody.guardCount?_frame (body : EquationBody) :
    body.frame.guardCount? = body.guardCount? := by
  cases body with
  | unguarded value => rfl
  | guarded guards => exact congrArg some (List.length_map _)

theorem Statement.pattern?_frame (statement : Statement) :
    statement.frame.pattern? = statement.pattern? := by
  cases statement <;> rfl

theorem Statement.name?_frame (statement : Statement) :
    statement.frame.name? = statement.name? := by
  cases statement <;> rfl

/-- The frame of a node shows all that the node shows. -/
theorem Expression.surface_frame (e : Expression) : e.frame.surface = e.surface := by
  have params (equation : Equation) : equation.frame.params = equation.params := rfl
  have arity (equation : Equation) : equation.frame.arity = equation.arity := rfl
  have body (equation : Equation) : equation.frame.body = equation.body.frame := rfl
  cases e
  case function | procedure | method | patternMatch =>
    simp [frame, surface, kind, declaredName?, otherNames, patternLists, types, literal?,
      equations?, caseCount, clauseCount, params, arity, body, EquationBody.guardCount?_frame]
  case switch =>
    simp [frame, surface, kind, declaredName?, otherNames, patternLists, types, literal?,
      equations?, caseCount, clauseCount]
  case comprehension =>
    simp [frame, surface, kind, declaredName?, otherNames, patternLists, types, literal?,
      equations?, caseCount, clauseCount, List.filterMap_map,
      Statement.pattern?_frame, Statement.name?_frame]
  all_goals rfl

end Surfaces

namespace Expression

/-- As many expressions as a node has children can take their places. They are its children then,
all else about it is as it was, and only one node is so; its own children give the node itself. -/
theorem children_replaced_exactly (e : Expression) :
    (∀ parts : List Expression, parts.length = e.children.length →
      (e.withChildren parts).children = parts ∧
      (e.withChildren parts).surface = e.surface ∧
      (e.withChildren parts).frame = e.frame ∧
      ∀ e' : Expression, e'.frame = e.frame → e'.children = parts → e' = e.withChildren parts) ∧
    e.withChildren e.children = e := by
  refine ⟨?_, withChildren_children e⟩
  intro parts same
  have placed := children_withChildren same
  have framed := frame_withChildren same
  refine ⟨placed, ?_, framed, ?_⟩
  · rw [← surface_frame, framed, surface_frame]
  · intro e' sameFrame held
    exact eq_of_frame_of_children (sameFrame.trans framed.symm) (held.trans placed.symm)

theorem children_replaced_exactly_at_match :
    let equations : List Equation := [.guarded [.variable "n"] [⟨.equal, .nil⟩, ⟨.other, .nil⟩],
      .unguarded [.wildcard] .nil]
    let parts : List Expression := [.reference "x", .bool true, .number 1, .other, .nil, .equal]
    parts.length = (Expression.patternMatch .nil equations).children.length ∧
    ((Expression.patternMatch .nil equations).withChildren parts).children = parts ∧
    (Expression.patternMatch .nil equations).withChildren parts = .patternMatch (.reference "x")
      [.guarded [.variable "n"] [⟨.bool true, .number 1⟩, ⟨.other, .nil⟩],
        .unguarded [.wildcard] .equal] := by
  intro equations parts
  have same : parts.length = (Expression.patternMatch .nil equations).children.length := rfl
  obtain ⟨placed, -, -, only⟩ :=
    (children_replaced_exactly (.patternMatch .nil equations)).1 parts same
  refine ⟨same, placed, Eq.symm ?_⟩
  apply only
  · rfl
  · rfl

end Expression

end CodeRubric
