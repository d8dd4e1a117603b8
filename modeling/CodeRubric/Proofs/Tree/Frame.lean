import CodeRubric.Proofs.Tree.Replacement

/-! The frame of a node is the node apart from its children: construct, names, parameters, types and
payloads, and how many equations, guards, cases and clauses there are. Replacing children leaves the
frame as it is, and a node is its frame with its children in it. -/
namespace CodeRubric

def Branch.frame (_ : Branch) : Branch := ⟨.nil, .nil⟩

def EquationBody.frame : EquationBody → EquationBody
  | .unguarded _ => .unguarded .nil
  | .guarded guards => .guarded (guards.map Branch.frame)

def Equation.frame (equation : Equation) : Equation := ⟨equation.params, equation.body.frame⟩

def Statement.frame : Statement → Statement
  | .generator pattern _ => .generator pattern .nil
  | .qualifier _ => .qualifier .nil
  | .binding name _ => .binding name .nil

namespace Expression

/-- As many places as there are expressions, with nothing in them. -/
def blanks (items : List Expression) : List Expression := List.replicate items.length .nil

/-- The node with `nil` in each of its fields that is an expression. -/
def frame : Expression → Expression
  | .typeAlias name => .typeAlias name
  | .record name => .record name
  | .typeSignature name types => .typeSignature name types
  | .entryPoint name _ => .entryPoint name .nil
  | .function name equations => .function name (equations.map Equation.frame)
  | .procedure name equations => .procedure name (equations.map Equation.frame)
  | .method name equations => .method name (equations.map Equation.frame)
  | .variable name _ => .variable name .nil
  | .attribute name _ => .attribute name .nil
  | .object name _ => .object name .nil
  | .rule name params body => .rule name params (blanks body)
  | .fact name params => .fact name params
  | .reference name => .reference name
  | .application _ arguments => .application .nil (blanks arguments)
  | .send _ _ arguments => .send .nil .nil (blanks arguments)
  | .lambda params _ => .lambda params .nil
  | .assignment name _ => .assignment name .nil
  | .ifThenElse _ _ _ => .ifThenElse .nil .nil .nil
  | .whileLoop _ _ => .whileLoop .nil .nil
  | .repeatLoop _ _ => .repeatLoop .nil .nil
  | .patternMatch _ equations => .patternMatch .nil (equations.map Equation.frame)
  | .switch _ cases => .switch .nil (cases.map Branch.frame)
  | .sequence items => .sequence (blanks items)
  | .returned _ => .returned .nil
  | .exist name params => .exist name params
  | .negation _ => .negation .nil
  | .findall _ _ _ => .findall .nil .nil .nil
  | .forAll _ _ => .forAll .nil .nil
  | .comprehension _ statements => .comprehension .nil (statements.map Statement.frame)
  | .number value => .number value
  | .bool value => .bool value
  | .string value => .string value
  | .symbol value => .symbol value
  | .tuple items => .tuple (blanks items)
  | .list items => .list (blanks items)
  | .nil => .nil
  | .objectLiteral _ => .objectLiteral .nil
  | .equal => .equal
  | .notEqual => .notEqual
  | .other => .other

end Expression

theorem Branch.frame_refillAll (branches : List Branch) (parts : List Expression) :
    (Branch.refillAll branches parts).map Branch.frame = branches.map Branch.frame := by
  fun_induction Branch.refillAll branches parts with
  | case1 branch rest condition result more ih => rw [List.map_cons, List.map_cons, ih]; rfl
  | case2 => rfl

theorem EquationBody.frame_refill (body : EquationBody) (parts : List Expression) :
    (body.refill parts).frame = body.frame := by
  unfold EquationBody.refill
  split
  · rfl
  · rfl
  · next guards => simp only [EquationBody.frame, Branch.frame_refillAll]

theorem Equation.frame_refillAll (equations : List Equation) (parts : List Expression) :
    (Equation.refillAll equations parts).map Equation.frame = equations.map Equation.frame := by
  induction equations generalizing parts with
  | nil => rfl
  | cons equation rest ih =>
    simp only [Equation.refillAll, List.map_cons, ih, Equation.frame, EquationBody.frame_refill]

theorem Statement.frame_refill {statements : List Statement} {parts : List Expression}
    (same : parts.length = statements.length) :
    (statements.zipWith Statement.refill parts).map Statement.frame =
      statements.map Statement.frame := by
  induction statements generalizing parts with
  | nil => rfl
  | cons statement rest ih =>
    cases parts with
    | nil => cases same
    | cons part more =>
      have shorter : more.length = rest.length := Nat.succ.inj same
      rw [List.zipWith_cons_cons, List.map_cons, List.map_cons, ih shorter]
      cases statement <;> rfl

theorem Expression.frame_withChildren {e : Expression} {parts : List Expression}
    (same : parts.length = e.children.length) : (e.withChildren parts).frame = e.frame := by
  have blank {items items' : List Expression} (same : items.length = items'.length) :
      blanks items = blanks items' := by rw [blanks, blanks, same]
  cases e <;> simp only [Expression.children] at same
  case function | procedure | method =>
    simp only [withChildren, frame, Equation.frame_refillAll]
  case rule | sequence | tuple | list =>
    simp only [withChildren, frame, blank same]
  case application =>
    obtain ⟨callee, arguments, rfl⟩ := List.exists_cons_of_length_eq_add_one same
    simp only [withChildren, frame, blank (Nat.succ.inj same)]
  case send =>
    obtain ⟨receiver, rest, rfl⟩ := List.exists_cons_of_length_eq_add_one same
    obtain ⟨selector, arguments, rfl⟩ :=
      List.exists_cons_of_length_eq_add_one (Nat.succ.inj same)
    simp only [withChildren, frame, blank (Nat.succ.inj (Nat.succ.inj same))]
  case patternMatch =>
    obtain ⟨scrutinee, rest, rfl⟩ := List.exists_cons_of_length_eq_add_one same
    simp only [withChildren, frame, Equation.frame_refillAll]
  case switch =>
    obtain ⟨scrutinee, rest, rfl⟩ := List.exists_cons_of_length_eq_add_one same
    simp only [withChildren, frame, Branch.frame_refillAll]
  case comprehension =>
    obtain ⟨result, rest, rfl⟩ := List.exists_cons_of_length_eq_add_one same
    have clauses : rest.length = _ := (Nat.succ.inj same).trans (List.length_map _)
    simp only [withChildren, frame, Statement.frame_refill clauses]
  case ifThenElse | findall =>
    obtain ⟨first, second, third, rfl⟩ := List.length_eq_three.mp same
    rfl
  case whileLoop | repeatLoop | forAll =>
    obtain ⟨first, second, rfl⟩ := List.length_eq_two.mp same
    rfl
  case typeAlias | record | typeSignature | fact | reference | exist | number | bool | string
      | symbol | nil | equal | notEqual | other => rfl
  all_goals
    obtain ⟨part, rfl⟩ := List.length_eq_one_iff.mp same
    rfl

section Rebuilding

theorem Branch.refillAll_frame (branches : List Branch) :
    Branch.refillAll (branches.map Branch.frame) (branches.flatMap Branch.expressions) =
      branches := by
  induction branches with
  | nil => rfl
  | cons branch rest ih =>
    obtain ⟨condition, result⟩ := branch
    exact congrArg (⟨condition, result⟩ :: ·) ih

theorem EquationBody.refill_frame (body : EquationBody) :
    body.frame.refill body.expressions = body := by
  cases body with
  | unguarded value => rfl
  | guarded guards => exact congrArg EquationBody.guarded (Branch.refillAll_frame guards)

theorem Equation.length_expressions_frame (equation : Equation) :
    equation.frame.expressions.length = equation.expressions.length := by
  obtain ⟨params, body⟩ := equation
  cases body with
  | unguarded value => rfl
  | guarded guards =>
    simp [Equation.frame, EquationBody.frame, Equation.expressions, EquationBody.expressions,
      Branch.expressions, List.flatMap_map, List.length_flatMap]

theorem Equation.refillAll_frame (equations : List Equation) :
    Equation.refillAll (equations.map Equation.frame) (equations.flatMap Equation.expressions) =
      equations := by
  induction equations with
  | nil => rfl
  | cons equation rest ih =>
    obtain ⟨params, body⟩ := equation
    have own : body.frame.refill (Equation.expressions ⟨params, body⟩) = body :=
      EquationBody.refill_frame body
    rw [List.map_cons, List.flatMap_cons, Equation.refillAll, Equation.length_expressions_frame,
      List.take_left, List.drop_left, ih, Equation.frame, own]

theorem Statement.refill_frame (statements : List Statement) :
    (statements.map Statement.frame).zipWith Statement.refill
      (statements.map Statement.expression) = statements := by
  induction statements with
  | nil => rfl
  | cons statement rest ih =>
    rw [List.map_cons, List.map_cons, List.zipWith_cons_cons, ih]
    cases statement <;> rfl

/-- A node is its frame with its children in it. -/
theorem Expression.withChildren_frame (e : Expression) : e.frame.withChildren e.children = e := by
  cases e <;> simp only [Expression.frame, Expression.children, Expression.withChildren,
    Equation.refillAll_frame, Branch.refillAll_frame, Statement.refill_frame]

theorem Expression.eq_of_frame_of_children {e e' : Expression} (frames : e.frame = e'.frame)
    (children : e.children = e'.children) : e = e' :=
  calc
    e = e.frame.withChildren e.children := (withChildren_frame e).symm
    _ = e'.frame.withChildren e'.children := by rw [frames, children]
    _ = e' := withChildren_frame e'

/-- A node with its own children put back in is as it was. -/
theorem Expression.withChildren_children (e : Expression) : e.withChildren e.children = e :=
  eq_of_frame_of_children (frame_withChildren rfl) (children_withChildren rfl)

end Rebuilding

end CodeRubric
