import CodeRubric.Tree.Children
import CodeRubric.Tree.Shape
import Mathlib.Data.List.Basic

/-! Replacing the children of a node. As many new children as there were old ones are the children
afterwards, and whatever they are, the node keeps its kind, its names, its parameters and which of
its equations have guards. -/
namespace CodeRubric

theorem Branch.expressions_refillAll {branches : List Branch} {parts : List Expression}
    (same : parts.length = (branches.flatMap Branch.expressions).length) :
    (Branch.refillAll branches parts).flatMap Branch.expressions = parts := by
  induction branches generalizing parts with
  | nil => simpa [Branch.refillAll, eq_comm] using same
  | cons branch rest ih =>
    match parts with
    | [] | [_] => simp [Branch.expressions] at same
    | condition :: result :: more =>
      have shorter : more.length = (rest.flatMap Branch.expressions).length := by
        simpa [Branch.expressions] using same
      simp [Branch.refillAll, Branch.expressions, ih shorter]

theorem EquationBody.expressions_refill {body : EquationBody} {parts : List Expression}
    (same : parts.length = body.expressions.length) : (body.refill parts).expressions = parts := by
  cases body with
  | unguarded value =>
    obtain ⟨part, rfl⟩ := List.length_eq_one_iff.mp same
    rfl
  | guarded guards => exact Branch.expressions_refillAll same

theorem Equation.expressions_refillAll {equations : List Equation} {parts : List Expression}
    (same : parts.length = (equations.flatMap Equation.expressions).length) :
    (Equation.refillAll equations parts).flatMap Equation.expressions = parts := by
  induction equations generalizing parts with
  | nil => simpa [Equation.refillAll, eq_comm] using same
  | cons equation rest ih =>
    simp only [List.flatMap_cons, List.length_append] at same
    have own : (parts.take equation.expressions.length).length =
        equation.body.expressions.length := by
      have unfolded : equation.expressions.length = equation.body.expressions.length := rfl
      rw [List.length_take]
      omega
    have others : (parts.drop equation.expressions.length).length =
        (rest.flatMap Equation.expressions).length := by
      rw [List.length_drop]
      omega
    have filled : Equation.expressions
        ⟨equation.params, equation.body.refill (parts.take equation.expressions.length)⟩ =
          parts.take equation.expressions.length := EquationBody.expressions_refill own
    rw [Equation.refillAll, List.flatMap_cons, ih others, filled, List.take_append_drop]

theorem Statement.expressions_refill {statements : List Statement} {parts : List Expression}
    (same : parts.length = statements.length) :
    (statements.zipWith Statement.refill parts).map Statement.expression = parts := by
  induction statements generalizing parts with
  | nil => simpa [eq_comm] using same
  | cons statement rest ih =>
    cases parts with
    | nil => simp at same
    | cons part more =>
      have shorter : more.length = rest.length := by simpa using same
      cases statement <;> simp [Statement.refill, Statement.expression, ih shorter]

theorem Expression.children_withChildren {e : Expression} {parts : List Expression}
    (same : parts.length = e.children.length) : (e.withChildren parts).children = parts := by
  cases e <;> simp only [Expression.children] at same
  case function | procedure | method => exact Equation.expressions_refillAll same
  case rule | sequence | tuple | list => rfl
  case application =>
    obtain ⟨callee, arguments, rfl⟩ := List.exists_cons_of_length_eq_add_one same
    rfl
  case send =>
    obtain ⟨receiver, rest, rfl⟩ := List.exists_cons_of_length_eq_add_one same
    obtain ⟨selector, arguments, rfl⟩ :=
      List.exists_cons_of_length_eq_add_one (Nat.succ.inj same)
    rfl
  case patternMatch =>
    obtain ⟨scrutinee, rest, rfl⟩ := List.exists_cons_of_length_eq_add_one same
    exact congrArg (scrutinee :: ·) (Equation.expressions_refillAll (Nat.succ.inj same))
  case switch =>
    obtain ⟨scrutinee, rest, rfl⟩ := List.exists_cons_of_length_eq_add_one same
    exact congrArg (scrutinee :: ·) (Branch.expressions_refillAll (Nat.succ.inj same))
  case comprehension =>
    obtain ⟨result, rest, rfl⟩ := List.exists_cons_of_length_eq_add_one same
    refine congrArg (result :: ·) (Statement.expressions_refill ?_)
    simpa using same
  case ifThenElse | findall =>
    obtain ⟨first, second, third, rfl⟩ := List.length_eq_three.mp same
    rfl
  case whileLoop | repeatLoop | forAll =>
    obtain ⟨first, second, rfl⟩ := List.length_eq_two.mp same
    rfl
  case typeAlias | record | typeSignature | fact | reference | exist | number | bool | string
      | symbol | nil | equal | notEqual | other =>
    exact (List.eq_nil_of_length_eq_zero same).symm
  all_goals
    obtain ⟨part, rfl⟩ := List.length_eq_one_iff.mp same
    rfl

theorem Expression.children_withChildren_map (e : Expression) (f : Expression → Expression) :
    (e.withChildren (e.children.map f)).children = e.children.map f :=
  children_withChildren (List.length_map f)

section NodeFacts

variable (e : Expression) (parts : List Expression)

theorem Equation.params_refillAll (equations : List Equation) (parts : List Expression) :
    (Equation.refillAll equations parts).map Equation.params = equations.map Equation.params := by
  induction equations generalizing parts with
  | nil => rfl
  | cons equation rest ih => simp [Equation.refillAll, ih]

theorem EquationBody.isGuarded_refill (body : EquationBody) (parts : List Expression) :
    (body.refill parts).isGuarded = body.isGuarded := by
  unfold EquationBody.refill
  split <;> rfl

theorem Equation.isGuarded_refillAll (equations : List Equation) (parts : List Expression) :
    (Equation.refillAll equations parts).map (·.body.isGuarded) =
      equations.map (·.body.isGuarded) := by
  induction equations generalizing parts with
  | nil => rfl
  | cons equation rest ih => simp [Equation.refillAll, EquationBody.isGuarded_refill, ih]

@[simp] theorem Expression.kind_withChildren : (e.withChildren parts).kind = e.kind := by
  unfold Expression.withChildren
  split <;> rfl

@[simp] theorem Expression.declaredName?_withChildren :
    (e.withChildren parts).declaredName? = e.declaredName? := by
  unfold Expression.withChildren
  split <;> rfl

@[simp] theorem Expression.referredName?_withChildren :
    (e.withChildren parts).referredName? = e.referredName? := by
  unfold Expression.withChildren
  split <;> rfl

@[simp] theorem Expression.ownsBody_withChildren :
    (e.withChildren parts).ownsBody = e.ownsBody := by
  unfold Expression.withChildren
  split <;> rfl

@[simp] theorem Expression.parameterLists_withChildren :
    (e.withChildren parts).parameterLists = e.parameterLists := by
  unfold Expression.withChildren
  split <;> simp only [Expression.parameterLists, Equation.params_refillAll]

end NodeFacts

end CodeRubric
