import CodeRubric.Tree.Children

/-! Recursion and induction over a tree through the children of its nodes. `fold_eq` is the equation
by which every view of a tree is computed; `inductionOnChildren` is the matching induction
principle. -/
namespace CodeRubric

mutual

/-- The value of a tree from each node and the values of its children. -/
def Expression.fold {α : Type} (f : Expression → List α → α) : Expression → α
  | e@(.entryPoint _ body) => f e [body.fold f]
  | e@(.function _ equations) => f e (Equation.foldAll f equations)
  | e@(.procedure _ equations) => f e (Equation.foldAll f equations)
  | e@(.method _ equations) => f e (Equation.foldAll f equations)
  | e@(.variable _ initializer) => f e [initializer.fold f]
  | e@(.attribute _ initializer) => f e [initializer.fold f]
  | e@(.object _ body) => f e [body.fold f]
  | e@(.rule _ _ body) => f e (Expression.foldAll f body)
  | e@(.application callee arguments) => f e (callee.fold f :: Expression.foldAll f arguments)
  | e@(.send receiver selector arguments) =>
    f e (receiver.fold f :: selector.fold f :: Expression.foldAll f arguments)
  | e@(.lambda _ body) => f e [body.fold f]
  | e@(.assignment _ value) => f e [value.fold f]
  | e@(.ifThenElse condition thenBranch elseBranch) =>
    f e [condition.fold f, thenBranch.fold f, elseBranch.fold f]
  | e@(.whileLoop condition body) => f e [condition.fold f, body.fold f]
  | e@(.repeatLoop count body) => f e [count.fold f, body.fold f]
  | e@(.patternMatch scrutinee equations) =>
    f e (scrutinee.fold f :: Equation.foldAll f equations)
  | e@(.switch scrutinee cases) => f e (scrutinee.fold f :: Branch.foldAll f cases)
  | e@(.sequence items) => f e (Expression.foldAll f items)
  | e@(.returned value) => f e [value.fold f]
  | e@(.negation goal) => f e [goal.fold f]
  | e@(.findall template generator result) =>
    f e [template.fold f, generator.fold f, result.fold f]
  | e@(.forAll generator condition) => f e [generator.fold f, condition.fold f]
  | e@(.comprehension result statements) =>
    f e (result.fold f :: Statement.foldAll f statements)
  | e@(.tuple items) => f e (Expression.foldAll f items)
  | e@(.list items) => f e (Expression.foldAll f items)
  | e@(.objectLiteral body) => f e [body.fold f]
  | e => f e []
termination_by structural x => x

def Expression.foldAll {α : Type} (f : Expression → List α → α) : List Expression → List α
  | [] => []
  | item :: rest => item.fold f :: Expression.foldAll f rest
termination_by structural x => x

def Equation.foldAll {α : Type} (f : Expression → List α → α) : List Equation → List α
  | [] => []
  | equation :: rest => equation.fold f ++ Equation.foldAll f rest
termination_by structural x => x

def Equation.fold {α : Type} (f : Expression → List α → α) : Equation → List α
  | ⟨_, body⟩ => body.fold f
termination_by structural x => x

def EquationBody.fold {α : Type} (f : Expression → List α → α) : EquationBody → List α
  | .unguarded value => [value.fold f]
  | .guarded guards => Branch.foldAll f guards
termination_by structural x => x

def Branch.foldAll {α : Type} (f : Expression → List α → α) : List Branch → List α
  | [] => []
  | branch :: rest => branch.fold f ++ Branch.foldAll f rest
termination_by structural x => x

def Branch.fold {α : Type} (f : Expression → List α → α) : Branch → List α
  | ⟨condition, result⟩ => [condition.fold f, result.fold f]
termination_by structural x => x

def Statement.foldAll {α : Type} (f : Expression → List α → α) : List Statement → List α
  | [] => []
  | statement :: rest => statement.fold f :: Statement.foldAll f rest
termination_by structural x => x

def Statement.fold {α : Type} (f : Expression → List α → α) : Statement → α
  | .generator _ source => source.fold f
  | .qualifier condition => condition.fold f
  | .binding _ value => value.fold f
termination_by structural x => x

end

section FoldEquations

variable {α : Type} (f : Expression → List α → α)

theorem Expression.foldAll_eq (items : List Expression) :
    Expression.foldAll f items = items.map (Expression.fold f) := by
  induction items with
  | nil => rfl
  | cons item rest ih => simp [Expression.foldAll, ih]

theorem Branch.foldAll_eq (branches : List Branch) :
    Branch.foldAll f branches =
      (branches.flatMap Branch.expressions).map (Expression.fold f) := by
  induction branches with
  | nil => rfl
  | cons branch rest ih =>
    cases branch
    simp [Branch.foldAll, Branch.fold, Branch.expressions, ih]

theorem EquationBody.fold_eq (body : EquationBody) :
    body.fold f = body.expressions.map (Expression.fold f) := by
  cases body with
  | unguarded value => simp [EquationBody.fold, EquationBody.expressions]
  | guarded guards => simp [EquationBody.fold, EquationBody.expressions, Branch.foldAll_eq]

theorem Equation.foldAll_eq (equations : List Equation) :
    Equation.foldAll f equations =
      (equations.flatMap Equation.expressions).map (Expression.fold f) := by
  induction equations with
  | nil => rfl
  | cons equation rest ih =>
    cases equation
    simp [Equation.foldAll, Equation.fold, Equation.expressions, EquationBody.fold_eq, ih]

theorem Statement.foldAll_eq (statements : List Statement) :
    Statement.foldAll f statements =
      (statements.map Statement.expression).map (Expression.fold f) := by
  induction statements with
  | nil => rfl
  | cons statement rest ih =>
    cases statement <;> simp [Statement.foldAll, Statement.fold, Statement.expression, ih]

theorem Expression.fold_eq (e : Expression) :
    e.fold f = f e (e.children.map (Expression.fold f)) := by
  cases e <;> simp [Expression.fold, Expression.children, Expression.foldAll_eq,
    Branch.foldAll_eq, Equation.foldAll_eq, Statement.foldAll_eq]

end FoldEquations

theorem Branch.sizeOf_lt_of_mem {c : Expression} {branches : List Branch}
    (member : c ∈ branches.flatMap Branch.expressions) : sizeOf c < sizeOf branches := by
  obtain ⟨⟨condition, result⟩, inside, held⟩ := List.mem_flatMap.mp member
  have smaller := List.sizeOf_lt_of_mem inside
  simp only [Branch.mk.sizeOf_spec] at smaller
  simp only [Branch.expressions, List.mem_cons, List.not_mem_nil, or_false] at held
  rcases held with rfl | rfl <;> omega

theorem Equation.sizeOf_lt_of_mem {c : Expression} {equations : List Equation}
    (member : c ∈ equations.flatMap Equation.expressions) : sizeOf c < sizeOf equations := by
  obtain ⟨⟨params, body⟩, inside, held⟩ := List.mem_flatMap.mp member
  have smaller := List.sizeOf_lt_of_mem inside
  simp only [Equation.mk.sizeOf_spec] at smaller
  cases body with
  | unguarded value =>
    simp only [Equation.expressions, EquationBody.expressions, List.mem_singleton] at held
    simp only [EquationBody.unguarded.sizeOf_spec] at smaller
    subst held
    omega
  | guarded guards =>
    have inner := Branch.sizeOf_lt_of_mem held
    simp only [EquationBody.guarded.sizeOf_spec] at smaller
    omega

theorem Statement.sizeOf_lt_of_mem {c : Expression} {statements : List Statement}
    (member : c ∈ statements.map Statement.expression) : sizeOf c < sizeOf statements := by
  obtain ⟨statement, inside, rfl⟩ := List.mem_map.mp member
  have smaller := List.sizeOf_lt_of_mem inside
  cases statement <;> simp [Statement.expression] at smaller ⊢ <;> omega

theorem Expression.sizeOf_lt_of_mem_children {c e : Expression} (member : c ∈ e.children) :
    sizeOf c < sizeOf e := by
  cases e <;> simp only [Expression.children, List.mem_cons, List.not_mem_nil, or_false] at member
  all_goals simp only [Expression.entryPoint.sizeOf_spec, Expression.function.sizeOf_spec,
    Expression.procedure.sizeOf_spec, Expression.method.sizeOf_spec,
    Expression.variable.sizeOf_spec, Expression.attribute.sizeOf_spec,
    Expression.object.sizeOf_spec, Expression.rule.sizeOf_spec, Expression.application.sizeOf_spec,
    Expression.send.sizeOf_spec, Expression.lambda.sizeOf_spec, Expression.assignment.sizeOf_spec,
    Expression.ifThenElse.sizeOf_spec, Expression.whileLoop.sizeOf_spec,
    Expression.repeatLoop.sizeOf_spec, Expression.patternMatch.sizeOf_spec,
    Expression.switch.sizeOf_spec, Expression.sequence.sizeOf_spec, Expression.returned.sizeOf_spec,
    Expression.negation.sizeOf_spec, Expression.findall.sizeOf_spec, Expression.forAll.sizeOf_spec,
    Expression.comprehension.sizeOf_spec, Expression.tuple.sizeOf_spec, Expression.list.sizeOf_spec,
    Expression.objectLiteral.sizeOf_spec]
  case function | procedure | method => have := Equation.sizeOf_lt_of_mem member; omega
  case rule | sequence | tuple | list => have := List.sizeOf_lt_of_mem member; omega
  case application =>
    rcases member with rfl | member
    · omega
    · have := List.sizeOf_lt_of_mem member; omega
  case send =>
    rcases member with rfl | rfl | member
    · omega
    · omega
    · have := List.sizeOf_lt_of_mem member; omega
  case patternMatch =>
    rcases member with rfl | member
    · omega
    · have := Equation.sizeOf_lt_of_mem member; omega
  case switch =>
    rcases member with rfl | member
    · omega
    · have := Branch.sizeOf_lt_of_mem member; omega
  case comprehension =>
    rcases member with rfl | member
    · omega
    · have := Statement.sizeOf_lt_of_mem member; omega
  case ifThenElse | findall => rcases member with rfl | rfl | rfl <;> omega
  case whileLoop | repeatLoop | forAll => rcases member with rfl | rfl <;> omega
  all_goals subst member; omega

/-- A property of a node that follows from the same property of its children holds of every tree. -/
theorem Expression.inductionOnChildren {motive : Expression → Prop}
    (node : ∀ e : Expression, (∀ c ∈ e.children, motive c) → motive e) (e : Expression) :
    motive e :=
  node e fun c _ => Expression.inductionOnChildren node c
termination_by sizeOf e
decreasing_by exact Expression.sizeOf_lt_of_mem_children (by assumption)

end CodeRubric
