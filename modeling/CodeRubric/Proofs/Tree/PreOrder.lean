import CodeRubric.Proofs.Tree.Occurrence
import Mathlib.Algebra.Ring.Nat

/-! The listing of a tree in pre-order: every place once, in the order of positions, as many entries
as a count over all constructs gives, and each part of the tree as one block. -/
namespace CodeRubric

mutual

/-- How many expressions a tree consists of, counted construct by construct. -/
def Expression.count : Expression → Nat
  | .typeAlias _ | .record _ | .typeSignature _ _ | .fact _ _ | .reference _ | .exist _ _
  | .number _ | .bool _ | .string _ | .symbol _ | .nil | .equal | .notEqual | .other => 1
  | .entryPoint _ body | .object _ body | .lambda _ body | .objectLiteral body => 1 + body.count
  | .function _ equations | .procedure _ equations | .method _ equations =>
    1 + Equation.countAll equations
  | .variable _ initializer | .attribute _ initializer => 1 + initializer.count
  | .rule _ _ body => 1 + Expression.countAll body
  | .application callee arguments => 1 + callee.count + Expression.countAll arguments
  | .send receiver selector arguments =>
    1 + receiver.count + selector.count + Expression.countAll arguments
  | .assignment _ value | .returned value => 1 + value.count
  | .ifThenElse condition thenBranch elseBranch =>
    1 + condition.count + thenBranch.count + elseBranch.count
  | .whileLoop condition body => 1 + condition.count + body.count
  | .repeatLoop count body => 1 + count.count + body.count
  | .patternMatch scrutinee equations => 1 + scrutinee.count + Equation.countAll equations
  | .switch scrutinee cases => 1 + scrutinee.count + Branch.countAll cases
  | .sequence items | .tuple items | .list items => 1 + Expression.countAll items
  | .negation goal => 1 + goal.count
  | .findall template generator result => 1 + template.count + generator.count + result.count
  | .forAll generator condition => 1 + generator.count + condition.count
  | .comprehension result statements => 1 + result.count + Statement.countAll statements

def Expression.countAll : List Expression → Nat
  | [] => 0
  | item :: rest => item.count + Expression.countAll rest

def Equation.countAll : List Equation → Nat
  | [] => 0
  | ⟨_, body⟩ :: rest => body.count + Equation.countAll rest

def EquationBody.count : EquationBody → Nat
  | .unguarded value => value.count
  | .guarded guards => Branch.countAll guards

def Branch.countAll : List Branch → Nat
  | [] => 0
  | ⟨condition, result⟩ :: rest => condition.count + result.count + Branch.countAll rest

def Statement.countAll : List Statement → Nat
  | [] => 0
  | .generator _ source :: rest => source.count + Statement.countAll rest
  | .qualifier condition :: rest => condition.count + Statement.countAll rest
  | .binding _ value :: rest => value.count + Statement.countAll rest

end

section Counts

/-- The count of several trees together. -/
def Expression.total (trees : List Expression) : Nat := (trees.map Expression.count).sum

theorem Expression.total_cons (tree : Expression) (rest : List Expression) :
    Expression.total (tree :: rest) = tree.count + Expression.total rest := List.sum_cons

theorem Expression.total_append (front back : List Expression) :
    Expression.total (front ++ back) = Expression.total front + Expression.total back := by
  simp only [Expression.total, List.map_append, List.sum_append]

theorem Expression.countAll_eq (items : List Expression) :
    Expression.countAll items = Expression.total items := by
  induction items with
  | nil => rfl
  | cons item rest ih => rw [Expression.countAll, Expression.total_cons, ih]

theorem Branch.countAll_eq (branches : List Branch) :
    Branch.countAll branches = Expression.total (branches.flatMap Branch.expressions) := by
  induction branches with
  | nil => rfl
  | cons branch rest ih =>
    obtain ⟨condition, result⟩ := branch
    rw [Branch.countAll, List.flatMap_cons, Expression.total_append, ih]
    rfl

theorem EquationBody.count_eq (body : EquationBody) :
    body.count = Expression.total body.expressions := by
  cases body with
  | unguarded value => rfl
  | guarded guards => exact Branch.countAll_eq guards

theorem Equation.countAll_eq (equations : List Equation) :
    Equation.countAll equations = Expression.total (equations.flatMap Equation.expressions) := by
  induction equations with
  | nil => rfl
  | cons equation rest ih =>
    obtain ⟨params, body⟩ := equation
    rw [Equation.countAll, List.flatMap_cons, Expression.total_append, ih, EquationBody.count_eq]
    rfl

theorem Statement.countAll_eq (statements : List Statement) :
    Statement.countAll statements = Expression.total (statements.map Statement.expression) := by
  induction statements with
  | nil => rfl
  | cons statement rest ih =>
    rw [List.map_cons, Expression.total_cons, ← ih]
    cases statement <;> rfl

end Counts

namespace Expression

/-- Whatever the construct, its count is one more than that of its parts. -/
theorem count_eq (e : Expression) : e.count = 1 + total e.children := by
  cases e <;> simp only [count, children, countAll_eq, Branch.countAll_eq, Equation.countAll_eq,
    Statement.countAll_eq, total_cons, Nat.add_assoc] <;> rfl

theorem length_expressions (tree : Expression) : tree.expressions.length = tree.count := by
  induction tree using inductionOnChildren with
  | node tree ih =>
    rw [expressions_eq, count_eq, List.length_cons, List.length_flatMap, List.map_congr_left ih,
      Nat.add_comm]
    rfl

/-- Where the listing of each part goes on with what it lists at a place, so does their
concatenation. -/
theorem isPrefix_drop_flatMap {parts : List Expression} {i : Nat} {e : Expression}
    (each : ∀ part ∈ parts, ∀ i, part.expressions[i]? = some e →
      e.expressions <+: part.expressions.drop i)
    (found : (parts.flatMap expressions)[i]? = some e) :
    e.expressions <+: (parts.flatMap expressions).drop i := by
  induction parts generalizing i with
  | nil => simp at found
  | cons part rest ih =>
    rw [List.flatMap_cons] at found ⊢
    by_cases own : i < part.expressions.length
    · rw [List.getElem?_append_left own] at found
      rw [List.drop_append_of_le_length (Nat.le_of_lt own)]
      exact (each part List.mem_cons_self i found).trans (List.prefix_append _ _)
    · obtain ⟨j, rfl⟩ := Nat.exists_eq_add_of_le (Nat.le_of_not_lt own)
      rw [List.getElem?_append_right (Nat.le_add_right _ _), Nat.add_sub_cancel_left] at found
      rw [List.drop_length_add_append]
      apply ih _ found
      intro next member
      exact each next (List.mem_cons_of_mem _ member)

/-- From each of its entries on, a listing goes on with the listing of that entry. -/
theorem isPrefix_drop_expressions {tree e : Expression} {i : Nat}
    (found : tree.expressions[i]? = some e) : e.expressions <+: tree.expressions.drop i := by
  induction tree using inductionOnChildren generalizing i with
  | node tree ih =>
    cases i with
    | zero =>
      rw [expressions_eq, List.getElem?_cons_zero] at found
      obtain rfl := Option.some.inj found
      exact List.prefix_refl _
    | succ i =>
      rw [expressions_eq, List.getElem?_cons_succ] at found
      rw [expressions_eq tree, List.drop_succ_cons]
      apply isPrefix_drop_flatMap _ found
      intro part child j inside
      exact ih part child inside

/-- The pre-order listing of a tree holds each place of the tree once, a place before those inside
it and those in earlier fields before those in later ones, and each part is listed as one block. -/
theorem expressions_exact (tree : Expression) :
    (∃ found : List Occurrence,
      tree.expressions = found.map Occurrence.node ∧
      (found.Pairwise fun a b => a.position < b.position) ∧
      (∀ occurrence, occurrence ∈ found ↔ occurrence.OccursIn tree) ∧
      found.length = tree.count) ∧
    ∀ i e, tree.expressions[i]? = some e →
      (tree.expressions.drop i).take e.expressions.length = e.expressions := by
  constructor
  · refine ⟨tree.occurrences, (map_node_occurrences tree).symm, occurrences_sorted tree, ?_, ?_⟩
    · intro occurrence
      exact mem_occurrences
    · rw [← length_expressions, ← map_node_occurrences, List.length_map]
  · intro i e found
    exact (List.prefix_iff_eq_take.mp (isPrefix_drop_expressions found)).symm

end Expression

end CodeRubric
