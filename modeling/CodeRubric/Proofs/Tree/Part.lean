import CodeRubric.Tree.Children
import Mathlib.Data.List.Basic

/-! The parts of a node: for every construct, which of its fields are expressions and in which
order. The children of a node are these parts and no others. -/
namespace CodeRubric

/-- The part at a place in a list of branches, each condition right before its result. -/
inductive Branch.Holds : List Branch → Nat → Expression → Prop where
  | condition {branch rest} : Holds (branch :: rest) 0 branch.condition
  | result {branch rest} : Holds (branch :: rest) 1 branch.result
  | later {branch rest i part} : Holds rest i part → Holds (branch :: rest) (i + 2) part

/-- The part at a place in the bodies of a list of equations. -/
inductive Equation.Holds : List Equation → Nat → Expression → Prop where
  | value {params value rest} : Holds (⟨params, .unguarded value⟩ :: rest) 0 value
  | afterValue {params value rest i part} :
      Holds rest i part → Holds (⟨params, .unguarded value⟩ :: rest) (i + 1) part
  | guards {params guards rest i part} :
      Branch.Holds guards i part → Holds (⟨params, .guarded guards⟩ :: rest) i part
  | afterGuards {params guards rest i part} :
      Holds rest i part → Holds (⟨params, .guarded guards⟩ :: rest) (2 * guards.length + i) part

/-- The part at a place of a node: its fields that are expressions, counted in the order in which
the construct declares them. -/
inductive Expression.Holds : Expression → Nat → Expression → Prop where
  | entryPoint {name body} : Holds (.entryPoint name body) 0 body
  | function {name equations i part} :
      Equation.Holds equations i part → Holds (.function name equations) i part
  | procedure {name equations i part} :
      Equation.Holds equations i part → Holds (.procedure name equations) i part
  | method {name equations i part} :
      Equation.Holds equations i part → Holds (.method name equations) i part
  | variableInitializer {name initializer} : Holds (.variable name initializer) 0 initializer
  | attributeInitializer {name initializer} : Holds (.attribute name initializer) 0 initializer
  | object {name body} : Holds (.object name body) 0 body
  | rule {name params body i part} : body[i]? = some part → Holds (.rule name params body) i part
  | callee {callee arguments} : Holds (.application callee arguments) 0 callee
  | argument {callee arguments i part} :
      arguments[i]? = some part → Holds (.application callee arguments) (i + 1) part
  | receiver {receiver selector arguments} : Holds (.send receiver selector arguments) 0 receiver
  | selector {receiver selector arguments} : Holds (.send receiver selector arguments) 1 selector
  | sent {receiver selector arguments i part} :
      arguments[i]? = some part → Holds (.send receiver selector arguments) (i + 2) part
  | lambda {params body} : Holds (.lambda params body) 0 body
  | assignment {name value} : Holds (.assignment name value) 0 value
  | ifCondition {condition yes no} : Holds (.ifThenElse condition yes no) 0 condition
  | thenBranch {condition yes no} : Holds (.ifThenElse condition yes no) 1 yes
  | elseBranch {condition yes no} : Holds (.ifThenElse condition yes no) 2 no
  | whileCondition {condition body} : Holds (.whileLoop condition body) 0 condition
  | whileBody {condition body} : Holds (.whileLoop condition body) 1 body
  | repeatCount {count body} : Holds (.repeatLoop count body) 0 count
  | repeatBody {count body} : Holds (.repeatLoop count body) 1 body
  | matched {scrutinee equations} : Holds (.patternMatch scrutinee equations) 0 scrutinee
  | arm {scrutinee equations i part} :
      Equation.Holds equations i part → Holds (.patternMatch scrutinee equations) (i + 1) part
  | switched {scrutinee cases} : Holds (.switch scrutinee cases) 0 scrutinee
  | case {scrutinee cases i part} :
      Branch.Holds cases i part → Holds (.switch scrutinee cases) (i + 1) part
  | sequence {items i part} : items[i]? = some part → Holds (.sequence items) i part
  | returned {value} : Holds (.returned value) 0 value
  | negation {goal} : Holds (.negation goal) 0 goal
  | findallTemplate {template generator result} :
      Holds (.findall template generator result) 0 template
  | findallGenerator {template generator result} :
      Holds (.findall template generator result) 1 generator
  | findallResult {template generator result} : Holds (.findall template generator result) 2 result
  | forAllGenerator {generator condition} : Holds (.forAll generator condition) 0 generator
  | forAllCondition {generator condition} : Holds (.forAll generator condition) 1 condition
  | comprehended {result statements} : Holds (.comprehension result statements) 0 result
  | source {result statements i pattern source} :
      statements[i]? = some (.generator pattern source) →
      Holds (.comprehension result statements) (i + 1) source
  | qualifier {result statements i condition} : statements[i]? = some (.qualifier condition) →
      Holds (.comprehension result statements) (i + 1) condition
  | binding {result statements i name value} : statements[i]? = some (.binding name value) →
      Holds (.comprehension result statements) (i + 1) value
  | tuple {items i part} : items[i]? = some part → Holds (.tuple items) i part
  | list {items i part} : items[i]? = some part → Holds (.list items) i part
  | objectLiteral {body} : Holds (.objectLiteral body) 0 body

theorem Branch.holds_iff {branches : List Branch} {i : Nat} {part : Expression} :
    Branch.Holds branches i part ↔ (branches.flatMap Branch.expressions)[i]? = some part := by
  constructor
  · intro held
    induction held with
    | condition | result => simp [Branch.expressions]
    | later _ ih => simpa [Branch.expressions] using ih
  · intro found
    induction branches generalizing i with
    | nil => simp at found
    | cons branch rest ih =>
      match i with
      | 0 =>
        obtain rfl : branch.condition = part := by simpa [Branch.expressions] using found
        exact .condition
      | 1 =>
        obtain rfl : branch.result = part := by simpa [Branch.expressions] using found
        exact .result
      | i + 2 => exact .later (ih (by simpa [Branch.expressions] using found))

theorem Branch.length_expressions (branches : List Branch) :
    (branches.flatMap Branch.expressions).length = 2 * branches.length := by
  induction branches with
  | nil => rfl
  | cons branch rest ih =>
    simp only [List.flatMap_cons, List.length_append, ih, Branch.expressions, List.length_cons,
      List.length_nil]
    omega

theorem Equation.holds_iff {equations : List Equation} {i : Nat} {part : Expression} :
    Equation.Holds equations i part ↔
      (equations.flatMap Equation.expressions)[i]? = some part := by
  constructor
  · intro held
    induction held with
    | value => simp [Equation.expressions, EquationBody.expressions]
    | afterValue _ ih => simpa [Equation.expressions, EquationBody.expressions] using ih
    | @guards params guards rest i part inside =>
      have found := Branch.holds_iff.mp inside
      have bound : i < (Equation.expressions ⟨params, .guarded guards⟩).length :=
        (List.getElem?_eq_some_iff.mp found).1
      rw [List.flatMap_cons, List.getElem?_append_left bound]
      exact found
    | @afterGuards params guards rest i part _ ih =>
      have skipped : (Equation.expressions ⟨params, .guarded guards⟩).length = 2 * guards.length :=
        Branch.length_expressions guards
      rw [List.flatMap_cons, List.getElem?_append_right (by omega), skipped]
      simpa using ih
  · intro found
    induction equations generalizing i with
    | nil => simp at found
    | cons equation rest ih =>
      obtain ⟨params, body⟩ := equation
      cases body with
      | unguarded value =>
        cases i with
        | zero =>
          obtain rfl : value = part := by
            simpa [Equation.expressions, EquationBody.expressions] using found
          exact .value
        | succ i =>
          exact .afterValue (ih (by
            simpa [Equation.expressions, EquationBody.expressions] using found))
      | guarded guards =>
        have skipped : (Equation.expressions ⟨params, .guarded guards⟩).length =
            2 * guards.length := Branch.length_expressions guards
        rw [List.flatMap_cons] at found
        by_cases own : i < 2 * guards.length
        · rw [List.getElem?_append_left (by omega)] at found
          exact .guards (Branch.holds_iff.mpr found)
        · obtain ⟨j, rfl⟩ := Nat.exists_eq_add_of_le (Nat.le_of_not_lt own)
          rw [List.getElem?_append_right (by omega), skipped, Nat.add_sub_cancel_left] at found
          exact .afterGuards (ih found)

namespace Expression

/-- The children of a node are exactly the expressions it holds, in the same order. -/
theorem holds_iff {e part : Expression} {i : Nat} :
    e.Holds i part ↔ e.children[i]? = some part := by
  constructor
  · intro held
    cases held with
    | function inside | procedure inside | method inside | arm inside =>
      simpa [children] using Equation.holds_iff.mp inside
    | case inside => simpa [children] using Branch.holds_iff.mp inside
    | rule found | argument found | sent found | sequence found | tuple found | list found =>
      simpa [children] using found
    | source found | qualifier found | binding found =>
      simp [children, found, Statement.expression]
    | _ => simp [children]
  · intro found
    cases e <;> simp only [children] at found
    case function => exact .function (Equation.holds_iff.mpr found)
    case procedure => exact .procedure (Equation.holds_iff.mpr found)
    case method => exact .method (Equation.holds_iff.mpr found)
    case rule => exact .rule found
    case sequence => exact .sequence found
    case tuple => exact .tuple found
    case list => exact .list found
    case application =>
      cases i with
      | zero => cases found; exact .callee
      | succ i => exact .argument (by simpa using found)
    case send =>
      match i with
      | 0 => cases found; exact .receiver
      | 1 => cases found; exact .selector
      | i + 2 => exact .sent (by simpa using found)
    case patternMatch =>
      cases i with
      | zero => cases found; exact .matched
      | succ i => exact .arm (Equation.holds_iff.mpr (by simpa using found))
    case switch =>
      cases i with
      | zero => cases found; exact .switched
      | succ i => exact .case (Branch.holds_iff.mpr (by simpa using found))
    case comprehension result statements =>
      cases i with
      | zero => cases found; exact .comprehended
      | succ i =>
        obtain ⟨statement, listed, rfl⟩ : ∃ statement, statements[i]? = some statement ∧
            statement.expression = part := by simpa using found
        cases statement with
        | generator pattern source => exact .source listed
        | qualifier condition => exact .qualifier listed
        | binding name value => exact .binding listed
    all_goals
      match i with
      | 0 | 1 | 2 => cases found <;> constructor
      | i + 3 => simp at found

theorem Holds.mem_children {e part : Expression} {i : Nat} (held : e.Holds i part) :
    part ∈ e.children :=
  List.mem_of_getElem? (holds_iff.mp held)

theorem exists_holds_of_mem_children {e part : Expression} (child : part ∈ e.children) :
    ∃ i, e.Holds i part := by
  obtain ⟨i, found⟩ := List.mem_iff_getElem?.mp child
  exact ⟨i, holds_iff.mpr found⟩

theorem mem_zipIdx_children {e part : Expression} {i : Nat} :
    (part, i) ∈ e.children.zipIdx ↔ e.Holds i part := by
  rw [List.mem_zipIdx_iff_getElem?, holds_iff]

/-- At each place a node holds one part. -/
theorem Holds.unique {e part part' : Expression} {i : Nat} (held : e.Holds i part)
    (held' : e.Holds i part') : part = part' :=
  Option.some.inj ((holds_iff.mp held).symm.trans (holds_iff.mp held'))

end Expression

end CodeRubric
