import CodeRubric.Inspection.Basic
import CodeRubric.Proofs.Tree.Part

/-! Containment is recursive: what is looked for in a tree is at its root or in one of its parts.
The listings that questions go through are flat, but each of them asks whether some node passes a
test, and for such a question one step from a node to its parts is enough. -/
namespace CodeRubric

namespace Expression

/-- The equations of a node itself: functions, procedures, methods and pattern matches have some. -/
inductive HasEquation : Expression → Equation → Prop where
  | function {name equations equation} :
      equation ∈ equations → HasEquation (.function name equations) equation
  | procedure {name equations equation} :
      equation ∈ equations → HasEquation (.procedure name equations) equation
  | method {name equations equation} :
      equation ∈ equations → HasEquation (.method name equations) equation
  | patternMatch {scrutinee equations equation} :
      equation ∈ equations → HasEquation (.patternMatch scrutinee equations) equation

theorem hasEquation_iff {e : Expression} {equation : Equation} :
    e.HasEquation equation ↔ equation ∈ e.equations?.getD [] := by
  constructor
  · intro owned
    cases owned <;> assumption
  · intro listed
    cases e with
    | function => exact .function listed
    | procedure => exact .procedure listed
    | method => exact .method listed
    | patternMatch => exact .patternMatch listed
    | _ => cases listed

theorem any_children_iff {tree : Expression} {test : Expression → Bool} :
    tree.children.any test = true ↔ ∃ i part, tree.Holds i part ∧ test part = true := by
  rw [List.any_eq_true]
  constructor
  · rintro ⟨part, child, passed⟩
    obtain ⟨i, held⟩ := exists_holds_of_mem_children child
    exact ⟨i, part, held, passed⟩
  · rintro ⟨i, part, held, passed⟩
    exact ⟨part, held.mem_children, passed⟩

end Expression

namespace Inspection

open Expression

theorem any_either (left right : Inspection) (trees : List Expression) :
    trees.any (either left right) = (trees.any left || trees.any right) := by
  apply Bool.eq_iff_iff.mpr
  simp only [either, Bool.or_eq_true, List.any_eq_true, and_or_left, exists_or]

theorem contains_eq (test : Expression → Bool) (tree : Expression) :
    contains test tree = (test tree || tree.children.any (contains test)) := by
  rw [contains, expressions_eq, List.any_cons, List.any_flatMap]
  rfl

/-- A test of equation bodies as a test of the nodes that have the equations. -/
theorem containsBody_eq_contains (test : EquationBody → Bool) :
    containsBody test =
      contains fun e => (e.equations?.getD []).any fun equation => test equation.body := by
  funext tree
  simp only [containsBody, bodies, contains, List.any_flatMap, List.any_map, Function.comp_def]

theorem containsDeclaration_eq_contains (name : String) (test : Expression → Bool) :
    containsDeclaration name test = contains fun e => e.declares name && test e :=
  funext fun _ => List.any_filter

theorem contains_iff {test : Expression → Bool} {tree : Expression} :
    contains test tree = true ↔
      test tree = true ∨ ∃ i part, tree.Holds i part ∧ contains test part = true := by
  rw [contains_eq, Bool.or_eq_true, any_children_iff]

/-- The law of recursive containment, for expressions, for the bodies of equations and for the
declarations of a name: found in a tree is found at its root or in one of its parts. -/
theorem recursive_containment (tree : Expression) :
    (∀ test : Expression → Bool, contains test tree = true ↔
      test tree = true ∨ ∃ i part, tree.Holds i part ∧ contains test part = true) ∧
    (∀ test : EquationBody → Bool, containsBody test tree = true ↔
      (∃ equation, tree.HasEquation equation ∧ test equation.body = true) ∨
        ∃ i part, tree.Holds i part ∧ containsBody test part = true) ∧
    ∀ (name : String) (test : Expression → Bool),
      (containsDeclaration name test tree = true ↔
        tree.declaredName? = some name ∧ test tree = true ∨
          ∃ i part, tree.Holds i part ∧ containsDeclaration name test part = true) ∧
      (about test name tree = true ↔
        tree.declaredName? = some name ∧ test tree = true ∨
          ∃ i part, tree.Holds i part ∧ about test name part = true) := by
  have named (name : String) (test : Expression → Bool) :
      containsDeclaration name test tree = true ↔
        tree.declaredName? = some name ∧ test tree = true ∨
          ∃ i part, tree.Holds i part ∧ containsDeclaration name test part = true := by
    rw [containsDeclaration_eq_contains, contains_iff, Bool.and_eq_true, declares_iff]
  refine ⟨fun test => contains_iff, ?_, fun name test => ⟨named name test, named name test⟩⟩
  intro test
  rw [containsBody_eq_contains, contains_iff, List.any_eq_true]
  simp only [hasEquation_iff]

end Inspection

end CodeRubric
