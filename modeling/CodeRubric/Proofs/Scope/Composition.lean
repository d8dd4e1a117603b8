import CodeRubric.Proofs.Inspection.Containment
import CodeRubric.Proofs.Scope.Transitive

/-! How scopes go together with questions and with each other. A scope picks the trees that a
question is asked about, so that two alternatives are asked there by asking each of them. A dotted
path is looked for one half after the other, but the second half may then start at the very
declaration where the first one ended. -/
namespace CodeRubric.Scope

open Inspection (either any_either)

/-- Where a path leads from some trees: each name to its declarations strictly inside what the names
before it led to. -/
def descend : List String → List Expression → List Expression
  | [], trees => trees
  | name :: rest, trees => descend rest (trees.flatMap (·.nestedDeclarationsOf name))

/-- The trees that a question in the scope is asked about. -/
def focus : Scope → Expression → List Expression
  | .program, tree => [tree]
  | .transitive [], tree => [tree]
  | .transitive (first :: rest), tree => descend rest (tree.declarationsOf first)
  | .intransitive path, tree => (resolve path tree).map Expression.shallow

theorem any_foldr_inside (path : List String) (inspection : Inspection) (trees : List Expression) :
    trees.any (path.foldr inside inspection) = (descend path trees).any inspection := by
  induction path generalizing trees with
  | nil => rfl
  | cons name rest ih =>
    rw [descend, ← ih, List.any_flatMap]
    rfl

/-- A scope decides which trees are asked, whatever the question: one of them has to pass. -/
theorem slice_eq_any_focus (scope : Scope) (inspection : Inspection) (tree : Expression) :
    scope.slice inspection tree = (scope.focus tree).any inspection := by
  match scope with
  | .program => exact (Bool.or_false _).symm
  | .transitive [] => exact (Bool.or_false _).symm
  | .transitive (first :: rest) =>
    exact any_foldr_inside rest inspection (tree.declarationsOf first)
  | .intransitive path => exact List.any_map.symm

/-- In every scope a question with two alternatives is answered by its alternatives. -/
theorem slice_either (scope : Scope) (left right : Inspection) :
    scope.slice (either left right) = either (scope.slice left) (scope.slice right) := by
  funext tree
  rw [slice_eq_any_focus, any_either, ← slice_eq_any_focus, ← slice_eq_any_focus]
  rfl

/-- Anywhere in a tree is at its root or strictly inside it. -/
theorem about_eq (inspection : Inspection) (name : String) (tree : Expression) :
    inspection.about name tree =
      (tree.declares name && inspection tree || inside name inspection tree) := by
  rw [inside_eq, Inspection.about, Inspection.containsDeclaration_eq_contains,
    Inspection.contains_eq, ← Inspection.containsDeclaration_eq_contains]

/-- The end of a path is looked for strictly inside what its beginning finds. -/
theorem slice_transitive_append {path : List String} (some_segment : path ≠ [])
    (more : List String) (inspection : Inspection) :
    (transitive (path ++ more)).slice inspection =
      (transitive path).slice (more.foldr inside inspection) := by
  obtain ⟨first, rest, rfl⟩ := List.exists_cons_of_ne_nil some_segment
  rw [List.cons_append, slice, slice, List.foldr_append]

section Alike

variable {name : String} {inspection other : Inspection}
  (alike : ∀ e : Expression, e.declaredName? = some name → inspection e = other e)
include alike

theorem about_congr : inspection.about name = other.about name := by
  have tests : (fun e : Expression => e.declares name && inspection e) =
      fun e => e.declares name && other e := by
    funext e
    by_cases named : e.declares name = true
    · rw [alike e (Expression.declares_iff.mp named)]
    · simp [named]
  rw [Inspection.about, Inspection.about, Inspection.containsDeclaration_eq_contains,
    Inspection.containsDeclaration_eq_contains, tests]

theorem inside_congr : inside name inspection = inside name other := by
  funext tree
  rw [inside_eq, inside_eq, about_congr alike]

/-- A dotted scope asks only declarations of its last name. -/
theorem slice_transitive_congr (outer : List String) :
    (transitive (outer ++ [name])).slice inspection =
      (transitive (outer ++ [name])).slice other := by
  cases outer with
  | nil => exact about_congr alike
  | cons first rest =>
    have some_segment := List.cons_ne_nil first rest
    rw [slice_transitive_append some_segment, slice_transitive_append some_segment,
      List.foldr_cons, List.foldr_cons, List.foldr_nil, List.foldr_nil, inside_congr alike]

end Alike

/-- A path looked for in two halves is found as a whole, or without the first name of the second
half where that is also the last name of the first half: one declaration then stands for both. -/
theorem slice_slice_transitive (outer rest : List String) (last first : String)
    (inspection : Inspection) :
    (transitive (outer ++ [last])).slice ((transitive (first :: rest)).slice inspection) =
      if last = first then
        either ((transitive (outer ++ [last] ++ first :: rest)).slice inspection)
          ((transitive (outer ++ [last] ++ rest)).slice inspection)
      else (transitive (outer ++ [last] ++ first :: rest)).slice inspection := by
  have some_segment : outer ++ [last] ≠ [] := by simp
  rw [slice_transitive_append some_segment, slice_transitive_append some_segment, List.foldr_cons]
  split
  · next same =>
    subst same
    rw [← slice_either]
    apply slice_transitive_congr
    intro e declared
    rw [slice, about_eq, Expression.declares_iff.mpr declared, Bool.true_and, Bool.or_comm]
    rfl
  · next other =>
    apply slice_transitive_congr
    intro e declared
    have silent : e.declares first = false := by
      rw [Expression.declares, declared]
      simpa using other
    rw [slice, about_eq, silent, Bool.false_and, Bool.false_or]

example :
    let tree := Expression.object "A" (.reference "x")
    (transitive ["A"]).slice ((transitive ["A"]).slice Inspection.always) tree = true ∧
      (transitive ["A", "A"]).slice Inspection.always tree = false := by decide

/-- What a whole path finds is found by its halves one after the other, and nothing else is unless
the second half starts with the name that the first one ends with. -/
theorem transitive_paths_compose (path more : List String) (inspection : Inspection)
    (tree : Expression) :
    ((transitive (path ++ more)).slice inspection tree = true →
      (transitive path).slice ((transitive more).slice inspection) tree = true) ∧
    (path = [] ∨ more = [] ∨ path.getLast? ≠ more.head? →
      (transitive (path ++ more)).slice inspection tree =
        (transitive path).slice ((transitive more).slice inspection) tree) := by
  rcases List.eq_nil_or_concat' path with rfl | ⟨outer, last, rfl⟩
  · exact ⟨id, fun _ => rfl⟩
  cases more with
  | nil =>
    rw [List.append_nil]
    exact ⟨id, fun _ => rfl⟩
  | cons first rest =>
    rw [slice_slice_transitive]
    constructor
    · intro found
      split
      · exact Bool.or_eq_true_iff.mpr (.inl found)
      · exact found
    · intro apart
      have other : last ≠ first := by simpa using apart
      rw [if_neg other]

theorem transitive_paths_compose_at_method :
    let tree := Expression.object "A" (.object "B" (.method "C" [⟨[], .unguarded .other⟩]))
    let asked := Inspection.contains fun e => e.kind == .other
    ((transitive ["A", "C"]).slice asked tree = true ∧
      (transitive ["A"]).slice ((transitive ["C"]).slice asked) tree = true) ∧
    (["C"].getLast? ≠ ["B"].head? ∧ (transitive ["C", "B"]).slice asked tree = false ∧
      (transitive ["C"]).slice ((transitive ["B"]).slice asked) tree = false) := by
  intro tree asked
  have found : (transitive ["A", "C"]).slice asked tree = true := rfl
  have missed : (transitive ["C", "B"]).slice asked tree = false := rfl
  have apart : ["C"].getLast? ≠ ["B"].head? := by decide
  obtain ⟨keeps, -⟩ := transitive_paths_compose ["A"] ["C"] asked tree
  obtain ⟨-, agrees⟩ := transitive_paths_compose ["C"] ["B"] asked tree
  exact ⟨⟨found, keeps found⟩, apart, missed, (agrees (.inr (.inr apart))).symm.trans missed⟩

end CodeRubric.Scope
