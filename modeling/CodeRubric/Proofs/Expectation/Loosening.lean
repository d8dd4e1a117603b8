import CodeRubric.Proofs.Expectation.Grammar
import CodeRubric.Proofs.Name.Target
import CodeRubric.Proofs.Scope.Composition

/-! Looser objects find no less: whatever a verb finds for a target it finds for every wider one, in
every scope. A negated question goes the other way. -/
namespace CodeRubric

open Name (Target LikeMode words?)

namespace Inspection

/-- Every tree that passes the first question passes the second. -/
def Implies (narrow wide : Inspection) : Prop := ∀ tree, narrow tree = true → wide tree = true

theorem Implies.refl (inspection : Inspection) : Implies inspection inspection :=
  fun _ passed => passed

/-- What passes for one of several trees passes for one of them when less is asked. -/
theorem Implies.any {narrow wide : Inspection} (keeps : Implies narrow wide)
    {trees : List Expression} (passed : trees.any narrow = true) : trees.any wide = true := by
  obtain ⟨e, listed, found⟩ := List.any_eq_true.mp passed
  exact List.any_eq_true.mpr ⟨e, listed, keeps e found⟩

theorem Implies.contains {test wider : Expression → Bool}
    (keeps : ∀ e, test e = true → wider e = true) :
    Implies (Inspection.contains test) (Inspection.contains wider) :=
  fun _ passed => Implies.any keeps passed

theorem Implies.either {left right left' right' : Inspection} (first : Implies left left')
    (second : Implies right right') :
    Implies (Inspection.either left right) (Inspection.either left' right') := by
  intro tree passed
  rcases Bool.or_eq_true_iff.mp passed with found | found
  · exact Bool.or_eq_true_iff.mpr (.inl (first tree found))
  · exact Bool.or_eq_true_iff.mpr (.inr (second tree found))

section Families

variable {target wider : Target} (loosened : target.Within wider)
include loosened

theorem declaresAccepted_of_within {e : Expression} (accepted : declaresAccepted target e = true) :
    declaresAccepted wider e = true := by
  obtain ⟨name, declared, passed⟩ := (Option.any_eq_true _ _).mp accepted
  exact (Option.any_eq_true _ _).mpr ⟨name, declared, loosened.accepts name passed⟩

theorem declaresShaped_of_within (shape : Expression → Bool) :
    Implies (declaresShaped shape target) (declaresShaped shape wider) := by
  refine .contains fun e passed => ?_
  obtain ⟨shaped, accepted⟩ := Bool.and_eq_true_iff.mp passed
  exact Bool.and_eq_true_iff.mpr ⟨shaped, declaresAccepted_of_within loosened accepted⟩

theorem declaresRecursive_of_within :
    Implies (declaresRecursive target) (declaresRecursive wider) := by
  refine .contains fun e passed => ?_
  split at passed
  · next name _ =>
    obtain ⟨accepted, referred⟩ := Bool.and_eq_true_iff.mp passed
    exact Bool.and_eq_true_iff.mpr ⟨loosened.accepts name accepted, referred⟩
  · cases passed

theorem declaresWithArity_of_within (arity : Nat) :
    Implies (declaresWithArity arity target) (declaresWithArity arity wider) := by
  refine .contains fun e passed => ?_
  obtain ⟨accepted, counted⟩ := Bool.and_eq_true_iff.mp passed
  refine Bool.and_eq_true_iff.mpr ⟨?_, counted⟩
  split at accepted
  · exact loosened.unnamed accepted
  · exact declaresAccepted_of_within loosened accepted

theorem declaresAnonymous_of_within :
    Implies (declaresAnonymous target) (declaresAnonymous wider) := by
  refine .contains fun e passed => ?_
  obtain ⟨accepted, anonymous⟩ := Bool.and_eq_true_iff.mp passed
  exact Bool.and_eq_true_iff.mpr ⟨declaresAccepted_of_within loosened accepted, anonymous⟩

theorem uses_of_within : Implies (uses target) (uses wider) := by
  refine .contains fun e passed => ?_
  obtain ⟨name, referred, accepted⟩ := (Option.any_eq_true _ _).mp passed
  exact (Option.any_eq_true _ _).mpr ⟨name, referred, loosened.accepts name accepted⟩

theorem assigns_of_within : Implies (assigns target) (assigns wider) := by
  refine .contains fun e passed => ?_
  split at passed
  · exact loosened.accepts _ passed
  · cases passed

theorem sends_of_within : Implies (sends target) (sends wider) := by
  refine .contains fun e passed => ?_
  split at passed
  · exact loosened.accepts _ passed
  · exact loosened.unnamed passed
  · cases passed

end Families

end Inspection

open Inspection in
theorem Verb.inspection_of_within {target wider : Target} (loosened : target.Within wider)
    (verb : Verb) : Implies (verb.inspection target) (verb.inspection wider) := by
  cases verb with
  | anonymousVariable => exact declaresAnonymous_of_within loosened
  | arity0 | arity1 | arity2 | arity3 => exact declaresWithArity_of_within loosened _
  | assignment => exact assigns_of_within loosened
  | directRecursion => exact declaresRecursive_of_within loosened
  | messageSend => exact sends_of_within loosened
  | usage => exact uses_of_within loosened
  | predicate =>
    exact (declaresShaped_of_within loosened _).either (declaresShaped_of_within loosened _)
  -- These are about constructs that bind no name and ask the same of every target.
  | composition | comprehension | conditional | cut | fail | findall | forAll | guards | ifThenElse
      | lambda | negation | patternMatching | repeatLoop | returned | switch | unifyOperator
      | whileLoop => exact .refl _
  | _ => exact declaresShaped_of_within loosened _

namespace Scope

open Inspection (Implies)

/-- In every scope a question that finds more still finds more. -/
theorem slice_of_implies {narrow wide : Inspection} (keeps : Implies narrow wide) (scope : Scope) :
    Implies (scope.slice narrow) (scope.slice wide) := by
  intro tree passed
  rw [slice_eq_any_focus] at passed ⊢
  exact keeps.any passed

end Scope

namespace Expectation

/-- Where the first line is met so is the second, and with `Not:` in front of both the other way
round. Each is read under a configuration of its own. -/
def KeptBy (tree : Expression) (scope : String) (config : CompilerConfig) (spec : String)
    (config' : CompilerConfig) (spec' : String) : Prop :=
  (Met config tree scope spec → Met config' tree scope spec') ∧
    (Met config' tree scope ("Not:" ++ spec') → Met config tree scope ("Not:" ++ spec))

theorem keptBy_of_within {tree : Expression} {scope : String} {place : Scope}
    (placed : Scope.parse scope = .ok place) {verb : Verb} {spec spec' : String}
    {object object' : SpecObject} (asked : Question.parse spec = .ok ⟨false, .verb verb object⟩)
    (asked' : Question.parse spec' = .ok ⟨false, .verb verb object'⟩)
    {config config' : CompilerConfig}
    (loosened : (object.target config.likeMode).Within (object'.target config'.likeMode)) :
    KeptBy tree scope config spec config' spec' := by
  have kept : Met config tree scope spec → Met config' tree scope spec' := by
    rw [met_iff asked placed, met_iff asked' placed]
    exact Scope.slice_of_implies (verb.inspection_of_within loosened) place tree
  refine ⟨kept, ?_⟩
  rw [met_not_iff asked placed, met_not_iff asked' placed]
  exact mt kept

/-- From `=name` to `~name` by the same words, from there to words in common, and from each of them
to `*`, a verb loses no finding. -/
theorem met_of_looser_object (verb : Verb) {scope : String} {place : Scope}
    (placed : Scope.parse scope = .ok place) {name : String} (nonempty : name ≠ "")
    (free : ':' ∉ name.toList) (tree : Expression) (config config' : CompilerConfig) :
    KeptBy tree scope config (verb.name ++ ":=" ++ name) config' (verb.name ++ ":*") ∧
    KeptBy tree scope ⟨.equivalent⟩ (verb.name ++ ":~" ++ name)
      ⟨.overlap⟩ (verb.name ++ ":~" ++ name) ∧
    KeptBy tree scope ⟨.overlap⟩ (verb.name ++ ":~" ++ name) config' (verb.name ++ ":*") ∧
    ((words? name).isSome = true →
      KeptBy tree scope config (verb.name ++ ":=" ++ name)
        ⟨.equivalent⟩ (verb.name ++ ":~" ++ name)) := by
  have exactly := Question.parse_exactly verb nonempty free
  have alike := Question.parse_alike verb nonempty free
  have anyone := Question.parse_anyone verb
  refine ⟨?_, ?_, ?_, ?_⟩
  · exact keptBy_of_within placed exactly anyone (Target.within_anyone _)
  · exact keptBy_of_within placed alike alike (Target.equivalent_within_overlap name)
  · exact keptBy_of_within placed alike anyone (Target.within_anyone _)
  · intro hasWords
    exact keptBy_of_within placed exactly alike (Target.named_within_equivalent hasWords)

theorem met_of_looser_object_at_method :
    let tree := Expression.object "A" (.method "totalBalance" [⟨[], .unguarded .nil⟩])
    (Met {} tree "A" "HasMethod:=totalBalance" ∧
      Met ⟨.equivalent⟩ tree "A" "HasMethod:~totalBalance" ∧
      Met ⟨.overlap⟩ tree "A" "HasMethod:~totalBalance" ∧ Met {} tree "A" "HasMethod:*") ∧
    Met {} tree "A" "Not:HasRule:*" ∧ Met ⟨.overlap⟩ tree "A" "Not:HasRule:~totalBalance" ∧
      Met ⟨.equivalent⟩ tree "A" "Not:HasRule:~totalBalance" ∧
      Met {} tree "A" "Not:HasRule:=totalBalance" := by
  intro tree
  have placed : Scope.parse "A" = .ok (.transitive ["A"]) := rfl
  have shown : Met {} tree "A" "HasMethod:=totalBalance" := rfl
  have missed : Met {} tree "A" "Not:HasRule:*" := rfl
  have nonempty : "totalBalance" ≠ "" := by decide
  have free : ':' ∉ "totalBalance".toList := by decide
  obtain ⟨-, shared, opened, reads⟩ :=
    met_of_looser_object .method placed nonempty free tree {} {}
  obtain ⟨-, narrowed, closed, misread⟩ :=
    met_of_looser_object .rule placed nonempty free tree {} {}
  have alike := (reads (by decide)).1 shown
  have unshared := closed.2 missed
  have unlike := narrowed.2 unshared
  exact ⟨⟨shown, alike, shared.1 alike, opened.1 (shared.1 alike)⟩,
    missed, unshared, unlike, (misread (by decide)).2 unlike⟩

end Expectation

end CodeRubric
