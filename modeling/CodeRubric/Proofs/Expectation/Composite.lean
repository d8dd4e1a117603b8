import CodeRubric.Proofs.Expectation.Negation
import CodeRubric.Proofs.Scope.Composition

/-! Verbs that stand for several others. Whatever the scope and the object, and also where a line
cannot be read, such a verb is met where one of the others is, and with `Not:` where all of them
are. -/
namespace CodeRubric

open Name (Target)

namespace Inspection

/-- One of two shapes is looked for by looking for each of them. -/
theorem declaresShaped_or (shape shape' : Expression → Bool) (target : Target) :
    declaresShaped (fun e => shape e || shape' e) target =
      either (declaresShaped shape target) (declaresShaped shape' target) := by
  funext tree
  rw [declaresShaped, contains]
  simp only [Bool.and_or_distrib_right]
  exact any_either _ _ tree.expressions

theorem declaresComputation_eq (target : Target) :
    declaresComputation target =
      either (declaresKind .function target)
        (either (declaresKind .procedure target) (declaresKind .method target)) := by
  rw [declaresComputation, funext Expression.isComputation_eq_kind, declaresShaped_or,
    declaresShaped_or]
  rfl

end Inspection

namespace Verb

/-- The verbs that a verb stands for, most often itself alone. -/
def parts : Verb → List Verb
  | .predicate => [.fact, .rule]
  | .computation => [.function, .procedure, .method]
  | .conditional => [.ifThenElse, .guards]
  | verb => [verb]

theorem parts_ne_nil (verb : Verb) : verb.parts ≠ [] := by
  cases verb <;> exact List.cons_ne_nil _ _

theorem inspection_eq_any_parts (verb : Verb) (target : Target) (tree : Expression) :
    verb.inspection target tree = verb.parts.any fun part => part.inspection target tree := by
  cases verb with
  | predicate | conditional =>
    rw [parts, List.any_cons, List.any_cons, List.any_nil, Bool.or_false]
    rfl
  | computation =>
    rw [parts, List.any_cons, List.any_cons, List.any_cons, List.any_nil, Bool.or_false, inspection,
      Inspection.declaresComputation_eq]
    rfl
  | _ => exact (Bool.or_false _).symm

end Verb

/-- In every scope a verb finds what one of its parts finds. -/
theorem Scope.slice_parts (scope : Scope) (verb : Verb) (target : Target) (tree : Expression) :
    scope.slice (verb.inspection target) tree = true ↔
      ∃ part ∈ verb.parts, scope.slice (part.inspection target) tree = true := by
  simp only [slice_eq_any_focus, List.any_eq_true, verb.inspection_eq_any_parts]
  constructor
  · rintro ⟨e, asked, part, listed, passed⟩
    exact ⟨part, listed, e, asked, passed⟩
  · rintro ⟨part, listed, e, asked, passed⟩
    exact ⟨e, asked, part, listed, passed⟩

open Text (PartsOf)

theorem Text.PartsOf.one_lt_length {text : String} {parts : List String} (cut : PartsOf text parts)
    (colon : ':' ∈ text.toList) : 1 < parts.length := by
  match parts, cut with
  | [], cut => exact absurd rfl cut.some_part
  | [only], cut =>
    obtain rfl : text = only := by simpa [colonJoined, join] using cut.joined
    exact absurd colon (cut.free text List.mem_cons_self)
  | _ :: _ :: rest, _ => exact Nat.succ_lt_succ (Nat.succ_pos rest.length)

namespace Question

/-- What is reported of a verb and the parts after it. -/
theorem parse_name_of_reported {verb : Verb} {object : String} {parts : List String}
    {fault : SpecError} (cut : PartsOf object parts)
    (reported : Reported (verb.name ++ ":" ++ object) (verb.name :: parts) fault) :
    parse (verb.name ++ ":" ++ object) = .error fault := by
  obtain ⟨free, notNot, _⟩ := verb.name_spelled
  refine parse_eq_error_iff.mpr ⟨_, cut.cons free, ?_⟩
  rwa [dropNot_of_head?_ne (by simpa using notNot)]

/-- Whether and how an object is read does not depend on the verb in front of it. -/
theorem parse_object (object : String) :
    (∃ read, ∀ verb : Verb, parse (verb.name ++ ":" ++ object) = .ok ⟨false, .verb verb read⟩) ∨
      ∀ verb : Verb, ∃ fault, parse (verb.name ++ ":" ++ object) = .error fault := by
  obtain ⟨parts, cut⟩ := Text.exists_partsOf object
  by_cases colon : ':' ∈ object.toList
  · right
    intro verb
    have long : 2 < (verb.name :: parts).length := Nat.succ_lt_succ (cut.one_lt_length colon)
    exact ⟨_, parse_name_of_reported cut (.many long)⟩
  · by_cases empty : object = ""
    · right
      intro verb
      subst empty
      exact ⟨_, parse_name_of_reported (Text.partsOf_single colon) (.object verb)⟩
    · left
      obtain ⟨read, named⟩ := exists_ofChars? empty
      exact ⟨read, fun verb => parse_about verb rfl colon named⟩

end Question

namespace Expectation

/-- The verb called `whole` stands for those called `parts` in every scope and with every object,
whether these can be read or not: it is met where one of them is, and with `Not:` where all are. -/
def StandsFor (whole : String) (parts : List String) : Prop :=
  ∀ (config : CompilerConfig) (scope object : String) (tree : Expression),
    (Met config tree scope (whole ++ ":" ++ object) ↔
      ∃ part ∈ parts, Met config tree scope (part ++ ":" ++ object)) ∧
    (Met config tree scope ("Not:" ++ (whole ++ ":" ++ object)) ↔
      ∀ part ∈ parts, Met config tree scope ("Not:" ++ (part ++ ":" ++ object)))

/-- With the same scope and the same object, the lines of all verbs are read or none is. -/
theorem read_or_failed (config : CompilerConfig) (scope object : String) :
    (∃ place read, Scope.parse scope = .ok place ∧ ∀ verb : Verb,
      Question.parse (verb.name ++ ":" ++ object) = .ok ⟨false, .verb verb read⟩) ∨
    ∀ verb : Verb, ∃ fault,
      tryCompile config ⟨scope, verb.name ++ ":" ++ object⟩ = .error fault := by
  cases placed : Scope.parse scope with
  | error fault => exact .inr fun verb => ⟨fault, tryCompile_eq_error_iff.mpr (.inl placed)⟩
  | ok place =>
    rcases Question.parse_object object with ⟨read, asked⟩ | failed
    · exact .inl ⟨place, read, rfl, asked⟩
    · right
      intro verb
      obtain ⟨fault, failed⟩ := failed verb
      exact ⟨fault, tryCompile_eq_error_iff.mpr (.inr ⟨⟨place, placed⟩, failed⟩)⟩

theorem standsFor_parts (verb : Verb) : StandsFor verb.name (verb.parts.map Verb.name) := by
  intro config scope object tree
  rw [List.forall_mem_map]
  simp only [List.mem_map, exists_exists_and_eq_and]
  rcases read_or_failed config scope object with ⟨place, read, placed, asked⟩ | failed
  · have found : Met config tree scope (verb.name ++ ":" ++ object) ↔
        ∃ part ∈ verb.parts, Met config tree scope (part.name ++ ":" ++ object) := by
      simp only [met_iff (asked _) placed]
      exact place.slice_parts verb (read.target config.likeMode) tree
    refine ⟨found, ?_⟩
    simp only [met_not_iff (asked _) placed, found, not_exists, not_and]
  · -- No line is read, so all of them are met, and there is a part to show for it.
    have met (verb : Verb) : Met config tree scope (verb.name ++ ":" ++ object) ∧
        Met config tree scope ("Not:" ++ (verb.name ++ ":" ++ object)) := by
      obtain ⟨fault, failed⟩ := failed verb
      exact met_of_error failed tree
    obtain ⟨part, listed⟩ := List.exists_mem_of_ne_nil verb.parts verb.parts_ne_nil
    exact ⟨iff_of_true (met verb).1 ⟨part, listed, (met part).1⟩,
      iff_of_true (met verb).2 fun part _ => (met part).2⟩

/-- Alternatives are kept apart by every scope, so that the verbs about predicates, computations and
conditionals say of a program what the verbs for the single constructs say together. -/
theorem slice_either_and_composite_verbs :
    (∀ (scope : Scope) (left right : Inspection) (tree : Expression),
      scope.slice (Inspection.either left right) tree =
        Inspection.either (scope.slice left) (scope.slice right) tree) ∧
    StandsFor "HasPredicate" ["HasFact", "HasRule"] ∧
    StandsFor "HasComputation" ["HasFunction", "HasProcedure", "HasMethod"] ∧
    StandsFor "HasConditional" ["HasIf", "HasGuards"] := by
  refine ⟨?_, standsFor_parts .predicate, standsFor_parts .computation,
    standsFor_parts .conditional⟩
  intro scope left right tree
  rw [scope.slice_either]

end Expectation

end CodeRubric
