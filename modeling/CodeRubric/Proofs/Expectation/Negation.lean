import CodeRubric.Proofs.Expectation.Grammar

/-! `Not:` in front of an inspection. It turns every verdict around and changes nothing about what
can be read, except that it cannot be written twice. A line that cannot be read is satisfied by
every tree, with `Not:` in front as without. -/
namespace CodeRubric

open Text (PartsOf)

namespace Question

/-- The first of the parts between the colons is `Not`. -/
def OpensWithNot (spec : String) : Prop := ∃ rest, PartsOf spec ("Not" :: rest)

variable {spec : String} {question : Question}

theorem opensWithNot_iff {parts : List String} (cut : PartsOf spec parts) :
    OpensWithNot spec ↔ parts.head? = some "Not" := by
  constructor
  · rintro ⟨rest, again⟩
    rw [cut.unique again]
    rfl
  · intro first
    obtain ⟨rest, rfl⟩ := List.head?_eq_some_iff.mp first
    exact ⟨rest, cut⟩

theorem negated_iff_opensWithNot (asked : parse spec = .ok question) :
    question.negated = true ↔ OpensWithNot spec := by
  obtain ⟨parts, cut⟩ := Text.exists_partsOf spec
  rw [((parse_eq_ok_iff cut).mp asked).1, opensWithNot_iff cut, decide_eq_true_eq]

/-- No verb is called `Not`, so that nothing can be asked with it in front. -/
theorem Readable.head?_ne_not {parts : List String} (readable : Readable parts) :
    parts.head? ≠ some "Not" := by
  cases readable with
  | verb verb => simpa using verb.name_spelled.2.1
  | about verb _ => simpa using verb.name_spelled.2.1
  | arity _ => simp

/-- With `Not:` in front exactly those inspections can be read that are read without, and as not yet
negated. -/
theorem parse_not_eq_ok_iff :
    parse ("Not:" ++ spec) = .ok question ↔
      ∃ query, parse spec = .ok ⟨false, query⟩ ∧ question = ⟨true, query⟩ := by
  constructor
  · intro asked
    obtain ⟨parts, cut⟩ := Text.exists_partsOf spec
    have keyword : ':' ∉ "Not".toList := by decide
    obtain ⟨negated, read⟩ := (parse_eq_ok_iff (cut.cons keyword)).mp asked
    have plain : parts.head? ≠ some "Not" := (exists_queryOf_iff.mp ⟨_, read⟩).head?_ne_not
    have alone : queryOf spec ((dropNot parts).map String.toList) = .ok question.query := by
      rw [dropNot_of_head?_ne plain]
      exact queryOf_of_ok read spec
    refine ⟨question.query, (parse_eq_ok_iff cut).mpr ⟨by simp [plain], alone⟩, ?_⟩
    obtain ⟨sign, query⟩ := question
    obtain rfl : sign = true := by simpa using negated
    rfl
  · rintro ⟨query, asked, rfl⟩
    exact parse_not asked

end Question

namespace Expectation

open Question (OpensWithNot)

variable {config : CompilerConfig} {scope spec : String}

theorem compile_of_error {line : Expectation} {fault : SpecError}
    (failed : line.tryCompile config = .error fault) : line.compile config = Inspection.always := by
  rw [compile, failed]

/-- A line compiles with `Not:` in front if it compiles without and has none yet, and then to the
negation of the same verdict. -/
theorem tryCompile_not_eq_ok_iff {negated : Inspection} :
    tryCompile config ⟨scope, "Not:" ++ spec⟩ = .ok negated ↔ ¬ OpensWithNot spec ∧
      ∃ verdict, tryCompile config ⟨scope, spec⟩ = .ok verdict ∧
        negated = Inspection.negate verdict := by
  constructor
  · intro compiled
    obtain ⟨place, question, placed, asked, rfl⟩ := tryCompile_eq_ok_iff.mp compiled
    obtain ⟨query, read, rfl⟩ := Question.parse_not_eq_ok_iff.mp asked
    refine ⟨?_, _, tryCompile_eq_ok_iff.mpr ⟨place, _, placed, read, rfl⟩, rfl⟩
    intro opens
    exact absurd ((Question.negated_iff_opensWithNot read).mpr opens) Bool.false_ne_true
  · rintro ⟨plain, verdict, compiled, rfl⟩
    obtain ⟨place, ⟨negated, query⟩, placed, asked, rfl⟩ := tryCompile_eq_ok_iff.mp compiled
    cases negated with
    | true => exact absurd ((Question.negated_iff_opensWithNot asked).mp rfl) plain
    | false => exact tryCompile_eq_ok_iff.mpr ⟨place, _, placed, Question.parse_not asked, rfl⟩

theorem exists_error_of_not_ok {line : Expectation}
    (never : ∀ verdict, line.tryCompile config ≠ .ok verdict) :
    ∃ fault, line.tryCompile config = .error fault := by
  cases tried : line.tryCompile config with
  | ok verdict => exact absurd tried (never verdict)
  | error fault => exact ⟨fault, rfl⟩

/-- What cannot be read without `Not:` cannot be read with it. -/
theorem exists_error_not {fault : SpecError}
    (failed : tryCompile config ⟨scope, spec⟩ = .error fault) :
    ∃ fault, tryCompile config ⟨scope, "Not:" ++ spec⟩ = .error fault := by
  apply exists_error_of_not_ok
  intro negated compiled
  obtain ⟨_, verdict, other, _⟩ := tryCompile_not_eq_ok_iff.mp compiled
  rw [failed] at other
  cases other

theorem met_of_error {fault : SpecError} (failed : tryCompile config ⟨scope, spec⟩ = .error fault)
    (tree : Expression) : Met config tree scope spec ∧ Met config tree scope ("Not:" ++ spec) := by
  obtain ⟨_, failedNot⟩ := exists_error_not failed
  constructor
  · rw [Met, compile_of_error failed]
    rfl
  · rw [Met, compile_of_error failedNot]
    rfl

/-- The law of negation. One `Not:` keeps a line readable and turns its verdicts around in every
scope, a second one makes it unreadable, and a line that cannot be read is met either way. -/
theorem negation_law (config : CompilerConfig) (scope spec : String) :
    (¬ OpensWithNot spec →
      ((∃ verdict, tryCompile config ⟨scope, "Not:" ++ spec⟩ = .ok verdict) ↔
        ∃ verdict, tryCompile config ⟨scope, spec⟩ = .ok verdict) ∧
      ∀ verdict negated, tryCompile config ⟨scope, spec⟩ = .ok verdict →
        tryCompile config ⟨scope, "Not:" ++ spec⟩ = .ok negated →
          ∀ tree, negated tree = !verdict tree) ∧
    (OpensWithNot spec → ∃ fault, tryCompile config ⟨scope, "Not:" ++ spec⟩ = .error fault) ∧
    ∀ fault, tryCompile config ⟨scope, spec⟩ = .error fault → ∀ tree,
      compile config ⟨scope, spec⟩ tree = true ∧
        compile config ⟨scope, "Not:" ++ spec⟩ tree = true := by
  refine ⟨?_, ?_, fun fault failed tree => met_of_error failed tree⟩
  · intro plain
    constructor
    · constructor
      · rintro ⟨_, compiled⟩
        obtain ⟨_, verdict, compiled, _⟩ := tryCompile_not_eq_ok_iff.mp compiled
        exact ⟨verdict, compiled⟩
      · rintro ⟨verdict, compiled⟩
        exact ⟨_, tryCompile_not_eq_ok_iff.mpr ⟨plain, verdict, compiled, rfl⟩⟩
    · intro verdict negated compiled compiledNot tree
      obtain ⟨_, other, same, rfl⟩ := tryCompile_not_eq_ok_iff.mp compiledNot
      rw [Except.ok.inj (compiled.symm.trans same)]
      rfl
  · intro opens
    apply exists_error_of_not_ok
    intro negated compiled
    exact (tryCompile_not_eq_ok_iff.mp compiled).1 opens

theorem negation_law_in_missing_scope :
    let tree := Expression.ifThenElse .other .nil .nil
    (¬ OpensWithNot "HasIf" ∧ ∃ verdict negated,
      tryCompile {} ⟨"Missing", "HasIf"⟩ = .ok verdict ∧ verdict tree = false ∧
      tryCompile {} ⟨"Missing", "Not:HasIf"⟩ = .ok negated ∧ negated tree = true) ∧
    (OpensWithNot "Not:HasIf" ∧
      ∃ fault, tryCompile {} ⟨"Missing", "Not:Not:HasIf"⟩ = .error fault) ∧
    tryCompile {} ⟨"Missing", "HasLoop"⟩ = .error (.unknownVerb "HasLoop") ∧
      compile {} ⟨"Missing", "HasLoop"⟩ tree = true ∧
      compile {} ⟨"Missing", "Not:HasLoop"⟩ tree = true := by
  intro tree
  have cut : PartsOf "HasIf" ["HasIf"] := Text.partsOf_single (by decide)
  have plain : ¬ OpensWithNot "HasIf" := by
    rw [Question.opensWithNot_iff cut]
    decide
  have opens : OpensWithNot "Not:HasIf" := ⟨["HasIf"], by decide, by decide, by decide⟩
  have compiled : tryCompile {} ⟨"Missing", "HasIf"⟩ = .ok ((Scope.transitive ["Missing"]).slice
      (Verb.ifThenElse.inspection .anyone)) := rfl
  have failed : tryCompile {} ⟨"Missing", "HasLoop"⟩ = .error (.unknownVerb "HasLoop") := rfl
  obtain ⟨once, -, -⟩ := negation_law {} "Missing" "HasIf"
  obtain ⟨-, twice, -⟩ := negation_law {} "Missing" "Not:HasIf"
  obtain ⟨-, -, unread⟩ := negation_law {} "Missing" "HasLoop"
  obtain ⟨readable, opposite⟩ := once plain
  obtain ⟨negated, compiledNot⟩ := readable.mpr ⟨_, compiled⟩
  exact ⟨⟨plain, _, negated, compiled, rfl, compiledNot, opposite _ _ compiled compiledNot tree⟩,
    ⟨opens, twice opens⟩, failed, unread _ failed tree⟩

end Expectation

end CodeRubric
