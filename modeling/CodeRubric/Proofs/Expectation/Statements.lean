import CodeRubric.Proofs.Expectation.Grammar
import CodeRubric.Proofs.Inspection.Outline
import CodeRubric.Proofs.Scope.Intransitive

/-! The verdict on a program is made up of the verdicts on its statements, in every scope: a
question is answered with yes if one statement answers it so, and a negated one if all of them do.
How the statements are held together makes no difference. -/
namespace CodeRubric

theorem Expression.declaredName?_of_isFiller {e : Expression} (filler : e.isFiller = true) :
    e.declaredName? = none := by
  cases e <;> first | rfl | cases filler

namespace Inspection

/-- A question that fillers answer with yes if one of the expressions they hold does. -/
def Piecewise (inspection : Inspection) : Prop :=
  ∀ e : Expression, e.isFiller = true → inspection e = e.children.any inspection

variable {inspection : Inspection}

theorem Piecewise.sequence (piecewise : inspection.Piecewise) (items : List Expression) :
    inspection (.sequence items) = items.any inspection := piecewise (.sequence items) rfl

theorem Piecewise.sequenceOf (piecewise : inspection.Piecewise) (items : List Expression) :
    inspection (.sequenceOf items) = items.any inspection := by
  match items with
  | [] => exact piecewise .nil rfl
  | [item] => exact (Bool.or_false _).symm
  | first :: second :: rest => exact piecewise.sequence _

theorem Nodewise.piecewise {guards : Bool} (nodewise : inspection.Nodewise guards) :
    inspection.Piecewise := by
  obtain ⟨test, valid, rfl⟩ := nodewise
  intro e filler
  rw [contains_eq, valid.filler filler, Bool.false_or]

/-- A question about what a view lists, where the view looks through everything that is not a
declaration. -/
theorem Piecewise.of_view {view : Expression → List Expression}
    (through : ∀ e : Expression, e.declaredName? = none → view e = e.children.flatMap view)
    (test : Expression → Bool) : Piecewise fun tree => (view tree).any test := by
  intro e filler
  simp only [through e (Expression.declaredName?_of_isFiller filler), List.any_flatMap]

end Inspection

namespace Scope

theorem path?_ne_nil {text : List Char} {path : List String} (read : path? text = some path) :
    path ≠ [] := by
  simp only [path?] at read
  split at read
  · cases read
  · obtain rfl := Option.some.inj read
    exact mt List.map_eq_nil_iff.mp (Text.split_ne_nil '.' text)

/-- The path of an intransitive scope that was read names something. -/
theorem ne_intransitive_nil_of_parse {spec : String} {scope : Scope}
    (placed : parse spec = .ok scope) : scope ≠ .intransitive [] := by
  rintro rfl
  simp only [parse] at placed
  split at placed
  · next scope read =>
    obtain rfl := Except.ok.inj placed
    unfold parse? at read
    split at read
    · cases read
    · obtain ⟨path, _, other⟩ := Option.map_eq_some_iff.mp read
      cases other
    · split at read
      · obtain ⟨path, found, same⟩ := Option.map_eq_some_iff.mp read
        exact path?_ne_nil found (Scope.intransitive.inj same)
      · cases read
    · cases read
  · cases placed

/-- Every scope leaves a question piecewise. A path makes any question so, since it is looked for in
each statement on its own. -/
theorem slice_piecewise {guards : Bool} {inspection : Inspection} {scope : Scope}
    (nodewise : inspection.Nodewise guards) (named : scope ≠ .intransitive []) :
    (scope.slice inspection).Piecewise := by
  match scope with
  | .program => exact nodewise.piecewise
  | .transitive [] => exact nodewise.piecewise
  | .transitive (first :: rest) =>
    apply Inspection.Piecewise.of_view
    intro e plain
    exact Expression.declarationsOf_of_none plain first
  | .intransitive path =>
    have some_segment : path ≠ [] := by
      rintro rfl
      exact named rfl
    have located : resolve path = Expression.declarationsAt path :=
      funext (resolve_eq_declarationsAt some_segment)
    apply Inspection.Piecewise.of_view
    intro e plain
    rw [located]
    exact Expression.declarationsAt_of_none plain path

end Scope

namespace Question

open Text (PartsOf)

/-- Written with `Not:` in front. -/
def IsNegated (spec : String) : Prop := ∃ phrase, spec = "Not:" ++ phrase

theorem isNegated_iff {spec : String} {parts : List String} (cut : PartsOf spec parts) :
    IsNegated spec ↔ ∃ rest ≠ [], parts = "Not" :: rest := by
  have keyword : ':' ∉ "Not".toList := by decide
  constructor
  · rintro ⟨phrase, rfl⟩
    obtain ⟨rest, tail⟩ := Text.exists_partsOf phrase
    exact ⟨rest, tail.some_part, cut.unique (tail.cons keyword)⟩
  · rintro ⟨rest, some_part, rfl⟩
    obtain ⟨phrase, _, spelled⟩ := cut.uncons some_part
    exact ⟨phrase, spelled⟩

/-- Inspections are negated where they are written so. A lone `Not` asks nothing and is not read. -/
theorem negated_iff {spec : String} {question : Question} (asked : parse spec = .ok question) :
    question.negated = true ↔ IsNegated spec := by
  obtain ⟨parts, cut⟩ := Text.exists_partsOf spec
  obtain ⟨sign, read⟩ := (parse_eq_ok_iff cut).mp asked
  have readable : Readable (dropNot parts) := exists_queryOf_iff.mp ⟨question.query, read⟩
  rw [isNegated_iff cut, sign, decide_eq_true_eq]
  constructor
  · intro first
    obtain ⟨rest, rfl⟩ := List.head?_eq_some_iff.mp first
    refine ⟨rest, ?_, rfl⟩
    rintro rfl
    cases readable
  · rintro ⟨rest, _, rfl⟩
    rfl

end Question

namespace Expectation

/-- The verdict of a line on statements in a row: that some statement passes, or with `Not:` that
each one does. -/
theorem verdict_of_statements {config : CompilerConfig} {line : Expectation} {verdict : Inspection}
    (compiled : line.tryCompile config = .ok verdict) (items : List Expression) :
    (¬ Question.IsNegated line.inspection →
      (verdict (.sequenceOf items) = true ↔ ∃ item ∈ items, verdict item = true)) ∧
    (Question.IsNegated line.inspection →
      (verdict (.sequenceOf items) = true ↔ ∀ item ∈ items, verdict item = true)) ∧
    verdict (.sequenceOf items) = verdict (.sequence items) := by
  obtain ⟨scope, ⟨negated, query⟩, placed, asked, rfl⟩ := tryCompile_eq_ok_iff.mp compiled
  have pieces := Scope.slice_piecewise (query.inspection_nodewise config.likeMode)
    (Scope.ne_intransitive_nil_of_parse placed)
  have whole := pieces.sequenceOf items
  rw [← Question.negated_iff asked]
  cases negated with
  | false =>
    refine ⟨fun _ => ?_, fun impossible => absurd impossible Bool.false_ne_true, ?_⟩
    · exact (Bool.eq_iff_iff.mp whole).trans List.any_eq_true
    · exact whole.trans (pieces.sequence items).symm
  | true =>
    refine ⟨fun impossible => absurd rfl impossible, fun _ => ?_, ?_⟩
    · have each := (congrArg not whole).trans List.not_any_eq_all_not
      exact (Bool.eq_iff_iff.mp each).trans List.all_eq_true
    · exact congrArg not (whole.trans (pieces.sequence items).symm)

theorem verdict_of_statements_at_objects :
    let shown := Expression.object "A" (.reference "x")
    let hidden := Expression.object "A" (.function "f" [⟨[], .unguarded (.reference "x")⟩])
    let foreign := Expression.object "B" (.reference "x")
    (Met {} shown "Intransitive:A" "HasUsage:x" ∧
      Met {} (.sequenceOf [hidden, foreign, shown]) "Intransitive:A" "HasUsage:x") ∧
    Met {} hidden "Intransitive:A" "Not:HasUsage:x" ∧
      Met {} foreign "Intransitive:A" "Not:HasUsage:x" ∧
      Met {} (.sequenceOf [hidden, foreign]) "Intransitive:A" "Not:HasUsage:x" := by
  intro shown hidden foreign
  have placed : Scope.parse "Intransitive:A" = .ok (.intransitive ["A"]) := by decide
  have read : Question.parse "HasUsage:x" = .ok ⟨false, .verb .usage (.named "x")⟩ := by decide
  have readNot : Question.parse "Not:HasUsage:x" = .ok ⟨true, .verb .usage (.named "x")⟩ :=
    Question.parse_not read
  have plain : ¬ Question.IsNegated "HasUsage:x" :=
    mt (Question.negated_iff read).mpr Bool.false_ne_true
  have compiled {spec : String} {question : Question} (read : Question.parse spec = .ok question) :
      tryCompile {} ⟨"Intransitive:A", spec⟩ = .ok (compile {} ⟨"Intransitive:A", spec⟩) :=
    tryCompile_eq_ok_iff.mpr ⟨_, _, placed, read, (compile_of_parsed placed read).symm⟩
  obtain ⟨someItem, -, -⟩ := verdict_of_statements (compiled read) [hidden, foreign, shown]
  obtain ⟨-, everyItem, -⟩ := verdict_of_statements (compiled readNot) [hidden, foreign]
  have found : Met {} shown "Intransitive:A" "HasUsage:x" := rfl
  have unseen : Met {} hidden "Intransitive:A" "Not:HasUsage:x" := rfl
  have missing : Met {} foreign "Intransitive:A" "Not:HasUsage:x" := rfl
  refine ⟨⟨found, (someItem plain).mpr ⟨shown, by simp, found⟩⟩, unseen, missing, ?_⟩
  apply (everyItem ⟨"HasUsage:x", rfl⟩).mpr
  rw [List.forall_mem_cons, List.forall_mem_singleton]
  exact ⟨unseen, missing⟩

end Expectation

end CodeRubric
