import CodeRubric.Proofs.Expectation.Grammar
import Mathlib.Data.Nat.Digits.Defs

/-! Spellings that mean the same. A verb alone asks about anyone, a name without a mark is meant
exactly, and a number of parameters may be written with any number of zeros in front or, while it is
small, as part of the verb. -/
namespace CodeRubric

namespace Text

/-- Digits are read as they are written in base ten, the last one being the lowest. -/
theorem decimalValue_eq_ofDigits (digits : List Char) :
    decimalValue digits = Nat.ofDigits 10 (digits.reverse.map digitValue) := by
  rw [decimalValue, Nat.ofDigits_eq_foldr, List.foldr_map, List.foldr_reverse]
  simp only [Nat.cast_id, Nat.mul_comm 10, Nat.add_comm (digitValue _)]

/-- Decimal digits that write a number, with or without zeros in front. -/
structure Writes (digits : String) (count : Nat) : Prop where
  some_digit : digits ≠ ""
  decimal : ∀ c ∈ digits.toList, c.isDigit = true
  value : Nat.ofDigits 10 (digits.toList.reverse.map digitValue) = count

end Text

open Text (Writes)

/-- A name is meant exactly unless it has the form of another object. -/
theorem SpecObject.ofChars?_unmarked {name : String} (nonempty : name ≠ "") (named : name ≠ "*")
    (unmarked : name.length = 1 ∨ name.toList.head? ≠ some '~' ∧ name.toList.head? ≠ some '=') :
    ofChars? name.toList = some (.named name) := by
  have long {mark c : Char} {rest : List Char} (text : name.toList = mark :: c :: rest) :
      name.length ≠ 1 := by
    rw [← String.length_toList, text]
    simp
  unfold ofChars?
  split
  · next text => exact absurd (String.toList_eq_nil_iff.mp text) nonempty
  · next text => exact absurd (String.toList_inj.mp (text.trans rfl)) named
  · next text => simp [text, long text] at unmarked
  · next text => simp [text, long text] at unmarked
  · rw [String.ofList_toList]

namespace Question

variable {digits : String} {count : Nat}

theorem parse_name (verb : Verb) : parse verb.name = .ok ⟨false, .verb verb .anyone⟩ := by
  obtain ⟨free, notNot, _⟩ := verb.name_spelled
  refine (parse_eq_ok_iff (Text.partsOf_single free)).mpr ⟨by simp [notNot], ?_⟩
  rw [dropNot_of_head?_ne (by simpa using notNot)]
  simp [queryOf, lookup_name, bind, Except.bind, pure, Except.pure]

theorem parse_unmarked (verb : Verb) {name : String} (nonempty : name ≠ "")
    (free : ':' ∉ name.toList) (named : name ≠ "*")
    (unmarked : name.length = 1 ∨ name.toList.head? ≠ some '~' ∧ name.toList.head? ≠ some '=') :
    parse (verb.name ++ ":" ++ name) = .ok ⟨false, .verb verb (.named name)⟩ :=
  parse_about verb rfl free (SpecObject.ofChars?_unmarked nonempty named unmarked)

theorem arity?_of_writes (written : Writes digits count) (fits : count < 2 ^ 64) :
    arity? digits.toList = some count := by
  have value : Text.decimalValue digits.toList = count :=
    (Text.decimalValue_eq_ofDigits _).trans written.value
  have decimal : digits.toList.all Char.isDigit = true := List.all_eq_true.mpr written.decimal
  have size : count < UInt64.size := fits
  simp [arity?, value, written.some_digit, decimal, size]

theorem parse_arity (written : Writes digits count) (fits : count < 2 ^ 64) :
    parse ("HasArity:" ++ digits) = .ok ⟨false, .arity count⟩ := by
  have keyword : ':' ∉ "HasArity".toList := by decide
  have free : ':' ∉ digits.toList := fun member => absurd (written.decimal _ member) (by decide)
  refine (parse_eq_ok_iff (Text.partsOf_pair keyword free)).mpr ⟨rfl, ?_⟩
  have kept : dropNot ["HasArity", digits] = ["HasArity", digits] := rfl
  simp only [kept, List.map_cons, List.map_nil, queryOf, if_true, arity?_of_writes written fits]

end Question

/-- A small number of parameters has a verb of its own. -/
theorem Verb.exists_name_hasArity {count : Nat} (small : count ≤ 3) :
    ∃ verb : Verb, verb.name = "HasArity" ++ toString count ∧
      ∀ target, verb.inspection target = Inspection.declaresWithArity count target := by
  match count, small with
  | 0, _ => exact ⟨.arity0, by decide, fun _ => rfl⟩
  | 1, _ => exact ⟨.arity1, by decide, fun _ => rfl⟩
  | 2, _ => exact ⟨.arity2, by decide, fun _ => rfl⟩
  | 3, _ => exact ⟨.arity3, by decide, fun _ => rfl⟩

namespace Expectation

variable {config : CompilerConfig} {scope spec spec' : String} {place : Scope} {query : Query}

/-- The line can be read, and its verdict on every tree is that of the inspection. -/
structure Means (config : CompilerConfig) (line : Expectation) (inspection : Inspection) :
    Prop where
  read : ∃ verdict, line.tryCompile config = .ok verdict
  same : ∀ tree, line.compile config tree = inspection tree

/-- Both lines can be read, and they have the same verdict on every tree. -/
structure Agree (config : CompilerConfig) (line other : Expectation) : Prop where
  read : ∃ verdict, line.tryCompile config = .ok verdict
  readOther : ∃ verdict, other.tryCompile config = .ok verdict
  same : ∀ tree, line.compile config tree = other.compile config tree

/-- Two inspections agree in the scope, as they are and with `Not:` in front of both. -/
def Synonymous (config : CompilerConfig) (scope spec spec' : String) : Prop :=
  Agree config ⟨scope, spec⟩ ⟨scope, spec'⟩ ∧
    Agree config ⟨scope, "Not:" ++ spec⟩ ⟨scope, "Not:" ++ spec'⟩

theorem Means.agree {line other : Expectation} {inspection : Inspection}
    (meant : Means config line inspection) (meantOther : Means config other inspection) :
    Agree config line other :=
  ⟨meant.read, meantOther.read, fun tree => (meant.same tree).trans (meantOther.same tree).symm⟩

theorem means_of_parsed {question : Question} (placed : Scope.parse scope = .ok place)
    (asked : Question.parse spec = .ok question) :
    Means config ⟨scope, spec⟩ (Requirement.inspection config ⟨place, question⟩) where
  read := ⟨_, tryCompile_eq_ok_iff.mpr ⟨place, question, placed, asked, rfl⟩⟩
  same tree := by rw [compile_of_parsed placed asked]

/-- What a question asks is asked in the scope, and with `Not:` in front the answer there is turned
around. -/
theorem means_slice (config : CompilerConfig) (placed : Scope.parse scope = .ok place)
    (asked : Question.parse spec = .ok ⟨false, query⟩) :
    Means config ⟨scope, spec⟩ (place.slice (query.inspection config.likeMode)) ∧
      Means config ⟨scope, "Not:" ++ spec⟩
        (Inspection.negate (place.slice (query.inspection config.likeMode))) :=
  ⟨means_of_parsed placed asked, means_of_parsed placed (Question.parse_not asked)⟩

theorem synonymous_of_parsed {query' : Query} (placed : Scope.parse scope = .ok place)
    (asked : Question.parse spec = .ok ⟨false, query⟩)
    (asked' : Question.parse spec' = .ok ⟨false, query'⟩)
    (same : query.inspection config.likeMode = query'.inspection config.likeMode) :
    Synonymous config scope spec spec' := by
  have meant := means_slice config placed asked
  have meant' := means_slice config placed asked'
  rw [← same] at meant'
  exact ⟨meant.1.agree meant'.1, meant.2.agree meant'.2⟩

/-- In every scope, whatever the configuration, these spellings have the same verdicts: a verb with
and without `*`, a name that has no mark with and without `=`, digits that write the same number,
and a small number as digits and as part of the verb. -/
theorem synonymous_spellings (config : CompilerConfig) {scope : String} {place : Scope}
    (placed : Scope.parse scope = .ok place) :
    (∀ verb : Verb, Synonymous config scope verb.name (verb.name ++ ":*")) ∧
    (∀ (verb : Verb) (name : String), name ≠ "" → ':' ∉ name.toList → name ≠ "*" →
      name.length = 1 ∨ name.toList.head? ≠ some '~' ∧ name.toList.head? ≠ some '=' →
        Synonymous config scope (verb.name ++ ":" ++ name) (verb.name ++ ":=" ++ name)) ∧
    ∀ (digits : String) (count : Nat), Writes digits count → count < 2 ^ 64 →
      (Means config ⟨scope, "HasArity:" ++ digits⟩
          (place.slice (Inspection.declaresWithArity count .anyone)) ∧
        Means config ⟨scope, "Not:HasArity:" ++ digits⟩
          (Inspection.negate (place.slice (Inspection.declaresWithArity count .anyone)))) ∧
      (∀ digits', Writes digits' count →
        Synonymous config scope ("HasArity:" ++ digits) ("HasArity:" ++ digits')) ∧
      (count ≤ 3 →
        Synonymous config scope ("HasArity:" ++ digits) ("HasArity" ++ toString count) ∧
        Synonymous config scope ("HasArity:" ++ digits)
          ("HasArity" ++ toString count ++ ":*")) := by
  refine ⟨?_, ?_, ?_⟩
  · intro verb
    exact synonymous_of_parsed placed (Question.parse_name verb) (Question.parse_anyone verb) rfl
  · intro verb name nonempty free named unmarked
    exact synonymous_of_parsed placed (Question.parse_unmarked verb nonempty free named unmarked)
      (Question.parse_exactly verb nonempty free) rfl
  · intro digits count written fits
    have asked := Question.parse_arity written fits
    refine ⟨?_, ?_, ?_⟩
    · have joined : "Not:" ++ ("HasArity:" ++ digits) = "Not:HasArity:" ++ digits := by
        rw [← String.append_assoc]
        rfl
      have meant := means_slice config placed asked
      rwa [joined] at meant
    · intro digits' written'
      exact synonymous_of_parsed placed asked (Question.parse_arity written' fits) rfl
    · intro small
      obtain ⟨verb, spelled, meant⟩ := Verb.exists_name_hasArity small
      rw [← spelled]
      have same := (meant .anyone).symm
      exact ⟨synonymous_of_parsed placed asked (Question.parse_name verb) same,
        synonymous_of_parsed placed asked (Question.parse_anyone verb) same⟩

theorem synonymous_spellings_in_object :
    Scope.parse "Intransitive:A" = .ok (.intransitive ["A"]) ∧
    Synonymous {} "Intransitive:A" "HasMethod" "HasMethod:*" ∧
    ("~".length = 1 ∧ Synonymous {} "Intransitive:A" "HasUsage:~" "HasUsage:=~") ∧
    (("a~b".toList.head? ≠ some '~' ∧ "a~b".toList.head? ≠ some '=') ∧
      Synonymous {} "Intransitive:A" "HasUsage:a~b" "HasUsage:=a~b") ∧
    Writes "0000000000000000000000002" 2 ∧ Writes "02" 2 ∧
    Means {} ⟨"Intransitive:A", "Not:HasArity:0000000000000000000000002"⟩ (Inspection.negate
      ((Scope.intransitive ["A"]).slice (Inspection.declaresWithArity 2 .anyone))) ∧
    Synonymous {} "Intransitive:A" "HasArity:0000000000000000000000002" "HasArity:02" ∧
    Synonymous {} "Intransitive:A" "HasArity:0000000000000000000000002" "HasArity2" ∧
    Synonymous {} "Intransitive:A" "HasArity:0000000000000000000000002" "HasArity2:*" := by
  have placed : Scope.parse "Intransitive:A" = .ok (.intransitive ["A"]) := rfl
  have padded : Writes "0000000000000000000000002" 2 :=
    ⟨by decide, List.all_eq_true.mp rfl, (Text.decimalValue_eq_ofDigits _).symm.trans (by decide)⟩
  have short : Writes "02" 2 :=
    ⟨by decide, List.all_eq_true.mp rfl, (Text.decimalValue_eq_ofDigits _).symm.trans (by decide)⟩
  have unmarked : "a~b".toList.head? ≠ some '~' ∧ "a~b".toList.head? ≠ some '=' :=
    ⟨by decide, by decide⟩
  obtain ⟨bare, exactly, counted⟩ := synonymous_spellings {} placed
  obtain ⟨⟨_, meantNot⟩, written, small⟩ := counted _ 2 padded (by decide)
  obtain ⟨asVerb, asVerbAbout⟩ := small (by decide)
  have lone := exactly .usage "~" (by decide) (by decide) (by decide) (.inl rfl)
  have inner := exactly .usage "a~b" (by decide) (by decide) (by decide) (.inr unmarked)
  exact ⟨placed, bare .method, ⟨rfl, lone⟩, ⟨unmarked, inner⟩, padded, short, meantNot,
    written _ short, asVerb, asVerbAbout⟩

end Expectation

end CodeRubric
