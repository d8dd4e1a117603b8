import CodeRubric.Analysis.Basic
import CodeRubric.Proofs.Json.Text
import CodeRubric.Tree.Layers

/-! Sources that are cut short or go on. A reader that has read a whole array or object takes
nothing but blanks, so the text of a tree is not the front of another one, and a source that was
cut off in the middle gets no verdicts. -/
namespace CodeRubric

open Json (Value Part Tagged)

namespace Json

/-- What a numeral can denote. -/
def Value.IsNumeric : Value → Prop
  | .number _ | .natural _ | .ill => True
  | _ => False

namespace Reader

theorem isNumeric_of_numeralValue? {text : List Char} {value : Value}
    (read : numeralValue? text = some value) : value.IsNumeric := by
  obtain ⟨numeral, -, rfl⟩ := Option.map_eq_some_iff.mp read
  cases numeral.natural? <;> cases numeral.value? <;> trivial

/-- Only a number may end with the text; every other value has ended before. -/
theorem finished_of_finish? {reader : Reader} {value : Value}
    (ended : reader.finish? = some value) (other : ¬ value.IsNumeric) :
    reader.phase = .finished value := by
  unfold finish? at ended
  split at ended
  · next whole phase =>
    obtain rfl := Option.some.inj ended
    exact phase
  · next seen _ =>
    rw [putNumeral_eq] at ended
    obtain ⟨after, put_value, last⟩ := Option.bind_eq_some_iff.mp ended
    obtain ⟨number, denoted, rfl⟩ := Option.map_eq_some_iff.mp put_value
    have numeric := isNumeric_of_numeralValue? denoted
    rcases phase_put number reader.stack with done | inside
    · rw [done] at last
      exact absurd (Option.some.inj last ▸ numeric) other
    · rw [inside] at last
      cases last
  · cases ended

theorem readOn_finished {reader : Reader} {value : Value} (done : reader.phase = .finished value)
    (text : List Char) :
    reader.readOn text = if text.all isBlank then some value else none := by
  induction text with
  | nil => simp [readOn, run, finish?, done]
  | cons c rest ih =>
    have stepped : reader.step c = if isBlank c then some reader else none := by
      simp only [step, done, stepBetween]
    rw [readOn_cons, stepped]
    cases blank : isBlank c <;> simp [blank, ih]

end Reader

theorem Value.ofChars?_append {text : List Char} {value : Value}
    (read : Value.ofChars? text = some value) (other : ¬ value.IsNumeric) (more : List Char) :
    Value.ofChars? (text ++ more) = if more.all Reader.isBlank then some value else none := by
  obtain ⟨reader, ran, ended⟩ := Option.bind_eq_some_iff.mp read
  have done := Reader.finished_of_finish? ended other
  exact (Reader.readOn_append ran more).trans (Reader.readOn_finished done more)

end Json

namespace Expression

theorem not_isNumeric_of_ofJson? {value : Value} {tree : Expression}
    (read : ofJson? value = some tree) : ¬ value.IsNumeric := by
  rw [ofJson?, ofPart?_eq] at read
  obtain ⟨node, tagged, -⟩ := Option.bind_eq_some_iff.mp read
  cases value with
  | array _ | object _ => exact id
  | _ => cases tagged

theorem ofText?_append {source : String} {tree : Expression} (read : ofText? source = some tree)
    (more : String) :
    ofText? (source ++ more) = if more.toList.all Json.Reader.isBlank then some tree else none := by
  obtain ⟨value, parsed, decoded⟩ := Option.bind_eq_some_iff.mp read
  rw [ofText?, String.toList_append,
    Value.ofChars?_append parsed (not_isNumeric_of_ofJson? decoded)]
  split
  · exact decoded
  · rfl

end Expression

theorem jsonParser_eq_ok_iff {source : String} {tree : Expression} :
    jsonParser source = .ok tree ↔ Expression.ofText? source = some tree := by
  unfold jsonParser
  cases Expression.ofText? source <;> simp

/-- Space, tab, line feed and carriage return. -/
def blanks : List Char := [' ', '\t', '\n', '\r']

theorem all_isBlank_iff {text : List Char} :
    text.all Json.Reader.isBlank = true ↔ ∀ c ∈ text, c ∈ blanks := by
  simp [blanks, Json.Reader.isBlank, or_assoc]

theorem jsonParser_append_eq_ok_iff {source : String} {tree : Expression}
    (parsed : jsonParser source = .ok tree) (more : String) (found : Expression) :
    jsonParser (source ++ more) = .ok found ↔ (∀ c ∈ more.toList, c ∈ blanks) ∧ tree = found := by
  rw [jsonParser_eq_ok_iff, Expression.ofText?_append (jsonParser_eq_ok_iff.mp parsed),
    ← all_isBlank_iff, Option.ite_none_right_eq_some, Option.some.injEq]

/-- Only blanks may follow the text of a tree. So the text, if it does not end in a blank, has no
front part that is the text of a tree too, and no verdict is given on such a part. -/
theorem jsonParser_rejects_cut_and_extended {source : String} {tree : Expression}
    (parsed : jsonParser source = .ok tree) :
    (∀ more : String,
      ((∃ found, jsonParser (source ++ more) = .ok found) ↔ ∀ c ∈ more.toList, c ∈ blanks) ∧
      ∀ found, jsonParser (source ++ more) = .ok found → found = tree) ∧
    ((∀ c, source.toList.getLast? = some c → c ∉ blanks) →
      ∀ front rest : String, source = front ++ rest → rest ≠ "" →
        ∃ fault, jsonParser front = .error fault ∧ ∀ config expectations,
          analyze jsonParser config expectations front = .unavailable fault) := by
  constructor
  · intro more
    have followed := jsonParser_append_eq_ok_iff parsed more
    refine ⟨⟨?_, ?_⟩, ?_⟩
    · rintro ⟨found, continued⟩
      exact ((followed found).mp continued).1
    · intro blank
      exact ⟨tree, (followed tree).mpr ⟨blank, rfl⟩⟩
    · intro found continued
      exact ((followed found).mp continued).2.symm
  · intro ends front rest cut nonempty
    cases shorter : jsonParser front with
    | error fault =>
      refine ⟨fault, rfl, ?_⟩
      intro config expectations
      rw [analyze, shorter]
    | ok part =>
      -- What was cut off would be blank, and with it the last character of the source.
      subst cut
      have blank := ((jsonParser_append_eq_ok_iff shorter rest tree).mp parsed).1
      have some_rest : rest.toList ≠ [] := by simpa using nonempty
      have last : (front ++ rest).toList.getLast? = some (rest.toList.getLast some_rest) := by
        simp [List.getLast?_append, List.getLast?_eq_some_getLast some_rest]
      exact absurd (blank _ (List.getLast_mem some_rest)) (ends _ last)

theorem jsonParser_rejects_cut_and_extended_at_bracket :
    jsonParser "[\"Reference\",\"]\"]" = .ok (.reference "]") ∧
      jsonParser "[\"Reference\",\"]\"] \n" = .ok (.reference "]") ∧
      (¬ ∃ found, jsonParser "[\"Reference\",\"]\"]]" = .ok found) ∧
      ∃ fault, jsonParser "[\"Reference\",\"]" = .error fault ∧
        analyze jsonParser ⟨.equivalent⟩ [] "[\"Reference\",\"]" = .unavailable fault := by
  have parsed : jsonParser "[\"Reference\",\"]\"]" = .ok (.reference "]") := by cbv
  obtain ⟨extended, cut⟩ := jsonParser_rejects_cut_and_extended parsed
  obtain ⟨found, continued⟩ := (extended " \n").1.mpr (by simp [blanks])
  obtain rfl := (extended " \n").2 found continued
  obtain ⟨fault, failed, unavailable⟩ :=
    cut (by simp [blanks]) "[\"Reference\",\"]" "\"]" (by decide) (by decide)
  refine ⟨parsed, continued, ?_, fault, failed, unavailable _ _⟩
  exact fun more => absurd ((extended "]").1.mp more) (by simp [blanks])

end CodeRubric
