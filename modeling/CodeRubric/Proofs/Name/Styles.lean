import CodeRubric.Proofs.Name.Conventions

/-! Names that follow both case styles. Such a name has one case throughout and no underscore, so it
is a single word in snake case; in camel case a capital behind a digit still starts a word. The two
styles, and the order in which they are tried, differ on the names with such a capital and on no
other. -/
namespace CodeRubric.Name

/-- Somewhere in the text a capital comes directly after a digit. -/
def CapitalAfterDigit (text : List Char) : Prop :=
  ∃ digit capital, [digit, capital] <:+: text ∧ digit.isDigit = true ∧ capital.isUpper = true

/-- The text is made of lowercase letters and digits, or of capitals and digits. -/
def OneCase (text : List Char) : Prop :=
  (∀ c ∈ text, isLowerAlnum c = true) ∨ ∀ c ∈ text, isUpperAlnum c = true

section Characters

variable {c : Char}

theorem isUpper_eq_false_of_isDigit (digit : c.isDigit = true) : c.isUpper = false :=
  of_isAlphanum (fun c => c.isDigit = true → c.isUpper = false) (by decide)
    (isAlphanum_of_isDigit digit) digit

theorem isAlphanum_of_isUpperAlnum (large : isUpperAlnum c = true) : c.isAlphanum = true := by
  rcases Bool.or_eq_true_iff.mp large with upper | digit
  · exact isAlphanum_of_isAlpha (Bool.or_eq_true_iff.mpr (.inl upper))
  · exact isAlphanum_of_isDigit digit

theorem isLower_eq_false_of_isUpperAlnum (large : isUpperAlnum c = true) : c.isLower = false :=
  of_isAlphanum (fun c => isUpperAlnum c = true → c.isLower = false) (by decide)
    (isAlphanum_of_isUpperAlnum large) large

theorem isUpper_eq_not_isDigit (large : isUpperAlnum c = true) : c.isUpper = !c.isDigit := by
  cases digit : c.isDigit with
  | true => simp [isUpper_eq_false_of_isDigit digit]
  | false => simpa [isUpperAlnum, digit] using large

end Characters

theorem OneCase.tail {c : Char} {rest : List Char} (oneCase : OneCase (c :: rest)) :
    OneCase rest :=
  oneCase.imp (fun small => (List.forall_mem_cons.mp small).2)
    fun large => (List.forall_mem_cons.mp large).2

/-- With no second case around it, a capital starts a word only behind a digit. -/
theorem OneCase.startsWord_iff {before c : Char} {rest : List Char}
    (oneCase : OneCase (before :: c :: rest)) :
    startsWord before c rest = true ↔ before.isDigit = true ∧ c.isUpper = true := by
  rcases oneCase with small | large
  · have plain : c.isUpper = false := not_isUpper_of_isLowerAlnum (small c (by simp))
    simp [startsWord, plain]
  · have behind := isUpper_eq_not_isDigit (large before (by simp))
    have ahead : rest.head?.any Char.isLower = false := by
      cases rest with
      | nil => rfl
      | cons next more => exact isLower_eq_false_of_isUpperAlnum (large next (by simp))
    simp [startsWord, behind, ahead, and_comm]

theorem capitalAfterDigit_cons_cons {before c : Char} {rest : List Char} :
    CapitalAfterDigit (before :: c :: rest) ↔
      (before.isDigit = true ∧ c.isUpper = true) ∨ CapitalAfterDigit (c :: rest) := by
  constructor
  · rintro ⟨digit, capital, inside, isDigit, isUpper⟩
    rcases List.infix_cons_iff.mp inside with here | later
    · obtain ⟨rfl, next⟩ := List.cons_prefix_cons.mp here
      obtain ⟨rfl, -⟩ := List.cons_prefix_cons.mp next
      exact .inl ⟨isDigit, isUpper⟩
    · exact .inr ⟨digit, capital, later, isDigit, isUpper⟩
  · rintro (⟨isDigit, isUpper⟩ | ⟨digit, capital, inside, isDigit, isUpper⟩)
    · exact ⟨before, c, ⟨[], rest, rfl⟩, isDigit, isUpper⟩
    · exact ⟨digit, capital, List.infix_cons inside, isDigit, isUpper⟩

theorem not_capitalAfterDigit_singleton (c : Char) : ¬ CapitalAfterDigit [c] := by
  rintro ⟨digit, capital, inside, -⟩
  simpa using inside.length_le

/-- Cutting loses nothing. -/
theorem humpsAfter_flatten (before : Char) (text : List Char) :
    (humpsAfter before text).1 ++ (humpsAfter before text).2.flatten = text := by
  induction text generalizing before with
  | nil => rfl
  | cons c rest ih =>
    have kept := ih c
    simp only [humpsAfter]
    split <;> simpa using kept

theorem OneCase.humpsAfter_uncut_iff {before : Char} {text : List Char}
    (oneCase : OneCase (before :: text)) :
    (humpsAfter before text).2 = [] ↔ ¬ CapitalAfterDigit (before :: text) := by
  induction text generalizing before with
  | nil => simp [humpsAfter, not_capitalAfterDigit_singleton]
  | cons c rest ih =>
    have later := ih oneCase.tail
    have starts := oneCase.startsWord_iff
    rw [capitalAfterDigit_cons_cons, ← starts, not_or, ← later]
    simp only [humpsAfter]
    split <;> simp_all

namespace CaseStyle

variable {text : List Char}

theorem underscore_notMem (camel : camelCase.accepts text = true) : '_' ∉ text := by
  intro underscore
  have refused := not_isCamel_of_underscore underscore
  rw [accepts, refused] at camel
  cases camel

theorem oneCase_of_accepts (camel : camelCase.accepts text = true)
    (snake : snakeCase.accepts text = true) : OneCase text := by
  have free := underscore_notMem camel
  have members {first member : Char → Bool} (snaky : isSnakeOver first member text = true) :
      ∀ c ∈ text, member c = true := by
    have shaped := List.all_eq_true.mp (Bool.and_eq_true_iff.mp snaky).2
    rw [Text.split_of_notMem free] at shaped
    exact List.all_eq_true.mp (Bool.and_eq_true_iff.mp (shaped text List.mem_cons_self)).2
  exact (Bool.or_eq_true_iff.mp snake).imp members members

theorem humps_eq_iff (oneCase : OneCase text) (some_letter : text ≠ []) :
    (humps text).map lowercase = [lowercase text] ↔ ¬ CapitalAfterDigit text := by
  obtain ⟨c, rest, rfl⟩ := List.exists_cons_of_ne_nil some_letter
  have whole := humpsAfter_flatten c rest
  rw [← oneCase.humpsAfter_uncut_iff]
  simp only [humps, List.map_cons, List.cons.injEq, List.map_eq_nil_iff, and_iff_right_iff_imp]
  intro uncut
  rw [uncut, List.flatten_nil, List.append_nil] at whole
  rw [whole]

/-- The styles find the same words in a name that follows both if no capital in it comes directly
after a digit, and only then. -/
theorem words?_eq_iff {name : String} (camel : camelCase.accepts name.toList = true)
    (snake : snakeCase.accepts name.toList = true) :
    camelCase.words? name = snakeCase.words? name ↔ ¬ CapitalAfterDigit name.toList := by
  have some_letter : name.toList ≠ [] := by
    intro empty
    simp [empty, accepts, isCamel] at camel
  have single : Text.split '_' name.toList = [name.toList] :=
    Text.split_of_notMem (underscore_notMem camel)
  rw [← humps_eq_iff (oneCase_of_accepts camel snake) some_letter]
  simp [words?, camel, snake, segments, single]

theorem words?_isSome {style : CaseStyle} {name : String} :
    (style.words? name).isSome = style.accepts name.toList := by
  cases accepted : style.accepts name.toList <;> simp [words?, accepted]

end CaseStyle

open CaseStyle

theorem or_comm_iff {α : Type} {first second : Option α} :
    first.or second = second.or first ↔
      (first.isSome = true → second.isSome = true → first = second) := by
  cases first <;> cases second <;> simp

/-- On a name that follows both styles they agree exactly if no capital in it comes directly after a
digit. Which style is tried first matters for the other ones only. -/
theorem styles_agree_iff (name : String) :
    (camelCase.accepts name.toList = true → snakeCase.accepts name.toList = true →
      (camelCase.words? name = snakeCase.words? name ↔ ¬ CapitalAfterDigit name.toList)) ∧
    (words? name = (snakeCase.words? name).or (camelCase.words? name) ↔
      ¬ (camelCase.accepts name.toList = true ∧ snakeCase.accepts name.toList = true ∧
        CapitalAfterDigit name.toList)) := by
  refine ⟨CaseStyle.words?_eq_iff, ?_⟩
  rw [words?, or_comm_iff, words?_isSome, words?_isSome]
  simp only [not_and]
  exact forall₂_congr fun camel snake => CaseStyle.words?_eq_iff camel snake

theorem styles_agree_iff_at_hash :
    (camelCase.accepts "SHA256".toList = true ∧ snakeCase.accepts "SHA256".toList = true ∧
      camelCase.words? "SHA256" = snakeCase.words? "SHA256") ∧
    camelCase.words? "SHA256SUM" = some ["sha256", "sum"] ∧
    snakeCase.words? "SHA256SUM" = some ["sha256sum"] ∧ CapitalAfterDigit "SHA256SUM".toList := by
  have uncut : ¬ CapitalAfterDigit "SHA256".toList := by
    simp [capitalAfterDigit_cons_cons, not_capitalAfterDigit_singleton]
  have cut : camelCase.words? "SHA256SUM" ≠ snakeCase.words? "SHA256SUM" := by decide
  have one := ((styles_agree_iff "SHA256").1 (by decide) (by decide)).mpr uncut
  have two := mt ((styles_agree_iff "SHA256SUM").1 (by decide) (by decide)).mpr cut
  exact ⟨⟨by decide, by decide, one⟩, by decide, by decide, Classical.not_not.mp two⟩

/-- A name that follows both styles and has other words in each. -/
theorem styles_disagree_on_capital_after_digit :
    camelCase.accepts "A1B".toList = true ∧ snakeCase.accepts "A1B".toList = true ∧
      camelCase.words? "A1B" = some ["a1", "b"] ∧ snakeCase.words? "A1B" = some ["a1b"] ∧
      camelCase.words? "A1B" ≠ snakeCase.words? "A1B" ∧
      words? "A1B" ≠ (snakeCase.words? "A1B").or (camelCase.words? "A1B") := by
  decide

end CodeRubric.Name
