import CodeRubric.Decimal.Shortest
import CodeRubric.Json.Reader
import Mathlib.Data.List.TakeWhile

/-! The texts of numbers as a reader of numerals sees them. The text of a finite number has only
characters of numerals, starts as a numeral does, and is never digits alone, so it is not taken for
a natural number. -/
namespace CodeRubric.Decimal

open Json.Reader (isNumeralChar)

theorem isNumeralChar_of_isDigit {c : Char} (digit : c.isDigit = true) :
    isNumeralChar c = true := by
  simp [isNumeralChar, digit]

structure NumeralText (text : List Char) : Prop where
  members : ∀ c ∈ text, isNumeralChar c = true
  start : ∃ c rest, text = c :: rest ∧ (c = '-' ∨ c.isDigit = true)
  marked : ∃ c ∈ text, c.isDigit = false

theorem isNumeralChar_of_mem_toString {exponent : Int} {c : Char}
    (member : c ∈ (toString exponent).toList) : isNumeralChar c = true := by
  have digital (n : Nat) (listed : c ∈ Nat.toDigits 10 n) : isNumeralChar c = true :=
    isNumeralChar_of_isDigit (Nat.isDigit_of_mem_toDigits (by decide) (by decide) listed)
  rw [Int.toString_eq_repr] at member
  cases exponent with
  | ofNat n =>
    simp only [Int.repr, Nat.repr_eq_ofList_toDigits, String.toList_ofList] at member
    exact digital n member
  | negSucc n =>
    simp only [Int.repr, Nat.repr_eq_ofList_toDigits, String.toList_append, String.toList_ofList,
      List.mem_append] at member
    rcases member with sign | listed
    · obtain rfl : c = '-' := by simpa using sign
      rfl
    · exact digital _ listed

theorem Digits.numeralText_render (decimal : Digits) : NumeralText decimal.render := by
  have digital : ∀ c ∈ Nat.toDigits 10 decimal.digits, c.isDigit = true :=
    fun c member => Nat.isDigit_of_mem_toDigits (by decide) (by decide) member
  have some_digit : Nat.toDigits 10 decimal.digits ≠ [] := Nat.toDigits_ne_nil
  obtain ⟨first, rest, written⟩ := List.exists_cons_of_ne_nil some_digit
  rw [written] at digital
  have firstDigit : first.isDigit = true := digital first List.mem_cons_self
  have numeric : ∀ c ∈ first :: rest, isNumeralChar c = true :=
    fun c member => isNumeralChar_of_isDigit (digital c member)
  have taken (k : Nat) : ∀ c ∈ (first :: rest).take k, isNumeralChar c = true :=
    fun c member => numeric c (List.mem_of_mem_take member)
  have dropped (k : Nat) : ∀ c ∈ (first :: rest).drop k, isNumeralChar c = true :=
    fun c member => numeric c (List.mem_of_mem_drop member)
  have zeros (k : Nat) : ∀ c ∈ List.replicate k '0', isNumeralChar c = true := by
    intro c member
    rw [List.eq_of_mem_replicate member]
    rfl
  unfold Digits.render
  simp only [written]
  split
  · -- Zeros behind the digits.
    refine ⟨?_, ⟨first, _, rfl, .inr firstDigit⟩, '.', by simp, rfl⟩
    refine List.forall_mem_append.mpr ⟨List.forall_mem_append.mpr ⟨numeric, zeros _⟩, ?_⟩
    exact List.forall_mem_cons.mpr ⟨rfl, List.forall_mem_singleton.mpr rfl⟩
  · split
    · next inside =>
      -- The point among the digits, at least one of them before it.
      have positive : 0 < (((first :: rest).length : Int) + decimal.exponent).toNat := by
        simp only [Bool.and_eq_true, decide_eq_true_eq] at inside
        omega
      obtain ⟨k, before⟩ := Nat.exists_eq_add_one.mpr positive
      rw [before]
      refine ⟨?_, ⟨first, _, rfl, .inr firstDigit⟩, '.', by simp, rfl⟩
      exact List.forall_mem_append.mpr ⟨taken _, List.forall_mem_cons.mpr ⟨rfl, dropped _⟩⟩
    · split
      · -- Zeros before the digits.
        refine ⟨?_, ⟨'0', _, rfl, .inr rfl⟩, '.', by simp, rfl⟩
        refine List.forall_mem_append.mpr ⟨?_, numeric⟩
        exact List.forall_mem_cons.mpr ⟨rfl, List.forall_mem_cons.mpr ⟨rfl, zeros _⟩⟩
      · -- One digit before the point, if there is one, and an exponent.
        have fraction : ∀ c ∈ (if ((first :: rest).drop 1).isEmpty then []
            else '.' :: (first :: rest).drop 1), isNumeralChar c = true := by
          split
          · simp
          · exact List.forall_mem_cons.mpr ⟨rfl, dropped 1⟩
        refine ⟨?_, ⟨first, _, rfl, .inr firstDigit⟩, 'e', by simp, rfl⟩
        refine List.forall_mem_append.mpr ⟨List.forall_mem_append.mpr ⟨taken 1, fraction⟩, ?_⟩
        exact List.forall_mem_cons.mpr ⟨rfl, fun c => isNumeralChar_of_mem_toString⟩

theorem numeralText_render {x : Float} (finite : x.isFinite = true) : NumeralText (render x) := by
  have unsigned := (Digits.ofFloat x).numeralText_render
  rw [render, if_pos finite]
  split
  · refine ⟨?_, ⟨'-', _, rfl, .inl rfl⟩, '-', by simp, rfl⟩
    intro c member
    rcases List.mem_cons.mp member with rfl | member
    · rfl
    · exact unsigned.members c member
  · exact unsigned

theorem takeMinus_of_unsigned {text : List Char} (unsigned : (takeMinus text).1 = false) :
    (takeMinus text).2 = text := by
  unfold takeMinus at unsigned ⊢
  split at unsigned
  · cases unsigned
  · rfl

theorem fractionOf?_of_empty {text rest : List Char} (read : fractionOf? text = some ([], rest)) :
    rest = text := by
  unfold fractionOf? at read
  split at read
  · simp only [Option.ite_none_left_eq_some, Option.some.injEq, Prod.mk.injEq] at read
    obtain ⟨nonempty, empty, _⟩ := read
    exact absurd (List.isEmpty_iff.mpr empty) nonempty
  · cases read
    rfl

theorem exponentOf?_of_empty {text : List Char} {sign : Bool}
    (read : exponentOf? text = some (sign, [])) : text = [] := by
  cases text with
  | nil => rfl
  | cons mark rest =>
    simp only [exponentOf?, Option.ite_none_right_eq_some, Bool.and_eq_true, Option.some.injEq,
      Prod.mk.injEq] at read
    obtain ⟨⟨⟨_, nonempty⟩, _⟩, _, empty⟩ := read
    simp [empty] at nonempty

/-- A numeral that is a natural number is written by digits alone. -/
theorem isDigit_of_natural? {text : List Char} {numeral : Numeral} {n : Nat}
    (read : Numeral.ofChars? text = some numeral) (natural : numeral.natural? = some n) :
    ∀ c ∈ text, c.isDigit = true := by
  simp only [Numeral.natural?, Bool.and_eq_true, Bool.not_eq_true', List.isEmpty_iff,
    Option.ite_none_right_eq_some] at natural
  obtain ⟨⟨⟨⟨unsigned, noFraction⟩, noExponent⟩, _⟩, _⟩ := natural
  unfold Numeral.ofChars? at read
  simp only at read
  split at read
  · cases read
  · simp only [Option.bind_eq_bind, Option.bind_eq_some_iff, Option.pure_def,
      Option.some.injEq] at read
    obtain ⟨⟨fraction, afterFraction⟩, fractionRead, ⟨sign, exponent⟩, exponentRead, rfl⟩ := read
    obtain rfl : fraction = [] := noFraction
    obtain rfl : exponent = [] := noExponent
    have whole := takeMinus_of_unsigned unsigned
    have ended : (takeMinus text).2.dropWhile Char.isDigit = [] :=
      (fractionOf?_of_empty fractionRead).symm.trans (exponentOf?_of_empty exponentRead)
    rw [whole] at ended
    exact List.dropWhile_eq_nil_iff.mp ended

end CodeRubric.Decimal
