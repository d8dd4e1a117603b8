import CodeRubric.Json.Access
import CodeRubric.Json.Printer
import CodeRubric.Proofs.Decimal.Text

/-! The reader of JSON texts on what the printer writes. Reading the text of a value and then `rest`
is putting the value in its place and reading `rest`, whatever arrays and objects are open. -/
namespace CodeRubric.Json

/-- The text written for a number is read as this number. -/
def NumberReadsBack (x : Float) : Prop :=
  (Value.ofChars? (Decimal.render x)).bind Value.number? = some x

mutual

/-- A value that can be read back: its numbers are finite, each the one that its text denotes. -/
def Value.ReadsBack : Value → Prop
  | .null | .bool _ | .string _ => True
  | .number x => x.isFinite = true ∧ NumberReadsBack x
  | .natural _ | .ill => False
  | .array items => Value.AllReadBack items
  | .object members => Member.AllReadBack members
termination_by structural x => x

def Value.AllReadBack : List Value → Prop
  | [] => True
  | item :: rest => item.ReadsBack ∧ Value.AllReadBack rest
termination_by structural x => x

def Member.ReadsBack : Member → Prop
  | ⟨_, value⟩ => value.ReadsBack
termination_by structural x => x

def Member.AllReadBack : List Member → Prop
  | [] => True
  | member :: rest => member.ReadsBack ∧ Member.AllReadBack rest
termination_by structural x => x

end

theorem Value.allReadBack_map {α : Type} (write : α → Value) (items : List α) :
    Value.AllReadBack (items.map write) ↔ ∀ item ∈ items, (write item).ReadsBack := by
  induction items with
  | nil => simp [Value.AllReadBack]
  | cons item rest ih => simp [Value.AllReadBack, ih]

namespace Reader

/-- The value read when the text goes on with `text` and ends there. -/
def readOn (reader : Reader) (text : List Char) : Option Value := (reader.run text).bind finish?

theorem readOn_cons (reader : Reader) (c : Char) (rest : List Char) :
    reader.readOn (c :: rest) = (reader.step c).bind fun next => next.readOn rest := by
  simp only [readOn, run]
  cases reader.step c <;> rfl

theorem readOn_append {reader next : Reader} {front : List Char}
    (ran : reader.run front = some next) (rest : List Char) :
    reader.readOn (front ++ rest) = next.readOn rest := by
  simp only [readOn, run_append, ran, Option.bind_some]

theorem phase_put (value : Value) (stack : List Frame) :
    (put value stack).phase = .finished value ∨ (put value stack).phase = .separator := by
  match stack with
  | [] => exact .inl rfl
  | .array _ :: _ => exact .inr rfl
  | .object _ _ :: _ => exact .inr rfl

section Numerals

/-- The value of a numeral, a natural number if it is one. -/
def numeralValue? (text : List Char) : Option Value :=
  (Decimal.Numeral.ofChars? text).map fun numeral =>
    ((numeral.natural?.map Value.natural).or (numeral.value?.map Value.number)).getD .ill

theorem putNumeral_eq (seen : List Char) (stack : List Frame) :
    putNumeral seen stack = (numeralValue? seen.reverse).map fun value => put value stack := by
  unfold putNumeral numeralValue?
  cases Decimal.Numeral.ofChars? seen.reverse <;> rfl

/-- The text does not go on with a numeral. -/
def Stops (rest : List Char) : Prop := ∀ c ∈ rest.head?, isNumeralChar c = false

theorem run_numeral {digits : List Char} (members : ∀ c ∈ digits, isNumeralChar c = true)
    (stack : List Frame) (seen : List Char) :
    run ⟨stack, .numeral seen⟩ digits = some ⟨stack, .numeral (digits.reverse ++ seen)⟩ := by
  induction digits generalizing seen with
  | nil => rfl
  | cons c rest ih =>
    obtain ⟨numeral, others⟩ := List.forall_mem_cons.mp members
    have stepped : step ⟨stack, .numeral seen⟩ c = some ⟨stack, .numeral (c :: seen)⟩ := by
      simp [step, numeral]
    simp [run, stepped, ih others]

theorem readOn_numeral {rest : List Char} (stops : Stops rest) (stack : List Frame)
    (seen : List Char) :
    readOn ⟨stack, .numeral seen⟩ rest =
      (numeralValue? seen.reverse).bind fun value => (put value stack).readOn rest := by
  cases rest with
  | nil =>
    simp only [readOn, run, Option.bind_some, finish?, putNumeral_eq]
    cases numeralValue? seen.reverse with
    | none => rfl
    | some value =>
      simp only [Option.map_some, Option.bind_some]
      rcases phase_put value stack with done | inside
      · rw [done]
      · rw [inside]
  | cons c rest =>
    have other : isNumeralChar c = false := stops c rfl
    rw [readOn_cons]
    simp only [step, other, Bool.false_eq_true, if_false, putNumeral_eq]
    cases numeralValue? seen.reverse with
    | none => rfl
    | some value =>
      have stepped : (put value stack).step c = stepBetween (put value stack) c := by
        rcases phase_put value stack with done | inside
        · simp only [step, done]
        · simp only [step, inside]
      simp only [Option.map_some, Option.bind_some, readOn_cons, stepped]

theorem isBlank_of_starts {c : Char} (starts : c = '-' ∨ c.isDigit = true) : isBlank c = false := by
  simp only [isBlank, Bool.or_eq_false_iff, decide_eq_false_iff_not]
  refine ⟨⟨⟨?_, ?_⟩, ?_⟩, ?_⟩ <;> (rintro rfl; revert starts; decide)

theorem step_numeral {c : Char} (starts : c = '-' ∨ c.isDigit = true) (stack : List Frame) :
    step ⟨stack, .value⟩ c = some ⟨stack, .numeral [c]⟩ := by
  simp only [step, stepBetween, isBlank_of_starts starts, Bool.false_eq_true, if_false, open?]
  split
  case h_7 => simpa [or_iff_not_imp_left] using starts
  all_goals exact absurd starts (by decide)

theorem run_render {x : Float} (finite : x.isFinite = true) (stack : List Frame) :
    run ⟨stack, .value⟩ (Decimal.render x) =
      some ⟨stack, .numeral (Decimal.render x).reverse⟩ := by
  obtain ⟨members, ⟨c, rest, written, starts⟩, _⟩ := Decimal.numeralText_render finite
  rw [written] at members ⊢
  simp [run, step_numeral starts, run_numeral (List.forall_mem_cons.mp members).2]

theorem numeralValue?_render {x : Float} (finite : x.isFinite = true)
    (readsBack : NumberReadsBack x) : numeralValue? (Decimal.render x) = some (.number x) := by
  have whole : Value.ofChars? (Decimal.render x) = numeralValue? (Decimal.render x) := by
    have read := readOn_append (run_render finite []) []
    rw [List.append_nil, readOn_numeral (by simp [Stops]), List.reverse_reverse] at read
    have ended (value : Value) : (put value []).readOn [] = some value := rfl
    simp only [ended, Option.bind_fun_some] at read
    exact read
  rw [NumberReadsBack, whole] at readsBack
  obtain ⟨value, found, number⟩ := Option.bind_eq_some_iff.mp readsBack
  obtain ⟨numeral, parsed, rfl⟩ := Option.map_eq_some_iff.mp found
  cases natural : numeral.natural? with
  | some n =>
    obtain ⟨_, _, c, member, mark⟩ := Decimal.numeralText_render finite
    rw [Decimal.isDigit_of_natural? parsed natural c member] at mark
    cases mark
  | none =>
    rw [found]
    cases denoted : numeral.value? with
    | none => simp [natural, denoted, Value.number?] at number
    | some y =>
      obtain rfl : y = x := by simpa [natural, denoted, Value.number?] using number
      simp [natural]

theorem readOn_number {x : Float} (finite : x.isFinite = true) (readsBack : NumberReadsBack x)
    (stack : List Frame) {rest : List Char} (stops : Stops rest) :
    readOn ⟨stack, .value⟩ (Decimal.render x ++ rest) = (put (.number x) stack).readOn rest := by
  rw [readOn_append (run_render finite stack), readOn_numeral stops, List.reverse_reverse,
    numeralValue?_render finite readsBack, Option.bind_some]

end Numerals

section Strings

theorem hexValue?_hexDigit : ∀ k < 16, Text.hexValue? (Text.hexDigit k) = some k := by
  decide

theorem ofCode_toNat {c : Char} (control : c.toNat < 0x20) : TextUnit.ofCode c.toNat = .char c := by
  have noHalf : ¬ 0xD800 ≤ c.toNat := by omega
  simp [TextUnit.ofCode, noHalf]

theorem run_escape (stack : List Frame) (isKey : Bool) (units : List TextUnit) (c : Char) :
    run ⟨stack, .string isKey units⟩ (escape c) =
      some ⟨stack, .string isKey (.char c :: units)⟩ := by
  unfold escape
  split
  case h_8 noQuote noSlash _ _ _ _ _ =>
    split
    · next control =>
      have high := hexValue?_hexDigit (c.toNat / 16) (by omega)
      have low := hexValue?_hexDigit (c.toNat % 16) (by omega)
      have zero : Text.hexValue? '0' = some 0 := rfl
      have whole : c.toNat / 16 * 16 + c.toNat % 16 = c.toNat := by omega
      simp [run, step, zero, high, low, whole, ofCode_toNat control]
    · next shown =>
      have other : c ≠ '"' := noQuote
      have other' : c ≠ '\\' := noSlash
      simp [run, step, other, other', shown]
  all_goals rfl

theorem run_escaped (stack : List Frame) (isKey : Bool) (units : List TextUnit)
    (text : List Char) :
    run ⟨stack, .string isKey units⟩ (text.flatMap escape) =
      some ⟨stack, .string isKey ((text.map TextUnit.char).reverse ++ units)⟩ := by
  induction text generalizing units with
  | nil => rfl
  | cons c rest ih => simp [run_append, run_escape, ih]

theorem assemble_chars (text after : List Char) :
    assemble (text.map TextUnit.char).reverse after = some (text ++ after) := by
  have reversed (units after : List Char) :
      assemble (units.map TextUnit.char) after = some (units.reverse ++ after) := by
    induction units generalizing after with
    | nil => rfl
    | cons c rest ih => simp [assemble, ih]
  rw [← List.map_reverse, reversed, List.reverse_reverse]

theorem readOn_quoted (stack : List Frame) (isKey : Bool) (text rest : List Char) :
    readOn ⟨stack, .string isKey []⟩ (text.flatMap escape ++ '"' :: rest) =
      (putString isKey (text.map TextUnit.char).reverse stack).bind fun next =>
        next.readOn rest := by
  rw [readOn_append (run_escaped stack isKey [] text), readOn_cons, List.append_nil]
  rfl

theorem readOn_string (stack : List Frame) (text : String) (rest : List Char) :
    readOn ⟨stack, .value⟩ (quoteOn text.toList rest) =
      (put (.string text) stack).readOn rest := by
  have opened : step ⟨stack, .value⟩ '"' = some ⟨stack, .string false []⟩ := rfl
  rw [quoteOn, readOn_cons, opened, Option.bind_some, readOn_quoted]
  simp [putString, assemble_chars]

theorem readOn_key (stack : List Frame) (members : List Member) (before : Option String)
    (key : String) (rest : List Char) :
    readOn ⟨.object (some members) before :: stack, .string true []⟩
        (key.toList.flatMap escape ++ '"' :: ':' :: rest) =
      readOn ⟨.object (some members) (some key) :: stack, .value⟩ rest := by
  rw [readOn_quoted]
  simp only [putString, assemble_chars, List.append_nil, Option.map_some, String.ofList_toList,
    Option.isSome_some, if_true, Option.bind_some, readOn_cons]
  rfl

end Strings

/-- The first character of a value opens it also where an array has just been opened. -/
theorem readOn_firstItem {value : Value} (readsBack : value.ReadsBack) (stack : List Frame)
    (rest : List Char) :
    readOn ⟨stack, .firstItem⟩ (value.renderOn rest) =
      readOn ⟨stack, .value⟩ (value.renderOn rest) := by
  have same {c : Char} (visible : isBlank c = false) (other : c ≠ ']') (text : List Char) :
      readOn ⟨stack, .firstItem⟩ (c :: text) = readOn ⟨stack, .value⟩ (c :: text) := by
    simp only [readOn_cons, step, stepBetween, visible, Bool.false_eq_true, if_false, if_neg other]
  cases value with
  | null => exact same rfl (by decide) _
  | bool value => cases value <;> exact same rfl (by decide) _
  | string value => exact same rfl (by decide) _
  | array items => exact same rfl (by decide) _
  | object members => exact same rfl (by decide) _
  | natural value => exact readsBack.elim
  | ill => exact readsBack.elim
  | number x =>
    obtain ⟨_, ⟨c, more, written, starts⟩, _⟩ := Decimal.numeralText_render readsBack.1
    rw [Value.renderOn, written]
    refine same (isBlank_of_starts starts) ?_ _
    rintro rfl
    exact absurd starts (by decide)

theorem readOn_firstKey (stack : List Frame) (member : Member) (rest : List Char) :
    readOn ⟨stack, .firstKey⟩ (member.renderOn rest) =
      readOn ⟨stack, .key⟩ (member.renderOn rest) := by
  cases member
  rfl

theorem stops_of_head {c : Char} (other : isNumeralChar c = false) (rest : List Char) :
    Stops (c :: rest) := by
  intro d found
  obtain rfl : c = d := by simpa using found
  exact other

theorem stops_renderMoreOn (rest : List Char) (items : List Value) :
    Stops (Value.renderMoreOn rest items) := by
  cases items <;> exact stops_of_head rfl _

theorem stops_members (rest : List Char) (members : List Member) :
    Stops (Member.renderMoreOn rest members) := by
  cases members <;> exact stops_of_head rfl _

end Reader

open Reader (put readOn Stops)

mutual

/-- The text of a value, and then `rest`, is read as the value and `rest`. -/
theorem Value.readOn_renderOn (value : Value) (readsBack : value.ReadsBack) (stack : List Frame)
    (rest : List Char) (stops : Stops rest) :
    readOn ⟨stack, .value⟩ (value.renderOn rest) = (put value stack).readOn rest := by
  cases value with
  | null => rfl
  | bool value => cases value <;> rfl
  | number x => exact Reader.readOn_number readsBack.1 readsBack.2 stack stops
  | natural value => exact readsBack.elim
  | string value => exact Reader.readOn_string stack value rest
  | array items => exact Value.readOn_renderAllOn items readsBack stack rest
  | object members => exact Member.readOn_renderAllOn members readsBack stack rest
  | ill => exact readsBack.elim
termination_by structural value

theorem Value.readOn_renderAllOn (items : List Value) (readBack : Value.AllReadBack items)
    (stack : List Frame) (rest : List Char) :
    readOn ⟨.array [] :: stack, .firstItem⟩ (Value.renderAllOn rest items) =
      (put (.array items) stack).readOn rest := by
  cases items with
  | nil => rfl
  | cons item items =>
    rw [Value.renderAllOn, Reader.readOn_firstItem readBack.1,
      Value.readOn_renderOn item readBack.1 _ _ (Reader.stops_renderMoreOn rest items)]
    exact Value.readOn_renderMoreOn items readBack.2 [item] stack rest
termination_by structural items

/-- The items after the first ones, of which `before` are read already. -/
theorem Value.readOn_renderMoreOn (items : List Value) (readBack : Value.AllReadBack items)
    (before : List Value) (stack : List Frame) (rest : List Char) :
    readOn ⟨.array before :: stack, .separator⟩ (Value.renderMoreOn rest items) =
      (put (.array (before.reverse ++ items)) stack).readOn rest := by
  cases items with
  | nil =>
    rw [Value.renderMoreOn, List.append_nil]
    rfl
  | cons item items =>
    have next : readOn ⟨.array before :: stack, .separator⟩
        (',' :: item.renderOn (Value.renderMoreOn rest items)) =
          readOn ⟨.array before :: stack, .value⟩
            (item.renderOn (Value.renderMoreOn rest items)) := rfl
    rw [Value.renderMoreOn, next,
      Value.readOn_renderOn item readBack.1 _ _ (Reader.stops_renderMoreOn rest items)]
    have more := Value.readOn_renderMoreOn items readBack.2 (item :: before) stack rest
    rw [List.reverse_cons, List.append_assoc] at more
    exact more
termination_by structural items

theorem Member.readOn_renderOn (member : Member) (readsBack : member.ReadsBack)
    (before : List Member) (stack : List Frame) (rest : List Char) (stops : Stops rest) :
    readOn ⟨.object (some before) none :: stack, .key⟩ (member.renderOn rest) =
      readOn ⟨.object (some (member :: before)) none :: stack, .separator⟩ rest := by
  cases member with
  | mk key value =>
    have opened : readOn ⟨.object (some before) none :: stack, .key⟩
        (Member.renderOn rest ⟨key, value⟩) =
          readOn ⟨.object (some before) none :: stack, .string true []⟩
            (key.toList.flatMap escape ++ '"' :: ':' :: value.renderOn rest) := rfl
    rw [opened, Reader.readOn_key, Value.readOn_renderOn value readsBack _ rest stops]
    rfl
termination_by structural member

theorem Member.readOn_renderAllOn (members : List Member) (readBack : Member.AllReadBack members)
    (stack : List Frame) (rest : List Char) :
    readOn ⟨.object (some []) none :: stack, .firstKey⟩ (Member.renderAllOn rest members) =
      (put (.object members) stack).readOn rest := by
  cases members with
  | nil => rfl
  | cons member members =>
    rw [Member.renderAllOn, Reader.readOn_firstKey,
      Member.readOn_renderOn member readBack.1 _ _ _ (Reader.stops_members rest members)]
    exact Member.readOn_renderMoreOn members readBack.2 [member] stack rest
termination_by structural members

/-- The members after the first ones, of which `before` are read already. -/
theorem Member.readOn_renderMoreOn (members : List Member) (readBack : Member.AllReadBack members)
    (before : List Member) (stack : List Frame) (rest : List Char) :
    readOn ⟨.object (some before) none :: stack, .separator⟩ (Member.renderMoreOn rest members) =
      (put (.object (before.reverse ++ members)) stack).readOn rest := by
  cases members with
  | nil =>
    rw [Member.renderMoreOn, List.append_nil]
    rfl
  | cons member members =>
    have next : readOn ⟨.object (some before) none :: stack, .separator⟩
        (',' :: member.renderOn (Member.renderMoreOn rest members)) =
          readOn ⟨.object (some before) none :: stack, .key⟩
            (member.renderOn (Member.renderMoreOn rest members)) := rfl
    rw [Member.renderMoreOn, next,
      Member.readOn_renderOn member readBack.1 _ _ _ (Reader.stops_members rest members)]
    have more := Member.readOn_renderMoreOn members readBack.2 (member :: before) stack rest
    rw [List.reverse_cons, List.append_assoc] at more
    exact more
termination_by structural members

end

theorem Value.ofChars?_render {value : Value} (readsBack : value.ReadsBack) :
    Value.ofChars? value.render = some value :=
  Value.readOn_renderOn value readsBack [] [] (by simp [Stops])

end CodeRubric.Json
