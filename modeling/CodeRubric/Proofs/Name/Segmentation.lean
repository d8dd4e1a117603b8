import CodeRubric.Proofs.Name.Styles
import Mathlib.Computability.Language
import Mathlib.Tactic.Tauto

/-! Segmentation in full. Each case style is a regular language. The words of a name in camel case
are its characters, all of them and in lowercase, cut before the capitals that the rule for cuts
tells and nowhere else; the words of a name in snake case are what stands between underscores. -/
namespace CodeRubric.Name

open scoped Computability

/-- The texts of one character out of a class. -/
def oneOf (member : Char → Bool) : Language Char := {text | ∃ c, text = [c] ∧ member c = true}

/-- A segment that starts with `first`, then segments over `member`, each behind an underscore. -/
def snakeShape (first member : Char → Bool) : Language Char :=
  oneOf first * (oneOf member)∗ * ({['_']} * (oneOf member * (oneOf member)∗))∗

/-- The texts that follow a style, as a regular expression describes them. -/
def CaseStyle.shape : CaseStyle → Language Char
  | .camelCase => oneOf Char.isAlpha * (oneOf Char.isAlphanum)∗
  | .snakeCase => snakeShape Char.isLower isLowerAlnum + snakeShape Char.isUpper isUpperAlnum

/-- Some of the words, but not all, take up the first `i` characters. -/
def CutBefore (words : List String) (i : Nat) : Prop :=
  ∃ front back, words = front ++ back ∧ front ≠ [] ∧ back ≠ [] ∧ (String.join front).length = i

/-- The rule for cuts: a capital is cut off from a character before it that is none, and from any
character if a lowercase letter comes after it. -/
def cutRule (text : List Char) (i : Nat) : Bool :=
  decide (1 ≤ i) && text[i]?.any Char.isUpper &&
    (!text[i - 1]?.any Char.isUpper || text[i + 1]?.any Char.isLower)

section Shapes

variable {first member : Char → Bool} {text : List Char}

theorem mem_kstar_oneOf : text ∈ (oneOf member)∗ ↔ ∀ c ∈ text, member c = true := by
  rw [Language.mem_kstar]
  constructor
  · rintro ⟨pieces, rfl, single⟩ c inside
    obtain ⟨piece, listed, inside⟩ := List.mem_flatten.mp inside
    obtain ⟨d, rfl, belongs⟩ := single piece listed
    rwa [List.mem_singleton.mp inside]
  · intro belong
    refine ⟨text.map fun c => [c], by simp [← List.flatMap_def], ?_⟩
    rw [List.forall_mem_map]
    exact fun c inside => ⟨c, rfl, belong c inside⟩

theorem mem_oneOf_mul_kstar :
    text ∈ oneOf first * (oneOf member)∗ ↔
      ∃ c rest, text = c :: rest ∧ first c = true ∧ ∀ d ∈ rest, member d = true := by
  rw [Language.mem_mul]
  constructor
  · rintro ⟨front, ⟨c, rfl, starts⟩, rest, belong, rfl⟩
    exact ⟨c, rest, rfl, starts, mem_kstar_oneOf.mp belong⟩
  · rintro ⟨c, rest, rfl, starts, belong⟩
    exact ⟨[c], ⟨c, rfl, starts⟩, rest, mem_kstar_oneOf.mpr belong, rfl⟩

/-- A segment: one character of the class or more. -/
theorem mem_oneOf_plus :
    text ∈ oneOf member * (oneOf member)∗ ↔ text ≠ [] ∧ ∀ c ∈ text, member c = true := by
  rw [mem_oneOf_mul_kstar]
  constructor
  · rintro ⟨c, rest, rfl, starts, belong⟩
    exact ⟨List.cons_ne_nil c rest, List.forall_mem_cons.mpr ⟨starts, belong⟩⟩
  · rintro ⟨some_char, belong⟩
    obtain ⟨c, rest, rfl⟩ := List.exists_cons_of_ne_nil some_char
    obtain ⟨starts, others⟩ := List.forall_mem_cons.mp belong
    exact ⟨c, rest, rfl, starts, others⟩

theorem mem_kstar_marked {segment : Language Char} :
    text ∈ ({['_']} * segment)∗ ↔
      ∃ segments : List (List Char),
        text = segments.flatMap ('_' :: ·) ∧ ∀ piece ∈ segments, piece ∈ segment := by
  rw [Language.mem_kstar]
  constructor
  · rintro ⟨pieces, rfl, marked⟩
    induction pieces with
    | nil => exact ⟨[], rfl, by simp⟩
    | cons piece more ih =>
      obtain ⟨here, later⟩ := List.forall_mem_cons.mp marked
      obtain ⟨_, rfl, own, belongs, rfl⟩ := Language.mem_mul.mp here
      obtain ⟨segments, same, belong⟩ := ih later
      refine ⟨own :: segments, ?_, List.forall_mem_cons.mpr ⟨belongs, belong⟩⟩
      rw [List.flatten_cons, same, List.flatMap_cons]
      rfl
  · rintro ⟨segments, rfl, belong⟩
    refine ⟨segments.map ('_' :: ·), List.flatMap_def .., ?_⟩
    rw [List.forall_mem_map]
    exact fun piece listed => Language.mem_mul.mpr ⟨['_'], rfl, piece, belong piece listed, rfl⟩

theorem join_cons_eq (mark : Char) (piece : List Char) (more : List (List Char)) :
    Text.join mark (piece :: more) = piece ++ more.flatMap (mark :: ·) := by
  induction more generalizing piece with
  | nil => simp [Text.join]
  | cons next more ih => rw [Text.join, ih, List.flatMap_cons, List.cons_append]

/-- What stands between underscores says whether a text has the shape. -/
theorem isSnakeOver_iff_mem_shape (starting : ∀ c, first c = true → member c = true)
    (barred : member '_' = false) :
    isSnakeOver first member text = true ↔ text ∈ snakeShape first member := by
  simp only [isSnakeOver, snakeShape, Bool.and_eq_true, List.all_eq_true, Bool.not_eq_true',
    List.isEmpty_eq_false_iff]
  rw [Language.mem_mul]
  constructor
  · rintro ⟨starts, shaped⟩
    -- The first segment is what comes before any underscore, the others come behind one each.
    have whole := Text.join_split '_' text
    obtain ⟨segment, more, pieces⟩ := List.exists_cons_of_ne_nil (Text.split_ne_nil '_' text)
    rw [pieces, join_cons_eq] at whole
    rw [pieces, List.forall_mem_cons] at shaped
    obtain ⟨⟨some_char, belong⟩, others⟩ := shaped
    obtain ⟨c, rest, rfl⟩ := List.exists_cons_of_ne_nil some_char
    rw [← whole] at starts
    refine ⟨c :: rest, mem_oneOf_mul_kstar.mpr ⟨c, rest, rfl, starts, ?_⟩, _,
      mem_kstar_marked.mpr ⟨more, rfl, ?_⟩, whole⟩
    · exact (List.forall_mem_cons.mp belong).2
    · exact fun piece listed => mem_oneOf_plus.mpr (others piece listed)
  · rintro ⟨front, inFront, tail, marked, rfl⟩
    obtain ⟨c, rest, rfl, starts, belong⟩ := mem_oneOf_mul_kstar.mp inFront
    obtain ⟨more, rfl, others⟩ := mem_kstar_marked.mp marked
    have shaped : ∀ segment ∈ (c :: rest) :: more,
        segment ≠ [] ∧ ∀ d ∈ segment, member d = true := by
      refine List.forall_mem_cons.mpr ⟨⟨List.cons_ne_nil c rest, ?_⟩, ?_⟩
      · exact List.forall_mem_cons.mpr ⟨starting c starts, belong⟩
      · exact fun piece listed => mem_oneOf_plus.mp (others piece listed)
    have free : ∀ segment ∈ (c :: rest) :: more, '_' ∉ segment := by
      intro segment listed underscore
      rw [(shaped segment listed).2 '_' underscore] at barred
      cases barred
    rw [← join_cons_eq, Text.split_join (List.cons_ne_nil _ _) free]
    refine ⟨?_, shaped⟩
    rw [Text.join_cons_cons]
    exact starts

theorem CaseStyle.accepts_iff_mem_shape (style : CaseStyle) (text : List Char) :
    style.accepts text = true ↔ text ∈ style.shape := by
  cases style with
  | camelCase =>
    simp only [accepts, shape, mem_oneOf_mul_kstar]
    cases text with
    | nil => simp [isCamel]
    | cons c rest => simp [isCamel]
  | snakeCase =>
    simp only [accepts, shape, isSnake, Bool.or_eq_true, Language.mem_add]
    refine or_congr (isSnakeOver_iff_mem_shape ?_ rfl) (isSnakeOver_iff_mem_shape ?_ rfl)
    · exact fun c lower => by simp [isLowerAlnum, lower]
    · exact fun c upper => by simp [isUpperAlnum, upper]

end Shapes

section Cuts

/-- A cut behind the current word or a later one, `i` characters further on. -/
def CutAfter (pieces : List Char × List (List Char)) (i : Nat) : Prop :=
  ∃ front back, pieces.2 = front ++ back ∧ back ≠ [] ∧ (pieces.1 ++ front.flatten).length = i

theorem cutAfter_extended (c : Char) (current : List Char) (more : List (List Char)) (i : Nat) :
    CutAfter (c :: current, more) i ↔ ∃ j, i = j + 1 ∧ CutAfter (current, more) j := by
  constructor
  · rintro ⟨front, back, rfl, some_word, rfl⟩
    exact ⟨_, rfl, front, back, rfl, some_word, rfl⟩
  · rintro ⟨j, rfl, front, back, rfl, some_word, rfl⟩
    exact ⟨front, back, rfl, some_word, rfl⟩

theorem cutAfter_opened (c : Char) (current : List Char) (more : List (List Char)) (i : Nat) :
    CutAfter ([], (c :: current) :: more) i ↔
      i = 0 ∨ ∃ j, i = j + 1 ∧ CutAfter (current, more) j := by
  rw [← cutAfter_extended c]
  constructor
  · rintro ⟨front, back, pieces, some_word, rfl⟩
    cases front with
    | nil => exact .inl rfl
    | cons word front =>
      obtain ⟨rfl, rfl⟩ := List.cons.inj pieces
      exact .inr ⟨front, back, rfl, some_word, by simp⟩
  · rintro (rfl | ⟨front, back, rfl, some_word, rfl⟩)
    · exact ⟨[], (c :: current) :: more, rfl, List.cons_ne_nil _ _, rfl⟩
    · exact ⟨(c :: current) :: front, back, rfl, some_word, by simp⟩

theorem cutAfter_cons (before c : Char) (rest : List Char) (i : Nat) :
    CutAfter (humpsAfter before (c :: rest)) i ↔
      (i = 0 ∧ startsWord before c rest = true) ∨
        ∃ j, i = j + 1 ∧ CutAfter (humpsAfter c rest) j := by
  simp only [humpsAfter]
  split
  · next starts => simp only [cutAfter_opened, starts, and_true]
  · next goesOn => simp only [cutAfter_extended, goesOn, Bool.false_eq_true, and_false, false_or]

theorem cutRule_cons_cons (before c : Char) (rest : List Char) (i : Nat) :
    cutRule (before :: c :: rest) (i + 1) = true ↔
      (i = 0 ∧ startsWord before c rest = true) ∨
        ∃ j, i = j + 1 ∧ cutRule (c :: rest) (j + 1) = true := by
  cases i with
  | zero => simp [cutRule, startsWord, List.head?_eq_getElem?]
  | succ i => simp [cutRule]

/-- The walk cuts where the rule says: both go one character further in the same way. -/
theorem cutAfter_iff_cutRule (before : Char) (text : List Char) (i : Nat) :
    CutAfter (humpsAfter before text) i ↔ cutRule (before :: text) (i + 1) = true := by
  induction text generalizing before i with
  | nil =>
    have uncut : ¬ CutAfter (humpsAfter before []) i := by
      rintro ⟨front, back, pieces, some_word, -⟩
      exact some_word (List.append_eq_nil_iff.mp pieces.symm).2
    simp [uncut, cutRule]
  | cons c rest ih => simp only [cutAfter_cons, cutRule_cons_cons, ih]

theorem length_join_lowercase (pieces : List (List Char)) :
    (String.join (pieces.map lowercase)).length = pieces.flatten.length := by
  simp [String.length_join, lowercase, List.length_flatten, Function.comp_def]

theorem cutBefore_cons_iff (c : Char) (current : List Char) (more : List (List Char)) (i : Nat) :
    CutBefore (((c :: current) :: more).map lowercase) i ↔
      ∃ j, i = j + 1 ∧ CutAfter (current, more) j := by
  rw [← cutAfter_extended c]
  constructor
  · rintro ⟨front, back, pieces, some_front, some_back, rfl⟩
    obtain ⟨front, back, whole, rfl, rfl⟩ := List.map_eq_append_iff.mp pieces
    rw [Ne, List.map_eq_nil_iff] at some_front some_back
    obtain ⟨word, front, rfl⟩ := List.exists_cons_of_ne_nil some_front
    obtain ⟨rfl, rfl⟩ := List.cons.inj whole
    exact ⟨front, back, rfl, some_back, (length_join_lowercase ((c :: current) :: front)).symm⟩
  · rintro ⟨front, back, rfl, some_back, rfl⟩
    refine ⟨((c :: current) :: front).map lowercase, back.map lowercase, by simp, by simp, ?_, ?_⟩
    · simpa using some_back
    · exact length_join_lowercase ((c :: current) :: front)

theorem cutBefore_iff_cutRule (text : List Char) (i : Nat) :
    CutBefore ((humps text).map lowercase) i ↔ cutRule text i = true := by
  cases text with
  | nil =>
    have uncut : ¬ CutBefore ((humps []).map lowercase) i := by
      rintro ⟨front, back, pieces, some_front, -⟩
      exact some_front (List.append_eq_nil_iff.mp pieces.symm).1
    simp [uncut, cutRule]
  | cons c rest =>
    simp only [humps, cutBefore_cons_iff]
    cases i with
    | zero => simp [cutRule]
    | succ i => simp [cutAfter_iff_cutRule]

end Cuts

section Words

theorem humpsAfter_nonempty (before : Char) (text : List Char) :
    ∀ word ∈ (humpsAfter before text).2, word ≠ [] := by
  induction text generalizing before with
  | nil => simp [humpsAfter]
  | cons c rest ih =>
    simp only [humpsAfter]
    split
    · exact List.forall_mem_cons.mpr ⟨List.cons_ne_nil _ _, ih c⟩
    · exact ih c

theorem humps_nonempty (text : List Char) : ∀ word ∈ humps text, word ≠ [] := by
  cases text with
  | nil => simp [humps]
  | cons c rest =>
    exact List.forall_mem_cons.mpr ⟨List.cons_ne_nil _ _, humpsAfter_nonempty c rest⟩

theorem humps_flatten (text : List Char) : (humps text).flatten = text := by
  cases text with
  | nil => rfl
  | cons c rest => exact congrArg (c :: ·) (humpsAfter_flatten c rest)

theorem isLowerAlnum_toLower {c : Char} (alphanum : c.isAlphanum = true) :
    isLowerAlnum c.toLower = true :=
  of_isAlphanum (fun c => c.isAlphanum = true → isLowerAlnum c.toLower = true) (by decide)
    alphanum alphanum

theorem isAlphanum_of_isCamel {text : List Char} (camel : isCamel text = true) :
    ∀ c ∈ text, c.isAlphanum = true := by
  cases text with
  | nil => simp
  | cons c rest =>
    obtain ⟨letter, others⟩ := Bool.and_eq_true_iff.mp camel
    exact List.forall_mem_cons.mpr ⟨isAlphanum_of_isAlpha letter, List.all_eq_true.mp others⟩

theorem toLower_eq_lowercase (name : String) : name.toLower = lowercase name.toList := by
  rw [← String.toList_inj, lowercase, String.toList_ofList]
  exact String.toList_map

theorem join_lowercase (pieces : List (List Char)) :
    String.join (pieces.map lowercase) = lowercase pieces.flatten := by
  rw [← String.toList_inj, String.toList_join]
  simp [lowercase, List.map_flatten, List.flatMap_def, Function.comp_def]

theorem intercalate_lowercase (pieces : List (List Char)) :
    "_".intercalate (pieces.map lowercase) = lowercase (Text.join '_' pieces) := by
  rw [← String.toList_inj, String.toList_intercalate]
  induction pieces with
  | nil => rfl
  | cons piece more ih =>
    cases more with
    | nil => simp [lowercase, Text.join]
    | cons next more =>
      simp only [List.map_cons, List.intercalate_cons_cons] at ih ⊢
      rw [ih]
      simp [lowercase, Text.join]

theorem isSnakeOver_iff {first member : Char → Bool} {text : List Char} :
    isSnakeOver first member text = true ↔
      (∀ segment ∈ Text.split '_' text, segment ≠ []) ∧
      (∀ segment ∈ Text.split '_' text, ∀ c ∈ segment, member c = true) ∧
      ∃ c ∈ text.head?, first c = true := by
  simp only [isSnakeOver, Bool.and_eq_true, List.all_eq_true, Bool.not_eq_true',
    List.isEmpty_eq_false_iff, forall_and, Option.any_eq_true, Option.mem_def]
  tauto

end Words

open CaseStyle

/-- Segmentation is lossless and cuts by its rules. A style finds words in the texts of its shape
and in no other. Those of camel case are the whole name in lowercase, cut by the rule for cuts;
snake case is told by the segments between underscores, which are its words. -/
theorem segmentation_exact (name : String) :
    (∀ style : CaseStyle, (style.accepts name.toList = true ↔ name.toList ∈ style.shape) ∧
      (style.words? name).isSome = style.accepts name.toList) ∧
    (camelCase.accepts name.toList = true → ∃ tokens, camelCase.words? name = some tokens ∧
      (∀ token ∈ tokens, token ≠ "" ∧ ∀ c ∈ token.toList, isLowerAlnum c = true) ∧
      String.join tokens = name.toLower ∧
      ∀ i, CutBefore tokens i ↔ cutRule name.toList i = true) ∧
    (snakeCase.accepts name.toList = true ↔
      (∀ segment ∈ Text.split '_' name.toList, segment ≠ []) ∧
      ((∀ segment ∈ Text.split '_' name.toList, ∀ c ∈ segment, isLowerAlnum c = true) ∧
          (∃ c ∈ name.toList.head?, c.isLower = true) ∨
        (∀ segment ∈ Text.split '_' name.toList, ∀ c ∈ segment, isUpperAlnum c = true) ∧
          ∃ c ∈ name.toList.head?, c.isUpper = true)) ∧
    (snakeCase.accepts name.toList = true → ∃ tokens, snakeCase.words? name = some tokens ∧
      tokens = (Text.split '_' name.toList).map lowercase ∧
      "_".intercalate tokens = name.toLower) := by
  refine ⟨fun style => ⟨style.accepts_iff_mem_shape _, words?_isSome⟩, ?_, ?_, ?_⟩
  · intro camel
    refine ⟨(humps name.toList).map lowercase, if_pos camel, ?_, ?_, cutBefore_iff_cutRule _⟩
    · rw [List.forall_mem_map]
      intro word listed
      refine ⟨?_, ?_⟩
      · simpa [lowercase] using humps_nonempty _ word listed
      · simp only [lowercase, String.toList_ofList, List.forall_mem_map]
        intro c inside
        have held : c ∈ (humps name.toList).flatten := List.mem_flatten.mpr ⟨word, listed, inside⟩
        rw [humps_flatten] at held
        exact isLowerAlnum_toLower (isAlphanum_of_isCamel camel c held)
    · rw [join_lowercase, humps_flatten, toLower_eq_lowercase]
  · simp only [accepts, isSnake, Bool.or_eq_true, isSnakeOver_iff, ← and_or_left]
  · intro snake
    refine ⟨_, if_pos snake, rfl, ?_⟩
    rw [segments, intercalate_lowercase, Text.join_split, toLower_eq_lowercase]

theorem segmentation_exact_at_acronym :
    (camelCase.accepts "getHTTPServer".toList = true ∧
      camelCase.words? "getHTTPServer" = some ["get", "http", "server"] ∧
      String.join ["get", "http", "server"] = "getHTTPServer".toLower ∧
      CutBefore ["get", "http", "server"] 7 ∧ ¬ CutBefore ["get", "http", "server"] 4) ∧
    snakeCase.accepts "MAX_2_SIZE".toList = true ∧
      snakeCase.words? "MAX_2_SIZE" = some ["max", "2", "size"] ∧
      "_".intercalate ["max", "2", "size"] = "MAX_2_SIZE".toLower := by
  obtain ⟨-, camel, -, -⟩ := segmentation_exact "getHTTPServer"
  obtain ⟨-, -, -, snake⟩ := segmentation_exact "MAX_2_SIZE"
  have camelWords : camelCase.words? "getHTTPServer" = some ["get", "http", "server"] := by decide
  have snakeWords : snakeCase.words? "MAX_2_SIZE" = some ["max", "2", "size"] := by decide
  obtain ⟨tokens, found, -, joined, cuts⟩ := camel (by decide)
  obtain rfl : ["get", "http", "server"] = tokens := Option.some.inj (camelWords.symm.trans found)
  obtain ⟨tokens, found, -, spaced⟩ := snake (by decide)
  obtain rfl : ["max", "2", "size"] = tokens := Option.some.inj (snakeWords.symm.trans found)
  have cut := (cuts 7).mpr (by decide)
  have uncut := mt (cuts 4).mp (by decide)
  exact ⟨⟨by decide, camelWords, joined, cut, uncut⟩, by decide, snakeWords, spaced⟩

end CodeRubric.Name
