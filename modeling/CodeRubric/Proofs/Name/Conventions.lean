import CodeRubric.Proofs.Name.Target

/-! Naming conventions. Segmentation finds the words again that a name was made of, whether they are
told apart by capitals or by underscores, so that names made of the same words are alike whatever
the convention and the order. -/
namespace CodeRubric.Name

/-- A lowercase letter, then lowercase letters and digits, at least one. -/
def IsWord (word : List Char) : Prop :=
  ∃ first rest, word = first :: rest ∧ first.isLower = true ∧ rest ≠ [] ∧
    ∀ c ∈ rest, isLowerAlnum c = true

def capitalized : List Char → List Char
  | [] => []
  | first :: rest => first.toUpper :: rest

inductive Convention where
  /-- `lowerCamelCase`. -/
  | lowerCamel
  /-- `PascalCase`. -/
  | pascal
  /-- `snake_case`. -/
  | snake
  /-- `SCREAMING_SNAKE_CASE`. -/
  | screamingSnake
deriving DecidableEq, Repr

namespace Convention

/-- The words put together into one text. -/
def joined : Convention → List (List Char) → List Char
  | .lowerCamel, [] => []
  | .lowerCamel, first :: more => first ++ more.flatMap capitalized
  | .pascal, words => words.flatMap capitalized
  | .snake, words => Text.join '_' words
  | .screamingSnake, words => Text.join '_' (words.map (List.map Char.toUpper))

def render (convention : Convention) (words : List String) : String :=
  String.ofList (convention.joined (words.map String.toList))

/-- A single word in capitals has no underscore to show for its convention. -/
def Suits {α : Type} : Convention → List α → Prop
  | .screamingSnake, words => 2 ≤ words.length
  | _, _ => True

end Convention

section Characters

variable {c : Char}

theorem isAlpha_of_isLower (lower : c.isLower = true) : c.isAlpha = true :=
  Bool.or_eq_true_iff.mpr (.inr lower)

theorem isAlphanum_of_isAlpha (letter : c.isAlpha = true) : c.isAlphanum = true :=
  Bool.or_eq_true_iff.mpr (.inl letter)

theorem isAlphanum_of_isDigit (digit : c.isDigit = true) : c.isAlphanum = true :=
  Bool.or_eq_true_iff.mpr (.inr digit)

theorem isLowerAlnum_of_isLower (lower : c.isLower = true) : isLowerAlnum c = true :=
  Bool.or_eq_true_iff.mpr (.inl lower)

theorem isAlphanum_of_isLowerAlnum (small : isLowerAlnum c = true) : c.isAlphanum = true := by
  rcases Bool.or_eq_true_iff.mp small with lower | digit
  · exact isAlphanum_of_isAlpha (isAlpha_of_isLower lower)
  · exact isAlphanum_of_isDigit digit

theorem toNat_le_of_isAlphanum (alphanum : c.isAlphanum = true) : c.toNat ≤ 'z'.toNat := by
  rcases Bool.or_eq_true_iff.mp alphanum with letter | digit
  · rcases Bool.or_eq_true_iff.mp letter with upper | lower
    · have last : c.toNat ≤ 'Z'.toNat := UInt32.le_iff_toNat_le.mp (of_decide_eq_true upper).2
      exact Nat.le_trans last (by decide)
    · obtain ⟨-, last⟩ := Bool.and_eq_true_iff.mp lower
      exact UInt32.le_iff_toNat_le.mp (of_decide_eq_true last)
  · obtain ⟨-, last⟩ := Char.isDigit_iff_toNat.mp digit
    exact Nat.le_trans last (by decide)

/-- Letters and digits have small codes, so that what holds of all of them can be checked on one
after the other. -/
theorem of_isAlphanum (motive : Char → Prop) (each : ∀ code ≤ 'z'.toNat, motive (Char.ofNat code))
    (alphanum : c.isAlphanum = true) : motive c := by
  rw [← Char.ofNat_toNat c]
  exact each c.toNat (toNat_le_of_isAlphanum alphanum)

theorem not_isUpper_of_isLowerAlnum (small : isLowerAlnum c = true) : c.isUpper = false :=
  of_isAlphanum (fun c => isLowerAlnum c = true → c.isUpper = false) (by decide)
    (isAlphanum_of_isLowerAlnum small) small

theorem toLower_of_isLowerAlnum (small : isLowerAlnum c = true) : c.toLower = c :=
  of_isAlphanum (fun c => isLowerAlnum c = true → c.toLower = c) (by decide)
    (isAlphanum_of_isLowerAlnum small) small

theorem isUpperAlnum_toUpper (small : isLowerAlnum c = true) : isUpperAlnum c.toUpper = true :=
  of_isAlphanum (fun c => isLowerAlnum c = true → isUpperAlnum c.toUpper = true) (by decide)
    (isAlphanum_of_isLowerAlnum small) small

theorem isUpper_toUpper (lower : c.isLower = true) : c.toUpper.isUpper = true :=
  of_isAlphanum (fun c => c.isLower = true → c.toUpper.isUpper = true) (by decide)
    (isAlphanum_of_isAlpha (isAlpha_of_isLower lower)) lower

theorem isAlpha_toUpper (lower : c.isLower = true) : c.toUpper.isAlpha = true :=
  Bool.or_eq_true_iff.mpr (.inl (isUpper_toUpper lower))

theorem toLower_toUpper (c : Char) : c.toUpper.toLower = c.toLower := by
  by_cases lower : c.isLower = true
  · exact of_isAlphanum (fun c => c.toUpper.toLower = c.toLower) (by decide)
      (isAlphanum_of_isAlpha (isAlpha_of_isLower lower))
  · have same : c.toUpper = c := dif_neg fun ⟨start, stop⟩ =>
      lower (Bool.and_eq_true_iff.mpr ⟨decide_eq_true start, decide_eq_true stop⟩)
    rw [same]

end Characters

namespace IsWord

variable {word : List Char}

theorem members (spelled : IsWord word) : ∀ c ∈ word, isLowerAlnum c = true := by
  obtain ⟨first, rest, rfl, lower, -, small⟩ := spelled
  exact List.forall_mem_cons.mpr ⟨isLowerAlnum_of_isLower lower, small⟩

theorem map_toLower (spelled : IsWord word) : word.map Char.toLower = word := by
  have fixed : word.map Char.toLower = word.map id :=
    List.map_congr_left fun c member => toLower_of_isLowerAlnum (spelled.members c member)
  rw [fixed, List.map_id]

theorem lowercase_eq (spelled : IsWord word) : lowercase word = String.ofList word := by
  rw [lowercase, spelled.map_toLower]

theorem lowercase_capitalized (spelled : IsWord word) :
    lowercase (capitalized word) = String.ofList word := by
  rw [← spelled.lowercase_eq]
  obtain ⟨first, rest, rfl, -⟩ := spelled
  simp only [lowercase, capitalized, List.map_cons, toLower_toUpper]

theorem lowercase_toUpper (spelled : IsWord word) :
    lowercase (word.map Char.toUpper) = String.ofList word := by
  rw [← spelled.lowercase_eq]
  simp only [lowercase, List.map_map, Function.comp_def, toLower_toUpper]

end IsWord

section Walk

variable {tail : List Char} {more : List (List Char)}
  (starts : ∀ before : Char, before.isUpper = false → humpsAfter before tail = ([], more))
include starts

/-- What is no capital goes on with the current word. -/
theorem humpsAfter_append {plain : List Char} (small : ∀ c ∈ plain, c.isUpper = false)
    {before : Char} (between : plain = [] → before.isUpper = false) :
    humpsAfter before (plain ++ tail) = (plain, more) := by
  induction plain generalizing before with
  | nil => exact starts before (between rfl)
  | cons c rest ih =>
    have plainHead : c.isUpper = false := small c List.mem_cons_self
    have inner := ih (fun d member => small d (List.mem_cons_of_mem _ member)) fun _ => plainHead
    simp [humpsAfter, startsWord, plainHead, inner]

/-- The rest of a word is not empty, so that its last character is no capital, whatever the first
one is. -/
theorem humpsAfter_rest {rest : List Char} (some_more : rest ≠ [])
    (small : ∀ c ∈ rest, isLowerAlnum c = true) (first : Char) :
    humpsAfter first (rest ++ tail) = (rest, more) := by
  apply humpsAfter_append starts
  · exact fun c member => not_isUpper_of_isLowerAlnum (small c member)
  · exact fun empty => absurd empty some_more

end Walk

section Camel

/-- The capital of a word starts a hump, since no word before it is a capital alone. -/
theorem humpsAfter_capitalized {words : List (List Char)} (spelled : ∀ word ∈ words, IsWord word)
    {before : Char} (between : before.isUpper = false) :
    humpsAfter before (words.flatMap capitalized) = ([], words.map capitalized) := by
  induction words generalizing before with
  | nil => rfl
  | cons word more ih =>
    obtain ⟨⟨first, rest, rfl, lower, some_more, small⟩, later⟩ := List.forall_mem_cons.mp spelled
    have capital := isUpper_toUpper lower
    have inner := humpsAfter_rest (fun _ => ih later) some_more small first.toUpper
    simp [capitalized, humpsAfter, startsWord, between, capital, inner]

theorem humps_capitalized {first : Char} {rest : List Char} (some_more : rest ≠ [])
    (small : ∀ c ∈ rest, isLowerAlnum c = true) {more : List (List Char)}
    (spelled : ∀ word ∈ more, IsWord word) :
    humps (first :: (rest ++ more.flatMap capitalized)) =
      (first :: rest) :: more.map capitalized := by
  have inner := humpsAfter_rest (fun _ => humpsAfter_capitalized spelled) some_more small first
  simp [humps, inner]

theorem isAlphanum_capitalized {words : List (List Char)} (spelled : ∀ word ∈ words, IsWord word) :
    ∀ c ∈ words.flatMap capitalized, c.isAlphanum = true := by
  intro c member
  obtain ⟨word, listed, member⟩ := List.mem_flatMap.mp member
  obtain ⟨first, rest, rfl, lower, -, small⟩ := spelled word listed
  rcases List.mem_cons.mp member with rfl | later
  · exact isAlphanum_of_isAlpha (isAlpha_toUpper lower)
  · exact isAlphanum_of_isLowerAlnum (small c later)

/-- A text whose first word is followed by capitalized ones is cut into these words, whatever the
case of its first letter. -/
theorem words?_camel {first : Char} (letter : first.isAlpha = true) {rest : List Char}
    (some_more : rest ≠ []) (small : ∀ c ∈ rest, isLowerAlnum c = true) {more : List (List Char)}
    (spelled : ∀ word ∈ more, IsWord word) :
    words? (String.ofList (first :: (rest ++ more.flatMap capitalized))) =
      some (lowercase (first :: rest) :: more.map String.ofList) := by
  have accepted : isCamel (first :: (rest ++ more.flatMap capitalized)) = true := by
    refine Bool.and_eq_true_iff.mpr ⟨letter, List.all_eq_true.mpr ?_⟩
    refine List.forall_mem_append.mpr ⟨?_, isAlphanum_capitalized spelled⟩
    exact fun c member => isAlphanum_of_isLowerAlnum (small c member)
  have lowered : (more.map capitalized).map lowercase = more.map String.ofList := by
    rw [List.map_map]
    exact List.map_congr_left fun word listed => (spelled word listed).lowercase_capitalized
  simp [words?, CaseStyle.words?, CaseStyle.accepts, CaseStyle.segments, accepted,
    humps_capitalized some_more small spelled, ← lowered]

end Camel

section Snake

theorem not_isCamel_of_underscore {text : List Char} (underscore : '_' ∈ text) :
    isCamel text = false := by
  cases text with
  | nil => rfl
  | cons c rest =>
    apply Bool.eq_false_iff.mpr
    intro accepted
    obtain ⟨letter, others⟩ := Bool.and_eq_true_iff.mp accepted
    rcases List.mem_cons.mp underscore with rfl | later
    · exact absurd letter (by decide)
    · exact absurd (List.all_eq_true.mp others _ later) (by decide)

variable {first member : Char → Bool} {segments : List (List Char)}

theorem isSnakeOver_join (some_segment : segments ≠ []) (free : ∀ segment ∈ segments, '_' ∉ segment)
    (shaped : ∀ segment ∈ segments, segment.head?.any first = true ∧ segment.all member = true) :
    isSnakeOver first member (Text.join '_' segments) = true := by
  rw [isSnakeOver, Text.split_join some_segment free]
  refine Bool.and_eq_true_iff.mpr ⟨?_, List.all_eq_true.mpr ?_⟩
  · obtain ⟨segment, more, rfl⟩ := List.exists_cons_of_ne_nil some_segment
    have starts := (shaped segment List.mem_cons_self).1
    cases segment with
    | nil => cases starts
    | cons c rest => rwa [Text.join_cons_cons]
  · intro segment listed
    obtain ⟨starts, members⟩ := shaped segment listed
    cases segment with
    | nil => cases starts
    | cons c rest => exact members

/-- Two or more segments of one case, told apart by underscores, are cut at these and nowhere
else. -/
theorem words?_join (oneCase : ∀ text, isSnakeOver first member text = true → isSnake text = true)
    (barred : member '_' = false) (two : 2 ≤ segments.length)
    (shaped : ∀ segment ∈ segments, segment.head?.any first = true ∧ segment.all member = true) :
    words? (String.ofList (Text.join '_' segments)) = some (segments.map lowercase) := by
  have free : ∀ segment ∈ segments, '_' ∉ segment := by
    intro segment listed underscore
    rw [List.all_eq_true.mp (shaped segment listed).2 _ underscore] at barred
    cases barred
  match segments, two with
  | segment :: next :: more, _ =>
    have some_segment := List.cons_ne_nil segment (next :: more)
    have accepted := oneCase _ (isSnakeOver_join some_segment free shaped)
    have cut := Text.split_join some_segment free
    have underscore : '_' ∈ Text.join '_' (segment :: next :: more) := by simp [Text.join]
    simp [words?, CaseStyle.words?, CaseStyle.accepts, CaseStyle.segments, accepted, cut,
      not_isCamel_of_underscore underscore]

end Snake

namespace Convention

variable {words : List (List Char)}

theorem words?_lowerCamel (some_word : words ≠ []) (spelled : ∀ word ∈ words, IsWord word) :
    words? (String.ofList (lowerCamel.joined words)) = some (words.map String.ofList) := by
  obtain ⟨word, more, rfl⟩ := List.exists_cons_of_ne_nil some_word
  obtain ⟨word_spelled, later⟩ := List.forall_mem_cons.mp spelled
  have lowered := word_spelled.lowercase_eq
  obtain ⟨first, rest, rfl, lower, some_more, small⟩ := word_spelled
  rw [joined, List.cons_append, words?_camel (isAlpha_of_isLower lower) some_more small later,
    lowered, List.map_cons]

theorem words?_pascal (some_word : words ≠ []) (spelled : ∀ word ∈ words, IsWord word) :
    words? (String.ofList (pascal.joined words)) = some (words.map String.ofList) := by
  obtain ⟨word, more, rfl⟩ := List.exists_cons_of_ne_nil some_word
  obtain ⟨word_spelled, later⟩ := List.forall_mem_cons.mp spelled
  have lowered := word_spelled.lowercase_capitalized
  obtain ⟨first, rest, rfl, lower, some_more, small⟩ := word_spelled
  rw [capitalized] at lowered
  rw [joined, List.flatMap_cons, capitalized, List.cons_append,
    words?_camel (isAlpha_toUpper lower) some_more small later, lowered, List.map_cons]

theorem words?_snake (two : 2 ≤ words.length) (spelled : ∀ word ∈ words, IsWord word) :
    words? (String.ofList (snake.joined words)) = some (words.map String.ofList) := by
  have shaped : ∀ word ∈ words,
      word.head?.any Char.isLower = true ∧ word.all isLowerAlnum = true := by
    intro word listed
    have small := List.all_eq_true.mpr (spelled word listed).members
    obtain ⟨first, rest, rfl, lower, -⟩ := spelled word listed
    exact ⟨lower, small⟩
  have lowered : words.map lowercase = words.map String.ofList :=
    List.map_congr_left fun word listed => (spelled word listed).lowercase_eq
  rw [joined, words?_join (fun _ => Bool.or_eq_true_iff.mpr ∘ .inl) rfl two shaped, lowered]

theorem words?_screamingSnake (two : 2 ≤ words.length) (spelled : ∀ word ∈ words, IsWord word) :
    words? (String.ofList (screamingSnake.joined words)) = some (words.map String.ofList) := by
  have shaped : ∀ segment ∈ words.map (List.map Char.toUpper),
      segment.head?.any Char.isUpper = true ∧ segment.all isUpperAlnum = true := by
    rw [List.forall_mem_map]
    intro word listed
    have large : (word.map Char.toUpper).all isUpperAlnum = true := by
      rw [List.all_map]
      exact List.all_eq_true.mpr fun c member =>
        isUpperAlnum_toUpper ((spelled word listed).members c member)
    obtain ⟨first, rest, rfl, lower, -⟩ := spelled word listed
    exact ⟨isUpper_toUpper lower, large⟩
  have lowered : (words.map (List.map Char.toUpper)).map lowercase = words.map String.ofList := by
    rw [List.map_map]
    exact List.map_congr_left fun word listed => (spelled word listed).lowercase_toUpper
  rw [joined, words?_join (fun _ => Bool.or_eq_true_iff.mpr ∘ .inr) rfl
    (by rwa [List.length_map]) shaped, lowered]

theorem words?_joined {convention : Convention} (some_word : words ≠ [])
    (spelled : ∀ word ∈ words, IsWord word) (suits : convention.Suits words) :
    words? (String.ofList (convention.joined words)) = some (words.map String.ofList) := by
  cases convention with
  | lowerCamel => exact words?_lowerCamel some_word spelled
  | pascal => exact words?_pascal some_word spelled
  | snake =>
    match words, some_word with
    | [word], some_word =>
      -- There is no underscore in a single word, which is one in camel case.
      simpa [joined, Text.join] using words?_lowerCamel some_word spelled
    | _ :: _ :: _, _ => exact words?_snake (by simp) spelled
  | screamingSnake => exact words?_screamingSnake suits spelled

theorem words?_render {convention : Convention} {words : List String} (some_word : words ≠ [])
    (spelled : ∀ word ∈ words, IsWord word.toList) (suits : convention.Suits words) :
    words? (convention.render words) = some words := by
  have restored : (words.map String.toList).map String.ofList = words := by
    simp [Function.comp_def]
  have kept : convention.Suits (words.map String.toList) := by
    cases convention with
    | screamingSnake => rwa [Suits, List.length_map]
    | _ => trivial
  rw [render, words?_joined (by simpa using some_word) (by simpa using spelled) kept, restored]

-- A single word in capitals is read in camel case, where a capital after a digit starts a word.
example : words? (screamingSnake.render ["a1b"]) = some ["a1", "b"] := by decide

end Convention

open Convention

/-- Segmentation finds the words again of which a name was made by any convention, and so names made
of the same words, in whatever order, are alike. -/
theorem segmentation_undoes_conventions {words : List String} (some_word : words ≠ [])
    (spelled : ∀ word ∈ words, IsWord word.toList) :
    (words? (lowerCamel.render words) = some words ∧ words? (pascal.render words) = some words ∧
      words? (snake.render words) = some words ∧
      (2 ≤ words.length → words? (screamingSnake.render words) = some words)) ∧
    ∀ (others : List String) (left right : Convention), others.Perm words → left.Suits words →
      right.Suits others →
        isLike .equivalent (left.render words) (right.render others) = true := by
  refine ⟨⟨?_, ?_, ?_, ?_⟩, ?_⟩
  · exact words?_render some_word spelled trivial
  · exact words?_render some_word spelled trivial
  · exact words?_render some_word spelled trivial
  · intro two
    have suits : screamingSnake.Suits words := two
    exact words?_render some_word spelled suits
  · intro others left right reordered leftSuits rightSuits
    have some_other : others ≠ [] := fun empty => some_word (List.nil_perm.mp (empty ▸ reordered))
    have spelledOthers : ∀ word ∈ others, IsWord word.toList :=
      fun word listed => spelled word (reordered.subset listed)
    exact isLike_iff.mpr ⟨words, others, words?_render some_word spelled leftSuits,
      words?_render some_other spelledOthers rightSuits, List.isPerm_iff.mpr reordered.symm⟩

theorem segmentation_undoes_conventions_at_server :
    let words := ["http2", "server", "id"]
    (∀ word ∈ words, IsWord word.toList) ∧
    (lowerCamel.render words = "http2ServerId" ∧ words? "http2ServerId" = some words) ∧
    (pascal.render words = "Http2ServerId" ∧ words? "Http2ServerId" = some words) ∧
    (snake.render words = "http2_server_id" ∧ words? "http2_server_id" = some words) ∧
    (screamingSnake.render words = "HTTP2_SERVER_ID" ∧ words? "HTTP2_SERVER_ID" = some words) ∧
    isLike .equivalent "http2ServerId" "SERVER_ID_HTTP2" = true := by
  intro words
  have spelled : ∀ word ∈ words, IsWord word.toList := by
    simp only [words, List.forall_mem_cons, List.not_mem_nil, false_implies, implies_true, and_true]
    exact ⟨⟨'h', ['t', 't', 'p', '2'], rfl, by simp [isLowerAlnum]⟩,
      ⟨'s', ['e', 'r', 'v', 'e', 'r'], rfl, by simp [isLowerAlnum]⟩,
      ⟨'i', ['d'], rfl, by simp [isLowerAlnum]⟩⟩
  have lowerText : lowerCamel.render words = "http2ServerId" := by decide
  have pascalText : pascal.render words = "Http2ServerId" := by decide
  have snakeText : snake.render words = "http2_server_id" := by decide
  have screamingText : screamingSnake.render words = "HTTP2_SERVER_ID" := by decide
  have otherText : screamingSnake.render ["server", "id", "http2"] = "SERVER_ID_HTTP2" := by decide
  have suits : screamingSnake.Suits ["server", "id", "http2"] := (by decide : 2 ≤ 3)
  have reordered : ["server", "id", "http2"].Perm words := by decide
  obtain ⟨⟨lower, pascal, snake, screaming⟩, alike⟩ :=
    segmentation_undoes_conventions (List.cons_ne_nil _ _) spelled
  have same := alike _ .lowerCamel .screamingSnake reordered trivial suits
  rw [lowerText, otherText] at same
  exact ⟨spelled, ⟨lowerText, lowerText ▸ lower⟩, ⟨pascalText, pascalText ▸ pascal⟩,
    ⟨snakeText, snakeText ▸ snake⟩, ⟨screamingText, screamingText ▸ screaming (by decide)⟩, same⟩

end CodeRubric.Name
