/-! Cutting a text at every occurrence of a character, and the joining that undoes it. -/
namespace CodeRubric.Text

/-- The pieces between the occurrences of `mark`; a text without `mark` is one piece. -/
def split (mark : Char) : List Char → List (List Char)
  | [] => [[]]
  | c :: rest =>
    if c = mark then [] :: split mark rest
    else match split mark rest with
      | [] => [[c]]
      | piece :: more => (c :: piece) :: more

/-- The pieces put back together with `mark` between neighbours. -/
def join (mark : Char) : List (List Char) → List Char
  | [] => []
  | [piece] => piece
  | piece :: next :: more => piece ++ mark :: join mark (next :: more)

theorem split_ne_nil (mark : Char) (text : List Char) : split mark text ≠ [] := by
  induction text with
  | nil => simp [split]
  | cons c rest ih =>
    by_cases cut : c = mark
    · simp [split, cut]
    · cases pieces : split mark rest <;> simp [split, cut, pieces]

theorem join_cons_cons (mark c : Char) (piece : List Char) (more : List (List Char)) :
    join mark ((c :: piece) :: more) = c :: join mark (piece :: more) := by
  cases more <;> simp [join]

theorem join_split (mark : Char) (text : List Char) : join mark (split mark text) = text := by
  induction text with
  | nil => rfl
  | cons c rest ih =>
    cases pieces : split mark rest with
    | nil => exact absurd pieces (split_ne_nil mark rest)
    | cons piece more =>
      rw [pieces] at ih
      by_cases cut : c = mark
      · simp [split, cut, pieces, join, ih]
      · simp [split, cut, pieces, join_cons_cons, ih]

theorem split_of_notMem {mark : Char} {piece : List Char} (free : mark ∉ piece) :
    split mark piece = [piece] := by
  induction piece with
  | nil => rfl
  | cons c rest ih =>
    simp only [List.mem_cons, not_or] at free
    simp [split, Ne.symm free.1, ih free.2]

theorem split_append_mark {mark : Char} {piece : List Char} (free : mark ∉ piece)
    (rest : List Char) : split mark (piece ++ mark :: rest) = piece :: split mark rest := by
  induction piece with
  | nil => simp [split]
  | cons c piece ih =>
    simp only [List.mem_cons, not_or] at free
    simp [split, Ne.symm free.1, ih free.2]

theorem split_join {mark : Char} {pieces : List (List Char)} (some_piece : pieces ≠ [])
    (free : ∀ piece ∈ pieces, mark ∉ piece) : split mark (join mark pieces) = pieces := by
  induction pieces with
  | nil => exact absurd rfl some_piece
  | cons piece more ih =>
    cases more with
    | nil => exact split_of_notMem (free piece (by simp))
    | cons next more =>
      rw [join, split_append_mark (free piece (by simp)),
        ih (by simp) fun p member => free p (by simp [member])]

end CodeRubric.Text
