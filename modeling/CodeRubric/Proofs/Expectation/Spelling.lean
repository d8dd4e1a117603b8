import CodeRubric.Expectation.Compile

/-! How the parts of a rubric line are spelled, and that they are read back: dotted paths as scopes,
with and without the keyword, and `Not:` in front of an inspection. What is read decides the
verdict. -/
namespace CodeRubric

theorem bind_eq_ok {ε α β : Type} {first : Except ε α} {next : α → Except ε β} {value : β} :
    (first >>= next) = .ok value ↔ ∃ x, first = .ok x ∧ next x = .ok value := by
  cases first with
  | error fault => simp [bind, Except.bind]
  | ok x => simp [bind, Except.bind]

theorem Text.notMem_join {mark separator : Char} (other : mark ≠ separator)
    {pieces : List (List Char)} (free : ∀ piece ∈ pieces, mark ∉ piece) :
    mark ∉ Text.join separator pieces := by
  induction pieces with
  | nil => simp [Text.join]
  | cons piece more ih =>
    cases more with
    | nil => exact free piece (by simp)
    | cons next more =>
      have later := ih fun p member => free p (List.mem_cons_of_mem _ member)
      simp only [Text.join, List.mem_append, List.mem_cons, not_or]
      exact ⟨free piece (by simp), other, later⟩

namespace Scope

def dotted (path : List String) : String :=
  String.ofList (Text.join '.' (path.map String.toList))

/-- Paths that can be written down: at least one segment, none empty and none with a mark in it. -/
structure Spellable (path : List String) : Prop where
  some_segment : path ≠ []
  nonempty : ∀ segment ∈ path, segment ≠ ""
  free : ∀ segment ∈ path, '.' ∉ segment.toList ∧ ':' ∉ segment.toList

theorem Spellable.sublist {path part : List String} (spelled : Spellable path)
    (some_segment : part ≠ []) (within : part.Sublist path) : Spellable part where
  some_segment := some_segment
  nonempty segment member := spelled.nonempty segment (within.subset member)
  free segment member := spelled.free segment (within.subset member)

variable {path : List String}

theorem Spellable.path?_dotted (spelled : Spellable path) :
    path? (dotted path).toList = some path := by
  have pieces : Text.split '.' (Text.join '.' (path.map String.toList)) =
      path.map String.toList := by
    apply Text.split_join
    · simpa using spelled.some_segment
    · intro piece member
      obtain ⟨segment, listed, rfl⟩ := List.mem_map.mp member
      exact (spelled.free segment listed).1
  have nonempty : (path.map String.toList).any List.isEmpty = false := by
    simpa using spelled.nonempty
  simp [path?, dotted, pieces, nonempty]

theorem Spellable.colon_free (spelled : Spellable path) : ':' ∉ (dotted path).toList := by
  rw [dotted, String.toList_ofList]
  apply Text.notMem_join (by decide)
  intro piece member
  obtain ⟨segment, listed, rfl⟩ := List.mem_map.mp member
  exact (spelled.free segment listed).2

theorem Spellable.dotted_ne_nil (spelled : Spellable path) : (dotted path).toList ≠ [] := by
  intro empty
  have read := spelled.path?_dotted
  rw [empty] at read
  cases read

theorem Spellable.parse_dotted (spelled : Spellable path) :
    Scope.parse (dotted path) = .ok (.transitive path) := by
  cases text : (dotted path).toList with
  | nil => exact absurd text spelled.dotted_ne_nil
  | cons c more =>
    have whole : Text.split ':' (c :: more) = [c :: more] :=
      Text.split_of_notMem (text ▸ spelled.colon_free)
    have read := spelled.path?_dotted
    rw [text] at read
    simp [Scope.parse, parse?, text, whole, read]

theorem Spellable.parse_intransitive (spelled : Spellable path) :
    Scope.parse ("Intransitive:" ++ dotted path) = .ok (.intransitive path) := by
  have pieces : Text.split ':' ("Intransitive:" ++ dotted path).toList =
      ["Intransitive".toList, (dotted path).toList] := by
    have keyword : "Intransitive:".toList = "Intransitive".toList ++ [':'] := by decide
    rw [String.toList_append, keyword, List.append_assoc, List.singleton_append,
      Text.split_append_mark (by decide), Text.split_of_notMem spelled.colon_free]
  simp only [Scope.parse, parse?, pieces, if_true, spelled.path?_dotted, Option.map_some]

theorem parse_empty : Scope.parse "" = .ok .program := rfl

end Scope

namespace Question

/-- The text of a spec is only used in complaints about it. -/
theorem queryOf_of_ok {spec : String} {parts : List (List Char)} {query : Query}
    (read : queryOf spec parts = .ok query) (other : String) : queryOf other parts = .ok query := by
  unfold queryOf at read ⊢
  split at read
  · exact read
  · split at read <;> rename_i arity
    · rwa [if_pos arity]
    · obtain ⟨asked, found, read⟩ := bind_eq_ok.mp read
      rw [if_neg arity, found]
      split at read
      · exact read
      · cases read
  · cases read

theorem takeNot_not (parts : List (List Char)) :
    takeNot ("Not".toList :: parts) = (true, parts) := by
  simp [takeNot]

theorem eq_of_takeNot_eq_false {parts rest : List (List Char)}
    (taken : takeNot parts = (false, rest)) : rest = parts := by
  cases parts with
  | nil => simpa [takeNot, eq_comm] using taken
  | cons part more =>
    by_cases isNot : part = "Not".toList <;> simp_all [takeNot]

theorem parse_not {spec : String} {query : Query} (read : parse spec = .ok ⟨false, query⟩) :
    parse ("Not:" ++ spec) = .ok ⟨true, query⟩ := by
  have pieces : Text.split ':' ("Not:" ++ spec).toList =
      "Not".toList :: Text.split ':' spec.toList := by
    have keyword : "Not:".toList = "Not".toList ++ [':'] := by decide
    rw [String.toList_append, keyword, List.append_assoc, List.singleton_append,
      Text.split_append_mark (by decide)]
  cases taken : takeNot (Text.split ':' spec.toList) with
  | mk negated parts =>
    unfold parse at read ⊢
    rw [taken] at read
    rw [pieces, takeNot_not]
    obtain ⟨answer, found, same⟩ := bind_eq_ok.mp read
    obtain ⟨rfl, rfl⟩ := Question.mk.inj (Except.ok.inj same)
    rw [eq_of_takeNot_eq_false taken] at found
    exact bind_eq_ok.mpr ⟨answer, queryOf_of_ok found _, rfl⟩

end Question

namespace Expectation

variable {config : CompilerConfig} {tree : Expression} {scope spec : String} {place : Scope}
  {query : Query}

/-- The line of a rubric with this scope and this inspection is satisfied. -/
def Met (config : CompilerConfig) (tree : Expression) (scope spec : String) : Prop :=
  Expectation.compile config ⟨scope, spec⟩ tree = true

theorem compile_of_parsed {question : Question} (placed : Scope.parse scope = .ok place)
    (asked : Question.parse spec = .ok question) :
    Expectation.compile config ⟨scope, spec⟩ = Requirement.inspection config ⟨place, question⟩ := by
  have read : Expectation.requirement ⟨scope, spec⟩ = .ok ⟨place, question⟩ :=
    bind_eq_ok.mpr ⟨place, placed, bind_eq_ok.mpr ⟨question, asked, rfl⟩⟩
  simp only [Expectation.compile, Expectation.tryCompile, read, Except.map]

theorem met_iff (asked : Question.parse spec = .ok ⟨false, query⟩)
    (placed : Scope.parse scope = .ok place) :
    Met config tree scope spec ↔ place.slice (query.inspection config.likeMode) tree = true := by
  rw [Met, compile_of_parsed placed asked]
  rfl

theorem met_not_iff (asked : Question.parse spec = .ok ⟨false, query⟩)
    (placed : Scope.parse scope = .ok place) :
    Met config tree scope ("Not:" ++ spec) ↔ ¬ Met config tree scope spec := by
  rw [met_iff asked placed, Met, compile_of_parsed placed (Question.parse_not asked)]
  simp [Requirement.inspection, Inspection.negate]

theorem met_not_of_met {wider : String} {around : Scope}
    (asked : Question.parse spec = .ok ⟨false, query⟩) (placed : Scope.parse scope = .ok place)
    (placedWider : Scope.parse wider = .ok around)
    (keeps : Met config tree scope spec → Met config tree wider spec)
    (missed : Met config tree wider ("Not:" ++ spec)) : Met config tree scope ("Not:" ++ spec) := by
  rw [met_not_iff asked placedWider] at missed
  rw [met_not_iff asked placed]
  exact mt keeps missed

end Expectation

end CodeRubric
