import CodeRubric.Proofs.Expectation.Grammar

/-! Scopes and their texts correspond one to one. A text is read as a scope exactly if it spells
that scope, so that a scope which was read can be written back, and no two texts mean the same
scope. The keyword is also an ordinary name: it is one wherever no colon follows. -/
namespace CodeRubric

theorem Text.mem_join {mark c : Char} {piece : List Char} {pieces : List (List Char)}
    (listed : piece ∈ pieces) (member : c ∈ piece) : c ∈ join mark pieces := by
  induction pieces with
  | nil => cases listed
  | cons first more ih =>
    cases more with
    | nil =>
      obtain rfl := List.mem_singleton.mp listed
      exact member
    | cons next more =>
      rw [join, List.mem_append]
      rcases List.mem_cons.mp listed with rfl | later
      · exact .inl member
      · exact .inr (List.mem_cons_of_mem _ (ih later))

theorem Text.mem_of_mem_split {mark c : Char} {piece text : List Char}
    (listed : piece ∈ split mark text) (member : c ∈ piece) : c ∈ text := by
  rw [← join_split mark text]
  exact mem_join listed member

namespace Scope

/-- The text that a scope is written as. -/
def text : Scope → String
  | .program => ""
  | .transitive path => dotted path
  | .intransitive path => "Intransitive:" ++ dotted path

/-- The texts of scopes: the empty one, dotted paths, and these behind the keyword. -/
inductive Spells : Scope → String → Prop where
  | program : Spells .program ""
  | transitive {path : List String} : Spellable path → Spells (.transitive path) (dotted path)
  | intransitive {path : List String} :
      Spellable path → Spells (.intransitive path) ("Intransitive:" ++ dotted path)

variable {spec : String} {scope : Scope}

theorem Spells.text_eq (spells : Spells scope spec) : scope.text = spec := by
  cases spells <;> rfl

theorem Spells.parse (spells : Spells scope spec) : parse spec = .ok scope := by
  cases spells with
  | program => exact parse_empty
  | transitive spelled => exact spelled.parse_dotted
  | intransitive spelled => exact spelled.parse_intransitive

/-- What is read as a path is one, and the text is its segments put together again. -/
theorem spellable_of_path? {part : List Char} {path : List String} (free : ':' ∉ part)
    (read : path? part = some path) : Spellable path ∧ (dotted path).toList = part := by
  rw [path?] at read
  split at read
  · cases read
  · next nonempty =>
    obtain rfl := Option.some.inj read
    refine ⟨⟨?_, ?_, ?_⟩, ?_⟩
    · simpa using Text.split_ne_nil '.' part
    · rintro segment member rfl
      obtain ⟨piece, listed, empty⟩ := List.mem_map.mp member
      obtain rfl : piece = [] := by simpa using congrArg String.toList empty
      exact nonempty (List.any_eq_true.mpr ⟨[], listed, rfl⟩)
    · intro segment member
      obtain ⟨piece, listed, rfl⟩ := List.mem_map.mp member
      rw [String.toList_ofList]
      exact ⟨Text.notMem_of_mem_split listed,
        fun colon => free (Text.mem_of_mem_split listed colon)⟩
    · have pieces : ((Text.split '.' part).map String.ofList).map String.toList =
          Text.split '.' part := by simp [Function.comp_def]
      rw [dotted, pieces, Text.join_split, String.toList_ofList]

theorem spells_of_parse? (read : parse? spec.toList = some scope) : Spells scope spec := by
  have joined := Text.join_split ':' spec.toList
  have free (piece : List Char) (listed : piece ∈ Text.split ':' spec.toList) : ':' ∉ piece :=
    Text.notMem_of_mem_split listed
  rw [parse?] at read
  split at read
  · next pieces =>
    obtain rfl := Option.some.inj read
    rw [pieces] at joined
    obtain rfl : spec = "" := String.toList_eq_nil_iff.mp joined.symm
    exact .program
  · next part _ pieces =>
    obtain ⟨path, found, rfl⟩ := Option.map_eq_some_iff.mp read
    rw [pieces] at joined free
    obtain ⟨spelled, same⟩ := spellable_of_path? (free part (by simp)) found
    rw [← String.toList_inj.mp (same.trans joined)]
    exact .transitive spelled
  · next keyword part pieces =>
    split at read
    · next isKeyword =>
      obtain ⟨path, found, rfl⟩ := Option.map_eq_some_iff.mp read
      rw [pieces] at joined free
      obtain ⟨spelled, same⟩ := spellable_of_path? (free part (by simp)) found
      have whole : ("Intransitive:" ++ dotted path).toList = spec.toList := by
        rw [← joined, isKeyword, ← same]
        simp [Text.join]
      rw [← String.toList_inj.mp whole]
      exact .intransitive spelled
    · cases read
  · cases read

theorem parse_eq_ok_iff_spells : parse spec = .ok scope ↔ Spells scope spec := by
  refine ⟨?_, Spells.parse⟩
  intro placed
  unfold parse at placed
  split at placed
  · next found =>
    obtain rfl := Except.ok.inj placed
    exact spells_of_parse? found
  · cases placed

/-- The texts of scopes and the scopes they are read as correspond one to one. Every other text is
reported as it stands. -/
theorem texts_and_scopes_correspond (spec : String) :
    (∀ scope, parse spec = .ok scope ↔ Spells scope spec) ∧
    (∀ fault, parse spec = .error fault ↔
      (∀ scope, ¬ Spells scope spec) ∧ fault = .malformedScope spec) ∧
    (∀ scope, parse spec = .ok scope → scope.text = spec) ∧
    ∀ other scope, parse spec = .ok scope → parse other = .ok scope → spec = other := by
  have back {spec : String} {scope : Scope} (placed : parse spec = .ok scope) : scope.text = spec :=
    (parse_eq_ok_iff_spells.mp placed).text_eq
  refine ⟨fun _ => parse_eq_ok_iff_spells, ?_, fun _ => back, ?_⟩
  · intro fault
    simp only [← parse_eq_ok_iff_spells]
    constructor
    · intro failed
      exact ⟨by simp [failed], parse_eq_error failed⟩
    · rintro ⟨never, rfl⟩
      cases placed : parse spec with
      | ok scope => exact absurd placed (never scope)
      | error fault => rw [parse_eq_error placed]
  · intro other scope placed placedOther
    exact (back placed).symm.trans (back placedOther)

theorem texts_and_scopes_correspond_at_keyword :
    Spells (.transitive ["Intransitive"]) "Intransitive" ∧
    (∀ scope, ¬ Spells scope "Intransitive:") ∧
    parse "Intransitive:Intransitive" = .ok (.intransitive ["Intransitive"]) ∧
    text (.intransitive ["Intransitive"]) = "Intransitive:Intransitive" ∧
    ∀ other, parse other = .ok (.intransitive ["Intransitive"]) →
      "Intransitive:Intransitive" = other := by
  have alone : parse "Intransitive" = .ok (.transitive ["Intransitive"]) := rfl
  have nothing : parse "Intransitive:" = .error (.malformedScope "Intransitive:") := rfl
  have placed : parse "Intransitive:Intransitive" = .ok (.intransitive ["Intransitive"]) := rfl
  obtain ⟨spells, -, -, -⟩ := texts_and_scopes_correspond "Intransitive"
  obtain ⟨-, reported, -, -⟩ := texts_and_scopes_correspond "Intransitive:"
  obtain ⟨-, -, back, unique⟩ := texts_and_scopes_correspond "Intransitive:Intransitive"
  exact ⟨(spells _).mp alone, ((reported _).mp nothing).1, placed, back _ placed,
    fun other => unique other _ placed⟩

end Scope

end CodeRubric
