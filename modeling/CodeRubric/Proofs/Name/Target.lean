import CodeRubric.Name.Target

/-! How targets compare. An exact name is looser as a name to read like, the same words are looser
as words in common, and every target is looser with the name left open. -/
namespace CodeRubric.Name

theorem CaseStyle.segments_ne_nil {style : CaseStyle} {text : List Char}
    (accepted : style.accepts text = true) : style.segments text ≠ [] := by
  cases style with
  | camelCase =>
    cases text with
    | nil => simp [CaseStyle.accepts, isCamel] at accepted
    | cons c rest => simp [CaseStyle.segments, humps]
  | snakeCase => exact Text.split_ne_nil '_' text

theorem CaseStyle.words?_ne_nil {style : CaseStyle} {name : String} {found : List String}
    (cut : style.words? name = some found) : found ≠ [] := by
  unfold CaseStyle.words? at cut
  split at cut
  · next accepted =>
    obtain rfl := Option.some.inj cut
    simpa using segments_ne_nil accepted
  · cases cut

theorem words?_ne_nil {name : String} {found : List String} (cut : words? name = some found) :
    found ≠ [] := by
  unfold words? at cut
  rcases Option.or_eq_some_iff.mp cut with camel | ⟨_, snake⟩
  · exact CaseStyle.words?_ne_nil camel
  · exact CaseStyle.words?_ne_nil snake

/-- The same words have one in common, since there is at least one. -/
theorem LikeMode.overlap_of_equivalent {expected actual : List String} (nonempty : expected ≠ [])
    (agreed : LikeMode.agrees .equivalent expected actual = true) :
    LikeMode.agrees .overlap expected actual = true := by
  obtain ⟨word, rest, rfl⟩ := List.exists_cons_of_ne_nil nonempty
  have same : (word :: rest).Perm actual := List.isPerm_iff.mp agreed
  have shared : word ∈ actual := same.subset List.mem_cons_self
  simp [LikeMode.agrees, shared]

theorem isLike_iff {mode : LikeMode} {expected actual : String} :
    isLike mode expected actual = true ↔ ∃ left right, words? expected = some left ∧
      words? actual = some right ∧ mode.agrees left right = true := by
  unfold isLike
  split
  · next left right cut cut' => simp [cut, cut']
  · next missing =>
    simp only [Bool.false_eq_true, false_iff]
    rintro ⟨left, right, cut, cut', _⟩
    exact missing left right cut cut'

namespace Target

/-- Whatever `target` accepts, `wider` accepts too, also among the things without a name. -/
structure Within (target wider : Target) : Prop where
  accepts : ∀ name, target.accepts name = true → wider.accepts name = true
  unnamed : target.isUnconstrained = true → wider.isUnconstrained = true

theorem within_anyone (target : Target) : target.Within .anyone where
  accepts _ _ := rfl
  unnamed _ := rfl

theorem equivalent_within_overlap (name : String) :
    (Target.like name .equivalent).Within (.like name .overlap) where
  accepts identifier alike := by
    obtain ⟨left, right, cut, cut', agreed⟩ := isLike_iff.mp alike
    exact isLike_iff.mpr
      ⟨left, right, cut, cut', LikeMode.overlap_of_equivalent (words?_ne_nil cut) agreed⟩
  unnamed constrained := by cases constrained

theorem named_within_equivalent {name : String} (hasWords : (words? name).isSome = true) :
    (Target.named name).Within (.like name .equivalent) where
  accepts identifier same := by
    obtain rfl : name = identifier := by simpa [Target.accepts] using same
    obtain ⟨found, cut⟩ := Option.isSome_iff_exists.mp hasWords
    exact isLike_iff.mpr ⟨found, found, cut, cut, List.isPerm_iff.mpr (.refl found)⟩
  unnamed constrained := by cases constrained

end Target

end CodeRubric.Name
