import CodeRubric.Proofs.Name.Target
import Mathlib.Data.List.Sort
import Mathlib.Data.String.Basic

/-! Likeness of names as a relation. Names with the same words are classes of an equivalence on the
names that have words at all; names with a word in common are related both ways, but not in
chains. A name without words is like nothing, not even itself. -/
namespace CodeRubric.Name

namespace LikeMode

variable {left right : List String}

theorem agrees_equivalent_iff : agrees .equivalent left right = true ↔ left.Perm right :=
  List.isPerm_iff

theorem agrees_overlap_iff :
    agrees .overlap left right = true ↔ ∃ word, word ∈ left ∧ word ∈ right := by
  simp [agrees]

theorem agrees_comm (mode : LikeMode) (left right : List String) :
    mode.agrees left right = mode.agrees right left := by
  apply Bool.eq_iff_iff.mpr
  cases mode with
  | equivalent => simp only [agrees_equivalent_iff, List.perm_comm]
  | overlap => simp only [agrees_overlap_iff, and_comm]

theorem agrees_self (mode : LikeMode) (nonempty : left ≠ []) : mode.agrees left left = true := by
  have same : agrees .equivalent left left = true := agrees_equivalent_iff.mpr (.refl left)
  cases mode with
  | equivalent => exact same
  | overlap => exact overlap_of_equivalent nonempty same

/-- Sorting is a way to tell whether two lists have the same words, repeated ones included. -/
theorem agrees_equivalent_iff_sorted :
    agrees .equivalent left right = true ↔
      left.mergeSort (· ≤ ·) = right.mergeSort (· ≤ ·) := by
  have sorted (words : List String) : (words.mergeSort (· ≤ ·)).Pairwise (· ≤ ·) :=
    List.pairwise_mergeSort' (· ≤ ·) words
  have leftSame := left.mergeSort_perm (· ≤ ·)
  have rightSame := right.mergeSort_perm (· ≤ ·)
  rw [agrees_equivalent_iff]
  constructor
  · intro same
    exact ((leftSame.trans same).trans rightSame.symm).eq_of_pairwise'
      (sorted left) (sorted right)
  · intro same
    exact leftSame.symm.trans (same ▸ rightSame)

end LikeMode

theorem isLike_comm (mode : LikeMode) (name other : String) :
    isLike mode name other = isLike mode other name := by
  unfold isLike
  cases words? name <;> cases words? other <;> simp [mode.agrees_comm]

/-- A name is like itself exactly if it has words, of which there is then at least one. -/
theorem isLike_self (mode : LikeMode) (name : String) :
    isLike mode name name = (words? name).isSome := by
  unfold isLike
  cases cut : words? name with
  | none => rfl
  | some found => simpa using mode.agrees_self (words?_ne_nil cut)

theorem isLike_equivalent_trans {first second third : String}
    (alike : isLike .equivalent first second = true)
    (alike' : isLike .equivalent second third = true) : isLike .equivalent first third = true := by
  obtain ⟨left, middle, cut, cutMiddle, agreed⟩ := isLike_iff.mp alike
  obtain ⟨middle', right, cutMiddle', cut', agreed'⟩ := isLike_iff.mp alike'
  obtain rfl : middle = middle' := Option.some.inj (cutMiddle.symm.trans cutMiddle')
  rw [LikeMode.agrees_equivalent_iff] at agreed agreed'
  exact isLike_iff.mpr
    ⟨left, right, cut, cut', LikeMode.agrees_equivalent_iff.mpr (agreed.trans agreed')⟩

/-- To have the same words is symmetric and transitive, to have one in common is symmetric; both
hold of a name and itself exactly if it has words, and the first implies the second. -/
theorem likeness_laws (a b c : String) :
    ((isLike .equivalent a b = true ↔
        ∃ left right, words? a = some left ∧ words? b = some right ∧ left.Perm right) ∧
      (isLike .equivalent a b = true ↔ ∃ left right, words? a = some left ∧
        words? b = some right ∧ left.mergeSort (· ≤ ·) = right.mergeSort (· ≤ ·)) ∧
      isLike .equivalent a b = isLike .equivalent b a ∧
      (isLike .equivalent a b = true → isLike .equivalent b c = true →
        isLike .equivalent a c = true) ∧
      (isLike .equivalent a a = true ↔ (words? a).isSome = true)) ∧
    ((isLike .overlap a b = true ↔ ∃ left right, words? a = some left ∧ words? b = some right ∧
        ∃ word, word ∈ left ∧ word ∈ right) ∧
      isLike .overlap a b = isLike .overlap b a ∧
      (isLike .overlap a a = true ↔ (words? a).isSome = true)) ∧
    (isLike .equivalent a b = true → isLike .overlap a b = true) := by
  refine ⟨⟨?_, ?_, isLike_comm _ a b, isLike_equivalent_trans, ?_⟩, ⟨?_, isLike_comm _ a b, ?_⟩, ?_⟩
  · simp only [isLike_iff, LikeMode.agrees_equivalent_iff]
  · simp only [isLike_iff, LikeMode.agrees_equivalent_iff_sorted]
  · rw [isLike_self]
  · simp only [isLike_iff, LikeMode.agrees_overlap_iff]
  · rw [isLike_self]
  · exact (Target.equivalent_within_overlap a).accepts b

theorem likeness_laws_at_parts :
    isLike .equivalent "diskToDisk" "DISK_DISK_TO" = true ∧
      isLike .equivalent "DISK_DISK_TO" "toDiskDisk" = true ∧
      isLike .equivalent "diskToDisk" "toDiskDisk" = true ∧
      isLike .overlap "diskToDisk" "toDiskDisk" = true := by
  have first : isLike .equivalent "diskToDisk" "DISK_DISK_TO" = true := by decide
  have second : isLike .equivalent "DISK_DISK_TO" "toDiskDisk" = true := by decide
  obtain ⟨⟨-, -, -, trans, -⟩, -, -⟩ :=
    likeness_laws "diskToDisk" "DISK_DISK_TO" "toDiskDisk"
  have third := trans first second
  obtain ⟨-, -, wider⟩ := likeness_laws "diskToDisk" "toDiskDisk" ""
  exact ⟨first, second, third, wider third⟩

-- One word in common with each of two names does not give these a word in common.
example : isLike .overlap "openFile" "fileSize" = true ∧ isLike .overlap "fileSize" "SIZE" = true ∧
    isLike .overlap "openFile" "SIZE" = false := by decide

end CodeRubric.Name
