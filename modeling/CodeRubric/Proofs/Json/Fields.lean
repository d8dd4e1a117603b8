import CodeRubric.Json.Access
import Mathlib.Data.List.Perm.Basic

/-! The fields of an object. A field is read from the members with its names, of which there may be
one at most, and not from any other member, wherever they stand. Lists are read item by item. -/
namespace CodeRubric.Json.Value

/-- A field of an object, under any of its names, as `read` reads it; `absent` stands for a field
that is left out. -/
def fieldOr {α : Type} (keys : List String) (absent : Option α) (read : Value → Option α)
    (members : List Member) : Option α :=
  (slot? keys members).bind fun slot => slot.elim absent read

/-- `Rearranged known members members'`: the members of an object come in another order, or there
is one more, with a key that is not known. -/
inductive Rearranged (known : List String) : List Member → List Member → Prop where
  | reorder {members members' : List Member} (moved : members.Perm members') :
      Rearranged known members members'
  | extend {before after : List Member} {key : String} (value : Value) (unknown : key ∉ known) :
      Rearranged known (before ++ after) (before ++ ⟨key, value⟩ :: after)

section Fields

variable {α : Type} {keys : List String} {key : String} {absent : Option α}
  {read : Value → Option α} {members members' before after : List Member} {value value' : Value}
  {result : α}

theorem valuesAt_insert (named : key ∈ keys) :
    valuesAt keys (before ++ ⟨key, value⟩ :: after) =
      valuesAt keys before ++ value :: valuesAt keys after := by
  simp [valuesAt, named]

theorem valuesAt_insert_other (unnamed : key ∉ keys) :
    valuesAt keys (before ++ ⟨key, value⟩ :: after) = valuesAt keys (before ++ after) := by
  simp [valuesAt, unnamed]

theorem valuesAt_eq_nil_iff :
    valuesAt keys members = [] ↔ ∀ key ∈ keys, key ∉ members.map Member.key := by
  simp only [valuesAt, List.map_eq_nil_iff, List.filter_eq_nil_iff, List.contains_iff_mem,
    List.mem_map, not_exists, not_and]
  grind

theorem fieldOr_of_absent (missing : valuesAt keys members = []) :
    fieldOr keys absent read members = absent := by
  simp [fieldOr, slot?, missing]

theorem fieldOr_of_single (only : valuesAt keys members = [value]) :
    fieldOr keys absent read members = read value := by
  simp [fieldOr, slot?, only]

theorem fieldOr_of_many (many : 2 ≤ (valuesAt keys members).length) :
    fieldOr keys absent read members = none := by
  unfold fieldOr slot?
  split
  · next none => simp [none] at many
  · next one => simp [one] at many
  · rfl

/-- A field that is given is read if it is given once. -/
theorem fieldOr_insert_eq_some_iff (named : key ∈ keys) :
    fieldOr keys absent read (before ++ ⟨key, value⟩ :: after) = some result ↔
      valuesAt keys (before ++ after) = [] ∧ read value = some result := by
  have found : valuesAt keys (before ++ ⟨key, value⟩ :: after) = _ := valuesAt_insert named
  have others : valuesAt keys (before ++ after) = valuesAt keys before ++ valuesAt keys after := by
    simp [valuesAt]
  by_cases alone : valuesAt keys (before ++ after) = []
  · have noneAround := List.append_eq_nil_iff.mp (others ▸ alone)
    rw [noneAround.1, noneAround.2] at found
    simp [fieldOr_of_single found, alone]
  · -- Another member with one of the names is one too many, whichever name it has.
    have many : 2 ≤ (valuesAt keys (before ++ ⟨key, value⟩ :: after)).length := by
      have positive := List.length_pos_iff.mpr alone
      rw [others, List.length_append] at positive
      rw [found, List.length_append, List.length_cons]
      omega
    simp [fieldOr_of_many many, alone]

theorem fieldOr_insert_other (unnamed : key ∉ keys) :
    fieldOr keys absent read (before ++ ⟨key, value⟩ :: after) =
      fieldOr keys absent read (before ++ after) := by
  simp only [fieldOr, slot?, valuesAt_insert_other unnamed]

theorem fieldOr_of_perm (moved : members.Perm members') :
    fieldOr keys absent read members = fieldOr keys absent read members' := by
  have same : (valuesAt keys members).Perm (valuesAt keys members') := (moved.filter _).map _
  rcases listed : valuesAt keys members with _ | ⟨value, _ | ⟨again, more⟩⟩
  · rw [listed, List.nil_perm] at same
    rw [fieldOr_of_absent listed, fieldOr_of_absent same]
  · rw [listed, List.singleton_perm] at same
    rw [fieldOr_of_single listed, fieldOr_of_single same.symm]
  · have many : 2 ≤ (valuesAt keys members).length := by simp [listed]
    rw [fieldOr_of_many many, fieldOr_of_many (same.length_eq ▸ many)]

/-- A field that has its default may be left out. -/
theorem fieldOr_dropped (named : key ∈ keys) (usual : read value = absent)
    (found : fieldOr keys absent read (before ++ ⟨key, value⟩ :: after) = some result) :
    fieldOr keys absent read (before ++ after) = some result := by
  obtain ⟨alone, here⟩ := (fieldOr_insert_eq_some_iff named).mp found
  rw [fieldOr_of_absent alone, ← usual, here]

theorem fieldOr_changed {key' : String} (named : key ∈ keys) (named' : key' ∈ keys)
    (kept : read value = some result → read value' = some result)
    (found : fieldOr keys absent read (before ++ ⟨key, value⟩ :: after) = some result) :
    fieldOr keys absent read (before ++ ⟨key', value'⟩ :: after) = some result := by
  obtain ⟨alone, here⟩ := (fieldOr_insert_eq_some_iff named).mp found
  exact (fieldOr_insert_eq_some_iff named').mpr ⟨alone, kept here⟩

/-- Of the members of an object a field sees those with its names only, in any order. -/
theorem fieldOr_of_rearranged {known : List String} (part : keys ⊆ known)
    (rearranged : Rearranged known members members') :
    fieldOr keys absent read members' = fieldOr keys absent read members := by
  cases rearranged with
  | reorder moved => exact (fieldOr_of_perm moved).symm
  | extend value unknown => exact fieldOr_insert_other fun named => unknown (part named)

end Fields

theorem listOf_map {α : Type} {read : Value → Option α} {write : α → Value}
    (back : ∀ item, read (write item) = some item) (items : List α) :
    listOf read (.array (items.map write)) = some items := by
  induction items with
  | nil => rfl
  | cons item rest ih =>
    simp only [listOf] at ih
    simp [listOf, back, ih]

theorem listOf_array_changed {α : Type} {read : Value → Option α} {front back : List Value}
    {item item' : Value} {result : List α}
    (kept : ∀ x, read item = some x → read item' = some x)
    (found : listOf read (.array (front ++ item :: back)) = some result) :
    listOf read (.array (front ++ item' :: back)) = some result := by
  simp only [listOf, List.mapM_append, List.mapM_cons, Option.bind_eq_bind, Option.pure_def,
    Option.bind_eq_some_iff, Option.some.injEq] at found ⊢
  obtain ⟨first, readFirst, second, ⟨x, here, rest, readRest, rfl⟩, rfl⟩ := found
  exact ⟨first, readFirst, _, ⟨x, kept x here, rest, readRest, rfl⟩, rfl⟩

theorem listOf_array_of_none {α : Type} {read : Value → Option α} {items : List Value}
    {item : Value} (inside : item ∈ items) (refused : read item = none) :
    listOf read (.array items) = none := by
  obtain ⟨front, back, rfl⟩ := List.append_of_mem inside
  simp [listOf, List.mapM_append, refused]

end CodeRubric.Json.Value
