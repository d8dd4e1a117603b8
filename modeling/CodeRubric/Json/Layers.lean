import CodeRubric.Json.Part

/-! Readers that look only inside a part. `readDeep_eq` says that the bound on the depth of reading
is never felt: a part is read by one layer over the same reader. -/
namespace CodeRubric.Json

/-- The layer depends on the reader it is given only at parts less deep than the one it reads. -/
def Part.Local {α : Type} (layer : (Part → Option α) → Part → Option α) : Prop :=
  ∀ (f g : Part → Option α) (part : Part),
    (∀ c : Part, c.depth < part.depth → f c = g c) → layer f part = layer g part

theorem Part.readWithin_eq {α : Type} {layer : (Part → Option α) → Part → Option α}
    (inward : Part.Local layer) (m n : Nat) (part : Part) (reaches : part.depth < m)
    (reaches' : part.depth < n) : readWithin layer m part = readWithin layer n part := by
  induction m generalizing n part with
  | zero => omega
  | succ m ih =>
    cases n with
    | zero => omega
    | succ n => exact inward _ _ part fun c shallower => ih n c (by omega) (by omega)

theorem Part.readDeep_eq {α : Type} {layer : (Part → Option α) → Part → Option α}
    (inward : Part.Local layer) (part : Part) :
    readDeep layer part = layer (readDeep layer) part :=
  inward _ _ part fun c shallower => readWithin_eq inward _ _ c shallower (by omega)

theorem Value.depth_lt_array {c : Value} {items : List Value} (inside : c ∈ items) :
    c.depth < (Value.array items).depth := by
  have := Value.depth_le_depthAll inside
  simp only [Value.depth]
  omega

theorem Value.depth_lt_object {member : Member} {members : List Member}
    (inside : member ∈ members) : member.value.depth < (Value.object members).depth := by
  have := Member.depth_le_depthAll inside
  simp only [Value.depth]
  omega

theorem Value.depth_lt_valuesAt {keys : List String} {members : List Member} {c : Value}
    (inside : c ∈ valuesAt keys members) : c.depth < (Value.object members).depth := by
  obtain ⟨member, held, rfl⟩ := List.mem_map.mp inside
  exact depth_lt_object (List.mem_filter.mp held).1

theorem Value.listOf_congr {α : Type} {f g : Value → Option α} {value : Value}
    (agree : ∀ c : Value, c.depth < value.depth → f c = g c) :
    value.listOf f = value.listOf g := by
  cases value with
  | array items =>
    have same : ∀ c ∈ items, f c = g c := fun c inside => agree c (depth_lt_array inside)
    clear agree
    simp only [listOf]
    induction items with
    | nil => rfl
    | cons item rest ih =>
      simp only [List.mapM_cons, same item (by simp), ih fun c inside => same c (by simp [inside])]
  | _ => rfl

theorem Value.field_congr {α : Type} {f g : Value → Option α} {value : Value} (key : String)
    (agree : ∀ c : Value, c.depth < value.depth → f c = g c) :
    value.field key f = value.field key g := by
  cases value with
  | object members =>
    simp only [field]
    split
    · next found only =>
      have inside : found ∈ valuesAt [key] members := by simp [only]
      exact agree found (depth_lt_valuesAt inside)
    · rfl
  | _ => rfl

theorem Value.depth_lt_slot {keys : List String} {members : List Member} {c : Value}
    (found : slot? keys members = some (some c)) : c.depth < (Value.object members).depth := by
  unfold slot? at found
  split at found
  · simp at found
  · next only =>
    obtain rfl : _ = c := by simpa using found
    exact depth_lt_valuesAt (by rw [only]; simp)
  · simp at found

theorem Value.mapM_slot_mem {members : List Member} {fields : List (List String)}
    {slots : List (Option Value)} {c : Value}
    (read : fields.mapM (fun keys => slot? keys members) = some slots) (held : some c ∈ slots) :
    ∃ keys, slot? keys members = some (some c) := by
  induction fields generalizing slots with
  | nil =>
    obtain rfl : [] = slots := by simpa using read
    simp at held
  | cons keys rest ih =>
    simp only [List.mapM_cons, Option.bind_eq_bind, Option.bind_eq_some_iff, Option.pure_def,
      Option.some.injEq] at read
    obtain ⟨first, here, others, later, rfl⟩ := read
    rcases List.mem_cons.mp held with rfl | held
    · exact ⟨keys, here⟩
    · exact ih later held

theorem Value.depth_lt_slots {fields : List (List String)} {value c : Value}
    {slots : List (Option Value)} (read : value.slots? fields = some slots)
    (held : some c ∈ slots) : c.depth < value.depth := by
  unfold slots? at read
  split at read
  · obtain ⟨keys, found⟩ := mapM_slot_mem read held
    exact depth_lt_slot found
  · next items =>
    split at read
    · obtain rfl : _ = slots := by simpa using read
      rcases List.mem_append.mp held with given | missing
      · obtain ⟨item, inside, same⟩ := List.mem_map.mp given
        obtain rfl : item = c := by simpa using same
        exact depth_lt_array inside
      · simp at missing
    · simp at read
  · simp at read

section Congruence

variable {α : Type} {f g : Part → Option α} {part : Part}

theorem Part.listOf_congr (agree : ∀ c : Part, c.depth < part.depth → f c = g c) :
    part.listOf f = part.listOf g :=
  Value.listOf_congr fun c below => agree (part.inside c) below

theorem Part.field_congr (key : String) (agree : ∀ c : Part, c.depth < part.depth → f c = g c) :
    part.field key f = part.field key g :=
  Value.field_congr key fun c below => agree (part.inside c) below

end Congruence

theorem Part.depth_lt_slots {fields : List (List String)} {part c : Part}
    {slots : List (Option Part)} (read : part.slots? fields = some slots)
    (held : some c ∈ slots) : c.depth < part.depth := by
  obtain ⟨found, there, rfl⟩ := Option.map_eq_some_iff.mp read
  obtain ⟨slot, inside, same⟩ := List.mem_map.mp held
  obtain ⟨value, rfl, rfl⟩ := Option.map_eq_some_iff.mp same
  exact Value.depth_lt_slots there inside

theorem Tagged.depth_contents_lt {names : List String} {part c : Part} {node : Tagged}
    (read : Tagged.ofPart? names part = some node) (held : node.contents = some c) :
    c.depth < part.depth := by
  obtain ⟨value, early⟩ := part
  unfold Tagged.ofPart? at read
  simp only at read
  split at read
  · next tag contents =>
    obtain ⟨name, _, rfl⟩ := Option.map_eq_some_iff.mp read
    cases held
    have inside : contents ∈ [tag, contents] := by simp
    exact Value.depth_lt_array inside
  · next members =>
    have bound (kept : List Member) (same : members.filter (fun member =>
        ["tag", "contents"].contains member.key) = kept) (member : Member)
        (inside : member ∈ kept) : member.value.depth < (Value.object members).depth :=
      Value.depth_lt_object (List.mem_filter.mp (same ▸ inside)).1
    split at read
    · obtain ⟨name, _, rfl⟩ := Option.map_eq_some_iff.mp read
      cases held
    · next contents kept =>
      obtain ⟨name, _, rfl⟩ := Option.map_eq_some_iff.mp read
      cases held
      exact bound _ kept ⟨"contents", contents⟩ (by simp)
    · next contents _ kept =>
      split at read
      · obtain ⟨name, _, rfl⟩ := Option.map_eq_some_iff.mp read
        cases held
        exact bound _ kept ⟨"contents", contents⟩ (by simp)
      · cases read
    · cases read
  · cases read

end CodeRubric.Json
