import CodeRubric.Proofs.Json.Fields
import CodeRubric.Proofs.Tree.Places
import Mathlib.Data.List.Permutation
import Mathlib.Logic.Relation

/-! The layouts of one tree. The members of an object may come in any order, with unknown ones among
them, and tagged values and equations may be arrays; none of this is seen in the tree. A known key
that is given twice or left out is seen, at any depth. -/
namespace CodeRubric.Format

open Json (Value Member Part Tagged)

/-- The contents may be taken from before their tag. Tags by number and by a name with an empty
object are read only in contents that are held back. -/
def Movable (type : TaggedType) (held : Bool) (members : List Member) : Prop :=
  ∀ tag contents name shape, held = false →
    tagMembers members = [⟨"contents", contents⟩, ⟨"tag", tag⟩] → tag.choice? = some name →
    type.shape? name = some shape → Plain shape contents

/-- `Change shape held v v'`: `v'` is another layout of `v`, which is read as `shape`. -/
inductive Change : Shape → Bool → Value → Value → Prop where
  | reorderFields {shape : Shape} {known : List (String × Form)} {held : Bool}
      {members members' : List Member} (record : shape.record? = some known)
      (moved : members.Perm members') : Change shape held (.object members) (.object members')
  | reorderTagged {type : TaggedType} {held : Bool} {members members' : List Member}
      (moved : members.Perm members')
      (movable : tagMembers members = tagMembers members' ∨ Movable type held members) :
      Change (.one (.tagged type)) held (.object members) (.object members')
  | extendFields {shape : Shape} {known : List (String × Form)} {held : Bool}
      {before after : List Member} {key : String} {value : Value}
      (record : shape.record? = some known) (unknown : key ∉ known.map Prod.fst)
      (sound : value.isSound = true) :
      Change shape held (.object (before ++ after)) (.object (before ++ ⟨key, value⟩ :: after))
  | extendTagged {type : TaggedType} {held : Bool} {before after : List Member} {key : String}
      {value : Value} (unknown : key ∉ ["tag", "contents"]) (sound : value.isSound = true) :
      Change (.one (.tagged type)) held (.object (before ++ after))
        (.object (before ++ ⟨key, value⟩ :: after))
  | asArray {type : TaggedType} {held : Bool} {members : List Member} {name : String}
      {contents : Value} (tagged : Value.valuesAt ["tag"] members = [.string name])
      (filled : Value.valuesAt ["contents"] members = [contents])
      (movable : Movable type held members) :
      Change (.one (.tagged type)) held (.object members) (.array [.string name, contents])
  | nullContents {type : TaggedType} {held : Bool} {before after : List Member}
      (bare : Value.valuesAt ["contents"] (before ++ after) = []) :
      Change (.one (.tagged type)) held (.object (before ++ after))
        (.object (before ++ ⟨"contents", .null⟩ :: after))
  | equationArray {held : Bool} {members : List Member} {params body : Value}
      (first : Value.valuesAt ["params"] members = [params])
      (second : Value.valuesAt ["body"] members = [body]) :
      Change (.one .equation) held (.object members) (.array [params, body])

/-- `Relaid v v'`: one change somewhere in the value of an expression. -/
def Relaid (v v' : Value) : Prop :=
  ∃ fill shape held w w', Path (.one .expression) false fill shape held ∧
    Change shape held w w' ∧ v = fill w ∧ v' = fill w'

/-- The members that have another key. -/
def without (key : String) (members : List Member) : List Member :=
  members.filter fun member => member.key != key

/-- `Fault shape held v v'`: in `v'` a known key of `v` is given once more, or one that is needed is
missing. -/
inductive Fault : Shape → Bool → Value → Value → Prop where
  | repeatedField {shape : Shape} {known : List (String × Form)} {held : Bool}
      {before after : List Member} {key : String} {form : Form} (value : Value)
      (record : shape.record? = some known) (listed : (key, form) ∈ known)
      (given : Value.valuesAt [key] (before ++ after) ≠ []) :
      Fault shape held (.object (before ++ after)) (.object (before ++ ⟨key, value⟩ :: after))
  | missingField {shape : Shape} {known : List (String × Form)} {held : Bool}
      {members : List Member} {key : String} {form : Form} (record : shape.record? = some known)
      (listed : (key, form) ∈ known) :
      Fault shape held (.object members) (.object (without key members))
  | repeatedTag {type : TaggedType} {held : Bool} {before after : List Member} {key : String}
      (value : Value) (known : key ∈ ["tag", "contents"])
      (given : Value.valuesAt [key] (before ++ after) ≠ []) :
      Fault (.one (.tagged type)) held (.object (before ++ after))
        (.object (before ++ ⟨key, value⟩ :: after))
  | missingTag {type : TaggedType} {held : Bool} {members : List Member} :
      Fault (.one (.tagged type)) held (.object members) (.object (without "tag" members))
  | missingContents {type : TaggedType} {held : Bool} {members : List Member} {tag : Value}
      {name : String} {shape : Shape} (tagged : Value.valuesAt ["tag"] members = [tag])
      (named : (Json.Part.mk tag held).choice? = some name) (known : type.shape? name = some shape)
      (needed : shape ≠ .nothing) :
      Fault (.one (.tagged type)) held (.object members) (.object (without "contents" members))

/-- `Spoiled v v'`: one fault somewhere in the value of an expression. -/
def Spoiled (v v' : Value) : Prop :=
  ∃ fill shape held w w', Path (.one .expression) false fill shape held ∧
    Fault shape held w w' ∧ v = fill w ∧ v' = fill w'

section Changes

variable {shape : Shape} {type : TaggedType} {held : Bool} {members members' : List Member}
  {v v' : Value}

theorem Change.isSound (change : Change shape held v v') (sound : v.isSound = true) :
    v'.isSound = true := by
  cases change with
  | reorderFields _ moved | reorderTagged moved =>
    rw [isSound_object_iff] at sound ⊢
    exact fun member inside => sound member (moved.mem_iff.mpr inside)
  | extendFields _ _ soundToo | extendTagged _ soundToo =>
    exact (isSound_object_insert _ _ _ _).mpr ⟨sound, soundToo⟩
  | nullContents => exact (isSound_object_insert _ _ _ _).mpr ⟨sound, rfl⟩
  | asArray _ filled =>
    have soundInside := isSound_of_mem_valuesAt sound (filled ▸ List.mem_singleton_self _)
    exact isSound_array_iff.mpr (by simp [soundInside, Value.isSound])
  | equationArray first second =>
    have soundFirst := isSound_of_mem_valuesAt sound (first ▸ List.mem_singleton_self _)
    have soundSecond := isSound_of_mem_valuesAt sound (second ▸ List.mem_singleton_self _)
    exact isSound_array_iff.mpr (by simp [soundFirst, soundSecond])

theorem field_of_perm {α : Type} (moved : members.Perm members') (key : String)
    (read : Part → Option α) (held : Bool) :
    Part.field key read ⟨.object members, held⟩ =
      Part.field key read ⟨.object members', held⟩ := by
  have asField (members : List Member) : Part.field key read ⟨.object members, held⟩ =
      Value.fieldOr [key] none (fun value => read ⟨value, held⟩) members := by
    simp only [Json.Part.field_object, Value.fieldOr, Value.slot?]
    rcases Value.valuesAt [key] members with _ | ⟨value, _ | ⟨again, more⟩⟩ <;> rfl
  rw [asField, asField, Value.fieldOr_of_perm moved]

/-- Contents that may be held back here and not there are read the same. -/
theorem read_of_moved {part part' : Part} {name : String} {contents : Value}
    {heldInside heldInside' : Bool}
    (node : Tagged.ofPart? type.tags part = some ⟨name, some ⟨contents, heldInside⟩⟩)
    (node' : Tagged.ofPart? type.tags part' = some ⟨name, some ⟨contents, heldInside'⟩⟩)
    (sound : contents.isSound = true) (answered : (type.read part).isSome = true)
    (plain : heldInside = true → heldInside' = false →
      ∀ shape, type.shape? name = some shape → Plain shape contents) :
    type.read part = type.read part' := by
  cases known : type.shape? name with
  | none =>
    exact (TaggedType.read_of_unknown node known).trans
      (TaggedType.read_of_unknown node' known).symm
  | some shape =>
    have answeredInside := TaggedType.answeredBy_of_node answered node known
    apply TaggedType.read_of_alike node node' known
    apply alike_of_moved sound answeredInside
    intro heldBack letOut
    exact plain heldBack letOut shape known

theorem ofPart?_of_same_members (same : tagMembers members = tagMembers members')
    (names : List String) (held : Bool) :
    Tagged.ofPart? names ⟨.object members, held⟩ =
      Tagged.ofPart? names ⟨.object members', held⟩ := by
  rw [ofPart?_object, ofPart?_object, same]

theorem tagMembers_insert {key : String} (unknown : key ∉ ["tag", "contents"]) (value : Value)
    (before after : List Member) :
    tagMembers (before ++ ⟨key, value⟩ :: after) = tagMembers (before ++ after) := by
  simp only [List.mem_cons, List.not_mem_nil, or_false, not_or] at unknown
  simp [tagMembers, unknown]

theorem read_of_reordered (moved : members.Perm members')
    (movable : tagMembers members = tagMembers members' ∨ Movable type held members)
    (sound : (Value.object members).isSound = true)
    (answered : (type.read ⟨.object members, held⟩).isSome = true) :
    type.read ⟨.object members, held⟩ = type.read ⟨.object members', held⟩ := by
  rcases movable with same | movable
  · exact TaggedType.read_of_same_node (ofPart?_of_same_members same _ _)
  -- Only the order of these two matters, and it is kept or turned round.
  have movedTags : (tagMembers members').Perm (tagMembers members) := (moved.filter _).symm
  obtain ⟨name, contents, -, node, -⟩ := TaggedType.answered_of_read answered
  cases written_of_ofPart? node with
  | bare listed named =>
    rw [listed, List.perm_singleton] at movedTags
    exact TaggedType.read_of_same_node
      (ofPart?_of_same_members (listed.trans movedTags.symm) _ _)
  | @behindTag _ _ contents _ listed named =>
    have inside : ⟨"contents", contents⟩ ∈ tagMembers members := by simp [listed]
    have soundInside := isSound_of_mem_tagMembers sound inside
    rw [listed, List.perm_pair] at movedTags
    rcases movedTags with same | swapped
    · exact TaggedType.read_of_same_node (ofPart?_of_same_members (listed.trans same.symm) _ _)
    · have taken : (held || contents.isSound) = true := by simp [soundInside]
      exact read_of_moved node (ofPart?_of_written (.beforeTag swapped taken named)) soundInside
        answered (by simp)
  | @beforeTag _ _ contents _ listed taken named =>
    have inside : ⟨"contents", contents⟩ ∈ tagMembers members := by simp [listed]
    have soundInside := isSound_of_mem_tagMembers sound inside
    rw [listed, List.perm_pair] at movedTags
    rcases movedTags with same | swapped
    · exact TaggedType.read_of_same_node (ofPart?_of_same_members (listed.trans same.symm) _ _)
    · refine read_of_moved node (ofPart?_of_written (.behindTag swapped named)) soundInside
        answered ?_
      rintro - rfl shape known
      exact movable _ contents name shape rfl listed (plain_of_choice? named) known

theorem read_of_array {name : String} {contents : Value}
    (tagged : Value.valuesAt ["tag"] members = [.string name])
    (filled : Value.valuesAt ["contents"] members = [contents])
    (movable : Movable type held members) (sound : (Value.object members).isSound = true)
    (answered : (type.read ⟨.object members, held⟩).isSome = true) :
    type.read ⟨.object members, held⟩ = type.read ⟨.array [.string name, contents], held⟩ := by
  obtain ⟨own, inside, -, node, -⟩ := TaggedType.answered_of_read answered
  obtain ⟨tag, only, named, filledOnly⟩ := tag_of_ofPart? node
  obtain rfl : .string name = tag := by simpa [tagged] using only
  obtain rfl : name = own := by simpa [Part.choice?, Value.choice?] using named
  obtain ⟨⟨_, heldInside⟩, rfl, rfl⟩ : ∃ part, inside = some part ∧ part.value = contents := by
    cases inside with
    | none => simp [filled] at filledOnly
    | some part => exact ⟨part, rfl, by simpa [filled] using filledOnly.symm⟩
  have soundInside := isSound_of_mem_valuesAt sound (filled ▸ List.mem_singleton_self _)
  refine read_of_moved node (ofPart?_of_written (.array rfl)) soundInside answered ?_
  rintro rfl rfl shape known
  cases written_of_ofPart? node with
  | beforeTag listed _ named =>
    exact movable _ _ name shape rfl listed (plain_of_choice? named) known

theorem read_of_nullContents {before after : List Member}
    (bare : Value.valuesAt ["contents"] (before ++ after) = [])
    (answered : (type.read ⟨.object (before ++ after), held⟩).isSome = true) :
    type.read ⟨.object (before ++ after), held⟩ =
      type.read ⟨.object (before ++ ⟨"contents", .null⟩ :: after), held⟩ := by
  obtain ⟨name, inside, shape, node, known, answeredInside⟩ := TaggedType.answered_of_read answered
  obtain ⟨-, -, -, empty⟩ := tag_of_ofPart? node
  obtain rfl : inside = none := by simpa [bare] using empty.symm
  obtain rfl : shape = .nothing := answeredInside
  cases written_of_ofPart? node with
  | bare listed named =>
    rw [tagMembers_append, List.append_eq_singleton_iff] at listed
    rcases listed with ⟨noneBefore, tagAfter⟩ | ⟨tagBefore, noneAfter⟩
    · have node' := ofPart?_beforeTag noneBefore tagAfter named type.tags .null
      rw [if_pos (by simp [Value.isSound])] at node'
      exact TaggedType.read_of_null node node' known
    · have node' := ofPart?_behindTag tagBefore noneAfter named type.tags .null
      exact TaggedType.read_of_null node node' known

/-- A change is not seen by whoever reads the value. -/
theorem Change.alike (change : Change shape held v v') (sound : v.isSound = true)
    (answered : shape.Answered ⟨v, held⟩) : shape.Alike ⟨v, held⟩ ⟨v', held⟩ := by
  cases change with
  | reorderFields record moved =>
    exact alike_of_record record fun field _ => field_of_perm moved field.1 field.2.read held
  | reorderTagged moved movable => exact read_of_reordered moved movable sound answered
  | extendFields record unknown _ =>
    refine alike_of_record record fun field listed => (field_insert_other ?_ _ _ _ _ _).symm
    rintro rfl
    exact unknown (List.mem_map_of_mem listed)
  | extendTagged unknown _ =>
    exact TaggedType.read_of_same_node
      (ofPart?_of_same_members (tagMembers_insert unknown _ _ _).symm _ _)
  | asArray tagged filled movable => exact read_of_array tagged filled movable sound answered
  | nullContents bare => exact read_of_nullContents bare answered
  | equationArray first second =>
    simp only [Shape.Alike, Form.read, Form.Data, equation_of_object, equation_of_array,
      Json.Part.field_object, first, second]

end Changes

section Faults

variable {shape : Shape} {held : Bool} {v v' : Value}

theorem valuesAt_without_self (key : String) (members : List Member) :
    Value.valuesAt [key] (without key members) = [] := by
  simp [Value.valuesAt, without]

theorem valuesAt_without_other {key other : String} (differs : other ≠ key)
    (members : List Member) :
    Value.valuesAt [other] (without key members) = Value.valuesAt [other] members := by
  simp only [Value.valuesAt, without, List.filter_filter]
  congr 2
  funext member
  by_cases same : member.key = other <;> simp [same, differs]

theorem two_le_valuesAt_insert {key : String} {before after : List Member}
    (given : Value.valuesAt [key] (before ++ after) ≠ []) (value : Value) :
    2 ≤ (Value.valuesAt [key] (before ++ ⟨key, value⟩ :: after)).length := by
  have positive := List.length_pos_iff.mpr given
  rw [valuesAt_append, List.length_append] at positive ⊢
  rw [valuesAt_cons_self, List.length_cons]
  omega

/-- A faulty object cannot be read. -/
theorem Fault.unanswered (fault : Fault shape held v v') : ¬ shape.Answered ⟨v', held⟩ := by
  intro answered
  cases fault with
  | repeatedField value record listed given =>
    have found := answered_of_record record answered _ listed
    rw [field_insert, if_neg (by simpa using given)] at found
    cases found
  | missingField record listed =>
    have found := answered_of_record record answered _ listed
    rw [Json.Part.field_object, valuesAt_without_self] at found
    cases found
  | repeatedTag value known given =>
    have many := two_le_valuesAt_insert given value
    obtain ⟨_, inside, -, node, -⟩ := TaggedType.answered_of_read answered
    obtain ⟨tag, tagged, -, filled⟩ := tag_of_ofPart? node
    rcases List.mem_pair.mp known with rfl | rfl
    · simp [tagged] at many
    · rw [filled] at many
      cases inside <;> simp at many
  | missingTag =>
    obtain ⟨_, _, -, node, -⟩ := TaggedType.answered_of_read answered
    obtain ⟨tag, tagged, -⟩ := tag_of_ofPart? node
    rw [valuesAt_without_self] at tagged
    cases tagged
  | missingContents tagged named known needed =>
    obtain ⟨own, inside, -, node, -⟩ := TaggedType.answered_of_read answered
    obtain ⟨tag, only, namedOnly, empty⟩ := tag_of_ofPart? node
    rw [valuesAt_without_other (by decide), tagged] at only
    rw [valuesAt_without_self] at empty
    obtain rfl : _ = tag := by simpa using only
    obtain rfl : _ = own := Option.some.inj (named.symm.trans namedOnly)
    obtain rfl : inside = none := by simpa using empty.symm
    exact needed (TaggedType.answeredBy_of_node answered node known)

end Faults

section Trees

variable {v v' : Value} {tree : Expression}

theorem answered_of_ofJson? (read : Expression.ofJson? v = some tree) :
    (Shape.one .expression).Answered ⟨v, false⟩ := by
  have found : Form.expression.read ⟨v, false⟩ = some tree := read
  exact Option.isSome_iff_exists.mpr ⟨tree, found⟩

theorem ofJson?_of_relaid (relaid : Relaid v v') (sound : v.isSound = true)
    (read : Expression.ofJson? v = some tree) :
    v'.isSound = true ∧ Expression.ofJson? v' = some tree := by
  obtain ⟨fill, shape, held, w, w', path, change, rfl, rfl⟩ := relaid
  obtain ⟨rest, split⟩ := path.isSound
  obtain ⟨soundAround, soundInside⟩ := (split w).mp sound
  have soundInside' := change.isSound soundInside
  have answered := path.answered (answered_of_ofJson? read)
  have alike := path.alike trivial sound soundInside' (change.alike soundInside answered)
  exact ⟨(split w').mpr ⟨soundAround, soundInside'⟩, Eq.trans (Eq.symm alike) read⟩

theorem ofJson?_of_relaid_steps (steps : Relation.ReflTransGen Relaid v v')
    (sound : v.isSound = true) (read : Expression.ofJson? v = some tree) :
    v'.isSound = true ∧ Expression.ofJson? v' = some tree := by
  induction steps with
  | refl => exact ⟨sound, read⟩
  | tail _ relaid ih => exact ofJson?_of_relaid relaid ih.1 ih.2

theorem ofJson?_of_spoiled (spoiled : Spoiled v v') : Expression.ofJson? v' = none := by
  obtain ⟨fill, shape, held, w, w', path, fault, -, rfl⟩ := spoiled
  rw [Option.eq_none_iff_forall_ne_some]
  intro tree read
  exact fault.unanswered (path.answered (answered_of_ofJson? read))

/-- The layouts of a tree all decode to the tree, and no object with a fault is a part of any. -/
theorem layouts_decode_alike (v : Value) :
    (∀ tree, v.isSound = true → Expression.ofJson? v = some tree →
      ∀ v', Relation.ReflTransGen Relaid v v' → Expression.ofJson? v' = some tree) ∧
    ∀ v', Spoiled v v' → Expression.ofJson? v' = none := by
  constructor
  · intro tree sound read v' steps
    exact (ofJson?_of_relaid_steps steps sound read).2
  · intro v' spoiled
    exact ofJson?_of_spoiled spoiled

theorem layouts_decode_alike_at_return :
    Expression.ofJson? (.object [
      ⟨"contents", .object [⟨"contents", .null⟩, ⟨"tag", .string "Nil"⟩]⟩,
      ⟨"tag", .string "Return"⟩]) = some (.returned .nil) ∧
    Expression.ofJson? (.object [
      ⟨"tag", .string "Return"⟩,
      ⟨"contents", .object [⟨"tag", .string "Nil"⟩, ⟨"tag", .string "Nil"⟩]⟩]) = none := by
  obtain ⟨same, refused⟩ := layouts_decode_alike
    (.object [⟨"tag", .string "Return"⟩, ⟨"contents", .object [⟨"tag", .string "Nil"⟩]⟩])
  have path : Path (.one .expression) false
      (fun v => .object ([⟨"tag", .string "Return"⟩] ++ ⟨"contents", v⟩ :: []))
      (.one .expression) false := .inside (.behindTag rfl rfl rfl rfl) .here
  constructor
  · refine same _ (by cbv) (by cbv) _ (.tail (.single ⟨_, _, _, .object ([] ++ [_]), _, path,
      .nullContents rfl, rfl, rfl⟩) ⟨id, _, _, _, _, .here, .reorderTagged (.swap _ _ _)
        (.inr ?_), rfl, rfl⟩)
    intro tag contents name shape _ listed
    simp [tagMembers] at listed
  · exact refused _ ⟨_, _, _, .object ([] ++ [_]), _, path,
      .repeatedTag (.string "Nil") (by simp) (by simp [Value.valuesAt]), rfl, rfl⟩

/-- A tag by number, and a name with `null` in an array, are not tags everywhere. -/
theorem layouts_decode_unlike :
    (Value.object [⟨"contents", .array [.array [.natural 35, .null]]⟩,
      ⟨"tag", .string "Sequence"⟩]).isSound = true ∧
    Expression.ofJson? (.object [⟨"contents", .array [.array [.natural 35, .null]]⟩,
      ⟨"tag", .string "Sequence"⟩]) = some (.sequence [.nil]) ∧
    Expression.ofJson? (.object [⟨"tag", .string "Sequence"⟩,
      ⟨"contents", .array [.array [.natural 35, .null]]⟩]) = none ∧
    Expression.ofJson? (.array [.string "Sequence", .array [.array [.natural 35, .null]]]) = none ∧
    Expression.ofJson? (.object [⟨"tag", .object [⟨"Reference", .null⟩]⟩,
      ⟨"contents", .string "x"⟩]) = some (.reference "x") ∧
    Expression.ofJson? (.array [.object [⟨"Reference", .null⟩], .string "x"]) = none := by
  refine ⟨?_, ?_, ?_, ?_, ?_, ?_⟩ <;> cbv

end Trees

end CodeRubric.Format
