import CodeRubric.Proofs.Tree.Objects
import Mathlib.Tactic.Tauto

/-! The places of a tree's JSON form at which something is read, at any depth. What is read the same
at a place leaves the reading of the whole the same, and what cannot be read there makes the whole
unreadable. What can be read can be read held back; the converse is true where the tags have forms
that are taken everywhere. -/
namespace CodeRubric.Format

open Json (Value Member Part Tagged)

/-- `Place shape held fill inner heldInside`: in a value `fill v` that is read as `shape`, the value
`v` is read as `inner`. The flags say whether the two are held back. -/
inductive Place : Shape → Bool → (Value → Value) → Shape → Bool → Prop where
  | item {form : Form} {held : Bool} (before after : List Value) :
      Place (.one (.list form)) held (fun v => .array (before ++ v :: after)) (.one form) held
  | condition {held : Bool} (result : Value) :
      Place (.one .branch) held (fun v => .array [v, result]) (.one .expression) held
  | result {held : Bool} (condition : Value) :
      Place (.one .branch) held (fun v => .array [condition, v]) (.one .expression) held
  | field {shape : Shape} {known : List (String × Form)} {key : String} {form : Form}
      {held : Bool} (before after : List Member) (record : shape.record? = some known)
      (listed : (key, form) ∈ known) :
      Place shape held (fun v => .object (before ++ ⟨key, v⟩ :: after)) (.one form) held
  | params {held : Bool} (body : Value) :
      Place (.one .equation) held (fun v => .array [v, body]) (.one (.list .pattern)) held
  | body {held : Bool} (params : Value) :
      Place (.one .equation) held (fun v => .array [params, v]) (.one (.tagged .body)) held
  | second {type : TaggedType} {tag : Value} {name : String} {shape : Shape} {held : Bool}
      (named : (Json.Part.mk tag held).oneOf? type.tags = some name)
      (known : type.shape? name = some shape) :
      Place (.one (.tagged type)) held (fun v => .array [tag, v]) shape held
  | behindTag {type : TaggedType} {tag : Value} {name : String} {shape : Shape} {held : Bool}
      {before after : List Member} (tagBefore : tagMembers before = [⟨"tag", tag⟩])
      (noneAfter : tagMembers after = []) (named : (Json.Part.mk tag held).choice? = some name)
      (known : type.shape? name = some shape) :
      Place (.one (.tagged type)) held (fun v => .object (before ++ ⟨"contents", v⟩ :: after))
        shape held
  | beforeTag {type : TaggedType} {tag : Value} {name : String} {shape : Shape} {held : Bool}
      {before after : List Member} (noneBefore : tagMembers before = [])
      (tagAfter : tagMembers after = [⟨"tag", tag⟩])
      (named : (Json.Part.mk tag held).choice? = some name)
      (known : type.shape? name = some shape) :
      Place (.one (.tagged type)) held (fun v => .object (before ++ ⟨"contents", v⟩ :: after))
        shape true

/-- The places in a value that is read as some shape, at any depth. -/
inductive Path : Shape → Bool → (Value → Value) → Shape → Bool → Prop where
  | here {shape : Shape} {held : Bool} : Path shape held id shape held
  | inside {shape inner innermost : Shape} {held heldInside heldInnermost : Bool}
      {fill fillInside : Value → Value} (place : Place shape held fill inner heldInside)
      (path : Path inner heldInside fillInside innermost heldInnermost) :
      Path shape held (fill ∘ fillInside) innermost heldInnermost

section Soundness

theorem isSound_array_iff {items : List Value} :
    (Value.array items).isSound = true ↔ ∀ item ∈ items, item.isSound = true := by
  simp only [Value.isSound]
  induction items with
  | nil => simp [Value.allSound]
  | cons item rest ih => simp [Value.allSound, ih]

theorem isSound_object_iff {members : List Member} :
    (Value.object members).isSound = true ↔ ∀ member ∈ members, member.value.isSound = true := by
  simp only [Value.isSound]
  induction members with
  | nil => simp [Member.allSound]
  | cons member rest ih =>
    cases member
    simp [Member.allSound, Member.isSound, ih]

theorem isSound_of_mem_valuesAt {members : List Member} {keys : List String} {value : Value}
    (sound : (Value.object members).isSound = true) (inside : value ∈ Value.valuesAt keys members) :
    value.isSound = true := by
  obtain ⟨member, listed, rfl⟩ := List.mem_map.mp inside
  exact isSound_object_iff.mp sound member (List.mem_filter.mp listed).1

theorem isSound_of_mem_tagMembers {members : List Member} {key : String} {value : Value}
    (sound : (Value.object members).isSound = true) (inside : ⟨key, value⟩ ∈ tagMembers members) :
    value.isSound = true :=
  isSound_object_iff.mp sound ⟨key, value⟩ (List.mem_filter.mp inside).1

theorem isSound_array_insert (before after : List Value) (v : Value) :
    (Value.array (before ++ v :: after)).isSound = true ↔
      (∀ item ∈ before ++ after, item.isSound = true) ∧ v.isSound = true := by
  simp only [isSound_array_iff, List.forall_mem_append, List.forall_mem_cons]
  tauto

theorem isSound_object_insert (before after : List Member) (key : String) (v : Value) :
    (Value.object (before ++ ⟨key, v⟩ :: after)).isSound = true ↔
      (Value.object (before ++ after)).isSound = true ∧ v.isSound = true := by
  simp only [isSound_object_iff, List.forall_mem_append, List.forall_mem_cons]
  tauto

variable {shape inner : Shape} {held heldInside : Bool} {fill : Value → Value}

/-- The value around a place is sound if both what it has apart from the place and what is at the
place are. -/
theorem Place.isSound (place : Place shape held fill inner heldInside) :
    ∃ rest : Prop, ∀ v, (fill v).isSound = true ↔ rest ∧ v.isSound = true := by
  cases place with
  | item before after => exact ⟨_, isSound_array_insert before after⟩
  | condition other | params other => exact ⟨_, isSound_array_insert [] [other]⟩
  | result other | body other => exact ⟨_, isSound_array_insert [other] []⟩
  | second => exact ⟨_, isSound_array_insert [_] []⟩
  | field before after => exact ⟨_, isSound_object_insert before after _⟩
  | behindTag | beforeTag => exact ⟨_, isSound_object_insert _ _ _⟩

theorem Path.isSound (path : Path shape held fill inner heldInside) :
    ∃ rest : Prop, ∀ v, (fill v).isSound = true ↔ rest ∧ v.isSound = true := by
  induction path with
  | here => exact ⟨True, fun v => by simp⟩
  | inside place _ ih =>
    obtain ⟨around, outer⟩ := place.isSound
    obtain ⟨between, inner⟩ := ih
    exact ⟨around ∧ between, fun v => by rw [Function.comp_apply, outer, inner, and_assoc]⟩

end Soundness

section Reading

variable {shape inner : Shape} {held heldInside : Bool} {fill : Value → Value} {v v' : Value}

theorem Place.distinct (place : Place shape held fill inner heldInside) : inner.Distinct := by
  cases place with
  | second _ known | behindTag _ _ _ known | beforeTag _ _ _ known =>
    exact TaggedType.distinct_of_shape? known
  | _ => trivial

section Tags

variable {type : TaggedType} {tag : Value} {name : String} {before after : List Member}

theorem ofPart?_second (named : (Json.Part.mk tag held).oneOf? type.tags = some name) (v : Value) :
    Tagged.ofPart? type.tags ⟨.array [tag, v], held⟩ = some ⟨name, some ⟨v, held⟩⟩ := by
  simp [Tagged.ofPart?, Part.inside, named]

theorem ofPart?_behindTag (tagBefore : tagMembers before = [⟨"tag", tag⟩])
    (noneAfter : tagMembers after = []) (named : (Json.Part.mk tag held).choice? = some name)
    (names : List String) (v : Value) :
    Tagged.ofPart? names ⟨.object (before ++ ⟨"contents", v⟩ :: after), held⟩ =
      some ⟨name, some ⟨v, held⟩⟩ := by
  simp [ofPart?_object, tagBefore, noneAfter, named]

theorem ofPart?_beforeTag (noneBefore : tagMembers before = [])
    (tagAfter : tagMembers after = [⟨"tag", tag⟩])
    (named : (Json.Part.mk tag held).choice? = some name) (names : List String) (v : Value) :
    Tagged.ofPart? names ⟨.object (before ++ ⟨"contents", v⟩ :: after), held⟩ =
      if held || v.isSound then some ⟨name, some ⟨v, true⟩⟩ else none := by
  simp [ofPart?_object, noneBefore, tagAfter, named]

end Tags

/-- What is read the same at a place leaves the reading around it the same. -/
theorem Place.alike (place : Place shape held fill inner heldInside) (distinct : shape.Distinct)
    (sound : v.isSound = v'.isSound) (alike : inner.Alike ⟨v, heldInside⟩ ⟨v', heldInside⟩) :
    shape.Alike ⟨fill v, held⟩ ⟨fill v', held⟩ := by
  cases place with
  | item before after =>
    simp only [Shape.Alike] at alike
    simp only [Shape.Alike, Form.read, Form.Data, listOf_append, Json.Part.listOf_cons, alike]
  | condition result | result condition =>
    simp only [Shape.Alike, Form.read, TaggedType.read, Form.Data, TaggedType.Data] at alike
    simp only [Shape.Alike, Form.read, Form.Data, Branch.read, Part.inside, alike]
  | field before after record listed => exact alike_of_field record distinct listed alike
  | params body | body params =>
    simp only [Shape.Alike, Form.read, TaggedType.read, Form.Data, TaggedType.Data] at alike
    simp only [Shape.Alike, Form.read, Form.Data, equation_of_array, alike]
  | second named known =>
    exact TaggedType.read_of_alike (ofPart?_second named v) (ofPart?_second named v') known alike
  | behindTag tagBefore noneAfter named known =>
    exact TaggedType.read_of_alike (ofPart?_behindTag tagBefore noneAfter named _ v)
      (ofPart?_behindTag tagBefore noneAfter named _ v') known alike
  | @beforeTag type _ _ _ _ _ _ noneBefore tagAfter named known =>
    have node := ofPart?_beforeTag noneBefore tagAfter named type.tags v
    have node' := ofPart?_beforeTag noneBefore tagAfter named type.tags v'
    rw [← sound] at node'
    split at node
    · next taken =>
      rw [if_pos taken] at node'
      exact TaggedType.read_of_alike node node' known alike
    · next refused =>
      rw [if_neg refused] at node'
      exact TaggedType.read_of_same_node (node.trans node'.symm)

/-- What is read as a whole is read at each place in it. -/
theorem Place.answered (place : Place shape held fill inner heldInside)
    (answered : shape.Answered ⟨fill v, held⟩) : inner.Answered ⟨v, heldInside⟩ := by
  cases place with
  | item before after =>
    simp only [Shape.Answered, Form.read, Form.Data, listOf_append, Json.Part.listOf_cons,
      Option.isSome_iff_exists, Option.bind_eq_some_iff, Option.map_eq_some_iff] at answered ⊢
    grind
  | condition result | result condition =>
    simp only [Shape.Answered, Form.read, TaggedType.read, Form.Data, TaggedType.Data, Branch.read,
      Part.inside, Option.isSome_iff_exists, Option.bind_eq_bind,
      Option.bind_eq_some_iff] at answered ⊢
    grind
  | field before after record listed => exact answered_of_field record listed answered
  | params body | body params =>
    simp only [Shape.Answered, Form.read, TaggedType.read, Form.Data, TaggedType.Data,
      equation_of_array, Option.isSome_iff_exists, Option.bind_eq_some_iff,
      Option.map_eq_some_iff] at answered ⊢
    grind
  | second named known =>
    exact TaggedType.answeredBy_of_node answered (ofPart?_second named v) known
  | behindTag tagBefore noneAfter named known =>
    exact TaggedType.answeredBy_of_node answered (ofPart?_behindTag tagBefore noneAfter named _ v)
      known
  | @beforeTag type _ _ _ _ _ _ noneBefore tagAfter named known =>
    have node := ofPart?_beforeTag noneBefore tagAfter named type.tags v
    split at node
    · exact TaggedType.answeredBy_of_node answered node known
    · simp only [Shape.Answered, Form.read, TaggedType.read_of_no_node node] at answered
      cases answered

theorem Path.answered (path : Path shape held fill inner heldInside)
    (answered : shape.Answered ⟨fill v, held⟩) : inner.Answered ⟨v, heldInside⟩ := by
  induction path with
  | here => exact answered
  | inside place _ ih => exact ih (place.answered answered)

/-- The same at any depth, for sound values. -/
theorem Path.alike (path : Path shape held fill inner heldInside) (distinct : shape.Distinct)
    (sound : (fill v).isSound = true) (sound' : v'.isSound = true)
    (alike : inner.Alike ⟨v, heldInside⟩ ⟨v', heldInside⟩) :
    shape.Alike ⟨fill v, held⟩ ⟨fill v', held⟩ := by
  induction path with
  | here => exact alike
  | inside place path ih =>
    obtain ⟨around, outer⟩ := place.isSound
    obtain ⟨between, inner⟩ := path.isSound
    have soundInside := ((outer _).mp sound).2
    have soundInside' := (inner v').mpr ⟨((inner v).mp soundInside).1, sound'⟩
    exact place.alike distinct (soundInside.trans soundInside'.symm)
      (ih place.distinct soundInside alike)

end Reading

section HeldBack

/-- The tag of the value is written in a form that is taken everywhere: in an array by its name, in
an object by its name or by the name with `null`. -/
def PlainTag : Value → Prop
  | .array (tag :: _) => ∃ name, tag = .string name
  | .object members => ∀ tag ∈ Value.valuesAt ["tag"] members, ∃ name, tag.choice? = some name
  | _ => True

/-- So are all tags in the value, those in contents that stand before their tag apart. -/
def Plain (shape : Shape) (v : Value) : Prop :=
  ∀ fill type w, Path shape false fill (.one (.tagged type)) false → v = fill w → PlainTag w

variable {shape inner : Shape} {held held' heldInside : Bool} {fill : Value → Value} {v w : Value}
  {tag : Value} {name : String} {members : List Member}

theorem Plain.inside (plain : Plain shape (fill w)) (place : Place shape false fill inner false) :
    Plain inner w := by
  rintro fillInside type u path rfl
  exact plain _ type u (.inside place path) rfl

theorem choice?_of_plain (named : tag.choice? = some name) (held : Bool) :
    (Json.Part.mk tag held).choice? = some name := by
  unfold Part.choice?
  split
  · next same =>
    cases same
    cases named
  · exact named

theorem plain_of_choice? (named : (Json.Part.mk tag false).choice? = some name) :
    tag.choice? = some name := by
  unfold Part.choice? at named
  split at named
  · simp at named
  · exact named

theorem choice?_of_plainTag (plain : PlainTag (.object members))
    (inside : ⟨"tag", tag⟩ ∈ tagMembers members)
    (named : (Json.Part.mk tag held).choice? = some name) (held' : Bool) :
    (Json.Part.mk tag held').choice? = some name := by
  have listed : tag ∈ Value.valuesAt ["tag"] members := by
    rw [← valuesAt_tagMembers (by simp)]
    exact List.mem_map.mpr ⟨_, List.mem_filter.mpr ⟨inside, by simp⟩, rfl⟩
  obtain ⟨own, plainly⟩ := plain tag listed
  exact (choice?_of_plain plainly held').trans ((choice?_of_plain plainly held).symm.trans named)

/-- What can be read without being held back has plain tags. -/
theorem plain_of_answered (answered : shape.Answered ⟨v, false⟩) : Plain shape v := by
  rintro fill type w path rfl
  obtain ⟨name, contents, -, node, -⟩ := TaggedType.answered_of_read (path.answered answered)
  cases w with
  | array items =>
    cases written_of_ofPart? node with
    | @array tag _ _ named =>
      cases tag with
      | string name => exact ⟨name, rfl⟩
      | _ => cases named
  | object members =>
    obtain ⟨tag, only, named, -⟩ := tag_of_ofPart? node
    intro other listed
    obtain rfl : other = tag := by simpa [only] using listed
    exact ⟨name, plain_of_choice? named⟩
  | _ => trivial

theorem depth_lt_insert (key : String) (v : Value) (before after : List Member) :
    v.depth < (Value.object (before ++ ⟨key, v⟩ :: after)).depth := by
  have inside : v ∈ Value.valuesAt [key] (before ++ ⟨key, v⟩ :: after) := by
    simp [Value.valuesAt]
  exact Value.depth_lt_valuesAt inside

theorem Place.depth_lt (place : Place shape held fill inner heldInside) (v : Value) :
    v.depth < (fill v).depth := by
  cases place with
  | item | condition | result | params | body | second =>
    exact Value.depth_lt_array (by simp)
  | field | behindTag | beforeTag =>
    exact depth_lt_insert _ v _ _

theorem split_of_valuesAt {key : String} (inside : v ∈ Value.valuesAt [key] members) :
    ∃ before after, members = before ++ ⟨key, v⟩ :: after := by
  obtain ⟨⟨own, _⟩, kept, rfl⟩ := List.mem_map.mp inside
  obtain ⟨listed, same⟩ := List.mem_filter.mp kept
  obtain rfl : own = key := by simpa using same
  exact List.append_of_mem listed

theorem field_held {α : Type} {key : String} {read : Part → Option α}
    (steady : ∀ v ∈ Value.valuesAt [key] members, read ⟨v, held⟩ = read ⟨v, held'⟩) :
    Part.field key read ⟨.object members, held⟩ = Part.field key read ⟨.object members, held'⟩ := by
  rw [Json.Part.field_object, Json.Part.field_object]
  split
  · next v only => exact steady v (by simp [only])
  · rfl

theorem listOf_held {α : Type} {read : Part → Option α} {items : List Value}
    (steady : ∀ v ∈ items, read ⟨v, held⟩ = read ⟨v, held'⟩) :
    Part.listOf read ⟨.array items, held⟩ = Part.listOf read ⟨.array items, held'⟩ := by
  induction items with
  | nil => rfl
  | cons item rest ih =>
    obtain ⟨here, later⟩ := List.forall_mem_cons.mp steady
    rw [Json.Part.listOf_cons, Json.Part.listOf_cons, here, ih later]

/-- Where the tag is plain, a tagged value is held back for the sake of its contents only. -/
theorem read_held {type : TaggedType} (plain : PlainTag v) (sound : v.isSound = true)
    (answered : (type.read ⟨v, held⟩).isSome = true)
    (steady : ∀ fill inner w, (∀ held, Place (.one (.tagged type)) held fill inner held) →
      v = fill w → inner.Alike ⟨w, held⟩ ⟨w, held'⟩) :
    type.read ⟨v, held⟩ = type.read ⟨v, held'⟩ := by
  obtain ⟨name, contents, shape, node, known, -⟩ := TaggedType.answered_of_read answered
  cases written_of_ofPart? node with
  | @array tag contents _ named =>
    obtain ⟨own, rfl⟩ := plain
    cases named
    have place (held : Bool) : Place (.one (.tagged type)) held
        (fun v => .array [.string name, v]) shape held := .second rfl known
    exact TaggedType.read_of_alike node (ofPart?_of_written (.array rfl)) known
      (steady _ _ contents place rfl)
  | bare listed named =>
    have namedToo := choice?_of_plainTag plain (by simp [listed]) named held'
    exact TaggedType.read_of_same_node
      (node.trans (ofPart?_of_written (.bare listed namedToo)).symm)
  | @behindTag members tag contents _ listed named =>
    have namedAlways := choice?_of_plainTag plain (by simp [listed]) named
    have node' : Tagged.ofPart? type.tags _ = _ :=
      ofPart?_of_written (.behindTag listed (namedAlways held'))
    obtain ⟨before, after, rfl, tagBefore, noneAfter⟩ :=
      split_of_tagMembers [⟨"tag", tag⟩] listed
    have place (held : Bool) : Place (.one (.tagged type)) held
        (fun v => .object (before ++ ⟨"contents", v⟩ :: after)) shape held :=
      .behindTag tagBefore noneAfter (namedAlways held) known
    exact TaggedType.read_of_alike node node' known (steady _ _ contents place rfl)
  | @beforeTag members tag contents _ listed _ named =>
    -- Contents that stand here are held back in any case, so they need not have plain tags.
    have namedToo := choice?_of_plainTag plain (by simp [listed]) named held'
    have inside : ⟨"contents", contents⟩ ∈ tagMembers members := by simp [listed]
    have soundInside := isSound_of_mem_tagMembers sound inside
    have taken : (held' || contents.isSound) = true := by simp [soundInside]
    exact TaggedType.read_of_same_node
      (node.trans (ofPart?_of_written (.beforeTag listed taken namedToo)).symm)

theorem exists_of_branch (answered : (Form.branch.read ⟨v, held⟩).isSome = true) :
    ∃ condition result, v = .array [condition, result] := by
  simp only [Form.read, Branch.read] at answered
  split at answered
  · next condition result => exact ⟨condition, result, rfl⟩
  · cases answered

theorem exists_of_equation (answered : (Form.equation.read ⟨v, held⟩).isSome = true) :
    (∃ members, v = .object members) ∨ ∃ params body, v = .array [params, body] := by
  match v with
  | .object members => exact .inl ⟨members, rfl⟩
  | .array [params, body] => exact .inr ⟨params, body, rfl⟩
  | .array [] | .array [_] | .array (_ :: _ :: _ :: _) => cases answered
  | .null | .bool _ | .number _ | .natural _ | .string _ | .ill => cases answered

/-- Where the tags are plain it does not matter whether a value is held back. -/
theorem Plain.alike {shape : Shape} {v : Value} {held : Bool} (plain : Plain shape v)
    (sound : v.isSound = true) (answered : shape.Answered ⟨v, held⟩) (held' : Bool) :
    shape.Alike ⟨v, held⟩ ⟨v, held'⟩ := by
  -- The induction is on the depth; `within` is its hypothesis at any place.
  have within (fill : Value → Value) (inner : Shape) (w : Value)
      (place : ∀ held, Place shape held fill inner held) (same : v = fill w) :
      inner.Alike ⟨w, held⟩ ⟨w, held'⟩ := by
    subst same
    obtain ⟨rest, split⟩ := (place held).isSound
    have shallower := (place held).depth_lt w
    exact Plain.alike (plain.inside (place false)) ((split w).mp sound).2
      ((place held).answered answered) held'
  have fieldwise (known : List (String × Form)) (record : shape.record? = some known)
      (members : List Member) (same : v = .object members) :
      (Shape.fields known).Alike ⟨v, held⟩ ⟨v, held'⟩ := by
    subst same
    intro field listed
    refine field_held fun w inside => ?_
    obtain ⟨before, after, rfl⟩ := split_of_valuesAt inside
    exact within _ (.one field.2) w (fun held => .field before after record listed) rfl
  cases shape with
  | nothing => exact Iff.rfl
  | fields known =>
    cases v with
    | object members => exact fieldwise known rfl members rfl
    | _ => exact fun field listed => rfl
  | one form =>
    cases form with
    | text | flag | number => rfl
    | list item =>
      cases v with
      | array items =>
        refine listOf_held fun w inside => ?_
        obtain ⟨before, after, rfl⟩ := List.append_of_mem inside
        exact within _ (.one item) w (fun held => .item before after) rfl
      | _ => rfl
    | branch =>
      obtain ⟨condition, result, rfl⟩ := exists_of_branch answered
      have first := within _ _ condition (fun held => .condition result) rfl
      have second := within _ _ result (fun held => .result condition) rfl
      simp only [Shape.Alike, Form.read, TaggedType.read, Form.Data,
        TaggedType.Data] at first second
      simp only [Shape.Alike, Form.read, Form.Data, Branch.read, Part.inside, first, second]
    | equation =>
      rcases exists_of_equation answered with ⟨members, rfl⟩ | ⟨params, body, rfl⟩
      · exact alike_of_record rfl (fieldwise equationFields rfl members rfl)
      · have first := within _ _ params (fun held => .params body) rfl
        have second := within _ _ body (fun held => .body params) rfl
        simp only [Shape.Alike, Form.read, TaggedType.read, Form.Data,
          TaggedType.Data] at first second
        simp only [Shape.Alike, Form.read, Form.Data, equation_of_array, first, second]
    | tagged type =>
      exact read_held (plain id type v .here rfl) sound answered within
termination_by v.depth

theorem Shape.Alike.refl (shape : Shape) (part : Part) : shape.Alike part part := by
  cases shape with
  | nothing => exact Iff.rfl
  | one form => rfl
  | fields known => exact fun field listed => rfl

/-- Whatever can be read may be held back, and with plain tags it may also be let out again. -/
theorem alike_of_moved (sound : v.isSound = true) (answered : shape.Answered ⟨v, held⟩)
    (plain : held = true → held' = false → Plain shape v) :
    shape.Alike ⟨v, held⟩ ⟨v, held'⟩ := by
  cases held with
  | false => exact (plain_of_answered answered).alike sound answered held'
  | true =>
    cases held' with
    | false => exact (plain rfl rfl).alike sound answered false
    | true => exact .refl shape _

end HeldBack

end CodeRubric.Format
