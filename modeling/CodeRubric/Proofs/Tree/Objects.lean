import CodeRubric.Proofs.Tree.Format
import CodeRubric.Proofs.Tree.RoundTrip
import Mathlib.Data.List.Nodup

/-! Objects as the readers of trees see them. A record is read by the values at its known keys, and
a tagged object by the members at two keys, of which the tag has to be there once and the contents
at most once. -/
namespace CodeRubric.Format

open Json (Value Member Part Tagged)

section Members

theorem valuesAt_append (keys : List String) (front back : List Member) :
    Value.valuesAt keys (front ++ back) =
      Value.valuesAt keys front ++ Value.valuesAt keys back := by
  simp [Value.valuesAt]

theorem valuesAt_cons_self (key : String) (value : Value) (members : List Member) :
    Value.valuesAt [key] (⟨key, value⟩ :: members) = value :: Value.valuesAt [key] members := by
  simp [Value.valuesAt]

theorem valuesAt_cons_other {key other : String} (differs : other ≠ key) (value : Value)
    (members : List Member) :
    Value.valuesAt [other] (⟨key, value⟩ :: members) = Value.valuesAt [other] members := by
  simp [Value.valuesAt, differs.symm]

theorem field_insert {α : Type} (key : String) (read : Part → Option α)
    (before after : List Member) (value : Value) (held : Bool) :
    Part.field key read ⟨.object (before ++ ⟨key, value⟩ :: after), held⟩ =
      if (Value.valuesAt [key] (before ++ after)).isEmpty then read ⟨value, held⟩ else none := by
  rw [Json.Part.field_object, valuesAt_append, valuesAt_append, valuesAt_cons_self]
  cases Value.valuesAt [key] before with
  | nil => cases Value.valuesAt [key] after <;> rfl
  | cons first more => cases more <;> rfl

theorem field_insert_other {α : Type} {key other : String} (differs : other ≠ key)
    (read : Part → Option α) (before after : List Member) (value : Value) (held : Bool) :
    Part.field other read ⟨.object (before ++ ⟨key, value⟩ :: after), held⟩ =
      Part.field other read ⟨.object (before ++ after), held⟩ := by
  simp only [Json.Part.field_object, valuesAt_append, valuesAt_cons_other differs]

theorem listOf_append {α : Type} (read : Part → Option α) (front back : List Value) (held : Bool) :
    Part.listOf read ⟨.array (front ++ back), held⟩ =
      (Part.listOf read ⟨.array front, held⟩).bind fun first =>
        (Part.listOf read ⟨.array back, held⟩).map fun second => first ++ second := by
  simp only [Part.listOf, Part.inside, Value.listOf, List.mapM_append]
  cases front.mapM (fun value => read ⟨value, held⟩) with
  | none => rfl
  | some first => cases back.mapM (fun value => read ⟨value, held⟩) <;> rfl

end Members

section Records

variable {shape : Shape} {known : List (String × Form)} {key : String} {form : Form}
  {members members' before after : List Member} {v v' : Value} {held held' : Bool}

/-- An equation is read from an object by its fields. -/
theorem equation_of_object (members : List Member) (held : Bool) :
    Equation.read Expression.ofPart? ⟨.object members, held⟩ =
      (Part.field "params" (Part.listOf Pattern.ofPart?) ⟨.object members, held⟩).bind
        fun params => (Part.field "body" (EquationBody.read Expression.ofPart?)
          ⟨.object members, held⟩).map fun body => ⟨params, body⟩ := by
  simp only [Equation.read, Part.slots?, Value.slots?, List.mapM_cons, List.mapM_nil, Value.slot?,
    Json.Part.field_object]
  rcases Value.valuesAt ["params"] members with _ | ⟨params, _ | ⟨_, _⟩⟩ <;>
    rcases Value.valuesAt ["body"] members with _ | ⟨body, _ | ⟨_, _⟩⟩ <;>
    simp [paramsOfPart?, Part.inside, Option.map_eq_bind, Function.comp_def]

theorem equation_of_array (params body : Value) (held : Bool) :
    Equation.read Expression.ofPart? ⟨.array [params, body], held⟩ =
      (Part.listOf Pattern.ofPart? ⟨params, held⟩).bind fun params =>
        (EquationBody.read Expression.ofPart? ⟨body, held⟩).map fun body => ⟨params, body⟩ := by
  simp [Equation.read, Part.slots?, Value.slots?, paramsOfPart?, Part.inside, Option.map_eq_bind,
    Function.comp_def]

theorem equation_of_alike
    (alike : (Shape.fields equationFields).Alike ⟨.object members, held⟩
      ⟨.object members', held'⟩) :
    Form.equation.read ⟨.object members, held⟩ = Form.equation.read ⟨.object members', held'⟩ := by
  simp only [Shape.Alike, equationFields, Form.read, TaggedType.read, Form.Data, TaggedType.Data,
    List.forall_mem_cons, List.not_mem_nil, false_implies, implies_true, and_true] at alike
  simp only [Form.read, Form.Data, equation_of_object, alike]

theorem answered_of_equation
    (answered : (Form.equation.read ⟨.object members, held⟩).isSome = true) :
    (Shape.fields equationFields).Answered ⟨.object members, held⟩ := by
  simp only [Form.read, Form.Data, equation_of_object, Option.isSome_iff_exists,
    Option.bind_eq_some_iff, Option.map_eq_some_iff] at answered
  simp only [Shape.Answered, equationFields, Form.read, TaggedType.read, Form.Data,
    TaggedType.Data, List.forall_mem_cons, List.not_mem_nil, false_implies, implies_true, and_true,
    Option.isSome_iff_exists]
  grind

/-- A record is read by its fields. -/
theorem alike_of_record (record : shape.record? = some known)
    (alike : (Shape.fields known).Alike ⟨.object members, held⟩ ⟨.object members', held'⟩) :
    shape.Alike ⟨.object members, held⟩ ⟨.object members', held'⟩ := by
  unfold Shape.record? at record
  split at record
  · cases record
    exact alike
  · cases record
    exact equation_of_alike alike
  · cases record

theorem answered_of_record (record : shape.record? = some known)
    (answered : shape.Answered ⟨.object members, held⟩) :
    (Shape.fields known).Answered ⟨.object members, held⟩ := by
  unfold Shape.record? at record
  split at record
  · cases record
    exact answered
  · cases record
    exact answered_of_equation answered
  · cases record

theorem nodup_of_record (record : shape.record? = some known) (distinct : shape.Distinct) :
    (known.map Prod.fst).Nodup := by
  unfold Shape.record? at record
  split at record
  · cases record
    exact distinct
  · cases record
    decide
  · cases record

/-- A known key has one form only. -/
theorem form_unique {form' : Form} (record : shape.record? = some known)
    (distinct : shape.Distinct) (listed : (key, form) ∈ known) (listed' : (key, form') ∈ known) :
    form = form' := by
  simpa using List.inj_on_of_nodup_map (nodup_of_record record distinct) listed listed' rfl

theorem alike_of_field (record : shape.record? = some known) (distinct : shape.Distinct)
    (listed : (key, form) ∈ known) (alike : form.read ⟨v, held⟩ = form.read ⟨v', held⟩) :
    shape.Alike ⟨.object (before ++ ⟨key, v⟩ :: after), held⟩
      ⟨.object (before ++ ⟨key, v'⟩ :: after), held⟩ := by
  apply alike_of_record record
  rintro ⟨other, form'⟩ listed'
  by_cases same : other = key
  · subst same
    obtain rfl := form_unique record distinct listed listed'
    simp only [field_insert, alike]
  · simp only [field_insert_other same]

theorem answered_of_field (record : shape.record? = some known) (listed : (key, form) ∈ known)
    (answered : shape.Answered ⟨.object (before ++ ⟨key, v⟩ :: after), held⟩) :
    (form.read ⟨v, held⟩).isSome = true := by
  have found := answered_of_record record answered (key, form) listed
  rw [field_insert] at found
  split at found
  · exact found
  · cases found

end Records

section TaggedObjects

variable {members : List Member}

/-- The members by which a tagged object is read. -/
def tagMembers (members : List Member) : List Member :=
  members.filter fun member => ["tag", "contents"].contains member.key

@[simp] theorem tagMembers_append (front back : List Member) :
    tagMembers (front ++ back) = tagMembers front ++ tagMembers back := List.filter_append ..

@[simp] theorem tagMembers_contents (value : Value) (members : List Member) :
    tagMembers (⟨"contents", value⟩ :: members) = ⟨"contents", value⟩ :: tagMembers members := rfl

theorem ofPart?_object (names : List String) (members : List Member) (held : Bool) :
    Tagged.ofPart? names ⟨.object members, held⟩ =
      match tagMembers members with
      | [⟨"tag", tag⟩] => (Json.Part.mk tag held).choice?.map fun tag => ⟨tag, none⟩
      | [⟨"tag", tag⟩, ⟨"contents", contents⟩] =>
        (Json.Part.mk tag held).choice?.map fun tag => ⟨tag, some ⟨contents, held⟩⟩
      | [⟨"contents", contents⟩, ⟨"tag", tag⟩] =>
        if held || contents.isSound then
          (Json.Part.mk tag held).choice?.map fun tag => ⟨tag, some ⟨contents, true⟩⟩
        else none
      | _ => none := rfl

theorem valuesAt_tagMembers {key : String} (known : key ∈ ["tag", "contents"])
    (members : List Member) :
    Value.valuesAt [key] (tagMembers members) = Value.valuesAt [key] members := by
  simp only [Value.valuesAt, tagMembers, List.filter_filter]
  congr 2
  funext member
  by_cases same : member.key = key
  · simp [same, known]
  · simp [same]

/-- The ways to write a tagged value. -/
inductive Written (names : List String) (held : Bool) : Value → Tagged → Prop where
  | array {tag contents : Value} {name : String}
      (named : (Json.Part.mk tag held).oneOf? names = some name) :
      Written names held (.array [tag, contents]) ⟨name, some ⟨contents, held⟩⟩
  | bare {members : List Member} {tag : Value} {name : String}
      (listed : tagMembers members = [⟨"tag", tag⟩])
      (named : (Json.Part.mk tag held).choice? = some name) :
      Written names held (.object members) ⟨name, none⟩
  | behindTag {members : List Member} {tag contents : Value} {name : String}
      (listed : tagMembers members = [⟨"tag", tag⟩, ⟨"contents", contents⟩])
      (named : (Json.Part.mk tag held).choice? = some name) :
      Written names held (.object members) ⟨name, some ⟨contents, held⟩⟩
  | beforeTag {members : List Member} {tag contents : Value} {name : String}
      (listed : tagMembers members = [⟨"contents", contents⟩, ⟨"tag", tag⟩])
      (taken : (held || contents.isSound) = true)
      (named : (Json.Part.mk tag held).choice? = some name) :
      Written names held (.object members) ⟨name, some ⟨contents, true⟩⟩

variable {names : List String} {node : Tagged} {held : Bool} {v : Value}

theorem written_of_ofPart? (found : Tagged.ofPart? names ⟨v, held⟩ = some node) :
    Written names held v node := by
  cases v with
  | array items =>
    simp only [Tagged.ofPart?] at found
    split at found
    · next same =>
      cases same
      obtain ⟨name, named, rfl⟩ := Option.map_eq_some_iff.mp found
      exact .array named
    · next same => cases same
    · cases found
  | object members =>
    rw [ofPart?_object] at found
    split at found
    · next tag listed =>
      obtain ⟨name, named, rfl⟩ := Option.map_eq_some_iff.mp found
      exact .bare listed named
    · next tag contents listed =>
      obtain ⟨name, named, rfl⟩ := Option.map_eq_some_iff.mp found
      exact .behindTag listed named
    · next contents tag listed =>
      split at found
      · next taken =>
        obtain ⟨name, named, rfl⟩ := Option.map_eq_some_iff.mp found
        exact .beforeTag listed taken named
      · cases found
    · cases found
  | _ => cases found

theorem ofPart?_of_written (written : Written names held v node) :
    Tagged.ofPart? names ⟨v, held⟩ = some node := by
  cases written with
  | array named => simp [Tagged.ofPart?, Part.inside, named]
  | bare listed named | behindTag listed named => simp [ofPart?_object, listed, named]
  | beforeTag listed taken named => simp [ofPart?_object, listed, named, taken]

/-- A tagged object has one tag and at most one contents. -/
theorem tag_of_ofPart? (found : Tagged.ofPart? names ⟨.object members, held⟩ = some node) :
    ∃ tag, Value.valuesAt ["tag"] members = [tag] ∧
      (Json.Part.mk tag held).choice? = some node.tag ∧
      Value.valuesAt ["contents"] members = (node.contents.map Part.value).toList := by
  have tags := valuesAt_tagMembers (by simp : "tag" ∈ ["tag", "contents"]) members
  have contents := valuesAt_tagMembers (by simp : "contents" ∈ ["tag", "contents"]) members
  cases written_of_ofPart? found with
  | bare listed named | behindTag listed named | beforeTag listed _ named =>
    rw [listed] at tags contents
    exact ⟨_, tags.symm, named, contents.symm⟩

/-- A member by which a tagged object is read, with the others around it. -/
theorem split_of_tagMembers (front : List Member) {back : List Member} {member : Member}
    (listed : tagMembers members = front ++ member :: back) :
    ∃ before after, members = before ++ member :: after ∧ tagMembers before = front ∧
      tagMembers after = back := by
  obtain ⟨first, rest, rfl, firstListed, restListed⟩ := List.filter_eq_append_iff.mp listed
  obtain ⟨skipped, after, rfl, none, -, afterListed⟩ := List.filter_eq_cons_iff.mp restListed
  refine ⟨first ++ skipped, after, by simp, ?_, afterListed⟩
  rw [tagMembers_append, tagMembers, tagMembers, firstListed, List.filter_eq_nil_iff.mpr none,
    List.append_nil]

end TaggedObjects

end CodeRubric.Format
