import CodeRubric.Proofs.Json.Fields
import CodeRubric.Proofs.Json.Text
import CodeRubric.Rubric.Json
import Mathlib.Logic.Relation

/-! The JSON forms of a rubric. What is written for a rubric is read back, and so is every form that
leaves out defaults, calls a scope `binding`, has its members in another order or has members that
nobody asks for. Nothing is made up for an expectation that has two scopes or no inspection: then
there is no rubric at all. -/
namespace CodeRubric

open Json (Value Member)
open Json.Value
open Name (LikeMode)

namespace CompilerConfig

/-- `Restated v v'`: another way to write the same settings. -/
inductive Restated : Value → Value → Prop where
  | rearrange {members members' : List Member}
      (rearranged : Rearranged ["like_mode"] members members') :
      Restated (.object members) (.object members')
  | dropMode {before after : List Member} {mode : Value}
      (usual : LikeMode.ofJson? mode = some .equivalent) :
      Restated (.object (before ++ ⟨"like_mode", mode⟩ :: after)) (.object (before ++ after))

theorem ofJson?_object_iff {members : List Member} {config : CompilerConfig} :
    ofJson? (.object members) = some config ↔
      fieldOr ["like_mode"] (some .equivalent) LikeMode.ofJson? members = some config.likeMode := by
  obtain ⟨mode⟩ := config
  simp only [ofJson?, slots?, List.mapM_cons, List.mapM_nil, fieldOr]
  rcases slot? ["like_mode"] members with _ | _ | value <;>
    simp [optional, Option.bind_eq_some_iff]

theorem ofJson?_of_restated {v v' : Value} {config : CompilerConfig} (restated : Restated v v')
    (read : ofJson? v = some config) : ofJson? v' = some config := by
  cases restated with
  | rearrange rearranged =>
    rw [ofJson?_object_iff] at read ⊢
    rw [fieldOr_of_rearranged (List.Subset.refl _) rearranged, read]
  | dropMode usual =>
    rw [ofJson?_object_iff] at read ⊢
    exact fieldOr_dropped List.mem_cons_self usual read

theorem ofJson?_toJson (config : CompilerConfig) : ofJson? config.toJson = some config := by
  obtain ⟨mode⟩ := config
  cases mode <;> rfl

end CompilerConfig

namespace Expectation

/-- `Restated v v'`: another way to write the same expectation. -/
inductive Restated : Value → Value → Prop where
  | rearrange {members members' : List Member}
      (rearranged : Rearranged ["scope", "binding", "inspection"] members members') :
      Restated (.object members) (.object members')
  | renameScope {before after : List Member} {scope : Value} :
      Restated (.object (before ++ ⟨"scope", scope⟩ :: after))
        (.object (before ++ ⟨"binding", scope⟩ :: after))
  | dropScope {before after : List Member} {key : String} (named : key ∈ ["scope", "binding"]) :
      Restated (.object (before ++ ⟨key, .string ""⟩ :: after)) (.object (before ++ after))

theorem ofJson?_object_iff {members : List Member} {expectation : Expectation} :
    ofJson? (.object members) = some expectation ↔
      fieldOr ["scope", "binding"] (some "") string? members = some expectation.scope ∧
      fieldOr ["inspection"] none string? members = some expectation.inspection := by
  obtain ⟨scope, inspection⟩ := expectation
  simp only [ofJson?, slots?, List.mapM_cons, List.mapM_nil, fieldOr]
  rcases slot? ["scope", "binding"] members with _ | _ | value <;>
    rcases slot? ["inspection"] members with _ | _ | value' <;>
    simp [optional, Option.bind_eq_some_iff, and_comm]

theorem ofJson?_of_restated {v v' : Value} {expectation : Expectation} (restated : Restated v v')
    (read : ofJson? v = some expectation) : ofJson? v' = some expectation := by
  cases restated with
  | rearrange rearranged =>
    rw [ofJson?_object_iff] at read ⊢
    rwa [fieldOr_of_rearranged (by simp) rearranged, fieldOr_of_rearranged (by simp) rearranged]
  | renameScope =>
    rw [ofJson?_object_iff] at read ⊢
    obtain ⟨scope, inspection⟩ := read
    refine ⟨fieldOr_changed (by simp) (by simp) id scope, ?_⟩
    rw [fieldOr_insert_other (by simp)] at inspection ⊢
    exact inspection
  | @dropScope _ _ key named =>
    rw [ofJson?_object_iff] at read ⊢
    obtain ⟨scope, inspection⟩ := read
    have other : key ∉ ["inspection"] := by
      rcases List.mem_pair.mp named with rfl | rfl <;> decide
    rw [fieldOr_insert_other other] at inspection
    exact ⟨fieldOr_dropped named rfl scope, inspection⟩

theorem ofJson?_toJson (expectation : Expectation) :
    ofJson? expectation.toJson = some expectation := rfl

/-- An expectation that has two scopes, or nothing to inspect for. In an array of its fields the
inspection is the second. -/
inductive Faulty : Value → Prop where
  | twoScopes {members : List Member} (scope : "scope" ∈ members.map Member.key)
      (binding : "binding" ∈ members.map Member.key) : Faulty (.object members)
  | noInspection {members : List Member} (missing : "inspection" ∉ members.map Member.key) :
      Faulty (.object members)
  | shortArray {items : List Value} (short : items.length < 2) : Faulty (.array items)

theorem ofJson?_of_faulty {v : Value} (faulty : Faulty v) : ofJson? v = none := by
  cases faulty with
  | twoScopes scope binding =>
    obtain ⟨⟨_, value⟩, inside, rfl⟩ := List.mem_map.mp scope
    obtain ⟨before, after, rfl⟩ := List.append_of_mem inside
    rw [Option.eq_none_iff_forall_ne_some]
    intro expectation read
    -- The field has both names, so that `scope` would have to be alone among the two.
    obtain ⟨alone, -⟩ := (fieldOr_insert_eq_some_iff (by simp)).mp (ofJson?_object_iff.mp read).1
    exact valuesAt_eq_nil_iff.mp alone "binding" (by simp) (by simpa using binding)
  | noInspection missing =>
    rw [Option.eq_none_iff_forall_ne_some]
    intro expectation read
    have absent := (ofJson?_object_iff.mp read).2
    rw [fieldOr_of_absent (valuesAt_eq_nil_iff.mpr (by simpa using missing))] at absent
    cases absent
  | @shortArray items short =>
    match items, short with
    | [], _ => rfl
    | [scope], _ => rfl

end Expectation

namespace Rubric

/-- `Restated v v'`: another way to write the same rubric. -/
inductive Restated : Value → Value → Prop where
  | rearrange {members members' : List Member}
      (rearranged : Rearranged ["config", "expectations"] members members') :
      Restated (.object members) (.object members')
  | restateConfig {before after : List Member} {config config' : Value}
      (restated : CompilerConfig.Restated config config') :
      Restated (.object (before ++ ⟨"config", config⟩ :: after))
        (.object (before ++ ⟨"config", config'⟩ :: after))
  | restateExpectation {before after : List Member} {front back : List Value} {item item' : Value}
      (restated : Expectation.Restated item item') :
      Restated (.object (before ++ ⟨"expectations", .array (front ++ item :: back)⟩ :: after))
        (.object (before ++ ⟨"expectations", .array (front ++ item' :: back)⟩ :: after))
  | dropConfig {before after : List Member} {config : Value}
      (usual : CompilerConfig.ofJson? config = some {}) :
      Restated (.object (before ++ ⟨"config", config⟩ :: after)) (.object (before ++ after))
  | dropExpectations {before after : List Member} :
      Restated (.object (before ++ ⟨"expectations", .array []⟩ :: after))
        (.object (before ++ after))

/-- `Lists v item`: among the expectations in the value of a rubric is `item`. -/
inductive Lists : Value → Value → Prop where
  | object {members : List Member} {items : List Value} {item : Value}
      (given : ⟨"expectations", .array items⟩ ∈ members) (inside : item ∈ items) :
      Lists (.object members) item
  | array {config : Value} {items rest : List Value} {item : Value} (inside : item ∈ items) :
      Lists (.array (config :: .array items :: rest)) item

theorem ofJson?_object_iff {members : List Member} {rubric : Rubric} :
    ofJson? (.object members) = some rubric ↔
      fieldOr ["config"] (some {}) CompilerConfig.ofJson? members = some rubric.config ∧
      fieldOr ["expectations"] (some []) (listOf Expectation.ofJson?) members =
        some rubric.expectations := by
  obtain ⟨config, expectations⟩ := rubric
  simp only [ofJson?, slots?, List.mapM_cons, List.mapM_nil, fieldOr]
  rcases slot? ["config"] members with _ | _ | value <;>
    rcases slot? ["expectations"] members with _ | _ | value' <;>
    simp [optional, Option.bind_eq_some_iff, and_comm]

/-- One change leaves the rubric as it is. -/
theorem ofJson?_of_restated {v v' : Value} {rubric : Rubric} (restated : Restated v v')
    (read : ofJson? v = some rubric) : ofJson? v' = some rubric := by
  cases restated with
  | rearrange rearranged =>
    rw [ofJson?_object_iff] at read ⊢
    rwa [fieldOr_of_rearranged (by simp) rearranged, fieldOr_of_rearranged (by simp) rearranged]
  | restateConfig restated =>
    rw [ofJson?_object_iff, fieldOr_insert_other (by simp : "config" ∉ ["expectations"])] at read ⊢
    obtain ⟨config, expectations⟩ := read
    refine ⟨fieldOr_changed (by simp) (by simp) ?_ config, expectations⟩
    exact CompilerConfig.ofJson?_of_restated restated
  | restateExpectation restated =>
    rw [ofJson?_object_iff, fieldOr_insert_other (by simp : "expectations" ∉ ["config"])] at read ⊢
    obtain ⟨config, expectations⟩ := read
    refine ⟨config, fieldOr_changed (by simp) (by simp) ?_ expectations⟩
    exact listOf_array_changed fun _ => Expectation.ofJson?_of_restated restated
  | dropConfig usual =>
    rw [ofJson?_object_iff, fieldOr_insert_other (by simp : "config" ∉ ["expectations"])] at read
    obtain ⟨config, expectations⟩ := read
    exact ofJson?_object_iff.mpr ⟨fieldOr_dropped (by simp) usual config, expectations⟩
  | dropExpectations =>
    rw [ofJson?_object_iff, fieldOr_insert_other (by simp : "expectations" ∉ ["config"])] at read
    obtain ⟨config, expectations⟩ := read
    exact ofJson?_object_iff.mpr ⟨config, fieldOr_dropped (by simp) rfl expectations⟩

/-- Any number of changes leaves the rubric as it is. -/
theorem ofJson?_of_restated_steps {v v' : Value} {rubric : Rubric}
    (steps : Relation.ReflTransGen Restated v v') (read : ofJson? v = some rubric) :
    ofJson? v' = some rubric := by
  induction steps with
  | refl => exact read
  | tail _ restated ih => exact ofJson?_of_restated restated ih

theorem ofJson?_toJson (rubric : Rubric) : ofJson? rubric.toJson = some rubric := by
  refine ofJson?_object_iff.mpr ⟨?_, ?_⟩
  · exact CompilerConfig.ofJson?_toJson rubric.config
  · exact listOf_map Expectation.ofJson?_toJson rubric.expectations

theorem readsBack_toJson (rubric : Rubric) : rubric.toJson.ReadsBack := by
  have config : rubric.config.toJson.ReadsBack := ⟨trivial, trivial⟩
  have each (expectation : Expectation) : expectation.toJson.ReadsBack :=
    ⟨trivial, trivial, trivial⟩
  refine ⟨config, ?_, trivial⟩
  exact (allReadBack_map _ _).mpr fun expectation _ => each expectation

theorem ofJsonText?_render (rubric : Rubric) :
    ofJsonText? (String.ofList rubric.toJson.render) = some rubric := by
  rw [ofJsonText?, String.toList_ofList, ofChars?_render rubric.readsBack_toJson]
  exact ofJson?_toJson rubric

/-- An expectation that cannot be read leaves nothing of the rubric. -/
theorem ofJson?_of_lists {v item : Value} (listed : Lists v item)
    (refused : Expectation.ofJson? item = none) : ofJson? v = none := by
  cases listed with
  | object given inside =>
    obtain ⟨before, after, rfl⟩ := List.append_of_mem given
    rw [Option.eq_none_iff_forall_ne_some]
    intro rubric read
    obtain ⟨-, found⟩ := (fieldOr_insert_eq_some_iff (by simp)).mp (ofJson?_object_iff.mp read).2
    rw [listOf_array_of_none inside refused] at found
    cases found
  | @array config items rest _ inside =>
    have unread : listOf Expectation.ofJson? (.array items) = none :=
      listOf_array_of_none inside refused
    cases rest with
    | nil => simp [ofJson?, slots?, optional, unread]
    | cons extra rest => simp [ofJson?, slots?]

/-- A rubric is read back from its text and from all its other forms, and there is no rubric in a
form with a faulty expectation. -/
theorem forms_decode_alike :
    (∀ rubric : Rubric,
      ofJsonText? (String.ofList rubric.toJson.render) = some rubric ∧
      ∀ v : Value, Relation.ReflTransGen Restated rubric.toJson v →
        ofJson? v = some rubric ∧
        ∀ text : String, Value.ofChars? text.toList = some v → ofJsonText? text = some rubric) ∧
    ∀ v item : Value, Lists v item → Expectation.Faulty item →
      ofJson? v = none ∧
      ∀ text : String, Value.ofChars? text.toList = some v → ofJsonText? text = none := by
  have ofText {v : Value} {text : String} (parsed : Value.ofChars? text.toList = some v) :
      ofJsonText? text = ofJson? v := by
    rw [ofJsonText?, parsed, Option.bind_some]
  constructor
  · intro rubric
    refine ⟨ofJsonText?_render rubric, ?_⟩
    intro v steps
    have read := ofJson?_of_restated_steps steps (ofJson?_toJson rubric)
    exact ⟨read, fun text parsed => (ofText parsed).trans read⟩
  · intro v item listed faulty
    have refused := ofJson?_of_lists listed (Expectation.ofJson?_of_faulty faulty)
    exact ⟨refused, fun text parsed => (ofText parsed).trans refused⟩

theorem forms_decode_alike_at_binding :
    let form : Value := .object [⟨"expectations",
      .array [.object [⟨"inspection", .string "HasIf"⟩, ⟨"binding", .string "A"⟩]]⟩]
    let faulty : Value := .object [⟨"scope", .string "A"⟩, ⟨"binding", .string "A"⟩,
      ⟨"inspection", .string "HasIf"⟩]
    Relation.ReflTransGen Restated (toJson ⟨{}, [⟨"A", "HasIf"⟩]⟩) form ∧
    ofJsonText? (String.ofList form.render) = some ⟨{}, [⟨"A", "HasIf"⟩]⟩ ∧
    Expectation.Faulty faulty ∧ ofJson? (.object [⟨"expectations", .array [faulty]⟩]) = none := by
  intro form faulty
  obtain ⟨alike, refused⟩ := forms_decode_alike
  have noConfig : Restated (toJson ⟨{}, [⟨"A", "HasIf"⟩]⟩) (.object [⟨"expectations",
      .array [.object [⟨"scope", .string "A"⟩, ⟨"inspection", .string "HasIf"⟩]]⟩]) :=
    @Restated.dropConfig [] _ _ rfl
  have renamed : Restated _ (.object [⟨"expectations",
      .array [.object [⟨"binding", .string "A"⟩, ⟨"inspection", .string "HasIf"⟩]]⟩]) :=
    @Restated.restateExpectation [] [] [] [] _ _ (@Expectation.Restated.renameScope [] _ _)
  have swapped : Restated _ form :=
    @Restated.restateExpectation [] [] [] [] _ _ (.rearrange (.reorder (.swap _ _ _)))
  have steps : Relation.ReflTransGen Restated (toJson ⟨{}, [⟨"A", "HasIf"⟩]⟩) form :=
    .tail (.tail (.single noConfig) renamed) swapped
  have parsed : Value.ofChars? (String.ofList form.render).toList = some form := by cbv
  have broken : Expectation.Faulty faulty := .twoScopes (by simp) (by simp)
  exact ⟨steps, ((alike _).2 form steps).2 _ parsed, broken,
    (refused _ faulty (.object List.mem_cons_self List.mem_cons_self) broken).1⟩

end Rubric

end CodeRubric
