import CodeRubric.Json.Access

/-! Tagged values. The contents of a tagged value that come before its tag are held back until the
tag is known, with all that is inside them, and a tag inside them has more forms. -/
namespace CodeRubric.Json

/-- A value, and whether it is held back. -/
structure Part where
  value : Value
  held : Bool

namespace Part

def depth (part : Part) : Nat := part.value.depth

/-- A value inside a part is held back if the part is. -/
def inside (part : Part) (value : Value) : Part := ⟨value, part.held⟩

def string? (part : Part) : Option String := part.value.string?

def bool? (part : Part) : Option Bool := part.value.bool?

def number? (part : Part) : Option Float := part.value.number?

/-- The items of an array, each read by `read`. -/
def listOf {α : Type} (read : Part → Option α) (part : Part) : Option (List α) :=
  part.value.listOf fun value => read (part.inside value)

/-- The value, read by `read`, of a key that an object has exactly once. -/
def field {α : Type} (key : String) (read : Part → Option α) (part : Part) : Option α :=
  part.value.field key fun value => read (part.inside value)

/-- The fields of a record in order, each under any of its names. -/
def slots? (fields : List (List String)) (part : Part) : Option (List (Option Part)) :=
  (part.value.slots? fields).map fun slots => slots.map fun slot => slot.map part.inside

/-- The name in a choice among names. An empty object does for `null` in a part that is held
back. -/
def choice? (part : Part) : Option String :=
  match part.value with
  | .object [⟨name, .object []⟩] => if part.held then some name else none
  | value => value.choice?

/-- One of several names, by itself or, in a part that is held back, by its place among them. -/
def oneOf? (names : List String) (part : Part) : Option String :=
  match part.value with
  | .natural place => if part.held then names[place]? else none
  | value => value.string?

/-- Reading to a bounded depth: `layer` reads a part by means of a reader for the parts inside. -/
def readWithin {α : Type} (layer : (Part → Option α) → Part → Option α) : Nat → Part → Option α
  | 0, _ => none
  | bound + 1, part => layer (readWithin layer bound) part

/-- Reading a part layer by layer down to its innermost parts. -/
def readDeep {α : Type} (layer : (Part → Option α) → Part → Option α) (part : Part) : Option α :=
  readWithin layer (part.depth + 1) part

end Part

/-- One of several alternatives, named by its tag, with what it holds. -/
structure Tagged where
  tag : String
  contents : Option Part

namespace Tagged

/-- A tagged value is an object with the keys `tag` and `contents` in any order, or the array of
the two; `names` are the tags in order. Contents that are held back must be sound. -/
def ofPart? (names : List String) (part : Part) : Option Tagged :=
  match part.value with
  | .array [tag, contents] =>
    ((part.inside tag).oneOf? names).map fun tag => ⟨tag, some (part.inside contents)⟩
  | .object members =>
    match members.filter fun member => ["tag", "contents"].contains member.key with
    | [⟨"tag", tag⟩] => (part.inside tag).choice?.map fun tag => ⟨tag, none⟩
    | [⟨"tag", tag⟩, ⟨"contents", contents⟩] =>
      (part.inside tag).choice?.map fun tag => ⟨tag, some (part.inside contents)⟩
    | [⟨"contents", contents⟩, ⟨"tag", tag⟩] =>
      if part.held || contents.isSound then
        (part.inside tag).choice?.map fun tag => ⟨tag, some ⟨contents, true⟩⟩
      else none
    | _ => none
  | _ => none

/-- An alternative that holds nothing: its contents are left out or `null`. -/
def bare {α : Type} (node : Tagged) (result : α) : Option α :=
  match node.contents with
  | none | some ⟨.null, _⟩ => some result
  | _ => none

/-- The value of an alternative with contents. -/
def toValue (tag : String) (contents : Value) : Value :=
  .object [⟨"tag", .string tag⟩, ⟨"contents", contents⟩]

/-- The value of an alternative that holds nothing. -/
def bareValue (tag : String) : Value := .object [⟨"tag", .string tag⟩]

end Tagged

end CodeRubric.Json
