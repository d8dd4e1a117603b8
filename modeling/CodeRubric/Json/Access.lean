import CodeRubric.Json.Value

/-! Reading typed data out of JSON values. Nothing is converted: a reader takes a value of its own
type or fails. Keys that no reader asks for are skipped unseen. -/
namespace CodeRubric.Json

namespace Value

def string? : Value → Option String
  | .string value => some value
  | _ => none

def bool? : Value → Option Bool
  | .bool value => some value
  | _ => none

def number? : Value → Option Float
  | .number value => some value
  | .natural value => some value.toUInt64.toFloat
  | _ => none

/-- The name in a choice among names: the name itself, or an object with the name for its only key
and `null` for its value. -/
def choice? : Value → Option String
  | .string name => some name
  | .object [⟨name, .null⟩] => some name
  | _ => none

/-- The items of an array, each read by `read`. -/
def listOf {α : Type} (read : Value → Option α) : Value → Option (List α)
  | .array items => items.mapM read
  | _ => none

/-- The values of the members with one of these keys. -/
def valuesAt (keys : List String) (members : List Member) : List Value :=
  (members.filter fun member => keys.contains member.key).map Member.value

/-- The value, read by `read`, of a key that an object has exactly once. -/
def field {α : Type} (key : String) (read : Value → Option α) : Value → Option α
  | .object members =>
    match valuesAt [key] members with
    | [value] => read value
    | _ => none
  | _ => none

/-- The value of a field that may be left out but not given twice; `keys` are its names. -/
def slot? (keys : List String) (members : List Member) : Option (Option Value) :=
  match valuesAt keys members with
  | [] => some none
  | [value] => some (some value)
  | _ => none

/-- The fields of a record in order, each under any of its names. A record is an object, or the
array of its fields, in which fields at the end may be left out. -/
def slots? (fields : List (List String)) : Value → Option (List (Option Value))
  | .object members => fields.mapM fun keys => slot? keys members
  | .array items =>
    if items.length ≤ fields.length then
      some (items.map some ++ List.replicate (fields.length - items.length) none)
    else none
  | _ => none

end Value

end CodeRubric.Json
