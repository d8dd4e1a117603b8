/-! YAML nodes, as far as rubrics use them. -/
namespace CodeRubric.Yaml

mutual

inductive Node where
  /-- A scalar by its text. A plain scalar has no quotes; a value left out is an empty plain one. -/
  | scalar (plain : Bool) (text : String)
  | sequence (items : List Node)
  /-- Entries in order, repeated keys included. -/
  | mapping (entries : List Entry)

structure Entry where
  key : Node
  value : Node

end

instance : Inhabited Node := ⟨.scalar true ""⟩

namespace Node

/-- The value that is left out. -/
def absent : Node := .scalar true ""

def text? : Node → Option String
  | .scalar _ text => some text
  | _ => none

/-- The items of a sequence; a value left out has none. -/
def items? : Node → Option (List Node)
  | .sequence items => some items
  | .scalar true "" => some []
  | _ => none

/-- The named fields of a mapping, all of whose keys are scalars; a value left out has none. -/
def fields? : Node → Option (List (String × Node))
  | .mapping entries => entries.mapM fun entry => return (← entry.key.text?, entry.value)
  | .scalar true "" => some []
  | _ => none

/-- The value of a field that may be left out but not given twice; `names` are its names. -/
def slot? (names : List String) (fields : List (String × Node)) : Option (Option Node) :=
  match fields.filter fun field => names.contains field.1 with
  | [] => some none
  | [field] => some (some field.2)
  | _ => none

end Node

end CodeRubric.Yaml
