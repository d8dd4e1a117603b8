/-! The tokens of a YAML text: its marks and scalars, and the block collections that open and close
with its indentation. -/
namespace CodeRubric.Yaml

inductive Token where
  | documentStart
  | documentEnd
  | blockSequence
  | blockMapping
  /-- The end of the innermost block collection. -/
  | blockEnd
  | openSequence
  | closeSequence
  | openMapping
  | closeMapping
  | comma
  /-- The dash before an item of a block sequence. -/
  | dash
  /-- What follows is a key: a question mark says so, or the colon after it. -/
  | key
  /-- The colon before a value. -/
  | value
  /-- A scalar by its text; a plain one has no quotes. -/
  | scalar (plain : Bool) (text : String)
deriving DecidableEq, Repr

end CodeRubric.Yaml
