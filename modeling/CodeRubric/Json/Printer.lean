import CodeRubric.Decimal.Shortest
import CodeRubric.Json.Value
import CodeRubric.Text.Digits

/-! The compact text of a JSON value. -/
namespace CodeRubric.Json

/-- A character inside a string. Quotes, backslashes and control characters are escaped. -/
def escape (c : Char) : List Char :=
  match c with
  | '"' => ['\\', '"']
  | '\\' => ['\\', '\\']
  | '\x08' => ['\\', 'b']
  | '\x0c' => ['\\', 'f']
  | '\n' => ['\\', 'n']
  | '\r' => ['\\', 'r']
  | '\t' => ['\\', 't']
  | _ =>
    if c.toNat < 0x20 then
      ['\\', 'u', '0', '0', Text.hexDigit (c.toNat / 16), Text.hexDigit (c.toNat % 16)]
    else [c]

/-- A text in quotes, and then `rest`. -/
def quoteOn (text rest : List Char) : List Char := '"' :: (text.flatMap escape ++ '"' :: rest)

mutual

/-- The text of a value, and then `rest`. An `ill` value is written as a number too large to be
one. -/
def Value.renderOn (rest : List Char) : Value → List Char
  | .null => 'n' :: 'u' :: 'l' :: 'l' :: rest
  | .bool true => 't' :: 'r' :: 'u' :: 'e' :: rest
  | .bool false => 'f' :: 'a' :: 'l' :: 's' :: 'e' :: rest
  | .number value => Decimal.render value ++ rest
  | .natural value => Nat.toDigits 10 value ++ rest
  | .string value => quoteOn value.toList rest
  | .array items => '[' :: Value.renderAllOn rest items
  | .object members => '\x7b' :: Member.renderAllOn rest members
  | .ill => '1' :: 'e' :: '9' :: '9' :: '9' :: rest
termination_by structural x => x

/-- The items of an array with the bracket that closes it. -/
def Value.renderAllOn (rest : List Char) : List Value → List Char
  | [] => ']' :: rest
  | item :: items => item.renderOn (Value.renderMoreOn rest items)
termination_by structural x => x

/-- The items after the first. -/
def Value.renderMoreOn (rest : List Char) : List Value → List Char
  | [] => ']' :: rest
  | item :: items => ',' :: item.renderOn (Value.renderMoreOn rest items)
termination_by structural x => x

def Member.renderOn (rest : List Char) : Member → List Char
  | ⟨key, value⟩ => quoteOn key.toList (':' :: value.renderOn rest)
termination_by structural x => x

/-- The members of an object with the brace that closes it. -/
def Member.renderAllOn (rest : List Char) : List Member → List Char
  | [] => '\x7d' :: rest
  | member :: members => member.renderOn (Member.renderMoreOn rest members)
termination_by structural x => x

/-- The members after the first. -/
def Member.renderMoreOn (rest : List Char) : List Member → List Char
  | [] => '\x7d' :: rest
  | member :: members => ',' :: member.renderOn (Member.renderMoreOn rest members)
termination_by structural x => x

end

/-- The text of a value. -/
def Value.render (value : Value) : List Char := value.renderOn []

end CodeRubric.Json
