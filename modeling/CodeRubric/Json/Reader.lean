import CodeRubric.Decimal.Numeral
import CodeRubric.Json.Value

/-! Strict JSON texts read one character at a time by an automaton with a stack of open arrays and
objects. What it does on a text is what it does on a front part, continued on the rest. -/
namespace CodeRubric.Json

/-- A part of a string: a character, or half a surrogate pair written as an escape. -/
inductive TextUnit where
  | char (c : Char)
  | half (code : Nat)
deriving DecidableEq, Repr

/-- The text of a string from its parts in reverse; none if a half has no partner. -/
def assemble : List TextUnit → List Char → Option (List Char)
  | [], after => some after
  | .char c :: before, after => assemble before (c :: after)
  | .half low :: .half high :: before, after =>
    if high < 0xDC00 && 0xDC00 ≤ low then
      assemble before (Char.ofNat (0x10000 + (high - 0xD800) * 0x400 + (low - 0xDC00)) :: after)
    else none
  | .half _ :: _, _ => none

/-- The part of a string that an escape with this code is. -/
def TextUnit.ofCode (code : Nat) : TextUnit :=
  if 0xD800 ≤ code && code < 0xE000 then .half code else .char (Char.ofNat code)

/-- An open array or object with what it holds so far, last first. -/
inductive Frame where
  | array (items : List Value)
  /-- No members are kept once a key denotes nothing; `key` is the one whose value comes next. -/
  | object (members : Option (List Member)) (key : Option String)

/-- What the reader is in the middle of. -/
inductive Phase where
  /-- A value must start. -/
  | value
  /-- An array has just been opened. -/
  | firstItem
  /-- An object has just been opened. -/
  | firstKey
  /-- A key must start. -/
  | key
  | colon
  /-- A value has just ended inside an array or an object. -/
  | separator
  | finished (value : Value)
  /-- The rest of a keyword and what it stands for. -/
  | keyword (rest : List Char) (value : Value)
  /-- The characters of a numeral, last first. -/
  | numeral (seen : List Char)
  | string (isKey : Bool) (units : List TextUnit)
  | escape (isKey : Bool) (units : List TextUnit)
  /-- An escape by code with the digits still to come. -/
  | code (isKey : Bool) (units : List TextUnit) (missing code : Nat)

structure Reader where
  stack : List Frame
  phase : Phase

namespace Reader

def start : Reader := ⟨[], .value⟩

def isBlank (c : Char) : Bool := c = ' ' || c = '\t' || c = '\n' || c = '\r'

/-- A value has ended. -/
def put (value : Value) : List Frame → Reader
  | [] => ⟨[], .finished value⟩
  | .array items :: outer => ⟨.array (value :: items) :: outer, .separator⟩
  | .object members key :: outer =>
    let members := do return (⟨← key, value⟩ :: (← members))
    ⟨.object members none :: outer, .separator⟩

/-- The value of a frame that is closed. -/
def closed : Frame → Value
  | .array items => .array items.reverse
  | .object members _ => (members.map fun members => .object members.reverse).getD .ill

/-- A string has ended. -/
def putString (isKey : Bool) (units : List TextUnit) (stack : List Frame) : Option Reader :=
  let text := (assemble units []).map String.ofList
  if isKey then
    match stack with
    | .object members _ :: outer =>
      some ⟨.object (if text.isSome then members else none) text :: outer, .colon⟩
    | _ => none
  else some (put ((text.map .string).getD .ill) stack)

def isNumeralChar (c : Char) : Bool :=
  c.isDigit || c = '-' || c = '+' || c = '.' || c = 'e' || c = 'E'

/-- A numeral has ended. -/
def putNumeral (seen : List Char) (stack : List Frame) : Option Reader := do
  let numeral ← Decimal.Numeral.ofChars? seen.reverse
  let value := (numeral.natural?.map .natural).or (numeral.value?.map .number)
  return put (value.getD .ill) stack

/-- The first character of a value. -/
def open? (stack : List Frame) (c : Char) : Option Reader :=
  match c with
  | '\x7b' => some ⟨.object (some []) none :: stack, .firstKey⟩
  | '[' => some ⟨.array [] :: stack, .firstItem⟩
  | '"' => some ⟨stack, .string false []⟩
  | 't' => some ⟨stack, .keyword ['r', 'u', 'e'] (.bool true)⟩
  | 'f' => some ⟨stack, .keyword ['a', 'l', 's', 'e'] (.bool false)⟩
  | 'n' => some ⟨stack, .keyword ['u', 'l', 'l'] .null⟩
  | _ => if c = '-' || c.isDigit then some ⟨stack, .numeral [c]⟩ else none

/-- The character after a value, which is no blank. -/
def next? (stack : List Frame) (c : Char) : Option Reader :=
  match stack, c with
  | .array _ :: _, ',' => some ⟨stack, .value⟩
  | .object _ _ :: _, ',' => some ⟨stack, .key⟩
  | .array items :: outer, ']' => some (put (closed (.array items)) outer)
  | .object members key :: outer, '\x7d' => some (put (closed (.object members key)) outer)
  | _, _ => none

/-- The character that an escape letter stands for. -/
def escaped? : Char → Option Char
  | '"' => some '"'
  | '\\' => some '\\'
  | '/' => some '/'
  | 'b' => some '\x08'
  | 'f' => some '\x0c'
  | 'n' => some '\n'
  | 'r' => some '\r'
  | 't' => some '\t'
  | _ => none

/-- One character outside of strings, numerals and keywords. -/
def stepBetween (reader : Reader) (c : Char) : Option Reader :=
  if isBlank c then some reader
  else match reader.phase with
    | .value => open? reader.stack c
    | .firstItem =>
      if c = ']' then next? reader.stack c else open? reader.stack c
    | .firstKey =>
      if c = '\x7d' then next? reader.stack c
      else if c = '"' then some ⟨reader.stack, .string true []⟩ else none
    | .key => if c = '"' then some ⟨reader.stack, .string true []⟩ else none
    | .colon => if c = ':' then some ⟨reader.stack, .value⟩ else none
    | .separator => next? reader.stack c
    | _ => none

/-- One character. A numeral ends only at a character that cannot belong to it. -/
def step (reader : Reader) (c : Char) : Option Reader :=
  match reader.phase with
  | .keyword (expected :: rest) value =>
    if c = expected then
      some (if rest.isEmpty then put value reader.stack else ⟨reader.stack, .keyword rest value⟩)
    else none
  | .keyword [] _ => none
  | .numeral seen =>
    if isNumeralChar c then some ⟨reader.stack, .numeral (c :: seen)⟩
    else (putNumeral seen reader.stack).bind fun reader => stepBetween reader c
  | .string isKey units =>
    if c = '"' then putString isKey units reader.stack
    else if c = '\\' then some ⟨reader.stack, .escape isKey units⟩
    else if c.toNat < 0x20 then none
    else some ⟨reader.stack, .string isKey (.char c :: units)⟩
  | .escape isKey units =>
    if c = 'u' then some ⟨reader.stack, .code isKey units 4 0⟩
    else (escaped? c).map fun c => ⟨reader.stack, .string isKey (.char c :: units)⟩
  | .code isKey units missing code =>
    (Text.hexValue? c).map fun digit =>
      let code := code * 16 + digit
      if missing ≤ 1 then ⟨reader.stack, .string isKey (.ofCode code :: units)⟩
      else ⟨reader.stack, .code isKey units (missing - 1) code⟩
  | _ => stepBetween reader c

def run : Reader → List Char → Option Reader
  | reader, [] => some reader
  | reader, c :: rest =>
    match reader.step c with
    | some reader => run reader rest
    | none => none

/-- The value read, if the text may end here. -/
def finish? (reader : Reader) : Option Value :=
  match reader.phase with
  | .finished value => some value
  | .numeral seen =>
    (putNumeral seen reader.stack).bind fun reader =>
      match reader.phase with
      | .finished value => some value
      | _ => none
  | _ => none

theorem run_append (reader : Reader) (front rest : List Char) :
    reader.run (front ++ rest) = (reader.run front).bind fun reader => reader.run rest := by
  induction front generalizing reader with
  | nil => rfl
  | cons c front ih =>
    simp only [List.cons_append, run]
    cases reader.step c with
    | none => rfl
    | some reader => exact ih reader

end Reader

/-- The value that a text denotes. -/
def Value.ofChars? (text : List Char) : Option Value :=
  (Reader.start.run text).bind Reader.finish?

end CodeRubric.Json
