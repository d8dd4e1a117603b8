import CodeRubric.Text.Split

/-! Segmentation of identifiers into lowercase words. An identifier that follows neither supported
case style has no words. -/
namespace CodeRubric.Name

/-- Case conventions an identifier may follow. -/
inductive CaseStyle where
  /-- `camelCase` and `PascalCase`. -/
  | camelCase
  /-- `snake_case` and `SCREAMING_SNAKE_CASE`. -/
  | snakeCase
deriving DecidableEq, Repr

def CaseStyle.name : CaseStyle → String
  | .camelCase => "camel_case"
  | .snakeCase => "snake_case"

def CaseStyle.ofName? : String → Option CaseStyle
  | "camel_case" => some .camelCase
  | "snake_case" => some .snakeCase
  | _ => none

/-- The letters and digits of a lowercase segment. -/
def isLowerAlnum (c : Char) : Bool := c.isLower || c.isDigit

/-- The letters and digits of an uppercase segment. -/
def isUpperAlnum (c : Char) : Bool := c.isUpper || c.isDigit

/-- A letter, then letters and digits. -/
def isCamel : List Char → Bool
  | [] => false
  | c :: rest => c.isAlpha && rest.all Char.isAlphanum

/-- Non-empty segments over `member` between underscores, the first one starting with `first`. -/
def isSnakeOver (first member : Char → Bool) (text : List Char) : Bool :=
  text.head?.any first &&
    (Text.split '_' text).all fun segment => !segment.isEmpty && segment.all member

/-- Segments of one case throughout, between underscores. -/
def isSnake (text : List Char) : Bool :=
  isSnakeOver Char.isLower isLowerAlnum text || isSnakeOver Char.isUpper isUpperAlnum text

def CaseStyle.accepts : CaseStyle → List Char → Bool
  | .camelCase => isCamel
  | .snakeCase => isSnake

/-- A new word starts at a capital that follows something other than a capital, or that is
followed by a lowercase letter: the last capital of a run opens the next word. -/
def startsWord (before c : Char) (after : List Char) : Bool :=
  c.isUpper && (!before.isUpper || after.head?.any Char.isLower)

/-- What remains of the current word after `before`, and the words that follow it. -/
def humpsAfter (before : Char) : List Char → List Char × List (List Char)
  | [] => ([], [])
  | c :: rest =>
    let (current, more) := humpsAfter c rest
    if startsWord before c rest then ([], (c :: current) :: more) else (c :: current, more)

/-- The words of a camel-case text, in their written case. -/
def humps : List Char → List (List Char)
  | [] => []
  | c :: rest =>
    let (current, more) := humpsAfter c rest
    (c :: current) :: more

/-- The segments of a text in their written case. -/
def CaseStyle.segments : CaseStyle → List Char → List (List Char)
  | .camelCase => humps
  | .snakeCase => Text.split '_'

/-- A segment in lowercase. -/
def lowercase (segment : List Char) : String := String.ofList (segment.map Char.toLower)

/-- The lowercase words of an identifier that follows `style`. -/
def CaseStyle.words? (style : CaseStyle) (name : String) : Option (List String) :=
  if style.accepts name.toList then some ((style.segments name.toList).map lowercase) else none

/-- The lowercase words of an identifier in whichever style it follows, camel case first. -/
def words? (name : String) : Option (List String) :=
  (CaseStyle.words? .camelCase name).or (CaseStyle.words? .snakeCase name)

end CodeRubric.Name
