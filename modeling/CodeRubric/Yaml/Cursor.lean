/-! Places in a YAML text, and what stands between its nodes: blanks, comments and line breaks. -/
namespace CodeRubric.Yaml

def isBlank (c : Char) : Bool := c = ' ' || c = '\t'

/-- The characters that end a line, once line breaks are unified. -/
def isBreak (c : Char) : Bool := c = '\n' || c = '\u2028' || c = '\u2029'

/-- Line breaks as line feeds; only the separators of lines and of paragraphs stay themselves. -/
def unifyBreaks : List Char → List Char
  | '\r' :: '\n' :: rest => '\n' :: unifyBreaks rest
  | '\r' :: rest => '\n' :: unifyBreaks rest
  | '\u0085' :: rest => '\n' :: unifyBreaks rest
  | c :: rest => c :: unifyBreaks rest
  | [] => []

/-- Whether a text starts with a blank or a line break, or is at its end. -/
def endsWord : List Char → Bool
  | [] => true
  | c :: _ => isBlank c || isBreak c

/-- The marks that start and end a document, at the start of a line. -/
def isMarker : List Char → Bool
  | '-' :: '-' :: '-' :: rest => endsWord rest
  | '.' :: '.' :: '.' :: rest => endsWord rest
  | _ => false

/-- A place in a text: what is still to come, and where that is. -/
structure Cursor where
  line : Nat
  column : Nat
  /-- Whether a key may start here and, outside brackets, an item. -/
  fresh : Bool
  rest : List Char

namespace Cursor

/-- Past blanks, comments and line breaks. Outside brackets, a line break makes the place fresh, and
a tab is no blank at a fresh place. A byte order mark counts as a blank at the start of a line. -/
def skip (inFlow : Bool) (line column : Nat) (fresh comment : Bool) : List Char → Cursor
  | [] => ⟨line, column, fresh, []⟩
  | c :: rest =>
    if isBreak c then skip inFlow (line + 1) 0 (!inFlow || fresh) false rest
    else if comment || c = '#' then skip inFlow line (column + 1) fresh true rest
    else if c = ' ' || (c = '\t' && (inFlow || !fresh)) || (c = '\ufeff' && column = 0) then
      skip inFlow line (column + 1) fresh false rest
    else ⟨line, column, fresh, c :: rest⟩

def toContent (cursor : Cursor) (inFlow : Bool) : Cursor :=
  skip inFlow cursor.line cursor.column cursor.fresh false cursor.rest

/-- After `count` characters of the line. -/
def advance (cursor : Cursor) (count : Nat) (fresh : Bool) : Cursor :=
  ⟨cursor.line, cursor.column + count, fresh, cursor.rest.drop count⟩

/-- Whether a mark that starts or ends a document stands here. -/
def atMarker (cursor : Cursor) : Bool := cursor.column = 0 && isMarker cursor.rest

/-- How many bytes stand between two places on a line. -/
def bytesTo (start cursor : Cursor) : Nat :=
  (start.rest.take (cursor.column - start.column)).foldl (fun size c => size + c.utf8Size) 0

end Cursor

end CodeRubric.Yaml
