import CodeRubric.Text.Digits
import CodeRubric.Yaml.Cursor
import CodeRubric.Yaml.Folded
import CodeRubric.Yaml.Token

/-! The scalars of a YAML text: plain, single-quoted and double-quoted. -/
namespace CodeRubric.Yaml

def isFlowMark (c : Char) : Bool :=
  c = ',' || c = '[' || c = ']' || c = '\x7b' || c = '\x7d'

/-- Whether a plain scalar may start here. -/
def startsPlain (inFlow : Bool) : List Char → Bool
  | [] => false
  | c :: rest =>
    if c = '-' then !endsWord rest
    else if c = '?' || c = ':' then !inFlow && !endsWord rest
    else !(isBlank c || isBreak c || isFlowMark c || "#&*!|>'\"%@`".toList.contains c)

/-- A plain scalar from some point on. It ends at a comment, at a colon that ends a key, at a line
that is not indented to column `least` and, between brackets, at their marks. No tab may stand
before column `least` of a line. -/
def plain (inFlow : Bool) (least line column : Nat) (folded : Folded) :
    List Char → Option (String × Cursor)
  | [] => some (folded.trimmed, ⟨line, column, folded.gap.isBroken, []⟩)
  | c :: rest =>
    if isBreak c then plain inFlow least (line + 1) 0 (folded.newline c) rest
    else if isBlank c then
      if c = '\t' && folded.gap.isBroken && column < least then none
      else plain inFlow least line (column + 1) (folded.blank c) rest
    else if inFlow && c = ':' && rest.head?.any fun next => isFlowMark next || next = '?' then none
    else if (!folded.gap.isEmpty && c = '#') || (c = ':' && endsWord rest) ||
        (inFlow && isFlowMark c) || (folded.gap.isBroken &&
          ((!inFlow && column < least) || (column = 0 && isMarker (c :: rest)))) then
      some (folded.trimmed, ⟨line, column, folded.gap.isBroken, c :: rest⟩)
    else plain inFlow least line (column + 1) (folded.push c) rest

/-- A single-quoted scalar after its opening quote; a quote in it is written twice. -/
def singleQuoted (line column : Nat) (folded : Folded) : List Char → Option (String × Cursor)
  | [] => none
  | '\x27' :: '\x27' :: rest => singleQuoted line (column + 2) (folded.push '\x27') rest
  | '\x27' :: rest => some (folded.complete, ⟨line, column + 1, false, rest⟩)
  | c :: rest =>
    if column = 0 && isMarker (c :: rest) then none
    else if isBreak c then singleQuoted (line + 1) 0 (folded.newline c) rest
    else if isBlank c then singleQuoted line (column + 1) (folded.blank c) rest
    else singleQuoted line (column + 1) (folded.push c) rest

/-- The character that an escape letter stands for. -/
def escaped? : Char → Option Char
  | '0' => some '\x00'
  | 'a' => some '\x07'
  | 'b' => some '\x08'
  | 't' => some '\t'
  | '\t' => some '\t'
  | 'n' => some '\n'
  | 'v' => some '\x0b'
  | 'f' => some '\x0c'
  | 'r' => some '\r'
  | 'e' => some '\x1b'
  | ' ' => some ' '
  | '"' => some '"'
  | '/' => some '/'
  | '\\' => some '\\'
  | 'N' => some '\u0085'
  | '_' => some '\u00a0'
  | 'L' => some '\u2028'
  | 'P' => some '\u2029'
  | _ => none

/-- The character with a code in hexadecimal digits. -/
def ofHex? (digits : List Char) : Option Char := do
  let code ← digits.foldlM (fun code digit => return code * 16 + (← Text.hexValue? digit)) 0
  if code.isValidChar then some (Char.ofNat code) else none

/-- A double-quoted scalar after its opening quote. -/
def doubleQuoted (line column : Nat) (folded : Folded) : List Char → Option (String × Cursor)
  | [] => none
  | '"' :: rest => some (folded.complete, ⟨line, column + 1, false, rest⟩)
  | '\\' :: 'x' :: a :: b :: rest =>
    match ofHex? [a, b] with
    | some c => doubleQuoted line (column + 4) (folded.push c) rest
    | none => none
  | '\\' :: 'u' :: a :: b :: c :: d :: rest =>
    match ofHex? [a, b, c, d] with
    | some c => doubleQuoted line (column + 6) (folded.push c) rest
    | none => none
  | '\\' :: 'U' :: a :: b :: c :: d :: e :: f :: g :: h :: rest =>
    match ofHex? [a, b, c, d, e, f, g, h] with
    | some c => doubleQuoted line (column + 10) (folded.push c) rest
    | none => none
  | '\\' :: c :: rest =>
    if isBreak c then doubleQuoted (line + 1) 0 folded.join rest
    else
      match escaped? c with
      | some c => doubleQuoted line (column + 2) (folded.push c) rest
      | none => none
  | c :: rest =>
    if column = 0 && isMarker (c :: rest) then none
    else if isBreak c then doubleQuoted (line + 1) 0 (folded.newline c) rest
    else if isBlank c then doubleQuoted line (column + 1) (folded.blank c) rest
    else doubleQuoted line (column + 1) (folded.push c) rest

/-- A scalar at a place that is not blank; `least` is as for `plain`. -/
def scalar? (inFlow : Bool) (least : Nat) (cursor : Cursor) : Option (Token × Cursor) :=
  match cursor.rest with
  | '\x27' :: rest =>
    (singleQuoted cursor.line (cursor.column + 1) {} rest).map fun (text, cursor) =>
      (.scalar false text, cursor)
  | '"' :: rest =>
    (doubleQuoted cursor.line (cursor.column + 1) {} rest).map fun (text, cursor) =>
      (.scalar false text, cursor)
  | rest =>
    if startsPlain inFlow rest then
      (plain inFlow least cursor.line cursor.column {} rest).map fun (text, cursor) =>
        (.scalar true text, cursor)
    else none

end CodeRubric.Yaml
