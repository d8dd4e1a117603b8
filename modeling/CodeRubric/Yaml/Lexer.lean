import CodeRubric.Yaml.Scalar

/-! The tokens of a text. Block collections open where a dash or a key is indented further than what
is around it, and close at the first token that is not. A node is a key if a colon follows it on
its line, so its first token is known to be one only later. -/
namespace CodeRubric.Yaml

/-- A node that is a key if a colon follows it. -/
structure Candidate where
  start : Cursor
  /-- How many tokens come before it. -/
  index : Nat
  /-- Whether it stands where only a key may stand. -/
  required : Bool

/-- The most bytes that a key and the blanks after it may take. -/
def longestKey : Nat := 1024

/-- Whether a colon at a place comes in time to make the candidate a key. -/
def Candidate.reaches (candidate : Candidate) (colon : Cursor) : Bool :=
  candidate.start.line = colon.line && candidate.start.bytesTo colon ≤ longestKey

structure Lexer where
  cursor : Cursor
  /-- The columns of the open block collections, innermost first. -/
  indents : List Nat := []
  /-- The last candidate inside each open bracket, innermost first, and outside all of them. -/
  candidates : List (Option Candidate) := [none]
  tokens : Array Token := #[]

namespace Lexer

def inFlow (lexer : Lexer) : Bool :=
  match lexer.candidates with
  | _ :: _ :: _ => true
  | _ => false

/-- The first column inside the innermost block collection. -/
def least (lexer : Lexer) : Nat :=
  match lexer.indents with
  | [] => 0
  | column :: _ => column + 1

/-- A token of some characters of the line, after which the place is fresh or not. -/
def put (lexer : Lexer) (token : Token) (count : Nat) (fresh : Bool) : Lexer :=
  { lexer with
    cursor := lexer.cursor.advance count fresh
    tokens := lexer.tokens.push token }

/-- A block collection opens at a column that is inside the innermost one; its token comes after
`index` others. -/
def indent (lexer : Lexer) (column index : Nat) (token : Token) : Lexer :=
  if !lexer.inFlow && lexer.least ≤ column then
    { lexer with
      indents := column :: lexer.indents
      tokens := lexer.tokens.insertIdxIfInBounds index token }
  else lexer

/-- The block collections close that `closes` says so of, by their columns. -/
def dedent (lexer : Lexer) (closes : Nat → Bool) : Lexer :=
  if lexer.inFlow then lexer
  else
    let closed := lexer.indents.takeWhile closes
    { lexer with
      indents := lexer.indents.drop closed.length
      tokens := lexer.tokens ++ Array.replicate closed.length .blockEnd }

/-- No node read so far can become a key any more; one that had to be a key must not be left. -/
def settle? (lexer : Lexer) : Option Lexer :=
  match lexer.candidates with
  | some candidate :: outer =>
    if candidate.required then none else some { lexer with candidates := none :: outer }
  | _ => some lexer

/-- A node that starts here is a candidate if the place is fresh. -/
def propose? (lexer : Lexer) : Option Lexer := do
  if !lexer.cursor.fresh then return lexer
  let lexer ← lexer.settle?
  let required := !lexer.inFlow && lexer.indents.head? = some lexer.cursor.column
  let candidate := ⟨lexer.cursor, lexer.tokens.size, required⟩
  return { lexer with candidates := some candidate :: lexer.candidates.drop 1 }

/-- A dash, or the question mark before a key. -/
def mark? (lexer : Lexer) (collection token : Token) (fresh : Bool) : Option Lexer := do
  if !lexer.inFlow && !lexer.cursor.fresh then none
  let lexer ← (lexer.indent lexer.cursor.column lexer.tokens.size collection).settle?
  return lexer.put token 1 fresh

def open? (lexer : Lexer) (token : Token) : Option Lexer := do
  let lexer ← lexer.propose?
  return { lexer.put token 1 true with candidates := none :: lexer.candidates }

def close? (lexer : Lexer) (token : Token) : Option Lexer := do
  let lexer ← lexer.settle?
  let candidates := if lexer.inFlow then lexer.candidates.drop 1 else lexer.candidates
  return { lexer.put token 1 false with candidates }

/-- A colon. It makes the last candidate a key if it comes in time; otherwise it must be the colon
of a key that a question mark has announced. -/
def colon? (lexer : Lexer) : Option Lexer := do
  match lexer.candidates with
  | some candidate :: outer =>
    if candidate.reaches lexer.cursor then
      let tokens := lexer.tokens.insertIdxIfInBounds candidate.index .key
      let lexer := { lexer with tokens, candidates := none :: outer }
      let lexer := lexer.indent candidate.start.column candidate.index .blockMapping
      return lexer.put .value 1 false
    else if candidate.required then none
  | _ => pure ()
  if !lexer.inFlow && !lexer.cursor.fresh then none
  let lexer := lexer.indent lexer.cursor.column lexer.tokens.size .blockMapping
  return lexer.put .value 1 !lexer.inFlow

/-- The token at a place that is neither blank nor the end of the text. -/
def token? (lexer : Lexer) : Option Lexer := do
  let alone := lexer.inFlow || endsWord (lexer.cursor.rest.drop 1)
  if lexer.cursor.atMarker then
    let token := if lexer.cursor.rest.head? = some '-' then .documentStart else .documentEnd
    return (← (lexer.dedent fun _ => true).settle?).put token 3 false
  match lexer.cursor.rest with
  | '[' :: _ => lexer.open? .openSequence
  | '\x7b' :: _ => lexer.open? .openMapping
  | ']' :: _ => lexer.close? .closeSequence
  | '\x7d' :: _ => lexer.close? .closeMapping
  | ',' :: _ => return (← lexer.settle?).put .comma 1 true
  | c :: rest =>
    if c = '-' && endsWord rest then lexer.mark? .blockSequence .dash true
    else if c = '?' && alone then lexer.mark? .blockMapping .key !lexer.inFlow
    else if c = ':' && alone then lexer.colon?
    else
      let lexer ← lexer.propose?
      let (token, cursor) ← scalar? lexer.inFlow lexer.least lexer.cursor
      return { lexer with cursor, tokens := lexer.tokens.push token }
  | [] => none

/-- All tokens of a text; every token takes at least one character. -/
def run : Nat → Lexer → Option (List Token)
  | 0, _ => none
  | bound + 1, lexer =>
    let lexer := { lexer with cursor := lexer.cursor.toContent lexer.inFlow }
    if lexer.cursor.rest.isEmpty then
      (lexer.dedent fun _ => true).settle?.map fun lexer => lexer.tokens.toList
    else ((lexer.dedent fun column => lexer.cursor.column < column).token?).bind (run bound)

end Lexer

/-- Characters that a YAML text may hold, once line breaks are unified. -/
def isAllowed (c : Char) : Bool :=
  let code := c.toNat
  c = '\t' || c = '\n' || (0x20 ≤ code && code ≤ 0x7E) || (0xA0 ≤ code && code ≤ 0xFFFD) ||
    0x10000 ≤ code

/-- The tokens of a text. -/
def Token.ofChars? (text : List Char) : Option (List Token) :=
  let text := unifyBreaks text
  if text.all isAllowed then
    Lexer.run (text.length + 1) { cursor := ⟨0, 0, true, text⟩ }
  else none

end CodeRubric.Yaml
