/-! The text of a scalar that goes on over several lines. A line break becomes a space, and each
further one stays a break; a break that is escaped becomes nothing. -/
namespace CodeRubric.Yaml

/-- What stands between the text so far and what follows it, last character first. -/
inductive Gap where
  | blanks (chars : List Char)
  /-- A line break and those after it. -/
  | lines (first : Char) (further : List Char)
  /-- The line breaks after one that is escaped. -/
  | joined (further : List Char)

namespace Gap

def isEmpty : Gap → Bool
  | .blanks [] => true
  | _ => false

def isBroken : Gap → Bool
  | .blanks _ => false
  | _ => true

/-- A blank counts unless it stands at the start of a line. -/
def blank (c : Char) : Gap → Gap
  | .blanks chars => .blanks (c :: chars)
  | gap => gap

/-- A line break takes the blanks before it away. -/
def newline (c : Char) : Gap → Gap
  | .blanks _ => .lines c []
  | .lines first further => .lines first (c :: further)
  | .joined further => .joined (c :: further)

/-- What the gap is in the text. A line feed gives way to the breaks after it; any other break
stays. -/
def folded : Gap → List Char
  | .blanks chars => chars
  | .lines '\n' [] => [' ']
  | .lines '\n' further => further
  | .lines first further => further ++ [first]
  | .joined further => further

end Gap

/-- The text of a scalar so far, last character first, with the gap after it. -/
structure Folded where
  text : List Char := []
  gap : Gap := .blanks []

namespace Folded

def blank (folded : Folded) (c : Char) : Folded := ⟨folded.text, folded.gap.blank c⟩

def newline (folded : Folded) (c : Char) : Folded := ⟨folded.text, folded.gap.newline c⟩

/-- The text with the gap after it. -/
def flush (folded : Folded) : List Char := folded.gap.folded ++ folded.text

def push (folded : Folded) (c : Char) : Folded := ⟨c :: folded.flush, .blanks []⟩

/-- After a line break that is escaped. -/
def join (folded : Folded) : Folded := ⟨folded.flush, .joined []⟩

/-- The text without the gap after it. -/
def trimmed (folded : Folded) : String := String.ofList folded.text.reverse

/-- The text with the gap after it. -/
def complete (folded : Folded) : String := String.ofList folded.flush.reverse

end Folded

end CodeRubric.Yaml
