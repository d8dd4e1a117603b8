import CodeRubric.Expectation.Error
import CodeRubric.Inspection.Verb
import CodeRubric.Text.Digits
import CodeRubric.Text.Split

/-! Inspection specs: an optional `Not:`, then a verb and an optional object after a colon, or
`HasArity:` and a number. -/
namespace CodeRubric

open Name (LikeMode Target)

/-- Which names a verb is asked about: `*`, `~name`, and `=name` or just `name`. -/
inductive SpecObject where
  | anyone
  | like (name : String)
  | named (name : String)
deriving DecidableEq, Repr

namespace SpecObject

/-- A mark with nothing after it is itself the name; an empty text is no object. -/
def ofChars? : List Char → Option SpecObject
  | [] => none
  | ['*'] => some .anyone
  | '~' :: c :: rest => some (.like (String.ofList (c :: rest)))
  | '=' :: c :: rest => some (.named (String.ofList (c :: rest)))
  | name => some (.named (String.ofList name))

def target (mode : LikeMode) : SpecObject → Target
  | .anyone => .anyone
  | .like name => .like name mode
  | .named name => .named name

end SpecObject

inductive Query where
  | verb (asked : Verb) (object : SpecObject)
  | arity (count : Nat)
deriving DecidableEq, Repr

def Query.inspection (mode : LikeMode) : Query → Inspection
  | .verb asked object => asked.inspection (object.target mode)
  | .arity count => Inspection.declaresWithArity count .anyone

structure Question where
  negated : Bool
  query : Query
deriving DecidableEq, Repr

namespace Question

/-- A number below `2 ^ 64` written in decimal digits only. -/
def arity? (text : List Char) : Option Nat :=
  let value := Text.decimalValue text
  if !text.isEmpty && text.all Char.isDigit && value < UInt64.size then some value else none

/-- One leading `Not` is taken off the colon-separated parts of a spec. -/
def takeNot : List (List Char) → Bool × List (List Char)
  | [] => (false, [])
  | part :: rest => if part = "Not".toList then (true, rest) else (false, part :: rest)

def lookup (verb : List Char) : Except SpecError Verb :=
  match Verb.ofName? (String.ofList verb) with
  | some verb => .ok verb
  | none => .error (.unknownVerb (String.ofList verb))

/-- The query in the parts of `spec` that follow `Not`. -/
def queryOf (spec : String) : List (List Char) → Except SpecError Query
  | [verb] => return .verb (← lookup verb) .anyone
  | [verb, object] =>
    if verb = "HasArity".toList then
      match arity? object with
      | some count => .ok (.arity count)
      | none => .error (.invalidArity (String.ofList object))
    else do
      let verb ← lookup verb
      match SpecObject.ofChars? object with
      | some object => .ok (.verb verb object)
      | none => .error (.emptyTarget spec)
  | _ => .error (.malformedInspection spec)

def parse (spec : String) : Except SpecError Question := do
  let (negated, parts) := takeNot (Text.split ':' spec.toList)
  return ⟨negated, ← queryOf spec parts⟩

end Question

end CodeRubric
