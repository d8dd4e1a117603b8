import CodeRubric.Rubric.Json

/-! The JSON forms of verdicts and outcomes. -/
namespace CodeRubric

open Json (Value Member)

def ParseError.ofJson? (value : Value) : Option ParseError := do
  match ← value.slots? [["message"]] with
  | [some message] => return ⟨← message.string?⟩
  | _ => none

def ParseError.toJson (fault : ParseError) : Value := .object [⟨"message", .string fault.message⟩]

def Verdict.ofJson? (value : Value) : Option Verdict := do
  match ← value.slots? [["expectation"], ["passed"]] with
  | [some expectation, some passed] =>
    return ⟨← Expectation.ofJson? expectation, ← passed.bool?⟩
  | _ => none

def Verdict.toJson (verdict : Verdict) : Value :=
  .object [⟨"expectation", verdict.expectation.toJson⟩, ⟨"passed", .bool verdict.passed⟩]

namespace Outcome

/-- The outcome of a given status; `field` finds what an outcome of the status holds. -/
def ofStatus? (status : String) (field : String → Option Value) : Option Outcome :=
  match status with
  | "verdicts" => return .verdicts (← (← field "results").listOf Verdict.ofJson?)
  | "unavailable" => return .unavailable (← ParseError.ofJson? (← field "reason"))
  | _ => none

/-- An outcome is an object with its status among the members, or the array of its status and what
it holds. Everything but the status is taken in as a whole and must be sound. -/
def ofJson? : Value → Option Outcome
  | .array [.string status, held] =>
    if held.isSound then ofStatus? status fun _ => some held else none
  | .object members => do
    let status ← Value.field "status" Value.string? (.object members)
    let rest := members.filter fun member => member.key != "status"
    if Member.allSound rest then ofStatus? status fun key => Value.field key some (.object rest)
    else none
  | _ => none

def toJson : Outcome → Value
  | .verdicts results =>
    .object [⟨"status", .string "verdicts"⟩, ⟨"results", .array (results.map Verdict.toJson)⟩]
  | .unavailable reason =>
    .object [⟨"status", .string "unavailable"⟩, ⟨"reason", reason.toJson⟩]

end Outcome

end CodeRubric
