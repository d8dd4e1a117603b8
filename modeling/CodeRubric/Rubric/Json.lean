import CodeRubric.Json.Access
import CodeRubric.Json.Reader
import CodeRubric.Rubric.Basic

/-! The JSON forms of settings, expectations and rubrics. -/
namespace CodeRubric

open Json (Value Member)
open Name (LikeMode CaseStyle)

/-- A choice among names that `ofName?` knows. -/
def choiceOfJson? {α : Type} (ofName? : String → Option α) (value : Value) : Option α :=
  value.choice?.bind ofName?

/-- A field that has a default when it is left out. -/
def optional {α : Type} (default : α) (read : Value → Option α) : Option Value → Option α
  | none => some default
  | some value => read value

def Name.LikeMode.ofJson? : Value → Option LikeMode := choiceOfJson? LikeMode.ofName?

def Name.LikeMode.toJson (mode : LikeMode) : Value := .string mode.name

def Name.CaseStyle.ofJson? : Value → Option CaseStyle := choiceOfJson? CaseStyle.ofName?

def Name.CaseStyle.toJson (style : CaseStyle) : Value := .string style.name

def CompilerConfig.ofJson? (value : Value) : Option CompilerConfig := do
  match ← value.slots? [["like_mode"]] with
  | [mode] => return ⟨← optional .equivalent LikeMode.ofJson? mode⟩
  | _ => none

def CompilerConfig.toJson (config : CompilerConfig) : Value :=
  .object [⟨"like_mode", config.likeMode.toJson⟩]

/-- The scope may also be called `binding`; left out, it is the whole program. -/
def Expectation.ofJson? (value : Value) : Option Expectation := do
  match ← value.slots? [["scope", "binding"], ["inspection"]] with
  | [scope, some inspection] =>
    return ⟨← optional "" Value.string? scope, ← inspection.string?⟩
  | _ => none

def Expectation.toJson (expectation : Expectation) : Value :=
  .object [⟨"scope", .string expectation.scope⟩, ⟨"inspection", .string expectation.inspection⟩]

def Rubric.ofJson? (value : Value) : Option Rubric := do
  match ← value.slots? [["config"], ["expectations"]] with
  | [config, expectations] =>
    return ⟨← optional {} CompilerConfig.ofJson? config,
      ← optional [] (Value.listOf Expectation.ofJson?) expectations⟩
  | _ => none

def Rubric.toJson (rubric : Rubric) : Value :=
  .object [⟨"config", rubric.config.toJson⟩,
    ⟨"expectations", .array (rubric.expectations.map Expectation.toJson)⟩]

/-- The rubric whose JSON form a text is. -/
def Rubric.ofJsonText? (text : String) : Option Rubric :=
  (Value.ofChars? text.toList).bind Rubric.ofJson?

end CodeRubric
