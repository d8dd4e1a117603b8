import CodeRubric.Rubric.Basic
import CodeRubric.Yaml.Reader

/-! The YAML forms of settings, expectations and rubrics. Every scalar can be a text, whatever it
looks like, and a value left out stands for an empty mapping or list. -/
namespace CodeRubric

open Name (LikeMode)
open Yaml (Node)

def CompilerConfig.ofYaml? (node : Node) : Option CompilerConfig := do
  match ← Node.slot? ["like_mode"] (← node.fields?) with
  | some mode => return ⟨← LikeMode.ofName? (← mode.text?)⟩
  | none => return {}

/-- The scope may also be called `binding`; left out, it is the whole program. -/
def Expectation.ofYaml? (node : Node) : Option Expectation := do
  let fields ← node.fields?
  let scope ← match ← Node.slot? ["scope", "binding"] fields with
    | some scope => scope.text?
    | none => some ""
  let inspection ← (← Node.slot? ["inspection"] fields)
  return ⟨scope, ← inspection.text?⟩

def Rubric.ofYaml? (node : Node) : Option Rubric := do
  let fields ← node.fields?
  let config ← match ← Node.slot? ["config"] fields with
    | some config => CompilerConfig.ofYaml? config
    | none => some {}
  let expectations ← match ← Node.slot? ["expectations"] fields with
    | some expectations => (← expectations.items?).mapM Expectation.ofYaml?
    | none => some []
  return ⟨config, expectations⟩

/-- The rubric whose YAML form a text is. -/
def Rubric.ofYamlText? (text : String) : Option Rubric :=
  (Node.ofChars? text.toList).bind Rubric.ofYaml?

end CodeRubric
