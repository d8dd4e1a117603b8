import CodeRubric.Rubric.Json
import CodeRubric.Rubric.Yaml

/-! Rubric files. The extension of a file's name tells its format. -/
namespace CodeRubric

/-- Why a file gives no rubric. -/
inductive LoadError where
  | unreadable (file : String)
  | invalidJson (file : String)
  | invalidYaml (file : String)
  | unsupportedExtension (file : String)
deriving DecidableEq, Repr

def LoadError.message : LoadError → String
  | .unreadable file => "reading rubric " ++ file
  | .invalidJson file => "parsing json rubric " ++ file
  | .invalidYaml file => "parsing yaml rubric " ++ file
  | .unsupportedExtension file => "unsupported rubric extension for " ++ file

/-- What follows the last dot of a file's name, unless that dot is its first character. -/
def extension? (file : String) : Option String :=
  let base := (file.toList.reverse.takeWhile (· ≠ '/')).reverse
  let extension := (base.reverse.takeWhile (· ≠ '.')).reverse
  if extension.length + 1 < base.length then some (String.ofList extension) else none

namespace Rubric

/-- The rubric in a file with the given bytes, `none` if there is no such file. A file that is not
UTF-8 cannot be read, whatever its name. -/
def load (file : String) (bytes : Option ByteArray) : Except LoadError Rubric :=
  match bytes.bind String.fromUTF8? with
  | none => .error (.unreadable file)
  | some text =>
    match extension? file with
    | some "json" => (ofJsonText? text).elim (.error (.invalidJson file)) .ok
    | some "yaml" => (ofYamlText? text).elim (.error (.invalidYaml file)) .ok
    | some "yml" => (ofYamlText? text).elim (.error (.invalidYaml file)) .ok
    | _ => .error (.unsupportedExtension file)

/-- What is logged when a rubric has been loaded. -/
def loadLog (file : String) (rubric : Rubric) : LogLine :=
  ⟨.debug, "loaded " ++ toString rubric.expectations.length ++ " expectations from " ++ file⟩

end Rubric

end CodeRubric
