/-! Log lines as values. -/
namespace CodeRubric

inductive LogLevel where
  | debug | info | warn
deriving DecidableEq, Repr

def LogLevel.name : LogLevel → String
  | .debug => "DEBUG"
  | .info => "INFO"
  | .warn => "WARN"

structure LogLine where
  level : LogLevel
  message : String
deriving DecidableEq, Repr

def LogLine.render (line : LogLine) : String := line.level.name ++ " " ++ line.message

end CodeRubric
