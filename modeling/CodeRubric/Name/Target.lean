import CodeRubric.Name.Words

/-! Which identifiers a question is about: any, exactly one, or those that read like a given one. -/
namespace CodeRubric.Name

/-- How close the words of two identifiers must be for them to be alike. -/
inductive LikeMode where
  /-- The same words, in any order. -/
  | equivalent
  /-- At least one word in common. -/
  | overlap
deriving DecidableEq, Repr, Inhabited

def LikeMode.name : LikeMode → String
  | .equivalent => "equivalent"
  | .overlap => "overlap"

def LikeMode.ofName? : String → Option LikeMode
  | "equivalent" => some .equivalent
  | "overlap" => some .overlap
  | _ => none

def LikeMode.agrees : LikeMode → List String → List String → Bool
  | .equivalent, expected, actual => expected.isPerm actual
  | .overlap, expected, actual => expected.any fun word => actual.contains word

/-- Word-level comparison of identifiers; one that has no words is like nothing. -/
def isLike (mode : LikeMode) (expected actual : String) : Bool :=
  match words? expected, words? actual with
  | some expected, some actual => mode.agrees expected actual
  | _, _ => false

inductive Target where
  | anyone
  /-- Equality of identifiers, case included. -/
  | named (name : String)
  | like (name : String) (mode : LikeMode)
deriving DecidableEq, Repr, Inhabited

def Target.accepts : Target → String → Bool
  | .anyone, _ => true
  | .named name, identifier => name == identifier
  | .like name mode, identifier => isLike mode name identifier

/-- Only an unconstrained target accepts things that have no name. -/
def Target.isUnconstrained : Target → Bool
  | .anyone => true
  | _ => false

end CodeRubric.Name
