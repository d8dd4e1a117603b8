import CodeRubric.Inspection.Basic
import CodeRubric.Name.Target

/-! Questions about the names and constructs that a program uses. -/
namespace CodeRubric.Inspection

open Name (Target)

/-- Some reference or consultation is to an identifier that the target accepts. -/
def uses (target : Target) : Inspection :=
  contains fun e => e.referredName?.any target.accepts

/-- Some predicate that the target accepts is consulted. -/
def consults (target : Target) : Inspection :=
  contains fun e =>
    match e with
    | .exist name _ => target.accepts name
    | _ => false

/-- Some identifier that the target accepts is assigned to. -/
def assigns (target : Target) : Inspection :=
  contains fun e =>
    match e with
    | .assignment name _ => target.accepts name
    | _ => false

/-- Some message is sent whose selector is a name that the target accepts. Only an unconstrained
target accepts a selector that is computed. -/
def sends (target : Target) : Inspection :=
  contains fun e =>
    match e with
    | .send _ (.reference name) _ => target.accepts name
    | .send .. => target.isUnconstrained
    | _ => false

/-- Some node is of the given kind. -/
def usesKind (kind : Kind) : Inspection := contains fun e => e.kind == kind

/-- Some equation has guards. -/
def usesGuards : Inspection := containsBody EquationBody.isGuarded

def usesConditional : Inspection := either (usesKind .ifThenElse) usesGuards

/-- Functions are composed by a reference to the operator `.`. -/
def usesComposition : Inspection := uses (.named ".")

def usesUnification : Inspection := uses (.named "=")

def usesCut : Inspection := uses (.named "!")

def usesFail : Inspection := uses (.named "fail")

end CodeRubric.Inspection
