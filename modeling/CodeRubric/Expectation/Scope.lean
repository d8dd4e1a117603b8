import CodeRubric.Expectation.Error
import CodeRubric.Inspection.Basic
import CodeRubric.Text.Split
import CodeRubric.Tree.Shallow

/-! Scopes: the part of a program that a question is about. The empty spec is the whole program,
`A.B` is `B` anywhere inside `A`, and `Intransitive:A.B` is `B` declared directly in the outermost
`A`, without the bodies of the declarations inside it. -/
namespace CodeRubric

inductive Scope where
  | program
  | transitive (path : List String)
  | intransitive (path : List String)
deriving DecidableEq, Repr

namespace Scope

/-- The segments of a dotted path, none of them empty. -/
def path? (text : List Char) : Option (List String) :=
  let segments := Text.split '.' text
  if segments.any List.isEmpty then none else some (segments.map String.ofList)

def parse? (spec : List Char) : Option Scope :=
  match Text.split ':' spec with
  | [[]] => some .program
  | [path] => (path? path).map .transitive
  | [keyword, path] =>
    if keyword = "Intransitive".toList then (path? path).map .intransitive else none
  | _ => none

def parse (spec : String) : Except SpecError Scope :=
  match parse? spec.toList with
  | some scope => .ok scope
  | none => .error (.malformedScope spec)

/-- The question asked of the declarations of a name strictly inside the tree. -/
def inside (name : String) (inspection : Inspection) : Inspection :=
  fun tree => (tree.nestedDeclarationsOf name).any inspection

/-- The declarations at a path that starts at the outermost declarations of the tree and goes from
each declaration to its members. -/
def resolve : List String → Expression → List Expression
  | [], tree => [tree]
  | first :: rest, tree =>
    rest.foldl (fun found name => (found.flatMap Expression.members).filter (·.declares name))
      (tree.outermostDeclarations.filter (·.declares first))

/-- A question about a program narrowed down to the scope. -/
def slice : Scope → Inspection → Inspection
  | .program, inspection => inspection
  | .transitive [], inspection => inspection
  | .transitive (first :: rest), inspection => (rest.foldr inside inspection).about first
  | .intransitive path, inspection =>
    fun tree => (resolve path tree).any fun declaration => inspection declaration.shallow

end Scope

end CodeRubric
