import CodeRubric.Tree.Views

/-! Inspections: yes-or-no questions about a tree, and the ways to combine them. -/
namespace CodeRubric

abbrev Inspection := Expression → Bool

namespace Inspection

/-- Whether the tree or some expression in it passes the test. -/
def contains (test : Expression → Bool) : Inspection := fun tree => tree.expressions.any test

/-- Whether the body of some equation in the tree passes the test. -/
def containsBody (test : EquationBody → Bool) : Inspection := fun tree => tree.bodies.any test

/-- Whether some declaration of the name, the tree itself included, passes the test. -/
def containsDeclaration (name : String) (test : Expression → Bool) : Inspection :=
  fun tree => (tree.declarationsOf name).any test

/-- The question asked of the declarations of a name in place of the whole tree. -/
def about (inspection : Inspection) (name : String) : Inspection :=
  containsDeclaration name inspection

def negate (inspection : Inspection) : Inspection := fun tree => !inspection tree

def either (left right : Inspection) : Inspection := fun tree => left tree || right tree

def both (left right : Inspection) : Inspection := fun tree => left tree && right tree

def always : Inspection := fun _ => true

end Inspection

end CodeRubric
