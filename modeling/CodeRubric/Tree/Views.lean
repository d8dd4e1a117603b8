import CodeRubric.Tree.Fold
import CodeRubric.Tree.Shape

/-! Flat views of a tree, all in pre-order: a node first, then each child's part from left to
right. -/
namespace CodeRubric.Expression

/-- The tree itself and every expression nested in it. -/
def expressions (tree : Expression) : List Expression :=
  tree.fold fun e below => e :: below.flatten

/-- The bodies of all equations in the tree. -/
def bodies (tree : Expression) : List EquationBody :=
  tree.expressions.flatMap fun e => (e.equations?.getD []).map Equation.body

/-- The declarations of a name anywhere in the tree, the tree itself included. -/
def declarationsOf (name : String) (tree : Expression) : List Expression :=
  tree.expressions.filter fun e => e.declares name

/-- The declarations of a name strictly inside the tree. -/
def nestedDeclarationsOf (name : String) (tree : Expression) : List Expression :=
  (tree.expressions.drop 1).filter fun e => e.declares name

/-- The identifiers referred to in the tree, as often as they are. -/
def references (tree : Expression) : List String :=
  tree.expressions.filterMap referredName?

/-- The first declarations met on each path down from the tree, which may be one itself.
Nothing inside a declaration is listed. -/
def outermostDeclarations (tree : Expression) : List Expression :=
  tree.fold fun e below => if e.isDeclaration then [e] else below.flatten

/-- The declarations inside the tree that are inside no other declaration in it. -/
def members (tree : Expression) : List Expression :=
  tree.children.flatMap outermostDeclarations

theorem expressions_eq (tree : Expression) :
    tree.expressions = tree :: tree.children.flatMap expressions := by
  rw [expressions, fold_eq, List.flatMap]
  rfl

theorem outermostDeclarations_eq (tree : Expression) :
    tree.outermostDeclarations = if tree.isDeclaration then [tree] else tree.members := by
  rw [outermostDeclarations, fold_eq, members, List.flatMap]
  rfl

theorem declarationsOf_of_none {tree : Expression} (plain : tree.declaredName? = none)
    (name : String) : declarationsOf name tree = tree.children.flatMap (declarationsOf name) := by
  have silent : tree.declares name = false := by
    rw [declares, plain]
    rfl
  rw [declarationsOf, expressions_eq, List.filter_cons, silent, List.filter_flatMap]
  rfl

theorem nestedDeclarationsOf_eq (name : String) (tree : Expression) :
    nestedDeclarationsOf name tree = tree.children.flatMap (declarationsOf name) := by
  rw [nestedDeclarationsOf, expressions_eq, List.drop_one, List.tail_cons, List.filter_flatMap]
  rfl

theorem references_eq (tree : Expression) :
    tree.references = tree.referredName?.toList ++ tree.children.flatMap references := by
  rw [references, expressions_eq, List.filterMap_cons, List.filterMap_flatMap]
  cases tree.referredName? <;> rfl

end CodeRubric.Expression
