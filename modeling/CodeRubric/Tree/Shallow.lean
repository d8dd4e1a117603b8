import CodeRubric.Tree.Views

/-! The view of a declaration in which nested declarations keep their outside and lose their bodies,
so that a question about it is a question about its own contents. -/
namespace CodeRubric.Expression

/-- The node with `nil` in place of each child. -/
def hollow (e : Expression) : Expression := e.withChildren (e.children.map fun _ => .nil)

/-- The tree with each outermost declaration that owns a body hollowed, the root included. -/
def hollowNested (tree : Expression) : Expression :=
  tree.fold fun e below => if e.ownsBody then e.hollow else e.withChildren below

/-- The tree with each outermost declaration strictly inside it that owns a body hollowed. -/
def shallow (tree : Expression) : Expression :=
  tree.withChildren (tree.children.map hollowNested)

theorem hollowNested_eq (tree : Expression) :
    tree.hollowNested = if tree.ownsBody then tree.hollow else tree.shallow := by
  rw [hollowNested, fold_eq, shallow]
  rfl

end CodeRubric.Expression
