import CodeRubric.Proofs.Inspection.Outline
import CodeRubric.Proofs.Tree.Occurrence
import CodeRubric.Proofs.Tree.Shallow

/-! When a tree covers another: each node of the second one that is no filler has a node of the
first one with the same outline and at least the same references. No question finds anything in the
second tree that it does not find in the first. A tree covers its parts and its shallow view. -/
namespace CodeRubric

namespace Expression

def CoveredBy (guards : Bool) (part whole : Expression) : Prop :=
  ∀ e ∈ part.expressions, e.isFiller = true ∨ ∃ e' ∈ whole.expressions,
    e.outline guards = e'.outline guards ∧ e.references ⊆ e'.references

variable {guards : Bool}

theorem mem_references {tree : Expression} {name : String} :
    name ∈ tree.references ↔ ∃ e ∈ tree.expressions, e.referredName? = some name := by
  rw [references, List.mem_filterMap]

theorem CoveredBy.references {part whole : Expression} (covered : part.CoveredBy guards whole) :
    part.references ⊆ whole.references := by
  intro name member
  obtain ⟨e, inside, referred⟩ := mem_references.mp member
  rcases covered e inside with filler | ⟨e', found, same, _⟩
  · cases e <;> simp_all [isFiller, referredName?]
  · have seen : e.referredName? = e'.referredName? := congrArg Outline.referred same
    exact mem_references.mpr ⟨e', found, seen ▸ referred⟩

theorem nil_coveredBy (whole : Expression) : Expression.nil.CoveredBy guards whole := by
  intro e inside
  obtain rfl : e = .nil := by simpa [expressions_eq, children] using inside
  exact .inl rfl

theorem CoveredBy.of_child {part child whole : Expression} (covered : part.CoveredBy guards child)
    (member : child ∈ whole.children) : part.CoveredBy guards whole := by
  intro e inside
  rcases covered e inside with filler | ⟨e', found, seen⟩
  · exact .inl filler
  · refine .inr ⟨e', ?_, seen⟩
    rw [expressions_eq]
    exact List.mem_cons_of_mem _ (List.mem_flatMap.mpr ⟨child, member, found⟩)

/-- A node with the outline of another one is covered by it as soon as its children are. -/
theorem CoveredBy.of_children {part whole : Expression}
    (same : part.outline guards = whole.outline guards)
    (below : ∀ child ∈ part.children, child.CoveredBy guards whole) :
    part.CoveredBy guards whole := by
  intro e inside
  rw [expressions_eq] at inside
  rcases List.mem_cons.mp inside with rfl | inside
  · refine .inr ⟨whole, ?_, same, ?_⟩
    · rw [expressions_eq]
      exact List.mem_cons_self
    · intro name member
      rw [references_eq] at member
      rcases List.mem_append.mp member with own | deeper
      · have seen : e.referredName? = whole.referredName? := congrArg Outline.referred same
        rw [references_eq, ← seen]
        exact List.mem_append_left _ own
      · obtain ⟨child, listed, member⟩ := List.mem_flatMap.mp deeper
        exact (below child listed).references member
  · obtain ⟨child, listed, inside⟩ := List.mem_flatMap.mp inside
    exact below child listed e inside

theorem CoveredBy.of_occursIn {occurrence : Occurrence} {tree : Expression}
    (occurs : occurrence.OccursIn tree) : occurrence.node.CoveredBy guards tree := by
  intro e inside
  obtain ⟨inner, innerOccurs, rfl⟩ := mem_expressions.mp inside
  exact .inr ⟨inner.node, mem_expressions.mpr ⟨_, occurs.within innerOccurs, rfl⟩, rfl,
    List.Subset.refl _⟩

end Expression

theorem Inspection.Nodewise.of_coveredBy {guards : Bool} {inspection : Inspection}
    {part whole : Expression} (nodewise : inspection.Nodewise guards)
    (covered : part.CoveredBy guards whole) (passed : inspection part = true) :
    inspection whole = true := by
  obtain ⟨test, valid, rfl⟩ := nodewise
  obtain ⟨e, inside, passed⟩ := List.any_eq_true.mp passed
  rcases covered e inside with filler | ⟨e', found, same, more⟩
  · simp [valid.filler filler] at passed
  · exact List.any_eq_true.mpr ⟨e', found, valid.mono same more passed⟩

namespace Expression

section Outlines

variable (e : Expression) (parts : List Expression) {guards : Bool}

theorem assignedName?_withChildren : (e.withChildren parts).assignedName? = e.assignedName? := by
  unfold withChildren
  split <;> rfl

theorem plainName?_withChildren : (e.withChildren parts).plainName? = e.plainName? := by
  unfold withChildren
  split <;> rfl

theorem isGuarded_withChildren :
    ((e.withChildren parts).equations?.getD []).map (·.body.isGuarded) =
      (e.equations?.getD []).map (·.body.isGuarded) := by
  unfold withChildren
  split <;> simp only [equations?, Option.getD_some, Option.getD_none, Equation.isGuarded_refillAll]

/-- The selector of a message is the only thing an outline takes from a child. -/
theorem outline_withChildren
    (selector : (e.withChildren parts).selectorName? = e.selectorName?) :
    (e.withChildren parts).outline guards = e.outline guards := by
  simp only [outline, kind_withChildren, declaredName?_withChildren, referredName?_withChildren,
    assignedName?_withChildren, selector, parameterLists_withChildren, isGuarded_withChildren]

theorem outline_withChildren_of_ownsBody (owner : e.ownsBody = true) :
    (e.withChildren parts).outline guards = e.outline guards := by
  apply outline_withChildren
  have quiet : ∀ e : Expression, e.ownsBody = true → e.selectorName? = none := by
    intro e owner
    cases e <;> simp_all [ownsBody, selectorName?]
  rw [quiet e owner, quiet _ (by rw [ownsBody_withChildren, owner])]

theorem outline_withChildren_map {f : Expression → Expression}
    (plain : ∀ c, (f c).plainName? = c.plainName?) :
    (e.withChildren (e.children.map f)).outline guards = e.outline guards := by
  apply outline_withChildren
  cases e <;> simp [withChildren, children, selectorName?, plain]

end Outlines

theorem plainName?_hollowNested (e : Expression) : e.hollowNested.plainName? = e.plainName? := by
  rw [hollowNested_eq, hollow, shallow]
  split <;> exact plainName?_withChildren _ _

theorem outline_shallow (e : Expression) (guards : Bool) :
    e.shallow.outline guards = e.outline guards :=
  outline_withChildren_map e plainName?_hollowNested

theorem outline_hollow {e : Expression} (owner : e.ownsBody = true) (guards : Bool) :
    e.hollow.outline guards = e.outline guards :=
  outline_withChildren_of_ownsBody e _ owner

/-- Without its body a declaration shows nothing but its outline. -/
theorem hollow_coveredBy {e whole : Expression} {guards : Bool} (owner : e.ownsBody = true)
    (same : e.outline guards = whole.outline guards) : e.hollow.CoveredBy guards whole := by
  refine .of_children ((outline_hollow owner guards).trans same) ?_
  intro child listed
  rw [hollow, children_withChildren_map] at listed
  obtain ⟨_, _, rfl⟩ := List.mem_map.mp listed
  exact nil_coveredBy whole

theorem shallow_coveredBy_of_children {e whole : Expression} {guards : Bool}
    (same : e.outline guards = whole.outline guards)
    (below : ∀ child ∈ e.children, child.hollowNested.CoveredBy guards whole) :
    e.shallow.CoveredBy guards whole := by
  refine .of_children ((outline_shallow e guards).trans same) ?_
  intro child listed
  rw [children_shallow] at listed
  obtain ⟨original, member, rfl⟩ := List.mem_map.mp listed
  exact below original member

theorem hollowNested_coveredBy (guards : Bool) (e : Expression) :
    e.hollowNested.CoveredBy guards e := by
  induction e using inductionOnChildren with
  | node e ih =>
    rw [hollowNested_eq]
    split
    · rename_i owner
      exact hollow_coveredBy owner rfl
    · exact shallow_coveredBy_of_children rfl fun child listed => (ih child listed).of_child listed

theorem shallow_coveredBy (guards : Bool) (e : Expression) : e.shallow.CoveredBy guards e :=
  shallow_coveredBy_of_children rfl fun child listed =>
    (hollowNested_coveredBy guards child).of_child listed

/-- Neither of two trees shows a question anything that the other does not. -/
def SeenAlike (guards : Bool) (left right : Expression) : Prop :=
  left.CoveredBy guards right ∧ right.CoveredBy guards left

theorem SeenAlike.inspection_eq {guards : Bool} {left right : Expression} {inspection : Inspection}
    (alike : left.SeenAlike guards right) (nodewise : inspection.Nodewise guards) :
    inspection left = inspection right :=
  Bool.eq_iff_iff.mpr ⟨nodewise.of_coveredBy alike.1, nodewise.of_coveredBy alike.2⟩

theorem shallow_seenAlike {guards : Bool} {changed e : Expression} {f : Expression → Expression}
    (same : changed.outline guards = e.outline guards)
    (mapped : changed.children = e.children.map f)
    (below : ∀ child ∈ e.children, (f child).hollowNested.SeenAlike guards child.hollowNested) :
    changed.shallow.SeenAlike guards e.shallow := by
  constructor
  · refine shallow_coveredBy_of_children (same.trans (outline_shallow e guards).symm) ?_
    intro child listed
    rw [mapped] at listed
    obtain ⟨original, member, rfl⟩ := List.mem_map.mp listed
    refine (below original member).1.of_child ?_
    rw [children_shallow]
    exact List.mem_map_of_mem member
  · refine shallow_coveredBy_of_children (same.symm.trans (outline_shallow changed guards).symm) ?_
    intro child listed
    refine (below child listed).2.of_child ?_
    rw [children_shallow, mapped, List.map_map]
    exact List.mem_map_of_mem listed

end Expression

end CodeRubric
