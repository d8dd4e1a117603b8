import CodeRubric.Expectation.Scope
import CodeRubric.Proofs.Tree.Occurrence

/-! The meaning of a dotted scope: the last name is that of the declaration asked about, and the
names before it are found in this order among the declarations around it, with gaps allowed. -/
namespace CodeRubric.Scope

open Expression

theorem about_iff {inspection : Inspection} {name : String} {tree : Expression} :
    inspection.about name tree = true ↔ ∃ occurrence : Occurrence, occurrence.OccursIn tree ∧
      occurrence.node.declaredName? = some name ∧ inspection occurrence.node = true := by
  simp only [Inspection.about, Inspection.containsDeclaration, declarationsOf, List.any_eq_true,
    List.mem_filter, mem_expressions, declares_iff]
  constructor
  · rintro ⟨e, ⟨⟨occurrence, occurs, rfl⟩, declared⟩, passed⟩
    exact ⟨occurrence, occurs, declared, passed⟩
  · rintro ⟨occurrence, occurs, declared, passed⟩
    exact ⟨_, ⟨⟨occurrence, occurs, rfl⟩, declared⟩, passed⟩

/-- Strictly inside a tree is anywhere in one of its children. -/
theorem inside_eq (name : String) (inspection : Inspection) (tree : Expression) :
    inside name inspection tree = tree.children.any (inspection.about name) := by
  rw [inside, nestedDeclarationsOf_eq, List.any_flatMap]
  rfl

/-- The names of a path in front of `name` are found around a declaration of `name` that passes. -/
def FoundBelow (outer : List String) (name : String) (inspection : Inspection) (tree : Expression) :
    Prop :=
  ∃ occurrence : Occurrence, occurrence.OccursIn tree ∧ inspection occurrence.node = true ∧
    occurrence.node.declaredName? = some name ∧ outer.Sublist occurrence.enclosing

/-- One more name in front of a path is one more declaration around the place, anywhere above what
the rest of the path finds. -/
theorem foundBelow_cons {first name : String} {outer : List String} {inspection : Inspection}
    {tree : Expression} :
    FoundBelow (first :: outer) name inspection tree ↔
      ∃ occurrence : Occurrence, occurrence.OccursIn tree ∧
        occurrence.node.declaredName? = some first ∧
          ∃ part ∈ occurrence.node.children, FoundBelow outer name inspection part := by
  constructor
  · rintro ⟨occurrence, occurs, passed, declared, ordered⟩
    obtain ⟨front, back, names, member, ordered⟩ := List.cons_sublist_iff.mp ordered
    obtain ⟨before, after, rfl⟩ := List.append_of_mem member
    have names : occurrence.enclosing = before ++ first :: (after ++ back) := by simpa using names
    obtain ⟨outer, found, -, named, part, child, inner, inside, rest, same⟩ := occurs.split names
    refine ⟨outer, found, named, part, child, inner, inside, same ▸ passed, same ▸ declared, ?_⟩
    rw [rest]
    exact ordered.trans (List.sublist_append_right _ _)
  · rintro ⟨occurrence, occurs, named, part, child, inner, inside, passed, declared, ordered⟩
    obtain ⟨i, held⟩ := exists_holds_of_mem_children child
    have placed := occurs.within (.under held inside)
    refine ⟨_, placed, passed, declared, ?_⟩
    simp only [Occurrence.within, Occurrence.under, named, Option.toList_some]
    exact (ordered.cons_cons first).trans (List.sublist_append_right _ _)

/-- Gone through name by name, a path leads to the declarations of its last name that have the names
before it around them. -/
theorem about_inside_iff {outer : List String} {name : String} {inspection : Inspection}
    {tree : Expression} {first : String} {rest : List String}
    (path : first :: rest = outer ++ [name]) :
    (rest.foldr inside inspection).about first tree = true ↔
      FoundBelow outer name inspection tree := by
  induction rest generalizing first outer tree with
  | nil =>
    obtain ⟨rfl, rfl⟩ : outer = [] ∧ first = name := by
      cases outer <;> simp_all
    simp [about_iff, FoundBelow, and_comm]
  | cons next rest ih =>
    cases outer with
    | nil => simp at path
    | cons head outer =>
      obtain ⟨rfl, shorter⟩ := List.cons.inj path
      rw [List.foldr_cons, foundBelow_cons, about_iff]
      simp only [inside_eq, List.any_eq_true, ih shorter]

/-- A dotted scope asks about every declaration of its last name that has the other names around it
in order. -/
theorem slice_transitive_iff_exists_occurrence (outer : List String) (name : String)
    (inspection : Inspection) (tree : Expression) :
    (Scope.transitive (outer ++ [name])).slice inspection tree = true ↔
      ∃ occurrence : Occurrence, occurrence.OccursIn tree ∧ inspection occurrence.node = true ∧
        occurrence.node.declaredName? = some name ∧ outer.Sublist occurrence.enclosing := by
  cases path : outer ++ [name] with
  | nil => simp at path
  | cons first rest => exact about_inside_iff path.symm

end CodeRubric.Scope
