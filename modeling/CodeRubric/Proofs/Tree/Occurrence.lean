import CodeRubric.Proofs.Tree.Part
import CodeRubric.Tree.Views

/-! Occurrences: the places of a tree where an expression stands, told apart by their positions, and
the declarations around each of them. Positions are ordered as lists of numbers, so that their order
is the pre-order of the tree and a position comes right before those inside it. -/
namespace CodeRubric

/-- An expression in its place. -/
structure Occurrence where
  /-- Which part to take at each level, from the root down. -/
  position : List Nat
  /-- The names declared by the declarations that properly enclose the place, outermost first. -/
  enclosing : List String
  node : Expression

namespace Occurrence

def root (tree : Expression) : Occurrence := ⟨[], [], tree⟩

/-- A place in the `i`-th part of a tree as a place in the tree. -/
def under (tree : Expression) (i : Nat) (occurrence : Occurrence) : Occurrence :=
  ⟨i :: occurrence.position, tree.declaredName?.toList ++ occurrence.enclosing, occurrence.node⟩

/-- The names declared around a declaration, followed by its own. -/
def qualifiedName? (occurrence : Occurrence) : Option (List String) :=
  occurrence.node.declaredName?.map fun name => occurrence.enclosing ++ [name]

/-- Being properly inside the node of another occurrence. -/
def LiesInside (inner outer : Occurrence) : Prop :=
  ∃ i rest, inner.position = outer.position ++ i :: rest

inductive OccursIn : Occurrence → Expression → Prop where
  | root {tree} : OccursIn (.root tree) tree
  | under {tree part i occurrence} :
      tree.Holds i part → OccursIn occurrence part → OccursIn (occurrence.under tree i) tree

end Occurrence

namespace Expression

/-- All occurrences in a tree in pre-order. -/
def occurrences (tree : Expression) : List Occurrence :=
  tree.fold fun e below =>
    .root e :: below.zipIdx.flatMap fun (found, i) => found.map (Occurrence.under e i)

/-- What is found in each part of a tree, as places in the tree. -/
def fromParts (tree : Expression) (found : Expression → List Occurrence) : List Occurrence :=
  tree.children.zipIdx.flatMap fun (part, i) => (found part).map (.under tree i)

theorem flatMap_zipIdx_children {α : Type} (tree : Expression) (f : Expression → List α) :
    (tree.children.zipIdx.flatMap fun (part, _) => f part) = tree.children.flatMap f := by
  rw [← List.flatMap_map, List.zipIdx_map_fst]

theorem mem_fromParts {tree : Expression} {found : Expression → List Occurrence}
    {occurrence : Occurrence} :
    occurrence ∈ tree.fromParts found ↔ ∃ i part inner, tree.Holds i part ∧ inner ∈ found part ∧
      inner.under tree i = occurrence := by
  constructor
  · intro member
    obtain ⟨⟨part, i⟩, listed, member⟩ := List.mem_flatMap.mp member
    obtain ⟨inner, inside, rfl⟩ := List.mem_map.mp member
    exact ⟨i, part, inner, mem_zipIdx_children.mp listed, inside, rfl⟩
  · rintro ⟨i, part, inner, held, inside, rfl⟩
    have listed := mem_zipIdx_children.mpr held
    exact List.mem_flatMap.mpr ⟨(part, i), listed, List.mem_map_of_mem inside⟩

theorem fromParts_congr {tree : Expression} {found found' : Expression → List Occurrence}
    (same : ∀ part ∈ tree.children, found part = found' part) :
    tree.fromParts found = tree.fromParts found' := by
  apply List.flatMap_congr
  rintro ⟨part, i⟩ listed
  have child := (mem_zipIdx_children.mp listed).mem_children
  exact congrArg (List.map (Occurrence.under tree i)) (same part child)

theorem map_node_fromParts (tree : Expression) (found : Expression → List Occurrence) :
    (tree.fromParts found).map Occurrence.node =
      tree.children.flatMap fun part => (found part).map Occurrence.node := by
  rw [fromParts, List.map_flatMap, ← flatMap_zipIdx_children]
  simp only [List.map_map]
  rfl

theorem occurrences_eq (tree : Expression) :
    tree.occurrences = .root tree :: tree.fromParts occurrences := by
  rw [occurrences, fold_eq, List.zipIdx_map, List.flatMap_map]
  rfl

/-- A test of the places in a tree, carried out at its root and in each of its parts. -/
theorem filter_occurrences {tree : Expression} {test : Occurrence → Bool}
    {kept : Expression → List Occurrence}
    (each : ∀ i part, tree.Holds i part →
      (part.occurrences.filter fun inner => test (inner.under tree i)) = kept part) :
    tree.occurrences.filter test =
      (if test (.root tree) then [.root tree] else []) ++ tree.fromParts kept := by
  have parts : (tree.fromParts occurrences).filter test = tree.fromParts kept := by
    rw [fromParts, List.filter_flatMap]
    apply List.flatMap_congr
    rintro ⟨part, i⟩ listed
    have held := mem_zipIdx_children.mp listed
    simp only [List.filter_map, ← each i part held]
    rfl
  rw [occurrences_eq, List.filter_cons, parts]
  split <;> rfl

theorem mem_occurrences {tree : Expression} {occurrence : Occurrence} :
    occurrence ∈ tree.occurrences ↔ occurrence.OccursIn tree := by
  induction tree using inductionOnChildren generalizing occurrence with
  | node tree ih =>
    rw [occurrences_eq, List.mem_cons, mem_fromParts]
    constructor
    · rintro (rfl | ⟨i, part, inner, held, inside, rfl⟩)
      · exact .root
      · exact .under held ((ih part held.mem_children).mp inside)
    · intro occurs
      cases occurs with
      | root => exact .inl rfl
      | @under _ part i inner held inside =>
        exact .inr ⟨i, part, inner, held, (ih part held.mem_children).mpr inside, rfl⟩

/-- Pre-order is the order of positions, and no position comes twice. -/
theorem occurrences_sorted (tree : Expression) :
    tree.occurrences.Pairwise fun a b => a.position < b.position := by
  induction tree using inductionOnChildren with
  | node tree ih =>
    rw [occurrences_eq, List.pairwise_cons, fromParts, List.pairwise_flatMap]
    -- The root comes first; positions in one part differ below it, and those of two parts at once.
    refine ⟨?_, ?_, ?_⟩
    · intro occurrence member
      obtain ⟨i, part, inner, _, _, rfl⟩ := mem_fromParts.mp member
      exact List.nil_lt_cons _ _
    · rintro ⟨part, i⟩ listed
      have child := (mem_zipIdx_children.mp listed).mem_children
      refine List.pairwise_map.mpr ((ih part child).imp ?_)
      intro a b before
      exact List.cons_lt_cons_iff.mpr (.inr ⟨rfl, before⟩)
    · have numbered : tree.children.zipIdx.Pairwise fun a b => a.2 < b.2 := by
        rw [← List.pairwise_map (f := Prod.snd), List.zipIdx_map_snd]
        exact List.pairwise_lt_range'
      refine numbered.imp ?_
      rintro ⟨part, i⟩ ⟨part', j⟩ earlier a first b second
      obtain ⟨a, _, rfl⟩ := List.mem_map.mp first
      obtain ⟨b, _, rfl⟩ := List.mem_map.mp second
      exact List.cons_lt_cons_iff.mpr (.inl earlier)

theorem map_node_occurrences (tree : Expression) :
    tree.occurrences.map Occurrence.node = tree.expressions := by
  induction tree using inductionOnChildren with
  | node tree ih =>
    rw [occurrences_eq, expressions_eq, List.map_cons, map_node_fromParts,
      List.flatMap_congr ih]
    rfl

theorem mem_expressions {tree e : Expression} :
    e ∈ tree.expressions ↔ ∃ occurrence : Occurrence, occurrence.OccursIn tree ∧
      occurrence.node = e := by
  rw [← map_node_occurrences, List.mem_map]
  simp only [mem_occurrences]

end Expression

namespace Occurrence

/-- A place in the node of an occurrence as a place in the whole tree. -/
def within (outer inner : Occurrence) : Occurrence :=
  ⟨outer.position ++ inner.position, outer.enclosing ++ inner.enclosing, inner.node⟩

theorem OccursIn.within {outer inner : Occurrence} {tree : Expression}
    (occurs : outer.OccursIn tree) (inside : inner.OccursIn outer.node) :
    (outer.within inner).OccursIn tree := by
  induction occurs with
  | root => exact inside
  | @under tree part i outer held _ ih =>
    have lifted := OccursIn.under held (ih inside)
    rwa [Occurrence.under, Occurrence.within, ← List.append_assoc, ← List.cons_append] at lifted

/-- Each name in front of a place belongs to a declaration that the place is in, and it splits the
names into those around that declaration and those between it and the place. -/
theorem OccursIn.split {occurrence : Occurrence} {tree : Expression} {before after : List String}
    {name : String} (occurs : occurrence.OccursIn tree)
    (names : occurrence.enclosing = before ++ name :: after) :
    ∃ outer : Occurrence, outer.OccursIn tree ∧ outer.enclosing = before ∧
      outer.node.declaredName? = some name ∧ ∃ part ∈ outer.node.children, ∃ inner : Occurrence,
        inner.OccursIn part ∧ inner.enclosing = after ∧ inner.node = occurrence.node := by
  induction occurs generalizing before with
  | root => simp [Occurrence.root] at names
  | @under tree part i inner held inside ih =>
    cases declared : tree.declaredName? with
    | none =>
      obtain ⟨outer, found, around, rest⟩ := ih (by simpa [Occurrence.under, declared] using names)
      exact ⟨outer.under tree i, .under held found, by simp [Occurrence.under, declared, around],
        rest⟩
    | some first =>
      simp only [Occurrence.under, declared, Option.toList_some, List.cons_append,
        List.nil_append] at names
      cases before with
      | nil =>
        obtain ⟨rfl, rest⟩ := List.cons.inj names
        exact ⟨.root tree, .root, rfl, declared, part, held.mem_children, inner, inside, rest, rfl⟩
      | cons head before =>
        obtain ⟨rfl, rest⟩ := List.cons.inj names
        obtain ⟨outer, found, around, rest⟩ := ih rest
        exact ⟨outer.under tree i, .under held found, by simp [Occurrence.under, declared, around],
          rest⟩

/-- Around a place inside a declaration are the names around the declaration, its own and more. -/
theorem OccursIn.enclosing_of_liesInside {outer inner : Occurrence} {tree : Expression}
    (occurs : outer.OccursIn tree) (inside : inner.OccursIn tree) (below : inner.LiesInside outer) :
    outer.enclosing ++ outer.node.declaredName?.toList <+: inner.enclosing := by
  obtain ⟨i, rest, below⟩ := below
  induction occurs generalizing inner with
  | root =>
    cases inside with
    | root => simp [Occurrence.root] at below
    | under held inside => exact List.prefix_append _ _
  | @under tree part j outer held _ ih =>
    cases inside with
    | root => simp [Occurrence.root, Occurrence.under] at below
    | @under _ part' k inner held' inside =>
      obtain ⟨rfl, deeper⟩ := List.cons.inj below
      obtain rfl := held.unique held'
      simp only [Occurrence.under, List.append_assoc, List.prefix_append_right_inj]
      exact ih inside deeper

end Occurrence

end CodeRubric
