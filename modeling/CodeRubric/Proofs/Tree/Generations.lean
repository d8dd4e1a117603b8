import CodeRubric.Proofs.Tree.Occurrence

/-! The declarations of a tree by generations: the outermost ones, their members, the members of
these and so on. The generation of a declaration is the number of declarations around it, so the
walk from generation to generation comes to each declaration once. -/
namespace CodeRubric

namespace Expression

/-- The declarations of a name are spread over the outermost declarations, in the same order. -/
theorem declarationsOf_eq_flatMap_outermost (name : String) (tree : Expression) :
    declarationsOf name tree = tree.outermostDeclarations.flatMap (declarationsOf name) := by
  induction tree using inductionOnChildren with
  | node tree ih =>
    rw [outermostDeclarations_eq]
    split
    · rw [List.flatMap_singleton]
    · next plain =>
      calc declarationsOf name tree
        _ = tree.children.flatMap (declarationsOf name) :=
          declarationsOf_of_none (Option.not_isSome_iff_eq_none.mp plain) name
        _ = tree.children.flatMap fun part =>
            part.outermostDeclarations.flatMap (declarationsOf name) := List.flatMap_congr ih
        _ = tree.members.flatMap (declarationsOf name) := by rw [members, List.flatMap_assoc]

theorem nestedDeclarationsOf_eq_flatMap_members (name : String) (tree : Expression) :
    nestedDeclarationsOf name tree = tree.members.flatMap (declarationsOf name) := by
  rw [nestedDeclarationsOf_eq, members, List.flatMap_assoc]
  apply List.flatMap_congr
  intro part _
  exact declarationsOf_eq_flatMap_outermost name part

/-- The declarations with `k` declarations around them, in pre-order and in their places. -/
def generation (k : Nat) (tree : Expression) : List Occurrence :=
  tree.occurrences.filter fun occurrence =>
    occurrence.node.isDeclaration && occurrence.enclosing.length == k

theorem mem_generation {k : Nat} {tree : Expression} {occurrence : Occurrence} :
    occurrence ∈ tree.generation k ↔ occurrence.OccursIn tree ∧
      occurrence.node.isDeclaration = true ∧ occurrence.enclosing.length = k := by
  rw [generation, List.mem_filter, mem_occurrences, Bool.and_eq_true, beq_iff_eq]

theorem generation_eq (k : Nat) (tree : Expression) :
    tree.generation k =
      (if tree.isDeclaration && 0 == k then [.root tree] else []) ++
        tree.fromParts fun part => part.occurrences.filter fun occurrence =>
          occurrence.node.isDeclaration &&
            (tree.declaredName?.toList ++ occurrence.enclosing).length == k :=
  filter_occurrences fun _ _ _ => rfl

theorem generation_of_none {tree : Expression} (plain : tree.declaredName? = none) (k : Nat) :
    tree.generation k = tree.fromParts (generation k) := by
  rw [generation_eq, isDeclaration, plain]
  rfl

theorem generation_zero_of_some {tree : Expression} {name : String}
    (declared : tree.declaredName? = some name) : tree.generation 0 = [.root tree] := by
  rw [generation_eq, isDeclaration, declared]
  simp [fromParts]

theorem generation_succ_of_some {tree : Expression} {name : String}
    (declared : tree.declaredName? = some name) (k : Nat) :
    tree.generation (k + 1) = tree.fromParts (generation k) := by
  have later : ∀ part ∈ tree.children, (part.occurrences.filter fun occurrence =>
      occurrence.node.isDeclaration &&
        (tree.declaredName?.toList ++ occurrence.enclosing).length == k + 1) =
          part.generation k := by
    intro part _
    simp [generation, declared]
  rw [generation_eq, fromParts_congr later]
  simp

theorem map_node_generation_zero (tree : Expression) :
    (tree.generation 0).map Occurrence.node = tree.outermostDeclarations := by
  induction tree using inductionOnChildren with
  | node tree ih =>
    rw [outermostDeclarations_eq, isDeclaration]
    cases declared : tree.declaredName? with
    | none =>
      rw [generation_of_none declared, map_node_fromParts]
      exact List.flatMap_congr ih
    | some name =>
      rw [generation_zero_of_some declared]
      rfl

theorem map_node_generation_one {tree : Expression} (declares : tree.isDeclaration = true) :
    (tree.generation 1).map Occurrence.node = tree.members := by
  obtain ⟨name, declared⟩ := Option.isSome_iff_exists.mp declares
  rw [generation_succ_of_some declared, map_node_fromParts, members]
  simp only [map_node_generation_zero]

end Expression

namespace Occurrence

/-- The members of a declaration as places in the tree that the declaration stands in. -/
def members (outer : Occurrence) : List Occurrence := (outer.node.generation 1).map outer.within

theorem members_under (tree : Expression) (i : Nat) (outer : Occurrence) :
    (outer.under tree i).members = outer.members.map (.under tree i) := by
  rw [members, members, List.map_map]
  apply List.map_congr_left
  intro inner _
  simp [within, under]

theorem members_root (tree : Expression) : (root tree).members = tree.generation 1 :=
  List.map_id _

theorem liesInside_of_mem_members {outer inner : Occurrence} (member : inner ∈ outer.members) :
    inner.LiesInside outer := by
  obtain ⟨found, listed, rfl⟩ := List.mem_map.mp member
  obtain ⟨occurs, _, around⟩ := Expression.mem_generation.mp listed
  -- The declaration itself has nothing around it, so what was found is in one of its parts.
  cases occurs with
  | root => cases around
  | @under _ part i inner held inside => exact ⟨i, inner.position, rfl⟩

end Occurrence

namespace Expression

/-- One step of the walk: the next generation consists of the members of each declaration. -/
theorem generation_succ (k : Nat) (tree : Expression) :
    tree.generation (k + 1) = (tree.generation k).flatMap Occurrence.members := by
  -- Below the root of a tree both sides take the same step in each part.
  have below {tree : Expression} {j : Nat} (ih : ∀ part ∈ tree.children,
      part.generation (j + 1) = (part.generation j).flatMap Occurrence.members) :
      tree.fromParts (generation (j + 1)) =
        (tree.fromParts (generation j)).flatMap Occurrence.members := by
    rw [fromParts_congr ih, fromParts, fromParts, List.flatMap_assoc]
    simp only [List.map_flatMap, List.flatMap_map, Occurrence.members_under]
  induction tree using inductionOnChildren generalizing k with
  | node tree ih =>
    cases declared : tree.declaredName? with
    | none =>
      rw [generation_of_none declared, generation_of_none declared]
      exact below fun part child => ih part child k
    | some name =>
      cases k with
      | zero =>
        rw [generation_zero_of_some declared, List.flatMap_singleton, Occurrence.members_root]
      | succ k =>
        rw [generation_succ_of_some declared, generation_succ_of_some declared]
        exact below fun part child => ih part child k

/-- The walk from the outermost declarations of a tree to their members, the members of these and so
on, with the place of each declaration it comes to. -/
structure MemberWalk (tree : Expression) (levels : Nat → List Occurrence) : Prop where
  start : (levels 0).map Occurrence.node = tree.outermostDeclarations
  next : ∀ k, ∃ membersOf : Occurrence → List Occurrence,
    levels (k + 1) = (levels k).flatMap membersOf ∧
    ∀ outer ∈ levels k, (membersOf outer).map Occurrence.node = outer.node.members ∧
      ∀ inner ∈ membersOf outer, inner.LiesInside outer

theorem memberWalk_generation (tree : Expression) :
    tree.MemberWalk fun k => tree.generation k where
  start := map_node_generation_zero tree
  next := by
    intro k
    refine ⟨Occurrence.members, generation_succ k tree, ?_⟩
    intro outer listed
    constructor
    · rw [Occurrence.members, List.map_map]
      exact map_node_generation_one (mem_generation.mp listed).2.1
    · intro inner member
      exact Occurrence.liesInside_of_mem_members member

/-- The outermost declarations share out all declarations of a tree, and its members those inside
it. Going from the outermost declarations to members again and again comes to every declaration
once, and no outermost declaration is inside another. -/
theorem declarations_partition (tree : Expression) :
    (∀ name, declarationsOf name tree =
      tree.outermostDeclarations.flatMap (declarationsOf name)) ∧
    (∀ name, nestedDeclarationsOf name tree = tree.members.flatMap (declarationsOf name)) ∧
    ∃ levels : Nat → List Occurrence, tree.MemberWalk levels ∧
      (∀ k, (levels k).Pairwise fun a b => a.position < b.position) ∧
      (∀ k, ∀ occurrence ∈ levels k,
        occurrence.OccursIn tree ∧ occurrence.node.isDeclaration = true) ∧
      (∀ occurrence : Occurrence, occurrence.OccursIn tree →
        occurrence.node.isDeclaration = true → ∃! k, occurrence ∈ levels k) ∧
      ∀ outer ∈ levels 0, ∀ inner ∈ levels 0, ¬ inner.LiesInside outer := by
  refine ⟨fun name => declarationsOf_eq_flatMap_outermost name tree,
    fun name => nestedDeclarationsOf_eq_flatMap_members name tree,
    fun k => tree.generation k, memberWalk_generation tree, ?_, ?_, ?_, ?_⟩
  · intro k
    exact (occurrences_sorted tree).filter _
  · intro k occurrence listed
    obtain ⟨occurs, declares, _⟩ := mem_generation.mp listed
    exact ⟨occurs, declares⟩
  · intro occurrence occurs declares
    refine ⟨occurrence.enclosing.length, mem_generation.mpr ⟨occurs, declares, rfl⟩, ?_⟩
    intro k listed
    exact (mem_generation.mp listed).2.2.symm
  · intro outer outerListed inner innerListed below
    obtain ⟨outerOccurs, declares, _⟩ := mem_generation.mp outerListed
    obtain ⟨innerOccurs, _, around⟩ := mem_generation.mp innerListed
    obtain ⟨name, declared⟩ := Option.isSome_iff_exists.mp declares
    have longer := (outerOccurs.enclosing_of_liesInside innerOccurs below).length_le
    rw [declared, Option.toList_some, List.length_append, List.length_singleton] at longer
    omega

end Expression

end CodeRubric
