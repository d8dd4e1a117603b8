import CodeRubric.Expectation.Scope
import CodeRubric.Proofs.Tree.Occurrence

/-! The meaning of an intransitive scope: the declarations that it resolves to are exactly those
whose qualified name is its path. Each step of the resolution goes from the declarations of a
qualified name to those of the qualified names with one more segment. -/
namespace CodeRubric

theorem Occurrence.qualifiedName?_under (tree : Expression) (i : Nat) (occurrence : Occurrence) :
    (occurrence.under tree i).qualifiedName? =
      occurrence.qualifiedName?.map (tree.declaredName?.toList ++ ·) := by
  cases declared : occurrence.node.declaredName? <;>
    simp [Occurrence.qualifiedName?, Occurrence.under, declared]

/-- A declaration and one inside it never have the same qualified name: the second one is longer. -/
theorem Occurrence.OccursIn.qualifiedName?_ne {outer inner : Occurrence} {tree : Expression}
    {path : List String} (occurs : outer.OccursIn tree) (inside : inner.OccursIn tree)
    (below : inner.LiesInside outer) (named : outer.qualifiedName? = some path) :
    inner.qualifiedName? ≠ some path := by
  intro innerNamed
  obtain ⟨name, declared, rfl⟩ := Option.map_eq_some_iff.mp named
  obtain ⟨innerName, -, same⟩ := Option.map_eq_some_iff.mp innerNamed
  have longer := (occurs.enclosing_of_liesInside inside below).length_le
  have lengths := congrArg List.length same
  simp only [declared, Option.toList_some, List.length_append, List.length_cons,
    List.length_nil] at longer lengths
  omega

namespace Expression

/-- The declarations whose qualified name passes a test, in pre-order and in their places. -/
def qualified (test : List String → Bool) (tree : Expression) : List Occurrence :=
  tree.occurrences.filter fun occurrence => occurrence.qualifiedName?.any test

theorem mem_qualified {test : List String → Bool} {tree : Expression} {occurrence : Occurrence} :
    occurrence ∈ tree.qualified test ↔
      occurrence.OccursIn tree ∧ occurrence.qualifiedName?.any test = true := by
  rw [qualified, List.mem_filter, mem_occurrences]

def declarationsWhere (test : List String → Bool) (tree : Expression) : List Expression :=
  (tree.qualified test).map Occurrence.node

theorem declarationsWhere_eq (test : List String → Bool) (tree : Expression) :
    tree.declarationsWhere test =
      (if tree.declaredName?.any fun name => test [name] then [tree] else []) ++
        tree.children.flatMap (declarationsWhere fun names =>
          test (tree.declaredName?.toList ++ names)) := by
  have own : (Occurrence.root tree).qualifiedName?.any test =
      tree.declaredName?.any fun name => test [name] := Option.any_map
  -- Inside a declaration the test is on the names after its own.
  have parts : tree.qualified test =
      (if tree.declaredName?.any fun name => test [name] then [.root tree] else []) ++
        tree.fromParts (qualified fun names => test (tree.declaredName?.toList ++ names)) := by
    rw [← own]
    apply filter_occurrences
    intro i part _
    simp only [Occurrence.qualifiedName?_under, Option.any_map]
    rfl
  rw [declarationsWhere, parts, List.map_append, map_node_fromParts,
    apply_ite (List.map Occurrence.node)]
  rfl

theorem declarationsWhere_eq_nil {test : List String → Bool}
    (never : ∀ names ≠ [], test names = false) (tree : Expression) :
    tree.declarationsWhere test = [] := by
  refine List.map_eq_nil_iff.mpr (List.eq_nil_iff_forall_not_mem.mpr ?_)
  intro occurrence member
  have passed := (mem_qualified.mp member).2
  cases declared : occurrence.node.declaredName? <;>
    simp [Occurrence.qualifiedName?, declared, never] at passed

def declarationsAt (path : List String) : Expression → List Expression :=
  declarationsWhere fun names => names == path

theorem mem_qualified_path {path : List String} {tree : Expression} {occurrence : Occurrence} :
    occurrence ∈ tree.qualified (fun names => names == path) ↔
      occurrence.OccursIn tree ∧ occurrence.qualifiedName? = some path := by
  simp [mem_qualified, Option.any_eq_true]

theorem mem_declarationsAt {path : List String} {tree e : Expression} :
    e ∈ tree.declarationsAt path ↔ ∃ occurrence : Occurrence,
      (occurrence.OccursIn tree ∧ occurrence.qualifiedName? = some path) ∧ occurrence.node = e := by
  simp only [declarationsAt, declarationsWhere, List.mem_map, mem_qualified_path]

theorem declarationsAt_of_none {tree : Expression} (plain : tree.declaredName? = none)
    (path : List String) :
    tree.declarationsAt path = tree.children.flatMap (declarationsAt path) := by
  rw [declarationsAt, declarationsWhere_eq, plain]
  rfl

theorem declarationsAt_of_some {tree : Expression} {name : String}
    (declared : tree.declaredName? = some name) (first : String) (rest : List String) :
    tree.declarationsAt (first :: rest) =
      if name = first then
        if rest = [] then [tree] else tree.children.flatMap (declarationsAt rest)
      else [] := by
  rw [declarationsAt, declarationsWhere_eq, declared]
  by_cases own : name = first
  · subst own
    by_cases last : rest = []
    · subst last
      simpa using fun part _ => declarationsWhere_eq_nil (by simp) part
    · simp [last, declarationsAt]
  · simpa [own] using fun part _ => declarationsWhere_eq_nil (by simp [own]) part

/-- The outermost declarations of a name are those that have no declaration around them. -/
theorem filter_outermostDeclarations (name : String) (tree : Expression) :
    (tree.outermostDeclarations.filter fun e => e.declares name) = tree.declarationsAt [name] := by
  induction tree using inductionOnChildren with
  | node tree ih =>
    cases declared : tree.declaredName? with
    | none =>
      rw [outermostDeclarations_eq, isDeclaration, declared, declarationsAt_of_none declared,
        ← List.flatMap_congr ih, ← List.filter_flatMap]
      rfl
    | some own =>
      rw [outermostDeclarations_eq, isDeclaration, declared, declarationsAt_of_some declared]
      by_cases same : own = name <;> simp [declares, declared, same]

theorem filter_members (name : String) (tree : Expression) :
    (tree.members.filter fun e => e.declares name) =
      tree.children.flatMap (declarationsAt [name]) := by
  rw [members, List.filter_flatMap]
  simp only [filter_outermostDeclarations]

/-- One step of the resolution: from the declarations of a qualified name to their members. -/
theorem filter_members_declarationsAt {path : List String} (some_segment : path ≠ [])
    (name : String) (tree : Expression) :
    (((tree.declarationsAt path).flatMap members).filter fun e => e.declares name) =
      tree.declarationsAt (path ++ [name]) := by
  induction tree using inductionOnChildren generalizing path with
  | node tree ih =>
    cases declared : tree.declaredName? with
    | none =>
      rw [declarationsAt_of_none declared, declarationsAt_of_none declared, List.flatMap_assoc,
        List.filter_flatMap]
      exact List.flatMap_congr fun part child => ih part child some_segment
    | some own =>
      obtain ⟨first, rest, rfl⟩ := List.exists_cons_of_ne_nil some_segment
      rw [List.cons_append, declarationsAt_of_some declared, declarationsAt_of_some declared]
      by_cases same : own = first
      · by_cases last : rest = []
        · simp [same, last, filter_members]
        · have more : rest ++ [name] ≠ [] := by simp
          rw [if_pos same, if_neg last, if_pos same, if_neg more, List.flatMap_assoc,
            List.filter_flatMap]
          exact List.flatMap_congr fun part child => ih part child last
      · simp [same]

end Expression

namespace Scope

open Expression

theorem foldl_members_declarationsAt (rest : List String) {path : List String}
    (some_segment : path ≠ []) (tree : Expression) :
    rest.foldl (fun found name => (found.flatMap members).filter (·.declares name))
      (tree.declarationsAt path) = tree.declarationsAt (path ++ rest) := by
  induction rest generalizing path with
  | nil => simp
  | cons name rest ih =>
    rw [List.foldl_cons, filter_members_declarationsAt some_segment, ih (by simp)]
    simp

theorem resolve_eq_declarationsAt {path : List String} (some_segment : path ≠ [])
    (tree : Expression) : resolve path tree = tree.declarationsAt path := by
  obtain ⟨first, rest, rfl⟩ := List.exists_cons_of_ne_nil some_segment
  rw [resolve, filter_outermostDeclarations, foldl_members_declarationsAt rest (by simp)]
  rfl

theorem slice_intransitive {path : List String} (some_segment : path ≠ [])
    (inspection : Inspection) (tree : Expression) :
    (Scope.intransitive path).slice inspection tree = true ↔
      ∃ e ∈ tree.declarationsAt path, inspection e.shallow = true := by
  simp only [slice, resolve_eq_declarationsAt some_segment, List.any_eq_true]

/-- An intransitive scope resolves to the declarations whose qualified name is its path, in
pre-order and each once; none of them is inside another, and the question is asked of what is
visible in them. -/
theorem resolve_exact (first : String) (rest : List String) (tree : Expression) :
    ∃ found : List Occurrence,
      resolve (first :: rest) tree = found.map Occurrence.node ∧
      (found.Pairwise fun a b => a.position < b.position) ∧
      (∀ occurrence, occurrence ∈ found ↔
        occurrence.OccursIn tree ∧ occurrence.qualifiedName? = some (first :: rest)) ∧
      (∀ outer ∈ found, ∀ inner ∈ found, ¬ inner.LiesInside outer) ∧
      ∀ inspection : Inspection,
        (Scope.intransitive (first :: rest)).slice inspection tree = true ↔
          ∃ occurrence : Occurrence, occurrence.OccursIn tree ∧
            occurrence.qualifiedName? = some (first :: rest) ∧
            inspection occurrence.node.shallow = true := by
  refine ⟨tree.qualified fun names => names == first :: rest,
    resolve_eq_declarationsAt (List.cons_ne_nil first rest) tree,
    (occurrences_sorted tree).filter _, fun _ => mem_qualified_path, ?_, ?_⟩
  · intro outer outerFound inner innerFound below
    obtain ⟨outerOccurs, outerNamed⟩ := mem_qualified_path.mp outerFound
    obtain ⟨innerOccurs, innerNamed⟩ := mem_qualified_path.mp innerFound
    exact outerOccurs.qualifiedName?_ne innerOccurs below outerNamed innerNamed
  · intro inspection
    rw [slice_intransitive (List.cons_ne_nil first rest)]
    constructor
    · rintro ⟨e, member, passed⟩
      obtain ⟨occurrence, ⟨occurs, named⟩, rfl⟩ := mem_declarationsAt.mp member
      exact ⟨occurrence, occurs, named, passed⟩
    · rintro ⟨occurrence, occurs, named, passed⟩
      exact ⟨_, mem_declarationsAt.mpr ⟨occurrence, ⟨occurs, named⟩, rfl⟩, passed⟩

end Scope

end CodeRubric
