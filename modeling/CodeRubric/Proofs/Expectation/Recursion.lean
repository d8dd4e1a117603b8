import CodeRubric.Proofs.Expectation.Synonyms

/-! Recursion as usage in a scope. A question about declared or used names is answered by the
listings of the tree: by the declarations of the accepted names and by the references. A declaration
is recursive if its name is used by one of the declarations of that name, and so recursion can be
asked for by its own verb or by a scope. -/
namespace CodeRubric

open Name (Target)

theorem Expression.mem_declarationsOf {tree e : Expression} {name : String} :
    e ∈ tree.declarationsOf name ↔ e ∈ tree.expressions ∧ e.declaredName? = some name := by
  rw [declarationsOf, List.mem_filter, declares_iff]

namespace Inspection

open Expression

variable {target : Target} {tree : Expression}

theorem uses_iff :
    uses target tree = true ↔ ∃ name ∈ tree.references, target.accepts name = true := by
  simp only [uses, contains, references, List.any_eq_true, Option.any_eq_true, List.mem_filterMap]
  constructor
  · rintro ⟨e, listed, name, referred, accepted⟩
    exact ⟨name, ⟨e, listed, referred⟩, accepted⟩
  · rintro ⟨name, ⟨e, listed, referred⟩, accepted⟩
    exact ⟨e, listed, name, referred, accepted⟩

theorem uses_named_iff {name : String} :
    uses (.named name) tree = true ↔ name ∈ tree.references := by
  simp [uses_iff, Target.accepts]

theorem declares_iff_declarationsOf :
    declares target tree = true ↔
      ∃ name, target.accepts name = true ∧ tree.declarationsOf name ≠ [] := by
  simp only [declares, declaresShaped, contains, declaresAccepted, Bool.true_and, List.any_eq_true,
    Option.any_eq_true]
  constructor
  · rintro ⟨e, listed, name, declared, accepted⟩
    exact ⟨name, accepted, List.ne_nil_of_mem (mem_declarationsOf.mpr ⟨listed, declared⟩)⟩
  · rintro ⟨name, accepted, some_declaration⟩
    obtain ⟨e, member⟩ := List.exists_mem_of_ne_nil _ some_declaration
    obtain ⟨listed, declared⟩ := mem_declarationsOf.mp member
    exact ⟨e, listed, name, declared, accepted⟩

/-- A name is used in its own scope if one of its declarations refers to it. -/
theorem about_uses_named_iff {name : String} :
    about (uses (.named name)) name tree = true ↔
      ∃ e ∈ tree.expressions, e.declaredName? = some name ∧ name ∈ e.references := by
  simp only [about, containsDeclaration, List.any_eq_true, mem_declarationsOf, uses_named_iff,
    and_assoc]

theorem declaresRecursive_iff :
    declaresRecursive target tree = true ↔ ∃ name, target.accepts name = true ∧
      about (uses (.named name)) name tree = true := by
  simp only [declaresRecursive, contains, List.any_eq_true, about_uses_named_iff]
  constructor
  · rintro ⟨e, listed, passed⟩
    split at passed
    · next name declared =>
      obtain ⟨accepted, referred⟩ := Bool.and_eq_true_iff.mp passed
      exact ⟨name, accepted, e, listed, declared, List.contains_iff_mem.mp referred⟩
    · cases passed
  · rintro ⟨name, accepted, e, listed, declared, referred⟩
    refine ⟨e, listed, ?_⟩
    rw [declared]
    exact Bool.and_eq_true_iff.mpr ⟨accepted, List.contains_iff_mem.mpr referred⟩

theorem declaresRecursive_named (name : String) :
    declaresRecursive (.named name) = about (uses (.named name)) name := by
  funext tree
  apply Bool.eq_iff_iff.mpr
  rw [declaresRecursive_iff]
  simp [Target.accepts]

end Inspection

theorem Scope.parse_name {name : String} (nonempty : name ≠ "") (undotted : '.' ∉ name.toList)
    (free : ':' ∉ name.toList) : parse name = .ok (.transitive [name]) := by
  have spelled : Spellable [name] := by
    refine ⟨List.cons_ne_nil _ _, ?_, ?_⟩
    · simpa using nonempty
    · simpa using ⟨undotted, free⟩
  have whole : dotted [name] = name := by simp [dotted, Text.join]
  rw [← spelled.parse_dotted, whole]

namespace Expectation

open Inspection

/-- Direct recursion is usage of a name in its own scope, for every target and in the text of rubric
lines. The listings of a tree answer for usage and for declarations. -/
theorem recursion_is_scoped_usage :
    (∀ (target : Target) (tree : Expression), declaresRecursive target tree = true ↔
      ∃ name, target.accepts name = true ∧ about (uses (.named name)) name tree = true) ∧
    (∀ (config : CompilerConfig) (name : String), name ≠ "" → '.' ∉ name.toList →
      ':' ∉ name.toList →
        Agree config ⟨"", "HasDirectRecursion:=" ++ name⟩ ⟨name, "HasUsage:=" ++ name⟩) ∧
    (∀ (target : Target) (tree : Expression), uses target tree = true ↔
      ∃ name ∈ tree.references, target.accepts name = true) ∧
    ∀ (target : Target) (tree : Expression), declares target tree = true ↔
      ∃ name, target.accepts name = true ∧ tree.declarationsOf name ≠ [] := by
  refine ⟨fun _ _ => declaresRecursive_iff, ?_, fun _ _ => uses_iff,
    fun _ _ => declares_iff_declarationsOf⟩
  intro config name nonempty undotted free
  have recursion := means_slice config Scope.parse_empty
    (Question.parse_exactly .directRecursion nonempty free)
  have usage := means_slice config (Scope.parse_name nonempty undotted free)
    (Question.parse_exactly .usage nonempty free)
  have same : Query.inspection config.likeMode (.verb .directRecursion (.named name)) =
      (Scope.transitive [name]).slice
        (Query.inspection config.likeMode (.verb .usage (.named name))) :=
    declaresRecursive_named name
  exact recursion.1.agree (same ▸ usage.1)

theorem recursion_is_scoped_usage_of_star :
    let tree := Expression.object "A" (.function "*" [⟨[], .unguarded (.reference "*")⟩])
    '.' ∉ "*".toList ∧ ':' ∉ "*".toList ∧
    Agree {} ⟨"", "HasDirectRecursion:=*"⟩ ⟨"*", "HasUsage:=*"⟩ ∧
    compile {} ⟨"", "HasDirectRecursion:=*"⟩ tree = true ∧
      compile {} ⟨"*", "HasUsage:=*"⟩ tree = true := by
  intro tree
  obtain ⟨-, agree, -⟩ := recursion_is_scoped_usage
  have agreed := agree {} "*" (by decide) (by decide) (by decide)
  have found : compile {} ⟨"", "HasDirectRecursion:=*"⟩ tree = true := rfl
  exact ⟨by decide, by decide, agreed, found, (agreed.same tree).symm.trans found⟩

end Expectation

end CodeRubric
