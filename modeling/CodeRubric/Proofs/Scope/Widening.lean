import CodeRubric.Proofs.Expectation.Spelling
import CodeRubric.Proofs.Inspection.Covering
import CodeRubric.Proofs.Scope.Intransitive
import CodeRubric.Proofs.Scope.Transitive

/-! Wider scopes find no less: from an intransitive scope to the dotted one of the same path, from
a path to any part of it, and from there to the whole program. A negated question goes the other
way. -/
namespace CodeRubric

namespace Scope

open Expression

variable {guards : Bool} {inspection : Inspection} {tree : Expression}

/-- What is found in a declaration is found in every declaration around it. -/
theorem FoundBelow.widen (nodewise : inspection.Nodewise guards) {outer part : List String}
    {name last : String} (found : FoundBelow outer name inspection tree)
    (within : (part ++ [last]).Sublist (outer ++ [name])) :
    FoundBelow part last inspection tree := by
  obtain ⟨occurrence, occurs, passed, declared, ordered⟩ := found
  obtain ⟨front, back, split, frontWithin, backWithin⟩ := List.sublist_append_iff.mp within
  rcases List.sublist_singleton.mp backWithin with rfl | rfl
  · -- The last name of the part is that of a declaration around the one that was found.
    rw [List.append_nil] at split
    have ordered : (part ++ [last]).Sublist occurrence.enclosing :=
      (split ▸ frontWithin).trans ordered
    obtain ⟨before, after, names, partWithin, lastWithin⟩ := List.append_sublist_iff.mp ordered
    obtain ⟨start, stop, rfl⟩ := List.append_of_mem (List.singleton_sublist.mp lastWithin)
    rw [← List.append_assoc] at names
    obtain ⟨wider, found, around, named, child, member, inner, inside, _, same⟩ :=
      occurs.split names
    have covered : occurrence.node.CoveredBy guards wider.node :=
      (same ▸ CoveredBy.of_occursIn inside).of_child member
    refine ⟨wider, found, nodewise.of_coveredBy covered passed, named, ?_⟩
    rw [around]
    exact partWithin.trans (List.sublist_append_left _ _)
  · obtain ⟨rfl, same⟩ := List.append_inj' split rfl
    obtain rfl := List.singleton_inj.mp same
    exact ⟨occurrence, occurs, passed, declared, frontWithin.trans ordered⟩

/-- Every path has a last name. -/
theorem exists_last (first : String) (rest : List String) :
    ∃ outer name, first :: rest = outer ++ [name] :=
  (List.eq_nil_or_concat' _).resolve_left (List.cons_ne_nil first rest)

theorem slice_transitive_of_sublist (nodewise : inspection.Nodewise guards)
    {path part : List String} (some_segment : part ≠ []) (within : part.Sublist path)
    (passed : (Scope.transitive path).slice inspection tree = true) :
    (Scope.transitive part).slice inspection tree = true := by
  cases path with
  | nil => exact absurd (List.sublist_nil.mp within) some_segment
  | cons first rest =>
    obtain ⟨next, more, rfl⟩ := List.exists_cons_of_ne_nil some_segment
    obtain ⟨outer, name, whole⟩ := exists_last first rest
    obtain ⟨front, last, piece⟩ := exists_last next more
    have found := (about_inside_iff whole).mp passed
    rw [whole, piece] at within
    exact (about_inside_iff piece).mpr (found.widen nodewise within)

theorem slice_program_of_transitive (nodewise : inspection.Nodewise guards) {path : List String}
    (passed : (Scope.transitive path).slice inspection tree = true) :
    Scope.program.slice inspection tree = true := by
  cases path with
  | nil => exact passed
  | cons first rest =>
    obtain ⟨outer, name, whole⟩ := exists_last first rest
    obtain ⟨occurrence, occurs, found, _⟩ := (about_inside_iff whole).mp passed
    exact nodewise.of_coveredBy (.of_occursIn occurs) found

theorem slice_transitive_of_intransitive (nodewise : inspection.Nodewise guards)
    {path : List String} (some_segment : path ≠ [])
    (passed : (Scope.intransitive path).slice inspection tree = true) :
    (Scope.transitive path).slice inspection tree = true := by
  obtain ⟨e, member, shown⟩ := (slice_intransitive some_segment inspection tree).mp passed
  obtain ⟨occurrence, ⟨occurs, named⟩, rfl⟩ := mem_declarationsAt.mp member
  obtain ⟨name, declared, whole⟩ := Option.map_eq_some_iff.mp named
  obtain ⟨first, rest, rfl⟩ := List.exists_cons_of_ne_nil some_segment
  refine (about_inside_iff whole.symm).mpr ⟨occurrence, occurs, ?_, declared, .refl _⟩
  exact nodewise.of_coveredBy (shallow_coveredBy guards occurrence.node) shown

end Scope

namespace Expectation

/-- A wider scope keeps what a question finds, and with `Not:` a narrower one keeps what the wider
one misses. -/
theorem met_in_wider_scope {spec : String} {query : Query} {path : List String}
    (asked : Question.parse spec = .ok ⟨false, query⟩) (spelled : Scope.Spellable path)
    (config : CompilerConfig) (tree : Expression) :
    ((Met config tree ("Intransitive:" ++ Scope.dotted path) spec →
        Met config tree (Scope.dotted path) spec) ∧
      ∀ part ≠ [], part.Sublist path →
        (Met config tree (Scope.dotted path) spec → Met config tree (Scope.dotted part) spec) ∧
        (Met config tree (Scope.dotted part) spec → Met config tree "" spec)) ∧
    (Met config tree (Scope.dotted path) ("Not:" ++ spec) →
        Met config tree ("Intransitive:" ++ Scope.dotted path) ("Not:" ++ spec)) ∧
      ∀ part ≠ [], part.Sublist path →
        (Met config tree (Scope.dotted part) ("Not:" ++ spec) →
          Met config tree (Scope.dotted path) ("Not:" ++ spec)) ∧
        (Met config tree "" ("Not:" ++ spec) →
          Met config tree (Scope.dotted part) ("Not:" ++ spec)) := by
  have nodewise := query.inspection_nodewise config.likeMode
  have whole := spelled.parse_dotted
  have shown := spelled.parse_intransitive
  have bare : Met config tree ("Intransitive:" ++ Scope.dotted path) spec →
      Met config tree (Scope.dotted path) spec := by
    rw [met_iff asked shown, met_iff asked whole]
    exact Scope.slice_transitive_of_intransitive nodewise spelled.some_segment
  have parts : ∀ part ≠ [], part.Sublist path →
      (Met config tree (Scope.dotted path) spec → Met config tree (Scope.dotted part) spec) ∧
      (Met config tree (Scope.dotted part) spec → Met config tree "" spec) := by
    intro part some_segment within
    have piece := (spelled.sublist some_segment within).parse_dotted
    rw [met_iff asked whole, met_iff asked piece, met_iff asked Scope.parse_empty]
    exact ⟨Scope.slice_transitive_of_sublist nodewise some_segment within,
      Scope.slice_program_of_transitive nodewise⟩
  refine ⟨⟨bare, parts⟩, met_not_of_met asked shown whole bare, ?_⟩
  intro part some_segment within
  have piece := (spelled.sublist some_segment within).parse_dotted
  obtain ⟨shorter, everywhere⟩ := parts part some_segment within
  exact ⟨met_not_of_met asked whole piece shorter,
    met_not_of_met asked piece Scope.parse_empty everywhere⟩

theorem met_in_wider_scope_at_method :
    let tree := Expression.object "A" (.method "B" [⟨[], .unguarded (.sequence
      [.reference "x", .function "f" [⟨[], .unguarded (.reference "y")⟩]])⟩])
    (Met {} tree "Intransitive:A.B" "HasUsage:x" ∧ Met {} tree "A.B" "HasUsage:x" ∧
      Met {} tree "A" "HasUsage:x" ∧ Met {} tree "" "HasUsage:x") ∧
    Met {} tree "" "Not:HasUsage:z" ∧ Met {} tree "B" "Not:HasUsage:z" ∧
      Met {} tree "A.B" "Not:HasUsage:z" ∧ Met {} tree "Intransitive:A.B" "Not:HasUsage:z" := by
  intro tree
  have spelled : Scope.Spellable ["A", "B"] := ⟨by decide, by decide, by decide⟩
  have askedX : Question.parse "HasUsage:x" = .ok ⟨false, .verb .usage (.named "x")⟩ := by decide
  have askedZ : Question.parse "HasUsage:z" = .ok ⟨false, .verb .usage (.named "z")⟩ := by decide
  have shown : Met {} tree "Intransitive:A.B" "HasUsage:x" := rfl
  have missed : Met {} tree "" "Not:HasUsage:z" := rfl
  obtain ⟨⟨bare, parts⟩, -⟩ := met_in_wider_scope askedX spelled {} tree
  obtain ⟨-, barred, unfound⟩ := met_in_wider_scope askedZ spelled {} tree
  obtain ⟨shorter, everywhere⟩ := parts ["A"] (by decide) (by decide)
  obtain ⟨longer, somewhere⟩ := unfound ["B"] (by decide) (by decide)
  have found := bare shown
  have unseen := somewhere missed
  exact ⟨⟨shown, found, shorter found, everywhere (shorter found)⟩,
    missed, unseen, longer unseen, barred (longer unseen)⟩

end Expectation

end CodeRubric
