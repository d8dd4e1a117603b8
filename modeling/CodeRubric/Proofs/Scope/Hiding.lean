import CodeRubric.Expectation.Compile
import CodeRubric.Proofs.Inspection.Covering
import CodeRubric.Proofs.Scope.Intransitive

/-! What an intransitive scope hides. The bodies of the declarations inside the ones it resolves to
can be exchanged without any question noticing, except for one trace: whether an equation has
guards. -/
namespace CodeRubric

def EquationBody.erase : EquationBody → EquationBody := fun _ => .unguarded .nil

/-- A body that only tells whether there were guards. -/
def EquationBody.eraseInside : EquationBody → EquationBody
  | .unguarded _ => .unguarded .nil
  | .guarded _ => .guarded []

namespace Expression

/-- A declaration with its body replaced, each equation's by `blank` of it. Its kind, its name, the
number of its equations and its parameters stay. -/
def maskBody (blank : EquationBody → EquationBody) : Expression → Expression
  | .entryPoint name _ => .entryPoint name .nil
  | .function name equations => .function name (equations.map fun q => ⟨q.params, blank q.body⟩)
  | .procedure name equations => .procedure name (equations.map fun q => ⟨q.params, blank q.body⟩)
  | .method name equations => .method name (equations.map fun q => ⟨q.params, blank q.body⟩)
  | .object name _ => .object name .nil
  | .rule name params _ => .rule name params []
  | e => e

/-- The tree with the body of every body-owning declaration replaced that has at least `depth`
declarations around it. Two trees that differ in such bodies only have the same mask. -/
def maskBodies (blank : EquationBody → EquationBody) (depth : Nat) (tree : Expression) :
    Expression :=
  tree.fold (fun e below depth =>
    if e.ownsBody && depth == 0 then e.maskBody blank
    else e.withChildren (below.map (· (depth - if e.isDeclaration then 1 else 0)))) depth

variable {blank : EquationBody → EquationBody}

theorem maskBodies_eq (depth : Nat) (tree : Expression) :
    tree.maskBodies blank depth =
      if tree.ownsBody && depth == 0 then tree.maskBody blank
      else tree.withChildren (tree.children.map
        (maskBodies blank (depth - if tree.isDeclaration then 1 else 0))) := by
  rw [maskBodies, fold_eq]
  simp only [List.map_map]
  rfl

theorem maskBodies_succ (depth : Nat) (tree : Expression) :
    tree.maskBodies blank (depth + 1) = tree.withChildren (tree.children.map
      (maskBodies blank (depth + 1 - if tree.isDeclaration then 1 else 0))) := by
  simp [maskBodies_eq (depth + 1) tree]

theorem declaredName?_maskBodies_succ (depth : Nat) (tree : Expression) :
    (tree.maskBodies blank (depth + 1)).declaredName? = tree.declaredName? := by
  rw [maskBodies_succ, declaredName?_withChildren]

theorem children_maskBodies_of_none (depth : Nat) {tree : Expression}
    (plain : tree.declaredName? = none) :
    (tree.maskBodies blank (depth + 1)).children =
      tree.children.map (maskBodies blank (depth + 1)) := by
  simp [maskBodies_succ, children_withChildren_map, isDeclaration, plain]

theorem children_maskBodies_of_some (depth : Nat) {tree : Expression} {name : String}
    (declared : tree.declaredName? = some name) :
    (tree.maskBodies blank (depth + 1)).children = tree.children.map (maskBodies blank depth) := by
  simp [maskBodies_succ, children_withChildren_map, isDeclaration, declared]

/-- Masking bodies as deep as a path is long moves no declaration of that qualified name. -/
theorem declarationsAt_maskBodies {path : List String} (some_segment : path ≠ [])
    (tree : Expression) :
    (tree.maskBodies blank path.length).declarationsAt path =
      (tree.declarationsAt path).map (maskBodies blank 1) := by
  -- Each declaration on the way down uses up one segment and one level of depth.
  induction tree using inductionOnChildren generalizing path with
  | node tree ih =>
    obtain ⟨first, rest, rfl⟩ := List.exists_cons_of_ne_nil some_segment
    have kept : (tree.maskBodies blank (first :: rest).length).declaredName? = tree.declaredName? :=
      declaredName?_maskBodies_succ rest.length tree
    cases declared : tree.declaredName? with
    | none =>
      rw [declarationsAt_of_none declared, declarationsAt_of_none (kept.trans declared),
        List.length_cons, children_maskBodies_of_none rest.length declared, List.flatMap_map,
        List.map_flatMap]
      exact List.flatMap_congr fun part child => ih part child some_segment
    | some name =>
      rw [declarationsAt_of_some declared, declarationsAt_of_some (kept.trans declared)]
      by_cases same : name = first
      · by_cases last : rest = []
        · simp [same, last]
        · rw [if_pos same, if_neg last, if_pos same, if_neg last, List.length_cons,
            children_maskBodies_of_some rest.length declared, List.flatMap_map, List.map_flatMap]
          exact List.flatMap_congr fun part child => ih part child last
      · simp [same]

theorem plainName?_maskBodies (depth : Nat) (e : Expression) :
    (e.maskBodies blank depth).plainName? = e.plainName? := by
  rw [maskBodies_eq]
  split
  · cases e <;> rfl
  · exact plainName?_withChildren _ _

theorem ownsBody_maskBody (e : Expression) : (e.maskBody blank).ownsBody = e.ownsBody := by
  cases e <;> rfl

section Traces

variable {guards : Bool}
  (keeps : guards = true → ∀ body : EquationBody, (blank body).isGuarded = body.isGuarded)
include keeps

theorem outline_maskBody (e : Expression) :
    (e.maskBody blank).outline guards = e.outline guards := by
  cases guards with
  | false =>
    cases e <;> simp [maskBody, outline, kind, declaredName?, referredName?, assignedName?,
      selectorName?, parameterLists, Function.comp_def]
  | true =>
    cases e <;> simp [maskBody, outline, kind, declaredName?, referredName?, assignedName?,
      selectorName?, parameterLists, equations?, Function.comp_def, keeps]

theorem hollowNested_maskBodies_seenAlike (e : Expression) :
    (e.maskBodies blank 0).hollowNested.SeenAlike guards e.hollowNested := by
  induction e using inductionOnChildren with
  | node e ih =>
    rw [maskBodies_eq, hollowNested_eq, hollowNested_eq]
    cases owner : e.ownsBody with
    | true =>
      have outlines := outline_maskBody keeps e
      have owner' : (e.maskBody blank).ownsBody = true := by rw [ownsBody_maskBody, owner]
      simp only [owner', beq_self_eq_true, Bool.and_self, if_true]
      exact ⟨hollow_coveredBy owner' (outlines.trans (outline_hollow owner guards).symm),
        hollow_coveredBy owner (outlines.symm.trans (outline_hollow owner' guards).symm)⟩
    | false =>
      simp only [owner, Bool.false_and, Bool.false_eq_true, if_false, Nat.zero_sub,
        ownsBody_withChildren]
      exact shallow_seenAlike (outline_withChildren_map e (plainName?_maskBodies 0))
        (children_withChildren_map e _) ih

theorem shallow_maskBodies_seenAlike {e : Expression} {name : String}
    (declared : e.declaredName? = some name) :
    (e.maskBodies blank 1).shallow.SeenAlike guards e.shallow := by
  refine shallow_seenAlike ?_ (children_maskBodies_of_some 0 declared)
    fun child _ => hollowNested_maskBodies_seenAlike keeps child
  rw [maskBodies_succ]
  exact outline_withChildren_map e (plainName?_maskBodies _)

end Traces

theorem declaredName?_of_mem_declarationsAt {path : List String} {tree e : Expression}
    (member : e ∈ tree.declarationsAt path) : ∃ name, e.declaredName? = some name := by
  obtain ⟨occurrence, ⟨_, named⟩, rfl⟩ := mem_declarationsAt.mp member
  obtain ⟨name, declared, _⟩ := Option.map_eq_some_iff.mp named
  exact ⟨name, declared⟩

/-- Objects of the given names, each inside the one before, around a tree. -/
def nestIn (outer : List String) (inner : Expression) : Expression := outer.foldr .object inner

theorem declarationsAt_nestIn {inner : Expression} {name : String}
    (declared : inner.declaredName? = some name) (outer : List String) :
    (nestIn outer inner).declarationsAt (outer ++ [name]) = [inner] := by
  induction outer with
  | nil => simp [nestIn, declarationsAt_of_some declared]
  | cons first rest ih =>
    have named : (nestIn (first :: rest) inner).declaredName? = some first := rfl
    have more : rest ++ [name] ≠ [] := by simp
    rw [List.cons_append, declarationsAt_of_some named, if_pos rfl, if_neg more]
    simpa [nestIn, children] using ih

theorem maskBodies_nestIn (outer : List String) (depth : Nat) (inner : Expression) :
    (nestIn outer inner).maskBodies blank (outer.length + depth) =
      nestIn outer (inner.maskBodies blank depth) := by
  induction outer with
  | nil => simp [nestIn]
  | cons first rest ih =>
    rw [List.length_cons, Nat.add_right_comm, maskBodies_succ]
    exact congrArg (Expression.object first) ih

end Expression

namespace Scope

open Expression

/-- Where the traces that are left in a mask are all that a question can notice, it gets the same
answer in the mask. -/
theorem slice_maskBodies {blank : EquationBody → EquationBody} {guards : Bool}
    {inspection : Inspection} (nodewise : inspection.Nodewise guards)
    (keeps : guards = true → ∀ body : EquationBody, (blank body).isGuarded = body.isGuarded)
    {path : List String} (some_segment : path ≠ []) (tree : Expression) :
    (Scope.intransitive path).slice inspection (tree.maskBodies blank path.length) =
      (Scope.intransitive path).slice inspection tree := by
  have same : ∀ e ∈ tree.declarationsAt path,
      inspection (e.maskBodies blank 1).shallow = inspection e.shallow := by
    intro e member
    obtain ⟨name, declared⟩ := declaredName?_of_mem_declarationsAt member
    exact (shallow_maskBodies_seenAlike keeps declared).inspection_eq nodewise
  rw [Bool.eq_iff_iff, slice_intransitive some_segment, slice_intransitive some_segment,
    declarationsAt_maskBodies some_segment]
  constructor
  · rintro ⟨_, masked, passed⟩
    obtain ⟨e, member, rfl⟩ := List.mem_map.mp masked
    exact ⟨e, member, same e member ▸ passed⟩
  · rintro ⟨e, member, passed⟩
    exact ⟨_, List.mem_map_of_mem member, (same e member).symm ▸ passed⟩

theorem slice_nestIn {inner : Expression} {name : String}
    (declared : inner.declaredName? = some name) (outer : List String) (inspection : Inspection) :
    (Scope.intransitive (outer ++ [name])).slice inspection (nestIn outer inner) =
      inspection inner.shallow := by
  have path : outer ++ [name] ≠ [] := by simp
  rw [Bool.eq_iff_iff, slice_intransitive path, declarationsAt_nestIn declared]
  simp

end Scope

/-- An object with one member whose only equation has guards or not. -/
def Expression.withMember (name : String) (body : EquationBody) : Expression :=
  .object name (.function "member" [⟨[], body⟩])

theorem Query.inspection_withMember {query : Query} (sees : query.seesGuards = true)
    (mode : Name.LikeMode) (name : String) :
    query.inspection mode (Expression.withMember name (.guarded [])).shallow = true ∧
      query.inspection mode (Expression.withMember name (.unguarded .nil)).shallow = false := by
  cases query with
  | arity count => cases sees
  | verb asked object =>
    cases asked with
    | guards | conditional => exact ⟨rfl, rfl⟩
    | _ => cases sees

/-- In every intransitive scope a question about guards tells two trees apart that differ in a
hidden body only. -/
theorem Scope.exists_trace_of_guards {query : Query} (sees : query.seesGuards = true)
    (mode : Name.LikeMode) {path : List String} (some_segment : path ≠ []) :
    ∃ left right : Expression,
      left.maskBodies .erase path.length = right.maskBodies .erase path.length ∧
      (Scope.intransitive path).slice (query.inspection mode) left = true ∧
      (Scope.intransitive path).slice (query.inspection mode) right = false := by
  obtain rfl | ⟨outer, name, rfl⟩ := path.eq_nil_or_concat
  · exact absurd rfl some_segment
  rw [List.concat_eq_append] at some_segment ⊢
  obtain ⟨found, missed⟩ := query.inspection_withMember sees mode name
  refine ⟨.nestIn outer (.withMember name (.guarded [])),
    .nestIn outer (.withMember name (.unguarded .nil)), ?_, ?_, ?_⟩
  · rw [List.length_append, List.length_singleton, Expression.maskBodies_nestIn,
      Expression.maskBodies_nestIn]
    rfl
  · rwa [Scope.slice_nestIn rfl]
  · rwa [Scope.slice_nestIn rfl]

theorem Requirement.inspection_eq_iff {config : CompilerConfig} {scope : Scope}
    {question : Question} {left right : Expression} :
    Requirement.inspection config ⟨scope, question⟩ left =
        Requirement.inspection config ⟨scope, question⟩ right ↔
      scope.slice (question.query.inspection config.likeMode) left =
        scope.slice (question.query.inspection config.likeMode) right := by
  cases negated : question.negated <;> simp [Requirement.inspection, negated, Inspection.negate]

/-- The verdict in an intransitive scope of `k` segments. It does not depend on the bodies of
declarations with `k` or more declarations around them exactly if the question is not about guards,
and a question about guards notices no more of them than which equations have guards. -/
theorem Requirement.intransitive_hides_bodies_iff (config : CompilerConfig) (first : String)
    (rest : List String) (question : Question) :
    ((∀ left right : Expression,
        left.maskBodies .erase (first :: rest).length =
          right.maskBodies .erase (first :: rest).length →
        Requirement.inspection config ⟨.intransitive (first :: rest), question⟩ left =
          Requirement.inspection config ⟨.intransitive (first :: rest), question⟩ right) ↔
      question.query.seesGuards = false) ∧
    ∀ left right : Expression,
      left.maskBodies .eraseInside (first :: rest).length =
        right.maskBodies .eraseInside (first :: rest).length →
      Requirement.inspection config ⟨.intransitive (first :: rest), question⟩ left =
        Requirement.inspection config ⟨.intransitive (first :: rest), question⟩ right := by
  have nodewise := question.query.inspection_nodewise config.likeMode
  have path := List.cons_ne_nil first rest
  simp only [Requirement.inspection_eq_iff]
  refine ⟨⟨?_, ?_⟩, ?_⟩
  · intro blind
    by_contra sees
    obtain ⟨left, right, same, found, missed⟩ :=
      Scope.exists_trace_of_guards (by simpa using sees) config.likeMode path
    have answers := blind left right same
    rw [found, missed] at answers
    contradiction
  · intro unseen left right same
    have keeps : question.query.seesGuards = true →
        ∀ body : EquationBody, body.erase.isGuarded = body.isGuarded := by simp [unseen]
    rw [← Scope.slice_maskBodies nodewise keeps path left, same,
      Scope.slice_maskBodies nodewise keeps path right]
  · intro left right same
    have keeps : question.query.seesGuards = true →
        ∀ body : EquationBody, body.eraseInside.isGuarded = body.isGuarded := by
      rintro - (_ | _) <;> rfl
    rw [← Scope.slice_maskBodies nodewise keeps path left, same,
      Scope.slice_maskBodies nodewise keeps path right]

/-- The trace itself: the two trees differ in the body of a member of `A` only. -/
theorem Expectation.guards_of_hidden_body_found :
    let compiled := Expectation.compile {} ⟨"Intransitive:A", "HasGuards"⟩
    let left := Expression.withMember "A" (.guarded [⟨.reference "c", .reference "r"⟩])
    let right := Expression.withMember "A" (.unguarded (.reference "r"))
    left.maskBodies .erase 1 = right.maskBodies .erase 1 ∧ compiled left = true ∧
      compiled right = false :=
  ⟨rfl, rfl, rfl⟩

end CodeRubric
