import CodeRubric.Expectation.Question
import CodeRubric.Proofs.Inspection.Containment
import Mathlib.Data.List.Basic

/-! What questions can see. Every verb asks whether some node passes a test, and the test sees of a
node no more than its outline and the identifiers referred to in it. A tree in which every outline
is found in another tree therefore gives no finding that the other one does not give. -/
namespace CodeRubric

open Name (LikeMode Target)

/-- What a test can see of a single node. -/
structure Outline where
  kind : Kind
  declared : Option String
  referred : Option String
  assigned : Option String
  /-- The selector of a message, if it is a plain name. -/
  selector : Option String
  /-- For each list of parameters, which of them are anonymous. -/
  parameters : List (List Bool)
  /-- For each equation, whether it has guards. -/
  guarded : List Bool
deriving DecidableEq, Repr

namespace Expression

def plainName? : Expression → Option String
  | .reference name => some name
  | _ => none

def selectorName? : Expression → Option String
  | .send _ selector _ => selector.plainName?
  | _ => none

def assignedName? : Expression → Option String
  | .assignment name _ => some name
  | _ => none

/-- The outline of a node, with or without the guards of its equations. -/
def outline (guards : Bool) (e : Expression) : Outline where
  kind := e.kind
  declared := e.declaredName?
  referred := e.referredName?
  assigned := e.assignedName?
  selector := e.selectorName?
  parameters := e.parameterLists.map fun params => params.map Pattern.isWildcard
  guarded := if guards then (e.equations?.getD []).map (·.body.isGuarded) else []

/-- Nodes that only fill a place or hold others together. -/
def isFiller : Expression → Bool
  | .nil | .sequence _ => true
  | _ => false

end Expression

/-- A test of a node through its outline and the identifiers referred to in it. Where it passes, it
still passes when there are more of them, and it never passes a filler. -/
structure NodeTest (guards : Bool) (test : Expression → Bool) : Prop where
  mono : ∀ {e e' : Expression}, e.outline guards = e'.outline guards →
    e.references ⊆ e'.references → test e = true → test e' = true
  nil : test .nil = false
  sequence : ∀ items, test (.sequence items) = false

namespace NodeTest

variable {guards : Bool} {test test' : Expression → Bool}

theorem of_look (look : Outline → Bool) (seen : ∀ e, test e = look (e.outline guards))
    (nil : test .nil = false) (sequence : ∀ items, test (.sequence items) = false) :
    NodeTest guards test where
  mono same _ passed := by rwa [seen, ← same, ← seen]
  nil := nil
  sequence := sequence

theorem filler (valid : NodeTest guards test) {e : Expression} (filler : e.isFiller = true) :
    test e = false := by
  cases e with
  | nil => exact valid.nil
  | sequence items => exact valid.sequence items
  | _ => simp [Expression.isFiller] at filler

theorem or (valid : NodeTest guards test) (valid' : NodeTest guards test') :
    NodeTest guards fun e => test e || test' e where
  mono same more passed := by
    rcases Bool.or_eq_true_iff.mp passed with passed | passed
    · exact Bool.or_eq_true_iff.mpr (.inl (valid.mono same more passed))
    · exact Bool.or_eq_true_iff.mpr (.inr (valid'.mono same more passed))
  nil := by rw [valid.nil, valid'.nil, Bool.or_false]
  sequence items := by rw [valid.sequence, valid'.sequence, Bool.or_false]

end NodeTest

namespace Inspection

/-- A question that some node passes such a test. -/
def Nodewise (guards : Bool) (inspection : Inspection) : Prop :=
  ∃ test, NodeTest guards test ∧ inspection = contains test

theorem Nodewise.either {guards : Bool} {left right : Inspection} (first : Nodewise guards left)
    (second : Nodewise guards right) : Nodewise guards (Inspection.either left right) := by
  obtain ⟨test, valid, rfl⟩ := first
  obtain ⟨test', valid', rfl⟩ := second
  refine ⟨_, valid.or valid', ?_⟩
  funext tree
  exact (any_either test test' tree.expressions).symm

section Families

variable {guards : Bool} (target : Target)

theorem declaresShaped_nodewise {shape : Expression → Bool} (shapeOf : Kind → Bool)
    (seen : ∀ e, shape e = shapeOf e.kind) : Nodewise guards (declaresShaped shape target) := by
  refine ⟨_, .of_look (fun o => shapeOf o.kind && o.declared.any target.accepts) ?_ ?_ ?_, rfl⟩
  · intro e
    rw [seen]
    rfl
  · exact Bool.and_false _
  · exact fun _ => Bool.and_false _

theorem declaresKind_nodewise (kind : Kind) : Nodewise guards (declaresKind kind target) :=
  declaresShaped_nodewise target (· == kind) fun _ => rfl

theorem declaresRecursive_nodewise : Nodewise guards (declaresRecursive target) := by
  refine ⟨_, ⟨?_, rfl, fun _ => rfl⟩, rfl⟩
  intro e e' same more passed
  have declared : e.declaredName? = e'.declaredName? := congrArg Outline.declared same
  rw [← declared]
  cases found : e.declaredName? with
  | none => simp [found] at passed
  | some name =>
    simp only [found, Bool.and_eq_true, List.contains_iff_mem] at passed ⊢
    exact ⟨passed.1, more passed.2⟩

theorem declaresWithArity_nodewise (arity : Nat) :
    Nodewise guards (declaresWithArity arity target) := by
  refine ⟨_, .of_look (fun o => (if o.kind = .lambda then target.isUnconstrained
    else o.declared.any target.accepts) && o.parameters.any (·.length == arity)) ?_ rfl
      fun _ => rfl, rfl⟩
  intro e
  cases e <;> simp [Expression.outline, Expression.kind, hasArity, declaresAccepted,
    Function.comp_def]

theorem declaresAnonymous_nodewise : Nodewise guards (declaresAnonymous target) := by
  refine ⟨_, .of_look (fun o => o.declared.any target.accepts && o.parameters.any (·.any id)) ?_ rfl
    fun _ => rfl, rfl⟩
  intro e
  simp [Expression.outline, declaresAccepted, Function.comp_def]

theorem uses_nodewise : Nodewise guards (uses target) :=
  ⟨_, .of_look (fun o => o.referred.any target.accepts) (fun _ => rfl) rfl fun _ => rfl, rfl⟩

theorem assigns_nodewise : Nodewise guards (assigns target) := by
  refine ⟨_, .of_look (fun o => o.assigned.any target.accepts) ?_ rfl fun _ => rfl, rfl⟩
  intro e
  cases e <;> rfl

theorem sends_nodewise : Nodewise guards (sends target) := by
  refine ⟨_, .of_look (fun o => o.kind == .send &&
    o.selector.elim target.isUnconstrained target.accepts) ?_ rfl fun _ => rfl, rfl⟩
  intro e
  cases e with
  | send receiver selector arguments => cases selector <;> rfl
  | _ => rfl

theorem usesKind_nodewise {kind : Kind} (notNil : kind ≠ .nil) (notSequence : kind ≠ .sequence) :
    Nodewise guards (usesKind kind) := by
  refine ⟨_, .of_look (fun o => o.kind == kind) (fun _ => rfl) ?_ ?_, rfl⟩
  · exact beq_eq_false_iff_ne.mpr notNil.symm
  · exact fun _ => beq_eq_false_iff_ne.mpr notSequence.symm

theorem usesGuards_nodewise : Nodewise true usesGuards := by
  refine ⟨fun e => (e.equations?.getD []).any (·.body.isGuarded),
    .of_look (fun o => o.guarded.any id) ?_ rfl fun _ => rfl, containsBody_eq_contains _⟩
  intro e
  have guarded : (e.outline true).guarded = (e.equations?.getD []).map (·.body.isGuarded) := rfl
  rw [guarded, List.any_map]
  rfl

end Families

end Inspection

def Verb.seesGuards : Verb → Bool
  | .guards | .conditional => true
  | _ => false

open Inspection in
theorem Verb.inspection_nodewise (verb : Verb) (target : Target) :
    (verb.inspection target).Nodewise verb.seesGuards := by
  cases verb with
  | anonymousVariable => exact declaresAnonymous_nodewise target
  | arity0 | arity1 | arity2 | arity3 => exact declaresWithArity_nodewise target _
  | assignment => exact assigns_nodewise target
  | binding => exact declaresShaped_nodewise target (fun _ => true) fun _ => rfl
  | computation =>
    exact declaresShaped_nodewise target
      (fun kind => kind == .function || (kind == .procedure || kind == .method))
      Expression.isComputation_eq_kind
  | composition | cut | fail | unifyOperator => exact uses_nodewise _
  | usage => exact uses_nodewise target
  | conditional => exact (usesKind_nodewise (by decide) (by decide)).either usesGuards_nodewise
  | guards => exact usesGuards_nodewise
  | directRecursion => exact declaresRecursive_nodewise target
  | messageSend => exact sends_nodewise target
  | predicate => exact (declaresKind_nodewise target _).either (declaresKind_nodewise target _)
  | comprehension | findall | forAll | ifThenElse | lambda | negation | patternMatching | repeatLoop
      | returned | switch | whileLoop => exact usesKind_nodewise (by decide) (by decide)
  -- The verbs that are left ask for declarations of one kind.
  | _ => exact declaresKind_nodewise target _

def Query.seesGuards : Query → Bool
  | .verb asked _ => asked.seesGuards
  | .arity _ => false

theorem Query.inspection_nodewise (query : Query) (mode : LikeMode) :
    (query.inspection mode).Nodewise query.seesGuards := by
  cases query with
  | verb asked object => exact asked.inspection_nodewise (object.target mode)
  | arity count => exact Inspection.declaresWithArity_nodewise .anyone count

end CodeRubric
