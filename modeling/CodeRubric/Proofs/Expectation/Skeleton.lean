import CodeRubric.Expectation.Compile
import CodeRubric.Proofs.Inspection.Covering
import CodeRubric.Proofs.Scope.Hiding

/-! What verdicts depend on. A change of a tree, node by node, that keeps every outline is noticed
by no question in any scope, and neither are the payloads of literals, types, the patterns inside
patterns and the other data that the skeleton of a tree leaves out. -/
namespace CodeRubric

namespace Expression

/-- A change of trees that keeps the outline of each node and passes on to its children. -/
structure Unnoticed (change : Expression → Expression) : Prop where
  outline : ∀ (guards : Bool) (e : Expression), (change e).outline guards = e.outline guards
  children : ∀ e : Expression, (change e).children = e.children.map change

namespace Unnoticed

variable {change : Expression → Expression} (unnoticed : Unnoticed change)
include unnoticed

theorem declaredName? (e : Expression) : (change e).declaredName? = e.declaredName? :=
  congrArg Outline.declared (unnoticed.outline false e)

theorem ownsBody (e : Expression) : (change e).ownsBody = e.ownsBody := by
  have kinds : (change e).kind = e.kind := congrArg Outline.kind (unnoticed.outline false e)
  rw [Bool.eq_iff_iff, ownsBody_iff, ownsBody_iff, kinds]

theorem declares (name : String) (e : Expression) : (change e).declares name = e.declares name := by
  rw [Expression.declares, Expression.declares, unnoticed.declaredName?]

theorem filter_declares (name : String) (found : List Expression) :
    ((found.map change).filter fun e => e.declares name) =
      (found.filter fun e => e.declares name).map change := by
  simp only [List.filter_map, Function.comp_def, unnoticed.declares]

theorem expressions (tree : Expression) :
    (change tree).expressions = tree.expressions.map change := by
  induction tree using inductionOnChildren with
  | node tree ih =>
    rw [expressions_eq, expressions_eq tree, unnoticed.children, List.flatMap_map, List.map_cons,
      List.map_flatMap, List.flatMap_congr ih]

theorem references (e : Expression) : (change e).references = e.references := by
  have referred (e : Expression) : (change e).referredName? = e.referredName? :=
    congrArg Outline.referred (unnoticed.outline false e)
  simp only [Expression.references, unnoticed.expressions, List.filterMap_map, Function.comp_def,
    referred]

theorem seenAlike (guards : Bool) (tree : Expression) : (change tree).SeenAlike guards tree := by
  constructor
  · intro e inside
    rw [unnoticed.expressions] at inside
    obtain ⟨original, member, rfl⟩ := List.mem_map.mp inside
    refine .inr ⟨original, member, unnoticed.outline guards original, ?_⟩
    rw [unnoticed.references]
    exact List.Subset.refl _
  · intro e inside
    refine .inr ⟨change e, ?_, (unnoticed.outline guards e).symm, ?_⟩
    · rw [unnoticed.expressions]
      exact List.mem_map_of_mem inside
    · rw [unnoticed.references]
      exact List.Subset.refl _

theorem hollowNested_seenAlike (guards : Bool) (e : Expression) :
    (change e).hollowNested.SeenAlike guards e.hollowNested := by
  induction e using inductionOnChildren with
  | node e ih =>
    have outlines := unnoticed.outline guards e
    rw [hollowNested_eq, hollowNested_eq e, unnoticed.ownsBody]
    cases owner : e.ownsBody with
    | true =>
      have owner' : (change e).ownsBody = true := by rw [unnoticed.ownsBody, owner]
      simp only [if_true]
      exact ⟨hollow_coveredBy owner' (outlines.trans (outline_hollow owner guards).symm),
        hollow_coveredBy owner (outlines.symm.trans (outline_hollow owner' guards).symm)⟩
    | false =>
      simp only [Bool.false_eq_true, if_false]
      exact Expression.shallow_seenAlike outlines (unnoticed.children e) ih

theorem shallow_seenAlike (guards : Bool) (e : Expression) :
    (change e).shallow.SeenAlike guards e.shallow :=
  Expression.shallow_seenAlike (unnoticed.outline guards e) (unnoticed.children e)
    fun child _ => unnoticed.hollowNested_seenAlike guards child

theorem outermostDeclarations (tree : Expression) :
    (change tree).outermostDeclarations = tree.outermostDeclarations.map change := by
  induction tree using inductionOnChildren with
  | node tree ih =>
    have kept : (change tree).isDeclaration = tree.isDeclaration := by
      rw [isDeclaration, isDeclaration, unnoticed.declaredName?]
    rw [outermostDeclarations_eq, outermostDeclarations_eq tree, kept]
    split
    · rfl
    · rw [Expression.members, Expression.members, unnoticed.children, List.flatMap_map,
        List.map_flatMap, List.flatMap_congr ih]

theorem members (tree : Expression) : (change tree).members = tree.members.map change := by
  rw [Expression.members, Expression.members, unnoticed.children, List.flatMap_map,
    List.map_flatMap]
  exact List.flatMap_congr fun part _ => unnoticed.outermostDeclarations part

theorem resolve (path : List String) (tree : Expression) :
    Scope.resolve path (change tree) = (Scope.resolve path tree).map change := by
  cases path with
  | nil => rfl
  | cons first rest =>
    -- Every step from the declarations found so far to their members commutes with the change.
    have steps (found : List Expression) :
        rest.foldl (fun found name => (found.flatMap Expression.members).filter (·.declares name))
            (found.map change) =
          (rest.foldl (fun found name => (found.flatMap Expression.members).filter
            (·.declares name)) found).map change := by
      induction rest generalizing found with
      | nil => rfl
      | cons name rest ih =>
        have step : ((found.map change).flatMap Expression.members).filter (·.declares name) =
            ((found.flatMap Expression.members).filter (·.declares name)).map change := by
          rw [← unnoticed.filter_declares, List.flatMap_map, List.map_flatMap]
          simp only [unnoticed.members]
        rw [List.foldl_cons, List.foldl_cons, step, ih]
    rw [Scope.resolve, Scope.resolve, unnoticed.outermostDeclarations, unnoticed.filter_declares,
      steps]

section Questions

variable {inspection : Inspection} (blind : ∀ e, inspection (change e) = inspection e)
include blind

theorem about (name : String) (tree : Expression) :
    inspection.about name (change tree) = inspection.about name tree := by
  rw [Inspection.about, Inspection.containsDeclaration, Inspection.containsDeclaration,
    declarationsOf, declarationsOf, unnoticed.expressions, unnoticed.filter_declares, List.any_map]
  exact congrArg _ (funext blind)

theorem inside (name : String) (tree : Expression) :
    Scope.inside name inspection (change tree) = Scope.inside name inspection tree := by
  rw [Scope.inside, Scope.inside, nestedDeclarationsOf, nestedDeclarationsOf,
    unnoticed.expressions, ← List.map_drop, unnoticed.filter_declares, List.any_map]
  exact congrArg _ (funext blind)

end Questions

theorem slice {inspection : Inspection} (blind : ∀ e, inspection (change e) = inspection e)
    (blindShallow : ∀ e, inspection (change e).shallow = inspection e.shallow) (scope : Scope)
    (tree : Expression) : scope.slice inspection (change tree) = scope.slice inspection tree := by
  cases scope with
  | program => exact blind tree
  | transitive path =>
    cases path with
    | nil => exact blind tree
    | cons first rest =>
      have inner : ∀ e, rest.foldr Scope.inside inspection (change e) =
          rest.foldr Scope.inside inspection e := by
        induction rest with
        | nil => exact blind
        | cons name rest ih => exact unnoticed.inside ih name
      exact unnoticed.about inner first tree
  | intransitive path =>
    simp only [Scope.slice, unnoticed.resolve, List.any_map]
    exact congrArg _ (funext blindShallow)

theorem compile (config : CompilerConfig) (line : Expectation) (tree : Expression) :
    line.compile config (change tree) = line.compile config tree := by
  cases read : line.requirement with
  | error fault => simp only [Expectation.compile, Expectation.tryCompile, read, Except.map,
      Inspection.always]
  | ok requirement =>
    have nodewise := requirement.question.query.inspection_nodewise config.likeMode
    have sliced := unnoticed.slice
      (fun e => (unnoticed.seenAlike _ e).inspection_eq nodewise)
      (fun e => (unnoticed.shallow_seenAlike _ e).inspection_eq nodewise) requirement.scope tree
    simp only [Expectation.compile, Expectation.tryCompile, read, Except.map]
    exact Requirement.inspection_eq_iff.mpr sliced

end Unnoticed

/-- The tree with each node replaced, apart from its children. -/
def repaint (paint : Expression → Expression) (tree : Expression) : Expression :=
  tree.fold fun e below => (paint e).withChildren below

section Repaint

variable {paint : Expression → Expression} (childrenKept : ∀ e, (paint e).children = e.children)
include childrenKept

theorem repaint_eq (tree : Expression) :
    tree.repaint paint =
      (paint tree).withChildren ((paint tree).children.map (repaint paint)) := by
  rw [repaint, fold_eq, childrenKept]
  rfl

theorem repaint_unnoticed
    (outlineKept : ∀ guards e, (paint e).outline guards = e.outline guards)
    (plainKept : ∀ e, (paint e).plainName? = e.plainName?) : Unnoticed (repaint paint) where
  outline guards e := by
    have plain (c : Expression) : (c.repaint paint).plainName? = c.plainName? := by
      rw [repaint_eq childrenKept, plainName?_withChildren, plainKept]
    rw [repaint_eq childrenKept, outline_withChildren_map _ plain, outlineKept]
  children e := by
    rw [repaint_eq childrenKept, children_withChildren_map, childrenKept]

end Repaint

end Expression

/-- All that is seen of a parameter is whether it is anonymous. -/
def Pattern.mask : Pattern → Pattern
  | .wildcard => .wildcard
  | _ => .other

def Statement.strip : Statement → Statement
  | .generator _ source => .generator .other source
  | .qualifier condition => .qualifier condition
  | .binding _ value => .binding "" value

namespace Equation

def mask (equation : Equation) : Equation := ⟨equation.params.map Pattern.mask, equation.body⟩

def dropParams (equation : Equation) : Equation := ⟨[], equation.body⟩

end Equation

namespace Expression

/-- A node without the data that no question sees: the payloads of literals, the types of a
signature, the parameters of a consultation and of the arms of a pattern match, the patterns and
names of a comprehension, and all of a parameter but whether it is anonymous. -/
def strip : Expression → Expression
  | .typeSignature name _ => .typeSignature name []
  | .function name equations => .function name (equations.map Equation.mask)
  | .procedure name equations => .procedure name (equations.map Equation.mask)
  | .method name equations => .method name (equations.map Equation.mask)
  | .rule name params body => .rule name (params.map Pattern.mask) body
  | .fact name params => .fact name (params.map Pattern.mask)
  | .lambda params body => .lambda (params.map Pattern.mask) body
  | .patternMatch scrutinee equations =>
    .patternMatch scrutinee (equations.map Equation.dropParams)
  | .exist name _ => .exist name []
  | .comprehension result statements => .comprehension result (statements.map Statement.strip)
  | .number _ => .number 0
  | .bool _ => .bool false
  | .string _ => .string ""
  | .symbol _ => .symbol ""
  | e => e

/-- The tree with every node stripped. -/
def skeleton : Expression → Expression := repaint strip

def blankNumber : Expression → Expression
  | .number _ => .number 0
  | e => e

/-- The tree with one and the same number for every number in it. -/
def blankNumbers : Expression → Expression := repaint blankNumber

theorem children_strip (e : Expression) : e.strip.children = e.children := by
  have masked : (fun q : Equation => q.mask.expressions) = Equation.expressions := rfl
  have dropped : (fun q : Equation => q.dropParams.expressions) = Equation.expressions := rfl
  cases e <;> simp only [strip, children, List.flatMap_map, masked, dropped]
  case comprehension result statements =>
    have kept : Statement.expression ∘ Statement.strip = Statement.expression := by
      funext statement
      cases statement <;> rfl
    rw [List.map_map, kept]

theorem outline_strip (guards : Bool) (e : Expression) :
    e.strip.outline guards = e.outline guards := by
  have anonymous (params : List Pattern) :
      (params.map Pattern.mask).map Pattern.isWildcard = params.map Pattern.isWildcard := by
    have kept : Pattern.isWildcard ∘ Pattern.mask = Pattern.isWildcard := by
      funext pattern
      cases pattern <;> rfl
    rw [List.map_map, kept]
  cases e <;> simp [strip, outline, kind, declaredName?, referredName?, assignedName?,
    selectorName?, parameterLists, equations?, Equation.mask, Equation.dropParams, anonymous,
    Function.comp_def]

theorem skeleton_unnoticed : Unnoticed skeleton :=
  repaint_unnoticed children_strip outline_strip fun e => by cases e <;> rfl

theorem blankNumbers_unnoticed : Unnoticed blankNumbers :=
  repaint_unnoticed (fun e => by cases e <;> rfl) (fun guards e => by cases e <;> rfl)
    fun e => by cases e <;> rfl

end Expression

namespace Expectation

/-- Trees with the same skeleton get the same verdict on every line. In particular the numbers in a
tree, however they were rounded when it was read, have no part in a verdict. -/
theorem compile_eq_of_skeleton_eq (config : CompilerConfig) (line : Expectation)
    (left right : Expression) :
    (left.skeleton = right.skeleton → line.compile config left = line.compile config right) ∧
    (left.blankNumbers = right.blankNumbers →
      line.compile config left = line.compile config right) := by
  constructor
  · intro same
    rw [← Expression.skeleton_unnoticed.compile config line left, same,
      Expression.skeleton_unnoticed.compile config line right]
  · intro same
    rw [← Expression.blankNumbers_unnoticed.compile config line left, same,
      Expression.blankNumbers_unnoticed.compile config line right]

theorem compile_eq_of_skeleton_eq_at_function :
    let line : Expectation := ⟨"f", "HasAnonymousVariable"⟩
    let left := Expression.function "f"
      [⟨[.wildcard, .variable "x"], .unguarded (.tuple [.number 0.5, .exist "p" [.wildcard]])⟩]
    let right := Expression.function "f"
      [⟨[.wildcard, .tuple [.wildcard]], .unguarded (.tuple [.number 2, .exist "p" []])⟩]
    left.skeleton = right.skeleton ∧ line.compile {} left = true ∧
      line.compile {} right = true := by
  intro line left right
  let drawn := Expression.function "f"
    [⟨[.wildcard, .other], .unguarded (.tuple [.number 0, .exist "p" []])⟩]
  have drawnLeft : left.skeleton = drawn := rfl
  have drawnRight : right.skeleton = drawn := rfl
  have same : left.skeleton = right.skeleton := drawnLeft.trans drawnRight.symm
  have found : line.compile {} left = true := by decide
  exact ⟨same, found, ((compile_eq_of_skeleton_eq {} line left right).1 same) ▸ found⟩

end Expectation

end CodeRubric
