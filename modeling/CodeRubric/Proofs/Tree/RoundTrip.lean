import CodeRubric.Analysis.Basic
import CodeRubric.Proofs.Json.Text
import CodeRubric.Tree.Encoding
import CodeRubric.Tree.Layers
import CodeRubric.Tree.Views
import Mathlib.Data.List.Basic

/-! Trees written as JSON and read back. Every tree with finite numbers only is read back as it was,
and a number that is not finite makes the reading fail. -/
namespace CodeRubric

open Json (Value Member Part Tagged)

namespace Json

@[simp] theorem Tagged.ofPart?_toValue (names : List String) (tag : String) (contents : Value)
    (held : Bool) :
    Tagged.ofPart? names ⟨Tagged.toValue tag contents, held⟩ =
      some ⟨tag, some ⟨contents, held⟩⟩ := rfl

@[simp] theorem Part.string?_string (text : String) (held : Bool) :
    Part.string? ⟨.string text, held⟩ = some text := rfl

@[simp] theorem Part.field_object {α : Type} (key : String) (read : Part → Option α)
    (members : List Member) (held : Bool) :
    Part.field key read ⟨.object members, held⟩ =
      match Value.valuesAt [key] members with
      | [value] => read ⟨value, held⟩
      | _ => none := rfl

theorem Part.listOf_cons {α : Type} (read : Part → Option α) (item : Value) (rest : List Value)
    (held : Bool) :
    Part.listOf read ⟨.array (item :: rest), held⟩ =
      (read ⟨item, held⟩).bind fun first =>
        (Part.listOf read ⟨.array rest, held⟩).map fun others => first :: others := by
  simp only [Part.listOf, Part.inside, Value.listOf, List.mapM_cons]
  cases read ⟨item, held⟩ <;> cases rest.mapM (fun value => read ⟨value, held⟩) <;> rfl

/-- A list is read back as far as each of its items is. -/
theorem Part.listOf_map {α : Type} {read : Part → Option α} {write : α → Value} {good : α → Bool}
    {items : List α} {held : Bool}
    (each : ∀ item ∈ items, read ⟨write item, held⟩ = if good item then some item else none) :
    Part.listOf read ⟨.array (items.map write), held⟩ =
      if items.all good then some items else none := by
  induction items with
  | nil => rfl
  | cons item rest ih =>
    obtain ⟨first, others⟩ := List.forall_mem_cons.mp each
    rw [List.map_cons, Part.listOf_cons, first, ih others]
    cases kept : good item <;> cases keptAll : rest.all good <;> simp [kept, keptAll]

end Json

theorem stringsOf_stringsToJson (texts : List String) (held : Bool) :
    Part.listOf Part.string? ⟨stringsToJson texts, held⟩ = some texts := by
  have each : ∀ text ∈ texts, Part.string? ⟨.string text, held⟩ =
      if true then some text else none := fun text _ => rfl
  have read := Json.Part.listOf_map each
  simpa [stringsToJson] using read

mutual

theorem Pattern.ofPart?_toJson (held : Bool) (pattern : Pattern) :
    Pattern.ofPart? ⟨pattern.toJson, held⟩ = some pattern := by
  rw [Pattern.ofPart?_eq]
  cases pattern with
  | binary left operator right =>
    have leftRead := Pattern.ofPart?_toJson held left
    have rightRead := Pattern.ofPart?_toJson held right
    simp [Pattern.layer, Pattern.toJson, Value.valuesAt, leftRead, rightRead]
  | application name args | functor name args =>
    have argsRead := Pattern.listOf_allToJson held args
    simp [Pattern.layer, Pattern.toJson, Value.valuesAt, argsRead]
  | tuple items | list items =>
    have itemsRead := Pattern.listOf_allToJson held items
    simp [Pattern.layer, Pattern.toJson, itemsRead]
  | named name inner =>
    have innerRead := Pattern.ofPart?_toJson held inner
    simp [Pattern.layer, Pattern.toJson, Value.valuesAt, innerRead]
  | _ => rfl
termination_by structural pattern

theorem Pattern.listOf_allToJson (held : Bool) (patterns : List Pattern) :
    Part.listOf Pattern.ofPart? ⟨.array (Pattern.allToJson patterns), held⟩ = some patterns := by
  cases patterns with
  | nil => rfl
  | cons pattern rest =>
    have first := Pattern.ofPart?_toJson held pattern
    have others := Pattern.listOf_allToJson held rest
    rw [Pattern.allToJson, Json.Part.listOf_cons, first, others]
    rfl
termination_by structural patterns

end

@[simp] theorem paramsOfPart?_paramsToJson (held : Bool) (params : List Pattern) :
    paramsOfPart? ⟨paramsToJson params, held⟩ = some params :=
  Pattern.listOf_allToJson held params

/-- Writing the items of a list one after another is mapping the writer over it. -/
theorem writeAll_eq_map {α : Type} {write : α → Value} {writeAll : List α → List Value}
    (none : writeAll [] = [])
    (next : ∀ item rest, writeAll (item :: rest) = write item :: writeAll rest) (items : List α) :
    writeAll items = items.map write := by
  induction items with
  | nil => exact none
  | cons item rest ih => rw [next, ih, List.map_cons]

theorem Expression.allToJson_eq (items : List Expression) :
    Expression.allToJson items = items.map Expression.toJson :=
  writeAll_eq_map rfl (fun _ _ => rfl) items

theorem Equation.allToJson_eq (equations : List Equation) :
    Equation.allToJson equations = equations.map Equation.toJson :=
  writeAll_eq_map rfl (fun _ _ => rfl) equations

theorem Branch.allToJson_eq (branches : List Branch) :
    Branch.allToJson branches = branches.map Branch.toJson :=
  writeAll_eq_map rfl (fun _ _ => rfl) branches

theorem Statement.allToJson_eq (statements : List Statement) :
    Statement.allToJson statements = statements.map Statement.toJson :=
  writeAll_eq_map rfl (fun _ _ => rfl) statements

namespace Expression

def isFiniteNode : Expression → Bool
  | .number x => x.isFinite
  | _ => true

/-- Whether every number in the tree is finite. -/
def numbersFinite (tree : Expression) : Bool := tree.expressions.all isFiniteNode

theorem numbersFinite_eq (tree : Expression) :
    tree.numbersFinite = (tree.isFiniteNode && tree.children.all numbersFinite) := by
  rw [numbersFinite, expressions_eq, List.all_cons, List.all_flatMap]
  rfl

/-- The tree is read back from its JSON form as far as its numbers are finite. -/
def ReadsBack (held : Bool) (e : Expression) : Prop :=
  Expression.ofPart? ⟨e.toJson, held⟩ = if e.numbersFinite then some e else none

end Expression

open Expression (numbersFinite ReadsBack)

section Holders

theorem ite_some_bind {α β : Type} (good : Prop) [Decidable good] (a : α) (next : α → Option β) :
    (if good then some a else none).bind next = if good then next a else none := by
  split <;> rfl

variable {held : Bool}

/-- Things that are read back as far as the expressions in them are read back in lists, too. -/
theorem listOf_holders {α : Type} {read : Part → Option α} {write : α → Value}
    {parts : α → List Expression} {items : List α}
    (one : ∀ {item}, (∀ c ∈ parts item, c.ReadsBack held) → read ⟨write item, held⟩ =
      if (parts item).all numbersFinite then some item else none)
    (each : ∀ c ∈ items.flatMap parts, c.ReadsBack held) :
    Part.listOf read ⟨.array (items.map write), held⟩ =
      if (items.flatMap parts).all numbersFinite then some items else none := by
  rw [List.all_flatMap]
  apply Json.Part.listOf_map
  intro item member
  apply one
  intro c inside
  exact each c (List.mem_flatMap.mpr ⟨item, member, inside⟩)

theorem Branch.read_toJson {branch : Branch} (each : ∀ c ∈ branch.expressions, c.ReadsBack held) :
    Branch.read Expression.ofPart? ⟨branch.toJson, held⟩ =
      if branch.expressions.all numbersFinite then some branch else none := by
  obtain ⟨condition, result⟩ := branch
  have conditionRead : condition.ReadsBack held := each condition (by simp [Branch.expressions])
  have resultRead : result.ReadsBack held := each result (by simp [Branch.expressions])
  simp only [ReadsBack] at conditionRead resultRead
  simp [Branch.read, Branch.toJson, Part.inside, conditionRead, resultRead, ite_some_bind,
    Branch.expressions, ite_and]

theorem Branch.listOf_allToJson {branches : List Branch}
    (each : ∀ c ∈ branches.flatMap Branch.expressions, c.ReadsBack held) :
    Part.listOf (Branch.read Expression.ofPart?) ⟨.array (Branch.allToJson branches), held⟩ =
      if (branches.flatMap Branch.expressions).all numbersFinite then some branches
      else none := by
  rw [Branch.allToJson_eq]
  exact listOf_holders Branch.read_toJson each

theorem EquationBody.read_toJson {body : EquationBody}
    (each : ∀ c ∈ body.expressions, c.ReadsBack held) :
    EquationBody.read Expression.ofPart? ⟨body.toJson, held⟩ =
      if body.expressions.all numbersFinite then some body else none := by
  cases body with
  | unguarded value =>
    have valueRead : value.ReadsBack held := each value (by simp [EquationBody.expressions])
    simp only [ReadsBack] at valueRead
    simp [EquationBody.read, EquationBody.toJson, valueRead, ite_some_bind,
      EquationBody.expressions]
  | guarded guards =>
    have guardsRead := Branch.listOf_allToJson each
    simp [EquationBody.read, EquationBody.toJson, guardsRead, ite_some_bind,
      EquationBody.expressions]

theorem Equation.read_toJson {equation : Equation}
    (each : ∀ c ∈ equation.expressions, c.ReadsBack held) :
    Equation.read Expression.ofPart? ⟨equation.toJson, held⟩ =
      if equation.expressions.all numbersFinite then some equation else none := by
  obtain ⟨params, body⟩ := equation
  have bodyRead := EquationBody.read_toJson each
  have slots : Part.slots? [["params"], ["body"]] ⟨Equation.toJson ⟨params, body⟩, held⟩ =
      some [some ⟨paramsToJson params, held⟩, some ⟨body.toJson, held⟩] := rfl
  simp [Equation.read, slots, bodyRead, ite_some_bind, Equation.expressions]

theorem Equation.listOf_allToJson {equations : List Equation}
    (each : ∀ c ∈ equations.flatMap Equation.expressions, c.ReadsBack held) :
    Part.listOf (Equation.read Expression.ofPart?) ⟨.array (Equation.allToJson equations), held⟩ =
      if (equations.flatMap Equation.expressions).all numbersFinite then some equations
      else none := by
  rw [Equation.allToJson_eq]
  exact listOf_holders Equation.read_toJson each

theorem Statement.read_toJson {statement : Statement}
    (read : statement.expression.ReadsBack held) :
    Statement.read Expression.ofPart? ⟨statement.toJson, held⟩ =
      if statement.expression.numbersFinite then some statement else none := by
  cases statement with
  | generator pattern inner | qualifier inner | binding name inner =>
    have innerRead : Expression.ofPart? ⟨inner.toJson, held⟩ =
        if inner.numbersFinite then some inner else none := read
    rw [Statement.expression]
    simp [Statement.read, Statement.toJson, Value.valuesAt, Pattern.ofPart?_toJson, innerRead,
      ite_some_bind]

theorem Statement.listOf_allToJson {statements : List Statement}
    (each : ∀ c ∈ statements.map Statement.expression, c.ReadsBack held) :
    Part.listOf (Statement.read Expression.ofPart?)
        ⟨.array (Statement.allToJson statements), held⟩ =
      if (statements.map Statement.expression).all numbersFinite then some statements
      else none := by
  rw [Statement.allToJson_eq, List.all_map]
  apply Json.Part.listOf_map
  intro statement member
  apply Statement.read_toJson
  exact each _ (List.mem_map_of_mem member)

theorem Expression.listOf_allToJson (items : List Expression)
    (each : ∀ c ∈ items, c.ReadsBack held) :
    Part.listOf Expression.ofPart? ⟨.array (Expression.allToJson items), held⟩ =
      if items.all numbersFinite then some items else none := by
  rw [Expression.allToJson_eq]
  exact Json.Part.listOf_map each

namespace Expression

/-- A node that holds something is read from what it holds. -/
theorem ofPart?_toValue {kind : Kind} (contents : Value)
    (filled : kind ∉ [Kind.nil, .equal, .notEqual, .other]) :
    ofPart? ⟨kind.toValue contents, held⟩ = ofContents? ofPart? ⟨contents, held⟩ kind := by
  rw [ofPart?_eq, layer, Kind.toValue, Tagged.ofPart?_toValue]
  simp only [Option.bind_eq_bind, Option.bind_some, Kind.ofName?_name]
  cases kind with
  | nil | equal | notEqual | other => simp at filled
  | _ => rfl

theorem readsBack_of_children {e : Expression} (each : ∀ c ∈ e.children, c.ReadsBack held) :
    e.ReadsBack held := by
  unfold ReadsBack at each ⊢
  rw [numbersFinite_eq]
  match e, each with
  | .function name equations, each | .procedure name equations, each
  | .method name equations, each =>
    have equationsRead := Equation.listOf_allToJson each
    rw [toJson, ofPart?_toValue _ (by decide)]
    simp [ofContents?, Value.valuesAt, equationsRead, ite_some_bind, isFiniteNode, children]
  | .entryPoint name inner, each | .variable name inner, each | .attribute name inner, each
  | .object name inner, each | .assignment name inner, each | .returned inner, each
  | .negation inner, each | .objectLiteral inner, each | .lambda name inner, each =>
    have innerRead := each inner (by simp [children])
    rw [toJson, ofPart?_toValue _ (by decide)]
    simp [ofContents?, Value.valuesAt, innerRead, ite_some_bind, isFiniteNode, children]
  | .whileLoop first second, each | .repeatLoop first second, each | .forAll first second, each =>
    have firstRead := each first (by simp [children])
    have secondRead := each second (by simp [children])
    rw [toJson, ofPart?_toValue _ (by decide)]
    simp [ofContents?, Value.valuesAt, firstRead, secondRead, ite_some_bind, isFiniteNode, children,
      ite_and]
  | .ifThenElse first second third, each | .findall first second third, each =>
    have firstRead := each first (by simp [children])
    have secondRead := each second (by simp [children])
    have thirdRead := each third (by simp [children])
    rw [toJson, ofPart?_toValue _ (by decide)]
    simp [ofContents?, Value.valuesAt, firstRead, secondRead, thirdRead, ite_some_bind,
      isFiniteNode, children, ite_and]
  | .rule _ _ items, each | .sequence items, each | .tuple items, each | .list items, each =>
    have itemsRead := Expression.listOf_allToJson items each
    rw [toJson, ofPart?_toValue _ (by decide)]
    simp [ofContents?, Value.valuesAt, itemsRead, ite_some_bind, isFiniteNode, children]
  | .application callee arguments, each =>
    obtain ⟨calleeRead, others⟩ := List.forall_mem_cons.mp each
    have argumentsRead := Expression.listOf_allToJson arguments others
    rw [toJson, ofPart?_toValue _ (by decide)]
    simp [ofContents?, Value.valuesAt, calleeRead, argumentsRead, ite_some_bind, isFiniteNode,
      children, ite_and]
  | .send receiver selector arguments, each =>
    obtain ⟨receiverRead, others⟩ := List.forall_mem_cons.mp each
    obtain ⟨selectorRead, others⟩ := List.forall_mem_cons.mp others
    have argumentsRead := Expression.listOf_allToJson arguments others
    rw [toJson, ofPart?_toValue _ (by decide)]
    simp [ofContents?, Value.valuesAt, receiverRead, selectorRead, argumentsRead, ite_some_bind,
      isFiniteNode, children, ite_and]
  | .patternMatch scrutinee equations, each =>
    obtain ⟨scrutineeRead, others⟩ := List.forall_mem_cons.mp each
    have equationsRead := Equation.listOf_allToJson others
    rw [toJson, ofPart?_toValue _ (by decide)]
    simp [ofContents?, Value.valuesAt, scrutineeRead, equationsRead, ite_some_bind, isFiniteNode,
      children, ite_and]
  | .switch scrutinee cases, each =>
    obtain ⟨scrutineeRead, others⟩ := List.forall_mem_cons.mp each
    have casesRead := Branch.listOf_allToJson others
    rw [toJson, ofPart?_toValue _ (by decide)]
    simp [ofContents?, Value.valuesAt, scrutineeRead, casesRead, ite_some_bind, isFiniteNode,
      children, ite_and]
  | .comprehension result statements, each =>
    obtain ⟨resultRead, others⟩ := List.forall_mem_cons.mp each
    have statementsRead := Statement.listOf_allToJson others
    rw [toJson, ofPart?_toValue _ (by decide)]
    simp [ofContents?, Value.valuesAt, resultRead, statementsRead, ite_some_bind, isFiniteNode,
      children, ite_and]
  | .number x, _ =>
    -- What is written for a number that is not finite is `null`, and `null` is no number.
    rw [toJson, ofPart?_toValue _ (by decide)]
    cases finite : x.isFinite <;>
      simp [ofContents?, Part.number?, Value.number?, isFiniteNode, children, finite]
  | .typeSignature _ _, _ | .typeAlias _, _ | .record _, _ | .fact _ _, _ | .exist _ _, _
  | .reference _, _ | .bool _, _ | .string _, _ | .symbol _, _ =>
    rw [toJson, ofPart?_toValue _ (by decide)]
    simp [ofContents?, Value.valuesAt, Part.bool?, Value.bool?, isFiniteNode, children,
      stringsOf_stringsToJson]
  | .nil, _ | .equal, _ | .notEqual, _ | .other, _ =>
    rw [ofPart?_eq]
    rfl

theorem readsBack (held : Bool) (tree : Expression) : tree.ReadsBack held :=
  inductionOnChildren (fun _ each => readsBack_of_children each) tree

end Expression

end Holders

section Texts

@[simp] theorem Json.Tagged.readsBack_toValue (tag : String) (contents : Value) :
    (Tagged.toValue tag contents).ReadsBack ↔ contents.ReadsBack := by
  simp [Tagged.toValue, Value.ReadsBack, Member.AllReadBack, Member.ReadsBack]

@[simp] theorem Json.Tagged.readsBack_bareValue (tag : String) :
    (Tagged.bareValue tag).ReadsBack := by
  simp [Tagged.bareValue, Value.ReadsBack, Member.AllReadBack, Member.ReadsBack]

mutual

theorem Pattern.readsBack_toJson (pattern : Pattern) : pattern.toJson.ReadsBack := by
  cases pattern with
  | binary left operator right =>
    have leftReads := Pattern.readsBack_toJson left
    have rightReads := Pattern.readsBack_toJson right
    simp [Pattern.toJson, Value.ReadsBack, Member.AllReadBack, Member.ReadsBack, leftReads,
      rightReads]
  | application name args | functor name args =>
    have argsRead := Pattern.allReadBack_allToJson args
    simp [Pattern.toJson, Value.ReadsBack, Member.AllReadBack, Member.ReadsBack, argsRead]
  | tuple items | list items =>
    have itemsRead := Pattern.allReadBack_allToJson items
    simp [Pattern.toJson, Value.ReadsBack, itemsRead]
  | named name inner =>
    have innerReads := Pattern.readsBack_toJson inner
    simp [Pattern.toJson, Value.ReadsBack, Member.AllReadBack, Member.ReadsBack, innerReads]
  | _ => simp [Pattern.toJson, Value.ReadsBack]
termination_by structural pattern

theorem Pattern.allReadBack_allToJson (patterns : List Pattern) :
    Value.AllReadBack (Pattern.allToJson patterns) := by
  cases patterns with
  | nil => trivial
  | cons pattern rest =>
    exact ⟨Pattern.readsBack_toJson pattern, Pattern.allReadBack_allToJson rest⟩
termination_by structural patterns

end

@[simp] theorem readsBack_paramsToJson (params : List Pattern) : (paramsToJson params).ReadsBack :=
  Pattern.allReadBack_allToJson params

@[simp] theorem readsBack_stringsToJson (texts : List String) :
    (stringsToJson texts).ReadsBack := by
  simp [stringsToJson, Value.ReadsBack, Value.allReadBack_map]

@[simp] theorem Expression.readsBack_allToJson (items : List Expression) :
    Value.AllReadBack (Expression.allToJson items) ↔ ∀ c ∈ items, c.toJson.ReadsBack := by
  rw [Expression.allToJson_eq, Value.allReadBack_map]

@[simp] theorem Branch.readsBack_toJson (branch : Branch) :
    branch.toJson.ReadsBack ↔ ∀ c ∈ branch.expressions, c.toJson.ReadsBack := by
  cases branch
  simp [Branch.toJson, Value.ReadsBack, Value.AllReadBack, Branch.expressions]

@[simp] theorem Branch.readsBack_allToJson (branches : List Branch) :
    Value.AllReadBack (Branch.allToJson branches) ↔
      ∀ c ∈ branches.flatMap Branch.expressions, c.toJson.ReadsBack := by
  rw [Branch.allToJson_eq, Value.allReadBack_map, List.forall_mem_flatMap]
  simp

@[simp] theorem EquationBody.readsBack_toJson (body : EquationBody) :
    body.toJson.ReadsBack ↔ ∀ c ∈ body.expressions, c.toJson.ReadsBack := by
  cases body with
  | unguarded value => simp [EquationBody.toJson, EquationBody.expressions]
  | guarded guards =>
    rw [EquationBody.toJson, Json.Tagged.readsBack_toValue, Value.ReadsBack,
      Branch.readsBack_allToJson, EquationBody.expressions]

@[simp] theorem Equation.readsBack_toJson (equation : Equation) :
    equation.toJson.ReadsBack ↔ ∀ c ∈ equation.expressions, c.toJson.ReadsBack := by
  cases equation
  simp [Equation.toJson, Value.ReadsBack, Member.AllReadBack, Member.ReadsBack,
    Equation.expressions]

@[simp] theorem Equation.readsBack_allToJson (equations : List Equation) :
    Value.AllReadBack (Equation.allToJson equations) ↔
      ∀ c ∈ equations.flatMap Equation.expressions, c.toJson.ReadsBack := by
  rw [Equation.allToJson_eq, Value.allReadBack_map, List.forall_mem_flatMap]
  simp

@[simp] theorem Statement.readsBack_toJson (statement : Statement) :
    statement.toJson.ReadsBack ↔ statement.expression.toJson.ReadsBack := by
  cases statement <;>
    simp [Statement.toJson, Value.ReadsBack, Member.AllReadBack, Member.ReadsBack,
      Pattern.readsBack_toJson, Statement.expression]

@[simp] theorem Statement.readsBack_allToJson (statements : List Statement) :
    Value.AllReadBack (Statement.allToJson statements) ↔
      ∀ c ∈ statements.map Statement.expression, c.toJson.ReadsBack := by
  rw [Statement.allToJson_eq, Value.allReadBack_map, List.forall_mem_map]
  simp

namespace Expression

/-- The finite numbers of the tree are those that their texts denote. -/
def NumbersReadBack (tree : Expression) : Prop :=
  ∀ x, .number x ∈ tree.expressions → x.isFinite = true → Json.NumberReadsBack x

/-- The text of a node can be read as far as the texts of its children can. -/
theorem readsBack_toJson_of_children {e : Expression}
    (own : ∀ x, e = .number x → x.isFinite = true → Json.NumberReadsBack x)
    (each : ∀ c ∈ e.children, c.toJson.ReadsBack) : e.toJson.ReadsBack := by
  cases e with
  | number x =>
    rw [toJson, Kind.toValue, Json.Tagged.readsBack_toValue]
    split
    · next finite => exact ⟨finite, own x rfl finite⟩
    · trivial
  | _ =>
    revert each
    simp [toJson, Kind.toValue, Value.ReadsBack, Member.AllReadBack, Member.ReadsBack, children]

theorem readsBack_toJson {tree : Expression} (numbers : tree.NumbersReadBack) :
    tree.toJson.ReadsBack := by
  induction tree using inductionOnChildren with
  | node tree ih =>
    unfold NumbersReadBack at numbers
    rw [expressions_eq] at numbers
    apply readsBack_toJson_of_children
    · rintro x rfl
      exact numbers x List.mem_cons_self
    · intro c child
      apply ih c child
      intro x inside
      exact numbers x (List.mem_cons_of_mem _ (List.mem_flatMap.mpr ⟨c, child, inside⟩))

/-- The text of a tree. -/
def toText (tree : Expression) : String := String.ofList tree.toJson.render

theorem ofText?_toText {tree : Expression} (numbers : tree.NumbersReadBack) :
    ofText? tree.toText = if tree.numbersFinite then some tree else none := by
  have parsed : Value.ofChars? tree.toJson.render = some tree.toJson :=
    Value.ofChars?_render (readsBack_toJson numbers)
  rw [ofText?, toText, String.toList_ofList, parsed, Option.bind_some]
  exact readsBack false tree

theorem numbersFinite_iff {tree : Expression} :
    tree.numbersFinite = true ↔ ∀ x, .number x ∈ tree.expressions → x.isFinite = true := by
  rw [numbersFinite, List.all_eq_true]
  constructor
  · intro finite x inside
    exact finite _ inside
  · intro finite e inside
    cases e with
    | number x => exact finite x inside
    | _ => rfl

end Expression

end Texts

/-- A tree with finite numbers only is what its own text says; the text of any other says
nothing. -/
theorem jsonParser_toText (tree : Expression)
    (numbers : tree.NumbersReadBack) :
    ((∀ x, .number x ∈ tree.expressions → x.isFinite = true) →
        jsonParser tree.toText = .ok tree ∧
          ∀ config expectations, analyze jsonParser config expectations tree.toText =
            .verdicts (evaluateAll config expectations tree)) ∧
      ((∃ x, .number x ∈ tree.expressions ∧ x.isFinite = false) →
        ∃ fault, jsonParser tree.toText = .error fault) := by
  have read := Expression.ofText?_toText numbers
  constructor
  · intro finite
    have parsed : jsonParser tree.toText = .ok tree := by
      rw [jsonParser, read, if_pos (Expression.numbersFinite_iff.mpr finite)]
    refine ⟨parsed, ?_⟩
    intro config expectations
    rw [analyze, parsed]
  · rintro ⟨x, inside, infinite⟩
    have unread : ¬ tree.numbersFinite = true := by
      intro finite
      simp [Expression.numbersFinite_iff.mp finite x inside] at infinite
    exact ⟨_, by rw [jsonParser, read, if_neg unread]⟩

theorem jsonParser_toText_at_function :
    Json.NumberReadsBack 1.5 ∧ (1.5 : Float).isFinite = true ∧ (0 / 0 : Float).isFinite = false ∧
      jsonParser (Expression.toText
          (.function "f" [.guarded [.wildcard] [⟨.number 1.5, .string "\"\n€"⟩]])) =
        .ok (.function "f" [.guarded [.wildcard] [⟨.number 1.5, .string "\"\n€"⟩]]) ∧
      ∃ fault, jsonParser (Expression.toText
        (.function "f" [.unguarded [] (.list [.number 1.5, .number (0 / 0)])])) =
          .error fault := by
  have readsBack : Json.NumberReadsBack 1.5 := by
    unfold Json.NumberReadsBack
    decide +kernel
  have finite : (1.5 : Float).isFinite = true := by decide +kernel
  have infinite : (0 / 0 : Float).isFinite = false := by decide +kernel
  refine ⟨readsBack, finite, infinite, ?_, ?_⟩
  · have only : ∀ x, .number x ∈ Expression.expressions
        (.function "f" [.guarded [.wildcard] [⟨.number 1.5, .string "\"\n€"⟩]]) → x = 1.5 := by
      intro x inside
      simpa [Expression.expressions_eq, Expression.children, Equation.expressions,
        Equation.guarded, EquationBody.expressions, Branch.expressions] using inside
    refine ((jsonParser_toText _ ?_).1 ?_).1
    · intro x inside _
      rw [only x inside]
      exact readsBack
    · intro x inside
      rw [only x inside]
      exact finite
  · have only : ∀ x, .number x ∈ Expression.expressions
        (.function "f" [.unguarded [] (.list [.number 1.5, .number (0 / 0)])]) ↔
          x = 1.5 ∨ x = 0 / 0 := by
      intro x
      simp [Expression.expressions_eq, Expression.children, Equation.expressions,
        Equation.unguarded, EquationBody.expressions]
    refine (jsonParser_toText _ ?_).2 ⟨0 / 0, (only _).mpr (.inr rfl), infinite⟩
    intro x inside isFinite
    obtain rfl | rfl := (only x).mp inside
    · exact readsBack
    · simp [infinite] at isFinite

end CodeRubric
