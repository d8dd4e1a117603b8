import CodeRubric.Json.Layers
import CodeRubric.Tree.Decoding

/-! The readers of patterns and expressions look only inside the part they read, so each is one
layer over itself. -/
namespace CodeRubric

open Json (Value Part Tagged)

theorem Pattern.layer_local : Part.Local Pattern.layer := by
  intro f g part agree
  unfold Pattern.layer
  cases read : Tagged.ofPart? Pattern.tags part with
  | none => rfl
  | some node =>
    cases held : node.contents with
    | none => simp only [Option.bind_eq_bind, Option.bind_some, held, Option.bind_none]
    | some contents =>
      have shallower := Tagged.depth_contents_lt read held
      have one (key : String) : contents.field key f = contents.field key g :=
        Part.field_congr key fun c below => agree c (by omega)
      have many (key : String) :
          contents.field key (Part.listOf f) = contents.field key (Part.listOf g) :=
        Part.field_congr key fun c below => Part.listOf_congr fun d deeper => agree d (by omega)
      have all : contents.listOf f = contents.listOf g :=
        Part.listOf_congr fun c below => agree c (by omega)
      simp only [Option.bind_eq_bind, Option.bind_some, held, one, many, all]

theorem Pattern.ofPart?_eq (part : Part) :
    Pattern.ofPart? part = Pattern.layer Pattern.ofPart? part :=
  Part.readDeep_eq Pattern.layer_local part

section Congruence

variable {f g : Part → Option Expression} {part : Part}

theorem Branch.read_congr (agree : ∀ c : Part, c.depth < part.depth → f c = g c) :
    Branch.read f part = Branch.read g part := by
  obtain ⟨value, held⟩ := part
  unfold Branch.read
  simp only
  split
  · next condition result =>
    have same (c : Value) (inside : c ∈ [condition, result]) : f ⟨c, held⟩ = g ⟨c, held⟩ :=
      agree ⟨c, held⟩ (Value.depth_lt_array inside)
    simp only [Part.inside, same condition (by simp), same result (by simp)]
  · rfl

theorem EquationBody.read_congr (agree : ∀ c : Part, c.depth < part.depth → f c = g c) :
    EquationBody.read f part = EquationBody.read g part := by
  unfold EquationBody.read
  cases read : Tagged.ofPart? EquationBody.tags part with
  | none => rfl
  | some node =>
    cases held : node.contents with
    | none => simp only [Option.bind_eq_bind, Option.bind_some, held, Option.bind_none]
    | some contents =>
      have shallower := Tagged.depth_contents_lt read held
      have branches : contents.listOf (Branch.read f) = contents.listOf (Branch.read g) :=
        Part.listOf_congr fun c below => Branch.read_congr fun d deeper => agree d (by omega)
      simp only [Option.bind_eq_bind, Option.bind_some, held, agree contents shallower, branches]

theorem Equation.read_congr (agree : ∀ c : Part, c.depth < part.depth → f c = g c) :
    Equation.read f part = Equation.read g part := by
  unfold Equation.read
  cases read : part.slots? [["params"], ["body"]] with
  | none => rfl
  | some slots =>
    simp only [Option.bind_eq_bind, Option.bind_some]
    split
    · next params body =>
      have shallower : body.depth < part.depth := Part.depth_lt_slots read (by simp)
      have same : EquationBody.read f body = EquationBody.read g body :=
        EquationBody.read_congr fun c deeper => agree c (by omega)
      rw [same]
    · rfl

theorem Statement.read_congr (agree : ∀ c : Part, c.depth < part.depth → f c = g c) :
    Statement.read f part = Statement.read g part := by
  unfold Statement.read
  cases read : Tagged.ofPart? Statement.tags part with
  | none => rfl
  | some node =>
    cases held : node.contents with
    | none => simp only [Option.bind_eq_bind, Option.bind_some, held, Option.bind_none]
    | some contents =>
      have shallower := Tagged.depth_contents_lt read held
      have one (key : String) : contents.field key f = contents.field key g :=
        Part.field_congr key fun c below => agree c (by omega)
      simp only [Option.bind_eq_bind, Option.bind_some, held, agree contents shallower, one]

theorem Expression.ofContents?_congr (kind : Kind)
    (agree : ∀ c : Part, c.depth ≤ part.depth → f c = g c) :
    Expression.ofContents? f part kind = Expression.ofContents? g part kind := by
  have self : f part = g part := agree part (by omega)
  have all : part.listOf f = part.listOf g :=
    Part.listOf_congr fun c below => agree c (by omega)
  have one (key : String) : part.field key f = part.field key g :=
    Part.field_congr key fun c below => agree c (by omega)
  have many (key : String) :
      part.field key (Part.listOf f) = part.field key (Part.listOf g) :=
    Part.field_congr key fun c below => Part.listOf_congr fun d deeper => agree d (by omega)
  have equations (key : String) :
      part.field key (Part.listOf (Equation.read f)) =
        part.field key (Part.listOf (Equation.read g)) :=
    Part.field_congr key fun c below => Part.listOf_congr fun d deeper =>
      Equation.read_congr fun inner deepest => agree inner (by omega)
  have branches (key : String) :
      part.field key (Part.listOf (Branch.read f)) =
        part.field key (Part.listOf (Branch.read g)) :=
    Part.field_congr key fun c below => Part.listOf_congr fun d deeper =>
      Branch.read_congr fun inner deepest => agree inner (by omega)
  have statements (key : String) :
      part.field key (Part.listOf (Statement.read f)) =
        part.field key (Part.listOf (Statement.read g)) :=
    Part.field_congr key fun c below => Part.listOf_congr fun d deeper =>
      Statement.read_congr fun inner deepest => agree inner (by omega)
  cases kind <;>
    simp only [Expression.ofContents?, self, all, one, many, equations, branches, statements]

end Congruence

theorem Expression.layer_local : Part.Local Expression.layer := by
  intro f g part agree
  unfold Expression.layer
  cases read : Tagged.ofPart? (Kind.all.map Kind.name) part with
  | none => rfl
  | some node =>
    cases held : node.contents with
    | none => simp only [Option.bind_eq_bind, Option.bind_some, held, Option.bind_none]
    | some contents =>
      have shallower := Tagged.depth_contents_lt read held
      have same (kind : Kind) :
          Expression.ofContents? f contents kind = Expression.ofContents? g contents kind :=
        Expression.ofContents?_congr kind fun c below => agree c (by omega)
      simp only [Option.bind_eq_bind, Option.bind_some, held, same]

theorem Expression.ofPart?_eq (part : Part) :
    Expression.ofPart? part = Expression.layer Expression.ofPart? part :=
  Part.readDeep_eq Expression.layer_local part

end CodeRubric
