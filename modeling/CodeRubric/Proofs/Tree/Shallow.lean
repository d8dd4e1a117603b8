import CodeRubric.Proofs.Tree.Frame
import CodeRubric.Proofs.Tree.Occurrence
import CodeRubric.Tree.Shallow

/-! What the shallow view of a tree shows: the tree as it is at every place that is not inside a
nested declaration with a body of its own, and `nil` for each part of such a declaration. -/
namespace CodeRubric

/-- The kinds of declarations that hide their bodies when they are nested. -/
def Kind.bodyOwners : List Kind := [.entryPoint, .function, .procedure, .method, .object, .rule]

theorem Expression.ownsBody_iff {e : Expression} :
    e.ownsBody = true ↔ e.kind ∈ Kind.bodyOwners := by
  cases e <;> simp [ownsBody, kind, Kind.bodyOwners]

namespace Occurrence

theorem liesInside_iff {inner outer : Occurrence} : inner.LiesInside outer ↔
    outer.position <+: inner.position ∧ outer.position ≠ inner.position := by
  constructor
  · rintro ⟨i, rest, below⟩
    rw [below]
    exact ⟨List.prefix_append _ _, by simp⟩
  · rintro ⟨⟨beyond, below⟩, other⟩
    cases beyond with
    | nil => exact absurd (by simpa using below) other
    | cons i rest => exact ⟨i, rest, below.symm⟩

instance (inner outer : Occurrence) : Decidable (inner.LiesInside outer) :=
  decidable_of_iff _ liesInside_iff.symm

theorem liesInside_under {tree : Expression} {i j : Nat} {inner outer : Occurrence} :
    (inner.under tree i).LiesInside (outer.under tree j) ↔ i = j ∧ inner.LiesInside outer := by
  simp only [LiesInside, under, List.cons_append, List.cons.injEq, exists_and_left]

/-- A place without a position is the root. -/
theorem OccursIn.eq_root {occurrence : Occurrence} {tree : Expression}
    (occurs : occurrence.OccursIn tree) (top : occurrence.position = []) :
    occurrence = .root tree := by
  cases occurs with
  | root => rfl
  | under held inside => cases top

end Occurrence

namespace Expression

section Nodes

variable (e : Expression)

theorem children_hollow : e.hollow.children = e.children.map fun _ => .nil :=
  children_withChildren_map e _

theorem children_shallow : e.shallow.children = e.children.map hollowNested :=
  children_withChildren_map e hollowNested

theorem frame_hollow : e.hollow.frame = e.frame := frame_withChildren (List.length_map _)

theorem frame_shallow : e.shallow.frame = e.frame := frame_withChildren (List.length_map _)

theorem holds_hollow {i : Nat} {part : Expression} :
    e.hollow.Holds i part ↔ (∃ original, e.Holds i original) ∧ part = .nil := by
  simp only [holds_iff, children_hollow, List.getElem?_map, Option.map_eq_some_iff,
    exists_and_right, @eq_comm _ part]

theorem holds_shallow {i : Nat} {part : Expression} :
    e.shallow.Holds i part ↔ ∃ original, e.Holds i original ∧ original.hollowNested = part := by
  simp only [holds_iff, children_shallow, List.getElem?_map, Option.map_eq_some_iff]

end Nodes

/-- The declarations strictly inside a tree that own a body, in their places. -/
def nestedOwners (tree : Expression) : List Occurrence :=
  tree.occurrences.filter fun occurrence =>
    occurrence.position ≠ [] && occurrence.node.kind ∈ Kind.bodyOwners

theorem mem_nestedOwners {tree : Expression} {owner : Occurrence} :
    owner ∈ tree.nestedOwners ↔
      owner.OccursIn tree ∧ owner.position ≠ [] ∧ owner.node.ownsBody = true := by
  rw [nestedOwners, List.mem_filter, mem_occurrences, Bool.and_eq_true, decide_eq_true_eq,
    decide_eq_true_eq, ownsBody_iff]

end Expression

namespace Occurrence

/-- Being strictly inside a nested declaration that owns a body. -/
def HiddenIn (occurrence : Occurrence) (tree : Expression) : Prop :=
  ∃ owner ∈ tree.nestedOwners, occurrence.LiesInside owner

instance (occurrence : Occurrence) (tree : Expression) : Decidable (occurrence.HiddenIn tree) :=
  inferInstanceAs (Decidable (∃ owner ∈ tree.nestedOwners, occurrence.LiesInside owner))

theorem not_hiddenIn_root (tree : Expression) : ¬ (root tree).HiddenIn tree := by
  rintro ⟨owner, _, i, rest, below⟩
  simp [root] at below

variable {tree part : Expression} {i : Nat} {inner : Occurrence}

/-- In a part of a tree the part itself hides as well, if it owns a body. -/
theorem hiddenIn_under (held : tree.Holds i part) : (inner.under tree i).HiddenIn tree ↔
    ∃ owner : Occurrence, owner.OccursIn part ∧ owner.node.ownsBody = true ∧
      inner.LiesInside owner := by
  constructor
  · rintro ⟨owner, listed, below⟩
    obtain ⟨occurs, nested, owns⟩ := Expression.mem_nestedOwners.mp listed
    cases occurs with
    | root => exact absurd rfl nested
    | @under _ part' j owner held' inside =>
      obtain ⟨rfl, inner_below⟩ := liesInside_under.mp below
      obtain rfl := held.unique held'
      exact ⟨owner, inside, owns, inner_below⟩
  · rintro ⟨owner, inside, owns, below⟩
    refine ⟨owner.under tree i, Expression.mem_nestedOwners.mpr ⟨.under held inside, ?_, owns⟩, ?_⟩
    · exact List.cons_ne_nil _ _
    · exact liesInside_under.mpr ⟨rfl, below⟩

theorem hiddenIn_under_of_owner (held : tree.Holds i part) (owns : part.ownsBody = true) :
    (inner.under tree i).HiddenIn tree ↔ inner.position ≠ [] := by
  rw [hiddenIn_under held]
  constructor
  · rintro ⟨owner, _, _, j, rest, below⟩ top
    simp [top] at below
  · intro deeper
    obtain ⟨j, rest, position⟩ := List.exists_cons_of_ne_nil deeper
    exact ⟨root part, .root, owns, j, rest, position⟩

theorem hiddenIn_under_of_plain (held : tree.Holds i part) (plain : part.ownsBody = false) :
    (inner.under tree i).HiddenIn tree ↔ inner.HiddenIn part := by
  rw [hiddenIn_under held]
  constructor
  · rintro ⟨owner, occurs, owns, below⟩
    refine ⟨owner, Expression.mem_nestedOwners.mpr ⟨occurs, ?_, owns⟩, below⟩
    intro top
    rw [occurs.eq_root top] at owns
    exact absurd (plain.symm.trans owns) Bool.false_ne_true
  · rintro ⟨owner, listed, below⟩
    obtain ⟨occurs, _, owns⟩ := Expression.mem_nestedOwners.mp listed
    exact ⟨owner, occurs, owns, below⟩

end Occurrence

namespace Expression

/-- The places of a tree that are not strictly inside a nested declaration with a body. -/
def visible (tree : Expression) : List Occurrence :=
  tree.occurrences.filter fun occurrence => ¬ occurrence.HiddenIn tree

/-- The places of a part that are visible in the tree it is a part of. -/
def visibleNested (part : Expression) : List Occurrence :=
  if part.ownsBody then [.root part] else part.visible

theorem filter_root (tree : Expression) :
    (tree.occurrences.filter fun occurrence => occurrence.position = []) = [.root tree] := by
  have parts : ∀ i part, tree.Holds i part → (part.occurrences.filter fun inner =>
      decide ((inner.under tree i).position = [])) = [] := by
    intro i part _
    simp [Occurrence.under]
  rw [filter_occurrences parts]
  simp [Occurrence.root, fromParts]

theorem visible_eq (tree : Expression) :
    tree.visible = .root tree :: tree.fromParts visibleNested := by
  have parts : ∀ i part, tree.Holds i part → (part.occurrences.filter fun inner =>
      decide (¬ (inner.under tree i).HiddenIn tree)) = part.visibleNested := by
    intro i part held
    cases owner : part.ownsBody with
    | true =>
      rw [visibleNested, if_pos owner, ← filter_root]
      simp only [Occurrence.hiddenIn_under_of_owner held owner, ne_eq, not_not]
    | false =>
      simp only [Occurrence.hiddenIn_under_of_plain held owner, visibleNested, owner,
        Bool.false_eq_true, if_false]
      rfl
  rw [visible, filter_occurrences parts]
  simp [Occurrence.not_hiddenIn_root]

theorem occursIn_of_mem_visible {tree : Expression} {occurrence : Occurrence}
    (shown : occurrence ∈ tree.visible) : occurrence.OccursIn tree :=
  mem_occurrences.mp (List.mem_filter.mp shown).1

theorem mem_visible {tree : Expression} {occurrence : Occurrence} :
    occurrence ∈ tree.visible ↔ occurrence = .root tree ∨ ∃ i part inner, tree.Holds i part ∧
      inner ∈ part.visibleNested ∧ inner.under tree i = occurrence := by
  rw [visible_eq, List.mem_cons, mem_fromParts]

/-- A node of the tree has this position and this frame. -/
def ShowsAt (tree : Expression) (position : List Nat) (frame : Expression) : Prop :=
  ∃ occurrence : Occurrence, occurrence.OccursIn tree ∧ occurrence.position = position ∧
    occurrence.node.frame = frame

/-- What is left of a tree without the bodies of the declarations inside it. -/
inductive Remains (tree : Expression) : List Nat → Expression → Prop where
  | visible {occurrence : Occurrence} :
      occurrence ∈ tree.visible → Remains tree occurrence.position occurrence.node.frame
  | blank {owner : Occurrence} {i : Nat} {part : Expression} :
      owner ∈ tree.visible → owner ∈ tree.nestedOwners → owner.node.Holds i part →
      Remains tree (owner.position ++ [i]) .nil

/-- What is left of a part, which loses its own body as well if it owns one. -/
inductive RemainsNested (part : Expression) : List Nat → Expression → Prop where
  | visible {occurrence : Occurrence} : occurrence ∈ part.visibleNested →
      RemainsNested part occurrence.position occurrence.node.frame
  | blank {owner : Occurrence} {i : Nat} {child : Expression} :
      owner ∈ part.visibleNested → owner.node.ownsBody = true → owner.node.Holds i child →
      RemainsNested part (owner.position ++ [i]) .nil

section Recursion

variable {tree : Expression} {position : List Nat} {frame : Expression}

theorem showsAt_iff : tree.ShowsAt position frame ↔ (position = [] ∧ tree.frame = frame) ∨
    ∃ i rest part, position = i :: rest ∧ tree.Holds i part ∧ part.ShowsAt rest frame := by
  constructor
  · rintro ⟨occurrence, occurs, rfl, rfl⟩
    cases occurs with
    | root => exact .inl ⟨rfl, rfl⟩
    | @under _ part i inner held inside =>
      exact .inr ⟨i, inner.position, part, rfl, held, inner, inside, rfl, rfl⟩
  · rintro (⟨rfl, rfl⟩ | ⟨i, rest, part, rfl, held, inner, inside, rfl, rfl⟩)
    · exact ⟨.root tree, .root, rfl, rfl⟩
    · exact ⟨inner.under tree i, .under held inside, rfl, rfl⟩

theorem showsAt_shallow : tree.shallow.ShowsAt position frame ↔
    (position = [] ∧ tree.frame = frame) ∨ ∃ i rest part, position = i :: rest ∧
      tree.Holds i part ∧ part.hollowNested.ShowsAt rest frame := by
  rw [showsAt_iff, frame_shallow]
  apply or_congr_right
  constructor
  · rintro ⟨i, rest, shown, rfl, held, deeper⟩
    obtain ⟨part, original, rfl⟩ := (holds_shallow tree).mp held
    exact ⟨i, rest, part, rfl, original, deeper⟩
  · rintro ⟨i, rest, part, rfl, original, deeper⟩
    exact ⟨i, rest, _, rfl, (holds_shallow tree).mpr ⟨part, original, rfl⟩, deeper⟩

theorem showsAt_nil : Expression.nil.ShowsAt position frame ↔ position = [] ∧ frame = .nil := by
  rw [showsAt_iff]
  simp [holds_iff, children, Expression.frame, eq_comm]

theorem showsAt_hollow : tree.hollow.ShowsAt position frame ↔
    (position = [] ∧ tree.frame = frame) ∨ ∃ i part, position = [i] ∧ tree.Holds i part ∧
      frame = .nil := by
  rw [showsAt_iff, frame_hollow]
  apply or_congr_right
  constructor
  · rintro ⟨i, rest, shown, rfl, held, deeper⟩
    obtain ⟨⟨part, original⟩, rfl⟩ := (holds_hollow tree).mp held
    obtain ⟨rfl, blank⟩ := showsAt_nil.mp deeper
    exact ⟨i, part, rfl, original, blank⟩
  · rintro ⟨i, part, rfl, original, blank⟩
    exact ⟨i, [], .nil, rfl, (holds_hollow tree).mpr ⟨⟨part, original⟩, rfl⟩,
      showsAt_nil.mpr ⟨rfl, blank⟩⟩

theorem remains_iff : tree.Remains position frame ↔ (position = [] ∧ tree.frame = frame) ∨
    ∃ i rest part, position = i :: rest ∧ tree.Holds i part ∧ part.RemainsNested rest frame := by
  constructor
  · intro remains
    cases remains with
    | visible shown =>
      rcases mem_visible.mp shown with rfl | ⟨i, part, inner, held, inside, rfl⟩
      · exact .inl ⟨rfl, rfl⟩
      · exact .inr ⟨i, inner.position, part, rfl, held, .visible inside⟩
    | @blank _ j _ shown listed holds =>
      obtain ⟨_, nested, owns⟩ := mem_nestedOwners.mp listed
      rcases mem_visible.mp shown with rfl | ⟨i, part, inner, held, inside, rfl⟩
      · exact absurd rfl nested
      · exact .inr ⟨i, inner.position ++ [j], part, rfl, held, .blank inside owns holds⟩
  · rintro (⟨rfl, rfl⟩ | ⟨i, rest, part, rfl, held, deeper⟩)
    · exact Remains.visible (mem_visible.mpr (.inl rfl))
    · cases deeper with
      | @visible inner inside =>
        exact Remains.visible (mem_visible.mpr (.inr ⟨i, part, inner, held, inside, rfl⟩))
      | @blank inner j _ inside owns holds =>
        have shown := mem_visible.mpr (.inr ⟨i, part, inner, held, inside, rfl⟩)
        have occurs := occursIn_of_mem_visible shown
        have listed := mem_nestedOwners.mpr ⟨occurs, List.cons_ne_nil _ _, owns⟩
        exact Remains.blank shown listed holds

theorem remainsNested_of_owner (owns : tree.ownsBody = true) :
    tree.RemainsNested position frame ↔ tree.hollow.ShowsAt position frame := by
  have only : tree.visibleNested = [.root tree] := if_pos owns
  rw [showsAt_hollow]
  constructor
  · intro remains
    cases remains with
    | visible shown =>
      obtain rfl := List.mem_singleton.mp (only ▸ shown)
      exact .inl ⟨rfl, rfl⟩
    | @blank _ i part shown _ held =>
      obtain rfl := List.mem_singleton.mp (only ▸ shown)
      exact .inr ⟨i, part, rfl, held, rfl⟩
  · have shown : Occurrence.root tree ∈ tree.visibleNested := only ▸ List.mem_singleton_self _
    rintro (⟨rfl, rfl⟩ | ⟨i, part, rfl, held, rfl⟩)
    · exact RemainsNested.visible shown
    · exact RemainsNested.blank shown owns held

theorem remainsNested_of_plain (plain : tree.ownsBody = false) :
    tree.RemainsNested position frame ↔ tree.Remains position frame := by
  have same : tree.visibleNested = tree.visible := by simp [visibleNested, plain]
  constructor
  · intro remains
    cases remains with
    | visible shown => exact .visible (same ▸ shown)
    | @blank owner _ _ shown owns held =>
      rw [same] at shown
      have occurs := occursIn_of_mem_visible shown
      refine .blank shown (mem_nestedOwners.mpr ⟨occurs, ?_, owns⟩) held
      intro top
      rw [occurs.eq_root top] at owns
      exact Bool.false_ne_true (plain.symm.trans owns)
  · intro remains
    cases remains with
    | visible shown => exact .visible (same ▸ shown)
    | blank shown listed held => exact .blank (same ▸ shown) (mem_nestedOwners.mp listed).2.2 held

end Recursion

/-- The shallow view shows what remains and nothing else. -/
theorem showsAt_shallow_iff_remains (tree : Expression) (position : List Nat) (frame : Expression) :
    tree.shallow.ShowsAt position frame ↔ tree.Remains position frame := by
  induction tree using inductionOnChildren generalizing position with
  | node tree ih =>
    have parts : ∀ i rest part, tree.Holds i part →
        (part.hollowNested.ShowsAt rest frame ↔ part.RemainsNested rest frame) := by
      intro i rest part held
      rw [hollowNested_eq]
      -- An owner shows its frame and blanks, any other part what remains of it.
      cases owner : part.ownsBody with
      | true => exact (remainsNested_of_owner owner).symm
      | false => exact (ih part held.mem_children rest).trans (remainsNested_of_plain owner).symm
    rw [showsAt_shallow, remains_iff]
    apply or_congr_right
    constructor
    · rintro ⟨i, rest, part, rfl, held, shown⟩
      exact ⟨i, rest, part, rfl, held, (parts i rest part held).mp shown⟩
    · rintro ⟨i, rest, part, rfl, held, remains⟩
      exact ⟨i, rest, part, rfl, held, (parts i rest part held).mpr remains⟩

/-- Children that a second change leaves alone make up a node that it leaves alone. -/
theorem withChildren_map_again {e : Expression} {f g : Expression → Expression}
    (again : ∀ c ∈ e.children, g (f c) = f c) :
    (e.withChildren (e.children.map f)).withChildren
        ((e.withChildren (e.children.map f)).children.map g) =
      e.withChildren (e.children.map f) := by
  have kept : (e.withChildren (e.children.map f)).children.map g =
      (e.withChildren (e.children.map f)).children := by
    rw [children_withChildren_map, List.map_map]
    exact List.map_congr_left again
  rw [kept, withChildren_children]

theorem hollowNested_hollowNested (e : Expression) :
    e.hollowNested.hollowNested = e.hollowNested := by
  induction e using inductionOnChildren with
  | node e ih =>
    rw [hollowNested_eq e]
    cases owner : e.ownsBody with
    | true =>
      have kept : e.hollow.ownsBody = true := (ownsBody_withChildren e _).trans owner
      rw [if_pos rfl, hollowNested_eq, if_pos kept]
      exact withChildren_map_again fun _ _ => rfl
    | false =>
      have kept : e.shallow.ownsBody = false := (ownsBody_withChildren e _).trans owner
      rw [if_neg Bool.false_ne_true, hollowNested_eq, kept, if_neg Bool.false_ne_true]
      exact withChildren_map_again ih

theorem shallow_shallow (tree : Expression) : tree.shallow.shallow = tree.shallow :=
  withChildren_map_again fun part _ => hollowNested_hollowNested part

theorem shallow_eq_self_of_children {tree : Expression}
    (kept : ∀ part ∈ tree.children, part.hollowNested = part) : tree.shallow = tree := by
  rw [shallow, List.map_congr_left kept, List.map_id', withChildren_children]

theorem hollowNested_eq_self {e : Expression}
    (plain : ∀ occurrence : Occurrence, occurrence.OccursIn e → occurrence.node.ownsBody = false) :
    e.hollowNested = e := by
  induction e using inductionOnChildren with
  | node e ih =>
    have own : e.ownsBody = false := plain (.root e) .root
    rw [hollowNested_eq, own, if_neg Bool.false_ne_true]
    apply shallow_eq_self_of_children
    intro part child
    apply ih part child
    intro occurrence occurs
    obtain ⟨i, held⟩ := exists_holds_of_mem_children child
    exact plain (occurrence.under e i) (.under held occurs)

theorem shallow_eq_self {tree : Expression} (plain : tree.nestedOwners = []) :
    tree.shallow = tree := by
  apply shallow_eq_self_of_children
  intro part child
  apply hollowNested_eq_self
  intro occurrence occurs
  obtain ⟨i, held⟩ := exists_holds_of_mem_children child
  by_contra owns
  have listed : occurrence.under tree i ∈ tree.nestedOwners := mem_nestedOwners.mpr
    ⟨.under held occurs, List.cons_ne_nil _ _, Bool.of_not_eq_false owns⟩
  rw [plain] at listed
  exact List.not_mem_nil listed

theorem referredName?_of_ownsBody {e : Expression} (owns : e.ownsBody = true) :
    e.referredName? = none := by
  cases e <;> first | rfl | cases owns

theorem references_hollow {e : Expression} (owns : e.ownsBody = true) :
    e.hollow.references = [] := by
  have blank : Expression.nil.references = [] := rfl
  have silent : e.hollow.referredName? = none :=
    (referredName?_withChildren e _).trans (referredName?_of_ownsBody owns)
  rw [references_eq, silent, children_hollow, List.flatMap_map, blank]
  simp

theorem references_hollowNested {part : Expression}
    (plain : part.ownsBody = false → part.shallow.references =
      part.visible.filterMap fun occurrence => occurrence.node.referredName?) :
    part.hollowNested.references =
      part.visibleNested.filterMap fun occurrence => occurrence.node.referredName? := by
  rw [hollowNested_eq, visibleNested]
  cases owner : part.ownsBody with
  | true =>
    have silent : (Occurrence.root part).node.referredName? = none :=
      referredName?_of_ownsBody owner
    rw [if_pos rfl, if_pos rfl, references_hollow owner, List.filterMap_cons, silent]
    rfl
  | false => exact plain owner

/-- The references in a shallow view are those at visible places, in the same order. -/
theorem references_shallow (tree : Expression) :
    tree.shallow.references =
      tree.visible.filterMap fun occurrence => occurrence.node.referredName? := by
  -- A name is read off the node alone, so the places can be left out.
  have view (found : List Occurrence) :
      (found.filterMap fun occurrence => occurrence.node.referredName?) =
        (found.map Occurrence.node).filterMap referredName? := by
    rw [List.filterMap_map]
    rfl
  induction tree using inductionOnChildren with
  | node tree ih =>
    have parts : ∀ part ∈ tree.children, part.hollowNested.references =
        (part.visibleNested.map Occurrence.node).filterMap referredName? := by
      intro part child
      rw [← view]
      exact references_hollowNested fun _ => ih part child
    have own : tree.shallow.referredName? = tree.referredName? := referredName?_withChildren tree _
    have top : (Occurrence.root tree).node = tree := rfl
    rw [view, visible_eq, List.map_cons, map_node_fromParts, List.filterMap_cons, top,
      List.filterMap_flatMap, references_eq, children_shallow, List.flatMap_map,
      List.flatMap_congr parts, own]
    cases tree.referredName? <;> rfl

theorem outermostDeclarations_hollowNested (e : Expression) :
    e.hollowNested.outermostDeclarations = e.outermostDeclarations.map hollowNested := by
  induction e using inductionOnChildren with
  | node e ih =>
    have kept : e.hollowNested.isDeclaration = e.isDeclaration := by
      rw [hollowNested_eq, isDeclaration, isDeclaration]
      split
      · exact congrArg Option.isSome (declaredName?_withChildren e _)
      · exact congrArg Option.isSome (declaredName?_withChildren e _)
    rw [outermostDeclarations_eq, outermostDeclarations_eq e, kept]
    split
    · rfl
    · next plain =>
      have own : e.ownsBody = false := by
        cases e <;> first | rfl | exact absurd rfl plain
      rw [hollowNested_eq, own, if_neg Bool.false_ne_true, members, members, children_shallow,
        List.flatMap_map, List.map_flatMap]
      exact List.flatMap_congr ih

theorem members_shallow (tree : Expression) :
    tree.shallow.members = tree.members.map hollowNested := by
  rw [members, members, children_shallow, List.flatMap_map, List.map_flatMap]
  exact List.flatMap_congr fun part _ => outermostDeclarations_hollowNested part

/-- What a reader of the outside of a declaration sees. -/
def heading (e : Expression) : Kind × Option String × List (List Pattern) :=
  (e.kind, e.declaredName?, e.parameterLists)

theorem heading_hollowNested (e : Expression) : e.hollowNested.heading = e.heading := by
  rw [hollowNested_eq, hollow, shallow]
  split <;> simp only [heading, kind_withChildren, declaredName?_withChildren,
    parameterLists_withChildren]

/-- The shallow view of a tree has the frames of the tree at the visible places, `nil` for each part
of a nested declaration with a body, and nothing else. It is its own shallow view, the tree itself
where nothing is hidden, refers to the names at the visible places, and has the same members as far
as their headings go. -/
theorem shallow_exact (tree : Expression) :
    (∀ position frame, tree.shallow.ShowsAt position frame ↔ tree.Remains position frame) ∧
    tree.shallow.shallow = tree.shallow ∧
    (tree.nestedOwners = [] → tree.shallow = tree) ∧
    (tree.references = tree.occurrences.filterMap (fun place => place.node.referredName?) ∧
      tree.shallow.references = tree.visible.filterMap fun place => place.node.referredName?) ∧
    tree.shallow.members.map heading = tree.members.map heading := by
  refine ⟨showsAt_shallow_iff_remains tree, shallow_shallow tree, shallow_eq_self, ⟨?_, ?_⟩, ?_⟩
  · rw [references, ← map_node_occurrences, List.filterMap_map]
    rfl
  · exact references_shallow tree
  · rw [members_shallow, List.map_map]
    exact List.map_congr_left fun member _ => heading_hollowNested member

end Expression

end CodeRubric
