/-! JSON values. An object is the ordered list of its members, repeated keys included, so that what
a key given twice means is left to whoever reads the object. -/
namespace CodeRubric.Json

mutual

inductive Value where
  | null
  | bool (value : Bool)
  | number (value : Float)
  /-- A number below 2^64 that is written by digits alone. -/
  | natural (value : Nat)
  | string (value : String)
  | array (items : List Value)
  | object (members : List Member)
  /-- A grammatical text that denotes nothing: a number beyond every finite one, a string with half
  a surrogate pair, an object with such a string for a key. Only readers that skip a value may
  meet one. -/
  | ill

structure Member where
  key : String
  value : Value

end

instance : Inhabited Value := ⟨.null⟩

mutual

/-- Whether no part of the value is `ill`. -/
def Value.isSound : Value → Bool
  | .null | .bool _ | .number _ | .natural _ | .string _ => true
  | .array items => Value.allSound items
  | .object members => Member.allSound members
  | .ill => false
termination_by structural x => x

def Value.allSound : List Value → Bool
  | [] => true
  | item :: rest => item.isSound && Value.allSound rest
termination_by structural x => x

def Member.isSound : Member → Bool
  | ⟨_, value⟩ => value.isSound
termination_by structural x => x

def Member.allSound : List Member → Bool
  | [] => true
  | member :: rest => member.isSound && Member.allSound rest
termination_by structural x => x

end

mutual

/-- How many arrays and objects stand around the innermost part. -/
def Value.depth : Value → Nat
  | .null | .bool _ | .number _ | .natural _ | .string _ | .ill => 0
  | .array items => Value.depthAll items + 1
  | .object members => Member.depthAll members + 1
termination_by structural x => x

def Value.depthAll : List Value → Nat
  | [] => 0
  | item :: rest => max item.depth (Value.depthAll rest)
termination_by structural x => x

def Member.depth : Member → Nat
  | ⟨_, value⟩ => value.depth
termination_by structural x => x

def Member.depthAll : List Member → Nat
  | [] => 0
  | member :: rest => max member.depth (Member.depthAll rest)
termination_by structural x => x

end

theorem Value.depth_le_depthAll {item : Value} {items : List Value} (inside : item ∈ items) :
    item.depth ≤ Value.depthAll items := by
  induction items with
  | nil => simp at inside
  | cons first rest ih =>
    simp only [Value.depthAll]
    rcases List.mem_cons.mp inside with rfl | later
    · omega
    · have := ih later; omega

theorem Member.depth_le_depthAll {member : Member} {members : List Member}
    (inside : member ∈ members) : member.value.depth ≤ Member.depthAll members := by
  induction members with
  | nil => simp at inside
  | cons first rest ih =>
    simp only [Member.depthAll]
    rcases List.mem_cons.mp inside with rfl | later
    · cases member; simp only [Member.depth]; omega
    · have := ih later; omega

end CodeRubric.Json
