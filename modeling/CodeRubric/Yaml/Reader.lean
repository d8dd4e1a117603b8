import CodeRubric.Yaml.Lexer
import CodeRubric.Yaml.Node

/-! The nodes of YAML texts: block and flow collections and scalars. Anchors, tags, block scalars
and directives are refused. -/
namespace CodeRubric.Yaml

/-- Whether one of these tokens comes next. -/
def Token.isNext (expected tokens : List Token) : Bool := tokens.head?.any expected.contains

mutual

/-- A node. Outside brackets it may be a block collection; as a key or a value of a block mapping it
may also be a sequence that is not indented. -/
def node? : Nat → (inBlock unindented : Bool) → List Token → Option (Node × List Token)
  | 0, _, _, _ => none
  | bound + 1, inBlock, unindented, tokens =>
    match tokens with
    | .scalar plain text :: rest => some (.scalar plain text, rest)
    | .openSequence :: rest => flowItems? bound [] rest
    | .openMapping :: rest => flowEntries? bound [] rest
    | .blockSequence :: rest => if inBlock then items? bound [] rest else none
    | .blockMapping :: rest => if inBlock then entries? bound [] rest else none
    | .dash :: _ => if unindented then unindentedItems? bound [] tokens else none
    | _ => none

/-- A node between brackets, left out before one of the tokens `ends`. -/
def flowSlot? : Nat → List Token → List Token → Option (Node × List Token)
  | 0, _, _ => none
  | bound + 1, ends, tokens =>
    if Token.isNext ends tokens then some (.absent, tokens) else node? bound false false tokens

/-- A value between brackets and its colon, left out before one of the tokens `ends`. -/
def flowValue? : Nat → List Token → List Token → Option (Node × List Token)
  | 0, _, _ => none
  | bound + 1, ends, tokens =>
    match tokens with
    | .value :: rest => flowSlot? bound ends rest
    | _ => some (.absent, tokens)

/-- An item of a flow sequence. It may be a mapping of one entry without brackets; its key, if left
out, takes the token after it along. -/
def flowItem? : Nat → List Token → Option (Node × List Token)
  | 0, _ => none
  | bound + 1, tokens =>
    match tokens with
    | .key :: rest => do
      let (key, rest) ←
        if Token.isNext [.value, .comma, .closeSequence] rest then some (.absent, rest.drop 1)
        else node? bound false false rest
      let (value, rest) ← flowValue? bound [.comma, .closeSequence] rest
      return (.mapping [⟨key, value⟩], rest)
    | _ => node? bound false false tokens

/-- The items of a flow sequence, with those already read, last first. -/
def flowItems? : Nat → List Node → List Token → Option (Node × List Token)
  | 0, _, _ => none
  | bound + 1, items, tokens =>
    match tokens with
    | .closeSequence :: rest => some (.sequence items.reverse, rest)
    | _ => do
      let (item, rest) ← flowItem? bound tokens
      match rest with
      | .comma :: rest => flowItems? bound (item :: items) rest
      | .closeSequence :: rest => some (.sequence (item :: items).reverse, rest)
      | _ => none

/-- An entry of a flow mapping. -/
def flowEntry? : Nat → List Token → Option (Entry × List Token)
  | 0, _ => none
  | bound + 1, tokens =>
    match tokens with
    | .key :: rest => do
      let (key, rest) ← flowSlot? bound [.value, .comma, .closeMapping] rest
      let (value, rest) ← flowValue? bound [.comma, .closeMapping] rest
      return (⟨key, value⟩, rest)
    | _ => do
      let (key, rest) ← node? bound false false tokens
      return (⟨key, .absent⟩, rest)

/-- The entries of a flow mapping, with those already read, last first. -/
def flowEntries? : Nat → List Entry → List Token → Option (Node × List Token)
  | 0, _, _ => none
  | bound + 1, entries, tokens =>
    match tokens with
    | .closeMapping :: rest => some (.mapping entries.reverse, rest)
    | _ => do
      let (entry, rest) ← flowEntry? bound tokens
      match rest with
      | .comma :: rest => flowEntries? bound (entry :: entries) rest
      | .closeMapping :: rest => some (.mapping (entry :: entries).reverse, rest)
      | _ => none

/-- A node in a block, left out before one of the tokens `ends`. -/
def slot? : Nat → List Token → (unindented : Bool) → List Token → Option (Node × List Token)
  | 0, _, _, _ => none
  | bound + 1, ends, unindented, tokens =>
    if Token.isNext ends tokens then some (.absent, tokens) else node? bound true unindented tokens

/-- The items of a block sequence, with those already read, last first. -/
def items? : Nat → List Node → List Token → Option (Node × List Token)
  | 0, _, _ => none
  | bound + 1, items, tokens =>
    match tokens with
    | .dash :: rest => do
      let (item, rest) ← slot? bound [.dash, .blockEnd] false rest
      items? bound (item :: items) rest
    | .blockEnd :: rest => some (.sequence items.reverse, rest)
    | _ => none

/-- The items of a sequence at the column of the mapping around it, with those already read, last
first. -/
def unindentedItems? : Nat → List Node → List Token → Option (Node × List Token)
  | 0, _, _ => none
  | bound + 1, items, tokens =>
    match tokens with
    | .dash :: rest => do
      let (item, rest) ← slot? bound [.dash, .key, .value, .blockEnd] false rest
      unindentedItems? bound (item :: items) rest
    | _ => some (.sequence items.reverse, tokens)

/-- The entries of a block mapping, with those already read, last first. -/
def entries? : Nat → List Entry → List Token → Option (Node × List Token)
  | 0, _, _ => none
  | bound + 1, entries, tokens =>
    match tokens with
    | .key :: rest => do
      let (key, rest) ← slot? bound [.key, .value, .blockEnd] true rest
      let (value, rest) ←
        match rest with
        | .value :: rest => slot? bound [.key, .value, .blockEnd] true rest
        | _ => some (.absent, rest)
      entries? bound (⟨key, value⟩ :: entries) rest
    | .blockEnd :: rest => some (.mapping entries.reverse, rest)
    | _ => none

end

/-- The node of a document, with what follows it. -/
def document? (bound : Nat) : List Token → Option (Node × List Token)
  | [] => some (.absent, [])
  | .documentStart :: rest =>
    if rest.isEmpty || Token.isNext [.documentStart, .documentEnd] rest then some (.absent, rest)
    else node? bound true false rest
  | tokens => node? bound true false tokens

/-- The node of tokens that make up a single document. -/
def Node.ofTokens? (tokens : List Token) : Option Node := do
  let (node, rest) ← document? (4 * tokens.length + 4) tokens
  if rest.all fun token => token = .documentEnd then some node else none

/-- The node of a text that is a single document. -/
def Node.ofChars? (text : List Char) : Option Node := (Token.ofChars? text).bind Node.ofTokens?

end CodeRubric.Yaml
