import SensorWire.Yaml.Lexer

/-!
# Documents

A document is a tree of scalars, sequences and mappings with a tag each. `Stream.next` takes the documents off a stream one after the
other. An alias carries what it stands for; one inside what it stands for is a `loop`.
-/

namespace SensorWire.Yaml

/-- A part of a document, with the line it starts in, counted from one, and its tag, which is empty if it has none. -/
inductive Node where
  | scalar (line : Nat) (tag : Text) (text : Text) (plain : Bool)
  | sequence (line : Nat) (tag : Text) (items : List Node)
  | mapping (line : Nat) (tag : Text) (pairs : List (Node × Node))
  | reference (line : Nat) (name : Text) (target : Node)
  | loop (line : Nat) (name : Text)
  deriving Inhabited

/-- The scalar where nothing is written. -/
def Node.nothing (line : Nat) : Node := .scalar (line + 1) "" "" true

/-- The state of taking documents off a stream. -/
structure Stream where
  tokens : List Token
  /-- Whether the tokens end in a fault. -/
  broken : Bool
  /-- Whether no document was taken yet. -/
  fresh : Bool := true
  /-- What anchors stand for, the latest first, and nothing while it is not finished. -/
  anchors : List (Text × Option Node) := []
  /-- The handles of tags and what they stand for. -/
  handles : List (Text × Text) := []

/-- A step of taking a document off a stream, which may find that it is not one. -/
abbrev Take (α : Type) := StateT Stream Option α

namespace Take

/-- Fails. -/
def fault {α : Type} : Take α := fun _ => none

/-- The next token. -/
def peek : Take Token := fun s => s.tokens.head?.map fun t => (t, s)

/-- Goes on after the next token. -/
def skip : Take Unit := modify fun s => { s with tokens := s.tokens.drop 1 }

/-- Whether the next token is one of some. -/
def sees (lexemes : List Lexeme) : Take Bool := return lexemes.contains (← peek).lexeme

/-- Nothing where one of some tokens follows, and otherwise a node. -/
def nodeUnless (ends : List Lexeme) (line : Nat) (node : Take Node) : Take Node := do
  if ← sees ends then return .nothing line else node

/-! ## Block collections -/

/-- The entries of a block sequence, each of which takes fuel. -/
def blockEntries (node : Take Node) : (fuel : Nat) → Take (List Node)
  | 0 => fault
  | fuel + 1 => do
    let t ← peek
    skip
    match t.lexeme with
    | .blockEntry =>
      let item ← nodeUnless [.blockEntry, .blockEnd] t.line node
      return item :: (← blockEntries node fuel)
    | .blockEnd => return []
    | _ => fault

/-- The entries of a sequence that is not indented more than the mapping it is a value of. -/
def flushEntries (node : Take Node) : (fuel : Nat) → Take (List Node)
  | 0 => fault
  | fuel + 1 => do
    let t ← peek
    if t.lexeme = .blockEntry then
      skip
      let item ← nodeUnless [.blockEntry, .key, .value, .blockEnd] t.line node
      return item :: (← flushEntries node fuel)
    else return []

/-- The value of a pair of a block mapping. -/
def blockValue (node : Take Node) : Take Node := do
  let t ← peek
  if t.lexeme = .value then
    skip
    nodeUnless [.key, .value, .blockEnd] t.line node
  else return .nothing t.line

/-- The pairs of a block mapping. -/
def blockPairs (node : Take Node) : (fuel : Nat) → Take (List (Node × Node))
  | 0 => fault
  | fuel + 1 => do
    let t ← peek
    skip
    match t.lexeme with
    | .key =>
      let k ← nodeUnless [.key, .value, .blockEnd] t.line node
      let v ← blockValue node
      return (k, v) :: (← blockPairs node fuel)
    | .blockEnd => return []
    | _ => fault

/-! ## Flow collections -/

/-- The value of a pair of a flow collection that ends with a token. -/
def flowValue (node : Take Node) (close : Lexeme) : Take Node := do
  let t ← peek
  if t.lexeme = .value then
    skip
    let t ← peek
    nodeUnless [.flowEntry, close] t.line node
  else return .nothing t.line

/-- The mark between two items of a flow collection; there is none before the first. -/
def separator (first : Bool) : Take Unit := do
  if !first then
    if ← sees [.flowEntry] then skip else fault

/-- A pair that stands alone in a flow sequence. -/
def lonePair (node : Take Node) : Take Node := do
  let t ← peek
  skip
  let next ← peek
  let k ← if ← sees [.value, .flowEntry, .flowSequenceEnd] then do
      -- the token that shows that there is no key is passed over
      skip
      pure (Node.nothing next.line)
    else node
  let v ← flowValue node .flowSequenceEnd
  return .mapping (t.line + 1) "" [(k, v)]

/-- The items of a flow sequence. -/
def flowItems (node : Take Node) : (fuel : Nat) → (first : Bool) → Take (List Node)
  | 0, _ => fault
  | fuel + 1, first => do
    if ← sees [.flowSequenceEnd] then
      skip
      return []
    separator first
    if ← sees [.flowSequenceEnd] then
      skip
      return []
    let item ← if ← sees [.key] then lonePair node else node
    return item :: (← flowItems node fuel false)

/-- The pairs of a flow mapping. -/
def flowPairs (node : Take Node) : (fuel : Nat) → (first : Bool) → Take (List (Node × Node))
  | 0, _ => fault
  | fuel + 1, first => do
    if ← sees [.flowMappingEnd] then
      skip
      return []
    separator first
    if ← sees [.flowMappingEnd] then
      skip
      return []
    if ← sees [.key] then
      skip
      let next ← peek
      let k ← nodeUnless [.value, .flowEntry, .flowMappingEnd] next.line node
      let v ← flowValue node .flowMappingEnd
      return (k, v) :: (← flowPairs node fuel false)
    else
      let k ← node
      let next ← peek
      return (k, .nothing next.line) :: (← flowPairs node fuel false)

/-! ## Nodes -/

/-- The name of the next anchor, if there is one. -/
def anchor? : Take (Option Text) := do
  match (← peek).lexeme with
  | .anchor name =>
    skip
    return some name
  | _ => return none

/-- The tag that a handle and what follows it stand for. -/
def expandTag (handle suffix : Text) : Take Text := do
  if handle.isEmpty then return suffix
  else match (← get).handles.lookup handle with
    | some expansion => if (expansion ++ suffix).isEmpty then fault else return expansion ++ suffix
    | none => fault

/-- The next tag, if there is one. -/
def tag? : Take (Option Text) := do
  match (← peek).lexeme with
  | .tag handle suffix =>
    skip
    return some (← expandTag handle suffix)
  | _ => return none

/-- The anchor and the tag of a node, in either order, the tag empty for none. -/
def properties : Take (Option Text × Text) := do
  match ← anchor? with
  | some name => return (some name, (← tag?).getD "")
  | none => match ← tag? with
    | some tag => return (← anchor?, tag)
    | none => return (none, "")

/-- Lets an anchor stand for something, or for nothing yet. -/
def bindAnchor (name : Option Text) (node : Option Node) : Take Unit :=
  match name with
  | some name => modify fun s => { s with anchors := (name, node) :: s.anchors }
  | none => return ()

/-- What an alias stands for. -/
def reference (line : Nat) (name : Text) : Take Node := do
  match (← get).anchors.lookup name with
  | some (some node) => return .reference line name node
  | some none => return .loop line name
  | none => fault

/-- A node, in block style or only in flow style; `flush` says that a sequence may begin without being indented. Each level of
nesting takes fuel. -/
def node : (fuel : Nat) → (block flush : Bool) → Take Node
  | 0, _, _ => fault
  | fuel + 1, block, flush => do
    let start ← peek
    match start.lexeme with
    | .reference name =>
      skip
      reference (start.line + 1) name
    | _ =>
      let (name, tag) ← properties
      let t ← peek
      let line := start.line + 1
      let size := (← get).tokens.length
      bindAnchor name none
      let found : Take Node := match t.lexeme with
        | .scalar text plain => do
          skip
          return .scalar line tag text plain
        | .blockEntry =>
          if flush then return .sequence line tag (← flushEntries (node fuel true false) (size + 1)) else fault
        | .flowSequenceStart => do
          skip
          return .sequence line tag (← flowItems (node fuel false false) (size + 1) true)
        | .flowMappingStart => do
          skip
          return .mapping line tag (← flowPairs (node fuel false false) (size + 1) true)
        | .blockSequenceStart =>
          if block then do
            skip
            return .sequence line tag (← blockEntries (node fuel true false) (size + 1))
          else fault
        | .blockMappingStart =>
          if block then do
            skip
            return .mapping line tag (← blockPairs (node fuel true true) (size + 1))
          else fault
        | _ => fault
      let isNode := match t.lexeme with
        | .scalar .. | .flowSequenceStart | .flowMappingStart => true
        | .blockEntry => flush
        | .blockSequenceStart | .blockMappingStart => block
        | _ => false
      let result ← if isNode then found
        -- an anchor or a tag alone stands before nothing
        else if name.isSome || !tag.isEmpty then pure (.scalar line tag "" true)
        else fault
      bindAnchor name (some result)
      return result

/-! ## Documents -/

/-- The handles that need no directive. -/
def standardHandles : List (Text × Text) := [("!", "!"), ("!!", "tag:yaml.org,2002:")]

/-- The directives before a document, each of which takes fuel; `version` says that there was one that tells the version. -/
def directives (version : Bool) : (fuel : Nat) → Take Unit
  | 0 => fault
  | fuel + 1 => do
    match (← peek).lexeme with
    | .versionDirective major minor =>
      if version || major ≠ 1 || minor ≠ 1 then fault
      skip
      directives true fuel
    | .tagDirective handle expansion =>
      if (← get).handles.any fun h => h.1 == handle then fault
      skip
      modify fun s => { s with handles := (handle, expansion) :: s.handles }
      directives version fuel
    | _ => modify fun s => { s with handles := s.handles ++ standardHandles }

/-- The marks of the ends of documents, before another one. -/
def skipEnds : (fuel : Nat) → Take Unit
  | 0 => return ()
  | fuel + 1 => do
    if ← sees [.documentEnd] then
      skip
      skipEnds fuel

/-- Whether a document begins with this token, without a mark. -/
def beginsDocument : Lexeme → Bool
  | .versionDirective .. | .tagDirective .. | .documentStart | .streamEnd => false
  | _ => true

/-- Whether a document is empty before this token. -/
def endsDocument : Lexeme → Bool
  | .versionDirective .. | .tagDirective .. | .documentStart | .documentEnd | .streamEnd => true
  | _ => false

/-- The end of a document, where three tokens must be known to be free of faults. -/
def documentEnd : Take Unit := do
  let s ← get
  if s.broken && s.tokens.length < 3 then fault
  if ← sees [.documentEnd] then skip
  modify fun s => { s with fresh := false, handles := [] }

/-- The next document, if there is another. -/
def document : Take (Option Node) := do
  let s ← get
  let fuel := s.tokens.length + 1
  if !s.fresh then skipEnds fuel
  let t ← peek
  if s.fresh && beginsDocument t.lexeme then
    directives false 1
    let n ← node fuel true false
    documentEnd
    return some n
  else if t.lexeme = .streamEnd then return none
  else
    directives false fuel
    if !(← sees [.documentStart]) then fault
    skip
    let t ← peek
    let n ← if endsDocument t.lexeme then pure (.nothing t.line) else node fuel true false
    documentEnd
    return some n

end Take

namespace Stream

/-- The stream of a text, unless it holds what no document holds. -/
def ofText? (t : Text) : Option Stream := do
  let (tokens, broken) := tokenize (← characters? t)
  return { tokens, broken }

/-- The next document and the stream after it; `none` is a fault, and no document the end. -/
def next (s : Stream) : Option (Option Node × Stream) := Take.document.run s

end Stream

end SensorWire.Yaml
