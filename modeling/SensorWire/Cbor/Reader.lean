import SensorWire.Cbor.Item

/-!
# Reading items

`Item.read` takes one well-formed item off the front of a byte sequence. What is well formed depends on `Limits`: how deeply items
may nest, how many elements and pairs a container may have, and whether a length may be left open. The order of the checks
decides which of several faults is reported.
-/

namespace SensorWire.Cbor

/-- What a reader accepts. -/
structure Limits where
  depth : Nat := 32
  elements : Nat := 131072
  pairs : Nat := 131072
  openLengths : Bool := true

/-- Why bytes are not a well-formed item, or not the text or the only item they should be. -/
inductive Fault where
  | empty
  | truncated
  | badInfo (info : Nat) (major : Major)
  | strayBreak
  | badSimple (n : Nat)
  | longString (kind : StringKind) (n : Nat)
  | longContainer (major : Major) (n : Nat)
  | manyElements (limit : Nat)
  | manyPairs (limit : Nat)
  | deep (limit : Nat)
  | alienChunk (found : Major) (kind : StringKind)
  | openChunk (kind : StringKind)
  | openLength (major : Major)
  | invalidText
  /-- A tag that says what its content is, around something else. -/
  | tagContent (tag want : String) (found : Major)
  deriving DecidableEq, Repr

namespace Fault

/-- What a fault says. -/
def message : Fault → String
  | empty => "EOF"
  | truncated => "unexpected EOF"
  | badInfo info major => s!"cbor: invalid additional information {info} for type {major.name}"
  | strayBreak => "cbor: unexpected \"break\" code"
  | badSimple n => s!"cbor: invalid simple value {n} for type primitives"
  | longString kind n => s!"cbor: {kind.major.name} length {n} is too large, causing integer overflow"
  | longContainer major n => s!"cbor: {major.name} length {n} is too large, it would cause integer overflow"
  | manyElements limit => s!"cbor: exceeded max number of elements {limit} for CBOR array"
  | manyPairs limit => s!"cbor: exceeded max number of key-value pairs {limit} for CBOR map"
  | deep limit => s!"cbor: exceeded max nested level {limit}"
  | alienChunk found kind => s!"cbor: wrong element type {found.name} for indefinite-length {kind.major.name}"
  | openChunk kind => s!"cbor: indefinite-length {kind.major.name} chunk is not definite-length"
  | openLength major => s!"cbor: indefinite-length {major.name} isn't allowed"
  | invalidText => "cbor: invalid UTF-8 string"
  | tagContent tag want found => s!"cbor: tag number {tag} must be followed by {want}, got {found.name}"

/-- A missing head, as a reader of items reports it, given the major type of its first byte: an open length on a primitive is the
byte that closes one. -/
def ofHead (major : Major) : Head.Fault → Fault
  | .truncated => truncated
  | .reserved info => badInfo info major
  | .endless .primitive => strayBreak
  | .endless major => badInfo 31 major

end Fault

/-- A reader takes something off the front of a byte sequence and gives it with what follows. -/
abbrev Reader (α : Type) := List UInt8 → Except Fault (α × List UInt8)

/-- A head as a reader of items wants it: no simple value below 32 stands in two bytes. -/
def readHead : Reader Head := fun bytes =>
  match Head.read bytes with
  | .error f => .error (.ofHead (Major.ofByte (bytes.headD 0)) f)
  | .ok (h, rest) =>
    if h.major = .primitive ∧ h.width = some .one ∧ h.arg < 32 then .error (.badSimple h.arg) else .ok (h, rest)

/-- The content of a string of a given length. -/
def readContent (kind : StringKind) (n : Nat) : Reader (List UInt8) := fun bytes =>
  if 0x8000000000000000 ≤ n then .error (.longString kind n)
  else match splitExact n bytes with
    | some r => .ok r
    | none => .error .truncated

/-! ## Repetition -/

/-- So many in a row. -/
def readMany {α : Type} (one : Reader α) : Nat → Reader (List α)
  | 0, bytes => .ok ([], bytes)
  | n + 1, bytes => do
    let (a, rest) ← one bytes
    let (as, rest) ← readMany one n rest
    return (a :: as, rest)

/-- All up to the byte that closes an open length, but no more than `room`. Each takes a byte at least, so the length of the input is
fuel enough. -/
def readOpen {α : Type} (one : Reader α) (overfull : Fault) : (fuel room : Nat) → Reader (List α)
  | 0, _, _ => .error .truncated
  | fuel + 1, room, bytes =>
    if bytes.head? = some Item.breakByte then .ok ([], bytes.drop 1)
    else do
      let (a, rest) ← one bytes
      match room with
      | 0 => throw overfull
      | room + 1 =>
        let (as, rest) ← readOpen one overfull fuel room rest
        return (a :: as, rest)

/-- One after the other. -/
def readBoth {α β : Type} (first : Reader α) (second : Reader β) : Reader (α × β) := fun bytes => do
  let (a, rest) ← first bytes
  let (b, rest) ← second rest
  return ((a, b), rest)

/-! ## Items -/

/-- A chunk of a string of open length: a string of the same kind whose length is not open. -/
def readChunk (kind : StringKind) : Reader (Width × List UInt8) := fun bytes =>
  match bytes with
  | [] => .error .truncated
  | b :: _ =>
    if Major.ofByte b ≠ kind.major then .error (.alienChunk (Major.ofByte b) kind)
    else if b.toNat % 32 = 31 then .error (.openChunk kind)
    else do
      let (h, rest) ← readHead bytes
      let (content, rest) ← readContent kind h.arg rest
      return ((h.width.getD .inline, content), rest)

/-- A string after its head. Its chunks are not counted. -/
def readString (lim : Limits) (kind : StringKind) (h : Head) : Reader Item := fun bytes =>
  match h.width with
  | none =>
    if !lim.openLengths then throw (.openLength kind.major)
    else do
      let (pieces, rest) ← readOpen (readChunk kind) .truncated (bytes.length + 1) (bytes.length + 1) bytes
      return (.chunks kind pieces, rest)
  | some w => do
    let (content, rest) ← readContent kind h.arg bytes
    return (.string kind w content, rest)

/-- A container after its head, given the reader of its members, how many it may have, and the item that its members make with a
length of some width or with an open one. -/
def readContainer {α : Type} (lim : Limits) (one : Reader α) (limit : Nat) (overfull : Fault) (closed : Width → List α → Item)
    (opened : List α → Item) (h : Head) : Reader Item := fun bytes =>
  match h.width with
  | none =>
    if !lim.openLengths then throw (.openLength h.major)
    else do
      let (members, rest) ← readOpen one overfull (bytes.length + 1) limit bytes
      return (opened members, rest)
  | some w =>
    if 0x8000000000000000 ≤ h.arg then throw (.longContainer h.major h.arg)
    else if limit < h.arg then throw overfull
    else do
      let (members, rest) ← readMany one h.arg bytes
      return (closed w members, rest)

/-- An array after its head, given the reader of its items. -/
def readArray (lim : Limits) (one : Reader Item) (h : Head) : Reader Item :=
  readContainer lim one lim.elements (.manyElements lim.elements) .array .openArray h

/-- A map after its head, given the reader of its keys and values. -/
def readMap (lim : Limits) (one : Reader Item) (h : Head) : Reader Item :=
  readContainer lim (readBoth one one) lim.pairs (.manyPairs lim.pairs) .map .openMap h

/-- The item that a head of major type 7 is by itself. -/
def primitive (h : Head) : Item :=
  match h.width with
  | some .two => .half (UInt16.ofNat h.arg)
  | some .four => .single (UInt32.ofNat h.arg)
  | some .eight => .double (UInt64.ofNat h.arg)
  | _ => .simple (UInt8.ofNat h.arg)

namespace Item

/-- An item after its head, given the reader of what it holds at a depth. Containers are one level deeper than what holds them, and so
is a tag directly inside a tag. -/
def readAfter (lim : Limits) (inner : (depth : Nat) → (inTag : Bool) → Reader Item) (depth : Nat) (inTag : Bool) (h : Head) :
    Reader Item := fun bytes =>
  let w := h.width.getD .inline
  match h.major with
  | .unsigned => .ok (.unsigned w h.arg, bytes)
  | .negative => .ok (.negative w h.arg, bytes)
  | .bytes => readString lim .bytes h bytes
  | .text => readString lim .text h bytes
  | .array =>
    if lim.depth < depth + 1 then .error (.deep lim.depth)
    else readArray lim (inner (depth + 1) false) h bytes
  | .map =>
    if lim.depth < depth + 1 then .error (.deep lim.depth)
    else readMap lim (inner (depth + 1) false) h bytes
  | .tag =>
    if inTag ∧ lim.depth < depth + 1 then .error (.deep lim.depth)
    else do
      let (content, rest) ← inner (if inTag then depth + 1 else depth) true bytes
      return (.tag w h.arg content, rest)
  | .primitive => .ok (primitive h, bytes)

/-- An item at a depth. The fuel bounds the nesting, each level of which takes a byte. -/
def readAt (lim : Limits) : (fuel depth : Nat) → (inTag : Bool) → Reader Item
  | 0, _, _, _ => .error .truncated
  | fuel + 1, depth, inTag, bytes => do
    let (h, rest) ← readHead bytes
    readAfter lim (readAt lim fuel) depth inTag h rest

/-- The first item of a byte sequence. -/
def read (lim : Limits) : Reader Item := fun bytes =>
  if bytes.isEmpty then .error .empty else readAt lim (bytes.length + 1) 0 false bytes

/-! ## Contents -/

/-- The bytes of a string item, its chunks joined; nothing for other items. -/
def content : Item → List UInt8
  | string _ _ b => b
  | chunks _ pieces => pieces.flatMap Prod.snd
  | _ => []

/-- The content of a text string, each chunk of which must be UTF-8 by itself. -/
def text (i : Item) : Except Fault Text :=
  let valid := match i with
    | string _ _ b => Utf8.isValid b
    | chunks _ pieces => pieces.all fun p => Utf8.isValid p.2
    | _ => true
  if valid then .ok ⟨i.content⟩ else .error .invalidText

end Item

end SensorWire.Cbor
