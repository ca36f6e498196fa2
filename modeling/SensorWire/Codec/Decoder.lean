import SensorWire.Codec.Field

/-!
# Decoding

A `Decoder` is a cursor over the pairs of one message map. `Decoder.enter` checks that the first item of the input is a well-formed
map of definite length; from then on the state holds the part of the map that is still unread. Reading a value checks its type first
and then takes one item off. Text and bytes are charged to an allocation budget. Errors do not end the use of a decoder; each of them
is added to the trace.
-/

namespace SensorWire

/-- The settings of a decoder. -/
structure Options where
  labels : Labels := {}
  /-- The bytes that text and byte strings may take together; zero or less is no limit. -/
  allocLimit : Int64 := 0
  deriving Repr, Inhabited

/-- The state of a decoder. -/
structure Decoder where
  /-- The part of the map that is not read yet. -/
  unread : List UInt8 := []
  /-- The size of the map item. -/
  size : Nat := 0
  /-- The number of bytes after the map. -/
  trailing : Nat := 0
  /-- The number of pairs that the map declares. -/
  count : Nat := 0
  /-- The number of pairs whose key was read. -/
  read : Nat := 0
  /-- The bytes charged to the budget, as a 64-bit word. -/
  allocated : Int64 := 0
  options : Options := {}
  /-- The events so far, the first one first. -/
  trace : List Event := []
  deriving Repr

/-- A step of decoding: it may fail, and changes the state in any case. -/
abbrev Decode (α : Type) := ExceptT Error (StateM Decoder) α

namespace Decoder

/-- The longest key that is looked up in a table; longer ones are skipped. -/
def maxKeyLength : Nat := 64

/-- Whether pairs remain. -/
def more (d : Decoder) : Bool := d.read < d.count

/-- Adds an event to the trace. -/
def emit (ev : Event) : Decode Unit :=
  modify fun d => { d with trace := d.trace ++ [d.options.labels.mark ev] }

/-- Fails with an error that the trace records. -/
def fail {α : Type} (err : Error) : Decode α := do
  emit (err.event .decode)
  throw err

/-- What an item is called that begins with a byte. -/
def describe (b : UInt8) : String :=
  match Cbor.Major.ofByte b with
  | .unsigned => "unsigned integer"
  | .negative => "negative integer"
  | .bytes => "byte string"
  | .text => "text string"
  | .array => "array"
  | .map => "map"
  | .tag => "tag"
  | .primitive => match b with
    | 0xf4 | 0xf5 => "boolean"
    | 0xf6 => "null"
    | 0xf7 => "undefined"
    | 0xf9 => "float16"
    | 0xfa => "float32"
    | 0xfb => "float64"
    | _ => "simple value"

/-! ## Entering and leaving -/

/-- Begins with the first item of the input, which must be a map of definite length, with the expected number of pairs if one is
given. A decoder that failed to enter has only a trace. -/
def enter (options : Options) (expected : Option Int) (data : List UInt8) : Except Error Unit × Decoder :=
  let d : Decoder := { options }
  let malformed (cause : Cause) : Except Error Unit × Decoder :=
    (fail { code := .malformedInput, op := "Enter", cause := some cause }).run.run d
  match Cbor.Item.read {} data with
  | .error f => malformed (.item f)
  | .ok (_, rest) => match Cbor.Head.read data with
    | .error f => malformed (.head f)
    | .ok (h, body) =>
      let checked : Decode Unit := do
        if h.major ≠ .map then
          fail { code := .unexpectedWireType, op := "Enter", detail := .expected "map" (describe (data.headD 0)) }
        else if h.width = none then
          fail { code := .fieldCountMismatch, op := "Enter", detail := .openMap }
        else if let some n := expected then
          if (h.arg : Int) ≠ n % 0x10000000000000000 then
            fail { code := .fieldCountMismatch, op := "Enter", detail := .fieldCount n h.arg }
      let inside := body.length - rest.length
      match checked.run.run d with
      | (.error err, d) => (.error err, d)
      | (.ok (), d) =>
        (.ok (), { d with unread := body.take inside, size := data.length - rest.length, trailing := rest.length, count := h.arg })

/-- Checks that all pairs were read and that nothing follows the map. -/
def leave : Decode Unit := do
  let d ← get
  if d.read ≠ d.count ∨ d.unread ≠ [] then
    fail { code := .fieldCountMismatch, op := "Leave", detail := .pairsConsumed d.read d.count }
  else if d.trailing ≠ 0 then
    fail { code := .trailingData, op := "Leave", detail := .trailing d.trailing }
  else emit { operation := .decode, category := .message, size := d.size }

/-! ## The next item -/

/-- The first byte of the next item and what follows the byte. -/
def peek (op key : Text) : Decode (UInt8 × List UInt8) := do
  match (← get).unread with
  | [] => fail { code := .malformedInput, op, key, detail := .endOfMap }
  | b :: rest => return (b, rest)

/-- Takes the next item off, and gives what `view` makes of it. -/
def next {α : Type} (op key : Text) (view : Cbor.Item → Except Cbor.Fault α) : Decode α := do
  let malformed (f : Cbor.Fault) : Decode α := fail { code := .malformedInput, op, key, cause := some (.item f) }
  match Cbor.Item.read {} (← get).unread with
  | .error f => malformed f
  | .ok (i, rest) => match view i with
    | .error f => malformed f
    | .ok a => do
      modify fun d => { d with unread := rest }
      return a

/-- Goes past the next item. -/
def skip (op key : Text) : Decode Unit := next op key fun _ => .ok ()

/-- The error of an item of the wrong type. -/
def unexpected {α : Type} (op key : Text) (want : String) (b : UInt8) : Decode α :=
  fail { code := .unexpectedWireType, op, key, detail := .expected want (describe b) }

/-- Checks the major type of the next item. -/
def expect (op key : Text) (major : Cbor.Major) (want : String) : Decode Unit := do
  let (b, _) ← peek op key
  if Cbor.Major.ofByte b ≠ major then unexpected op key want b

/-- The head of the next item, which stays unread, and what follows the head. -/
def peekHead (op key : Text) : Decode (Cbor.Head × List UInt8) := do
  match Cbor.Head.read (← get).unread with
  | .error f => fail { code := .malformedInput, op, key, cause := some (.head f) }
  | .ok r => return r

/-! ## Keys -/

/-- The error of a key that is wanted when no pairs remain. -/
def noPairs {α : Type} (op key : Text) : Decode α := do
  fail { code := .fieldCountMismatch, op, key, detail := .allConsumed (← get).count }

/-- Takes the key of the next pair, which must be text; `expected` is the key that errors name. -/
def takeKey (op expected : Text) : Decode Text := do
  if !(← get).more then noPairs op expected
  else
    expect op expected .text "text string key"
    let k ← next op expected Cbor.Item.text
    modify fun d => { d with read := d.read + 1 }
    return k

/-- Records that no table knows a key, and goes past its value. -/
def skipUnknown (op key : Text) : Decode Unit := do
  emit { operation := .decode, category := .unknownKey, key }
  skip op key

/-- The key of a pair as reading by the table's keys meets it: too long a key is skipped with its value, and a name made for it. -/
inductive PairKey where
  | key (k : Text)
  | skipped (name : Text)
  deriving DecidableEq, Repr

/-- Takes the key of the next pair, or skips the pair if the key is longer than any that is looked up. -/
def takeTolerantKey (op : Text) : Decode PairKey := do
  if !(← get).more then noPairs op ""
  else
    expect op "" .text "text string key"
    let (h, _) ← peekHead op ""
    if h.width = none ∨ h.arg ≤ maxKeyLength then return .key (← takeKey op "")
    else
      skip op ""
      modify fun d => { d with read := d.read + 1 }
      let name : Text := s!"<{h.arg}-byte key>"
      skipUnknown op name
      return .skipped name

/-! ## Values -/

/-- An unsigned integer. -/
def takeUnsigned (op key : Text) : Decode Nat := do
  expect op key .unsigned "unsigned integer"
  next op key fun
    | .unsigned _ n => .ok n
    | _ => .ok 0

/-- A simple value; floating-point numbers are none. -/
def takeSimple (op key : Text) : Decode UInt8 := do
  expect op key .primitive "simple value"
  let (b, rest) ← peek op key
  let info := b.toNat % 32
  if info < 24 then
    modify fun d => { d with unread := rest }
    return UInt8.ofNat info
  else if info = 24 then
    match rest with
    | [] => fail { code := .malformedInput, op, key, detail := .truncatedSimple }
    | v :: rest =>
      if v < 32 then fail { code := .malformedInput, op, key, detail := .wideSimple v.toNat }
      else
        modify fun d => { d with unread := rest }
        return v
  else unexpected op key "simple value" b

/-- A single-precision number. A signalling NaN comes out quiet. -/
def takeFloat32 (op key : Text) : Decode UInt32 := do
  let (b, _) ← peek op key
  if b ≠ 0xfa then unexpected op key "float32" b
  else next op key fun
    | .single bits => .ok (Binary.narrow (Binary.widen bits))
    | _ => .ok 0

/-- A double-precision number. -/
def takeFloat64 (op key : Text) : Decode UInt64 := do
  let (b, _) ← peek op key
  if b ≠ 0xfb then unexpected op key "float64" b
  else next op key fun
    | .double bits => .ok bits
    | _ => .ok 0

/-- Takes bytes from the allocation budget. -/
def charge (op key : Text) (n : Int64) : Decode Unit := do
  let d ← get
  let limit := d.options.allocLimit
  if 0 < limit ∧ limit < d.allocated + n then
    fail { code := .allocationFailure, op, key, detail := .budget n (limit - d.allocated) limit }
  else set { d with allocated := d.allocated + n }

/-- Checks that the next item is a string of a kind, and charges its length and `extra` if it is neither empty nor open. Gives whether
it is open. -/
def chargeString (op key : Text) (kind : Cbor.StringKind) (want : String) (extra : Nat) : Decode Bool := do
  expect op key kind.major want
  let (h, _) ← peekHead op key
  if h.width = none then return true
  else
    if 0 < h.arg then
      if (← get).unread.length < h.arg then
        fail { code := .malformedInput, op, key, detail := .stringExceeds h.arg }
      else charge op key (Int64.ofNat (h.arg + extra))
    return false

/-- A text string. One byte more than its length is charged, for the terminator that a device stores. -/
def takeText (op key : Text) : Decode Text := do
  let isOpen ← chargeString op key .text "text string" 1
  let t ← next op key Cbor.Item.text
  if isOpen ∧ !t.isEmpty then charge op key (Int64.ofNat (t.length + 1))
  return t

/-- A byte string. -/
def takeBytes (op key : Text) : Decode (List UInt8) := do
  let isOpen ← chargeString op key .bytes "byte string" 0
  let b ← next op key fun i => .ok i.content
  if isOpen ∧ !b.isEmpty then charge op key (Int64.ofNat b.length)
  return b

/-- The head of an array of definite length: the number of its elements. -/
def takeArrayHead (op key : Text) : Decode Nat := do
  expect op key .array "array"
  let (h, rest) ← peekHead op key
  if h.width = none then fail { code := .malformedInput, op, key, detail := .openArray }
  else if (← get).unread.length < h.arg then
    fail { code := .malformedInput, op, key, detail := .arrayExceeds h.arg }
  else
    modify fun d => { d with unread := rest }
    return h.arg

/-- Goes past so many items. -/
def skipMany (op key : Text) : Nat → Decode Unit
  | 0 => return ()
  | n + 1 => do
    skip op key
    skipMany op key n

/-- A number for a slot of a whole-number type; a checked field refuses one that does not fit. The refusal is not in the trace. -/
def takeNumber (op : Text) (f : Field) (s : Slot) (limit : Nat) (refused : Nat → Detail) : Decode Slot := do
  let n ← takeUnsigned op f.key
  if f.checked ∧ limit < n then throw { code := .outOfRange, op, key := f.key, detail := refused n }
  else return s.storeNat n

/-- The value of a pair, as the slot of a field takes it. -/
def takeValue (op : Text) (f : Field) : Decode Slot :=
  match f.binding with
  | .unbound t => fail { code := .unsupportedFieldType, op, key := f.key, detail := .fieldType t.name }
  | .bound s => match s with
    | .uint8 _ => takeNumber op f s 0xff fun n => .doesNotFit n "uint8"
    | .uint16 _ => takeNumber op f s 0xffff fun n => .doesNotFit n "uint16"
    | .uint32 _ => takeNumber op f s 0xffffffff fun n => .doesNotFit n "uint32"
    | .uint64 _ => takeNumber op f s 0xffffffffffffffff fun n => .doesNotFit n "uint64"
    | .bool _ => takeNumber op f s 1 fun n => .notBoolean n
    | .simple _ => return .simple (← takeSimple op f.key)
    | .float32 _ => return .float32 (← takeFloat32 op f.key)
    | .float64 _ => return .float64 (← takeFloat64 op f.key)
    | .string _ => return .string (← takeText op f.key)
    | .bytes _ => return .bytes (← takeBytes op f.key)

/-! ## Calls -/

/-- A call on a decoder. -/
inductive Call where
  | key
  | tolerantKey
  | skip (key : Text)
  | skipUnknown (key : Text)
  | skipElements (n : Nat)
  | charge (key : Text) (n : Int64)
  | uint8 (key : Text)
  | uint16 (key : Text)
  | uint32 (key : Text)
  | uint64 (key : Text)
  | bool (key : Text)
  | simple (key : Text)
  | float32 (key : Text)
  | float64 (key : Text)
  | text (key : Text)
  | bytes (key : Text)
  | arrayHead (key : Text)
  | arrayValue (key : Text)
  | nextFloat64
  | nextFloat32
  | nextUInt64
  | value (f : Field)
  | leave
  deriving Repr

/-- What a call gives. -/
inductive Answer where
  | none
  | key (k : PairKey)
  | number (n : Nat)
  | count (n : Nat)
  | bool (b : Bool)
  | float32 (bits : UInt32)
  | float64 (bits : UInt64)
  | text (t : Text)
  | bytes (b : List UInt8)
  | slot (s : Slot)
  deriving Repr

/-- A value after its key. -/
def paired {α : Type} (op key : Text) (take : Text → Text → Decode α) : Decode α := do
  let _ ← takeKey op key
  take op key

/-- Carries out a call. -/
def step : Call → Decode Answer
  | .key => return .key (.key (← takeKey "Key" ""))
  | .tolerantKey => return .key (← takeTolerantKey "TolerantKey")
  | .skip key => do
    skip "Skip" key
    return .none
  | .skipUnknown key => do
    skipUnknown "SkipUnknown" key
    return .none
  | .skipElements n => do
    skipMany "SkipElements" "" n
    return .none
  | .charge key n => do
    charge "Charge" key n
    return .none
  | .uint8 key => return .number ((← paired "Uint8" key takeUnsigned) % 0x100)
  | .uint16 key => return .number ((← paired "Uint16" key takeUnsigned) % 0x10000)
  | .uint32 key => return .number ((← paired "Uint32" key takeUnsigned) % 0x100000000)
  | .uint64 key => return .number (← paired "Uint64" key takeUnsigned)
  | .bool key => return .bool ((← paired "Bool" key takeUnsigned) != 0)
  | .simple key => return .number (← paired "Simple" key takeSimple).toNat
  | .float32 key => return .float32 (← paired "Float32" key takeFloat32)
  | .float64 key => return .float64 (← paired "Float64" key takeFloat64)
  | .text key => return .text (← paired "Text" key takeText)
  | .bytes key => return .bytes (← paired "Bytes" key takeBytes)
  | .arrayHead key => return .count (← paired "ArrayHead" key takeArrayHead)
  | .arrayValue key => return .count (← takeArrayHead "ArrayValue" key)
  | .nextFloat64 => return .float64 (← takeFloat64 "NextFloat64" "")
  | .nextFloat32 => return .float32 (← takeFloat32 "NextFloat32" "")
  | .nextUInt64 => return .number (← takeUnsigned "NextUint64" "")
  | .value f => return .slot (← takeValue "Value" f)
  | .leave => do
    leave
    return .none

/-- The state after a list of calls, errors or not. -/
def run (d : Decoder) (calls : List Call) : Decoder := calls.foldl (fun d c => ((step c).run.run d).2) d

end Decoder

end SensorWire
