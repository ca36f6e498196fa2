import SensorWire.Codec.Field

/-!
# Encoding

An `Encoder` writes the pairs of one message map into a buffer of fixed capacity, which it fills from the front. A write that does not
fit writes nothing, and from then on the encoder only counts, so that its size is always that of the whole message. A fatal error is
final: every later call returns it and changes nothing. `Encoder.finish` checks that as many pairs were written as declared.
-/

namespace SensorWire

/-- The state of an encoder. -/
structure Encoder where
  /-- The bytes written. -/
  out : List UInt8 := []
  /-- The rest of the buffer, as it was before the first call. -/
  beyond : List UInt8
  /-- The size of all writes, whether or not they fit. -/
  total : Nat := 0
  overflow : Bool := false
  fatal : Option Error := none
  /-- The number of pairs that the map head declares. -/
  declared : Nat := 0
  pairs : Nat := 0
  /-- The array elements that the last array head still wants. -/
  owed : Nat := 0
  labels : Labels := {}
  /-- The events so far, the first one first. -/
  trace : List Event := []
  deriving Repr

namespace Encoder

/-- The whole buffer: what was written, and what was there before. -/
def buffer (e : Encoder) : List UInt8 := e.out ++ e.beyond

/-- The size of the buffer. -/
def capacity (e : Encoder) : Nat := e.out.length + e.beyond.length

/-- The bytes that the message needs beyond the capacity, so far. -/
def extraBytes (e : Encoder) : Nat := if e.overflow then e.total - e.capacity else 0

/-- Adds an event to the trace. -/
def emit (e : Encoder) (ev : Event) : Encoder := { e with trace := e.trace ++ [e.labels.mark ev] }

/-- Records a fatal error. -/
def fail (e : Encoder) (err : Error) : Option Error × Encoder :=
  (some err, { e.emit (err.event .encode) with fatal := some err })

/-- Writes bytes if they fit and nothing has overflowed, and counts them in any case. -/
def write (e : Encoder) (bytes : List UInt8) : Encoder :=
  let e := { e with total := e.total + bytes.length }
  if e.overflow then e
  else if e.capacity < e.out.length + bytes.length then { e with overflow := true }
  else { e with out := e.out ++ bytes, beyond := e.beyond.drop bytes.length }

/-- The error of a buffer that is too small. -/
def tooSmall (e : Encoder) (op key : Text) : Error :=
  { code := .bufferTooSmall, op, key, needed := e.extraBytes }

/-- What a call reports after its writes. -/
def result (e : Encoder) (op key : Text) : Option Error × Encoder :=
  (if e.overflow then some (e.tooSmall op key) else none, e)

/-! ## Calls

Each call gives the error it returns, if any, and the next state. -/

/-- Does nothing after a fatal error but return it. -/
def guarded (e : Encoder) (call : Option Error × Encoder) : Option Error × Encoder :=
  match e.fatal with
  | some err => (some err, e)
  | none => call

/-- Begins a map of so many pairs in a buffer. A negative number leaves an encoder with a fatal error. -/
def startIn (labels : Labels) (buffer : List UInt8) (count : Int) : Option Error × Encoder :=
  let e : Encoder := { beyond := buffer, labels, declared := count.toNat }
  if count < 0 then
    e.fail { code := .improperValue, op := "NewEncoder", detail := .negativeFieldCount count }
  else (e.write (Cbor.Head.shortest .map count.toNat).encode).result "NewEncoder" ""

/-- Begins a map of so many pairs in a buffer of zeros. -/
def start (labels : Labels) (capacity : Nat) (count : Int) : Option Error × Encoder :=
  startIn labels (List.replicate capacity 0) count

/-- Writes a pair. -/
def put (e : Encoder) (op key : Text) (value : Cbor.Item) : Option Error × Encoder :=
  e.guarded <|
    if 0 < e.owed then e.fail { code := .fieldCountMismatch, op, key, detail := .elementsOwed e.owed }
    else
      let e := (e.write (Cbor.Item.ofText key).encode).write value.encode
      { e with pairs := e.pairs + 1 }.result op key

/-- Writes a key and the head of an array of `n` elements. -/
def putArrayHead (e : Encoder) (key : Text) (n : Int) : Option Error × Encoder :=
  e.guarded <|
    if n < 0 then
      e.fail { code := .improperValue, op := "PutArrayHead", key, detail := .negativeArrayLength n }
    else
      let e := (e.write (Cbor.Item.ofText key).encode).write (Cbor.Head.shortest .array n.toNat).encode
      { e with pairs := e.pairs + 1, owed := n.toNat }.result "PutArrayHead" key

/-- Writes an array element. -/
def appendElement (e : Encoder) (op : Text) (value : Cbor.Item) : Option Error × Encoder :=
  e.guarded <|
    if e.owed = 0 then e.fail { code := .fieldCountMismatch, op, detail := .noElementsOwed }
    else { e.write value.encode with owed := e.owed - 1 }.result op ""

/-- Writes a key and a simple value, which must exist. -/
def putSimple (e : Encoder) (key : Text) (v : UInt8) : Option Error × Encoder :=
  e.guarded <|
    if reservedSimple v.toNat then
      e.fail { code := .improperValue, op := "PutSimple", key, detail := .noSimpleValue v.toNat }
    else e.put "PutSimple" key (.simple v)

/-- Writes a key and a truth value, as the number 0 or 1. -/
def putBool (e : Encoder) (key : Text) (v : Bool) : Option Error × Encoder := e.put "PutBool" key (.ofNat v.toNat)

/-- Writes a key and a single-precision number. -/
def putFloat32 (e : Encoder) (key : Text) (bits : UInt32) : Option Error × Encoder := e.put "PutFloat32" key (.single bits)

/-- Writes a key and a double-precision number. -/
def putFloat64 (e : Encoder) (key : Text) (bits : UInt64) : Option Error × Encoder := e.put "PutFloat64" key (.double bits)

/-- Writes a key and a text string. -/
def putText (e : Encoder) (key v : Text) : Option Error × Encoder := e.put "PutText" key (.ofText v)

/-- Writes a key and a byte string. -/
def putBytes (e : Encoder) (key : Text) (v : List UInt8) : Option Error × Encoder := e.put "PutBytes" key (.ofBytes v)

/-- Writes a field by the rule of its type. -/
def putField (e : Encoder) (f : Field) : Option Error × Encoder :=
  match f.binding with
  | .unbound t =>
    e.guarded (e.fail { code := .unsupportedFieldType, op := "PutField", key := f.key, detail := .fieldType t.name })
  | .bound (.uint8 v) => e.put "PutField" f.key (.ofNat v.toNat)
  | .bound (.uint16 v) => e.put "PutField" f.key (.ofNat v.toNat)
  | .bound (.uint32 v) => e.put "PutField" f.key (.ofNat v.toNat)
  | .bound (.uint64 v) => e.put "PutField" f.key (.ofNat v.toNat)
  | .bound (.simple v) => e.putSimple f.key v
  | .bound (.bool v) => e.putBool f.key v
  | .bound (.float32 bits) => e.putFloat32 f.key bits
  | .bound (.float64 bits) => e.putFloat64 f.key bits
  | .bound (.string v) => e.putText f.key v
  | .bound (.bytes v) => e.putBytes f.key v

/-- Checks that the map is complete and fits. -/
def close (e : Encoder) : Option Error × Encoder :=
  e.guarded <|
    if e.owed ≠ 0 then e.fail { code := .fieldCountMismatch, op := "Finish", detail := .elementsOwed e.owed }
    else if e.pairs ≠ e.declared then
      e.fail { code := .fieldCountMismatch, op := "Finish", detail := .pairsWritten e.declared e.pairs }
    else if e.overflow then
      (some (e.tooSmall "Finish" ""),
       e.emit { operation := .encode, category := .overflow, size := e.total, extra := e.extraBytes })
    else (none, e.emit { operation := .encode, category := .message, size := e.out.length })

/-- Closes the map: the number of bytes written, or the error. -/
def finish (e : Encoder) : Except Error Nat × Encoder :=
  match e.close with
  | (some err, e) => (.error err, e)
  | (none, e) => (.ok e.out.length, e)

/-- A call on an encoder. -/
inductive Call where
  | uint8 (key : Text) (v : UInt8)
  | uint16 (key : Text) (v : UInt16)
  | uint32 (key : Text) (v : UInt32)
  | uint64 (key : Text) (v : UInt64)
  | bool (key : Text) (v : Bool)
  | simple (key : Text) (v : UInt8)
  | float32 (key : Text) (bits : UInt32)
  | float64 (key : Text) (bits : UInt64)
  | text (key v : Text)
  | bytes (key : Text) (v : List UInt8)
  | arrayHead (key : Text) (n : Int)
  | elementFloat64 (bits : UInt64)
  | elementFloat32 (bits : UInt32)
  | elementUInt64 (v : UInt64)
  | field (f : Field)
  | finish
  deriving Repr

/-- Carries out a call. -/
def step (e : Encoder) : Call → Option Error × Encoder
  | .uint8 key v => e.put "PutUint8" key (.ofNat v.toNat)
  | .uint16 key v => e.put "PutUint16" key (.ofNat v.toNat)
  | .uint32 key v => e.put "PutUint32" key (.ofNat v.toNat)
  | .uint64 key v => e.put "PutUint64" key (.ofNat v.toNat)
  | .bool key v => e.putBool key v
  | .simple key v => e.putSimple key v
  | .float32 key bits => e.putFloat32 key bits
  | .float64 key bits => e.putFloat64 key bits
  | .text key v => e.putText key v
  | .bytes key v => e.putBytes key v
  | .arrayHead key n => e.putArrayHead key n
  | .elementFloat64 bits => e.appendElement "AppendFloat64" (.double bits)
  | .elementFloat32 bits => e.appendElement "AppendFloat32" (.single bits)
  | .elementUInt64 v => e.appendElement "AppendUint64" (.ofNat v.toNat)
  | .field f => e.putField f
  | .finish => e.close

/-- The state after a list of calls. -/
def run (e : Encoder) (calls : List Call) : Encoder := calls.foldl (fun e c => (e.step c).2) e

end Encoder

end SensorWire
