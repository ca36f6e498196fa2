import SensorWire.Codec.Decoder
import SensorWire.Codec.Encoder

/-!
# Tables

A `Table` is the ordered list of the fields of a message. Encoding writes the fields in order. Decoding comes in two kinds. A strict
table wants exactly its keys in its order. For another table the input drives: pairs with a known key are stored, others are
skipped, and fields that do not occur are left alone. A decode that fails clears the text and bytes that it stored.
-/

namespace SensorWire

/-- The fields of a message, in order. -/
structure Table where
  fields : List Field
  /-- Whether incoming maps must have exactly the keys of the table, in its order. -/
  strict : Bool := false
  deriving DecidableEq, Repr

namespace Table

/-- The first field with a key. -/
def lookup? (t : Table) (key : Text) : Option Field := t.fields.find? fun f => f.key == key

/-- The keys and values, in order. -/
def values (t : Table) : List (Text × Value) := t.fields.map fun f => (f.key, f.value)

/-- The fields with the first one that has a key replaced. -/
def updateFirst (key : Text) (g : Field → Field) : List Field → List Field
  | [] => []
  | f :: rest => if f.key == key then g f :: rest else f :: updateFirst key g rest

/-- The table with the first field that has a key replaced. -/
def update (t : Table) (key : Text) (g : Field → Field) : Table := { t with fields := updateFirst key g t.fields }

/-- The table with a slot in the first field that has a key. -/
def store (t : Table) (key : Text) (s : Slot) : Table := t.update key fun f => f.store s

/-! ## Validity -/

/-- The error of the first field that a table cannot have, given the keys before it. -/
def faultFrom (index : Nat) (seen : List Text) : List Field → Option Error
  | [] => none
  | f :: rest =>
    if !f.isBound then
      some { code := .unsupportedFieldType, op := "Validate", key := f.key, detail := .unboundField index f.type.name }
    else if f.key.isEmpty then
      some { code := .improperValue, op := "Validate", detail := .emptyKey index }
    else if Decoder.maxKeyLength < f.key.length then
      some { code := .improperValue, op := "Validate", key := f.key, detail := .longKey Decoder.maxKeyLength }
    else if seen.contains f.key then
      some { code := .improperValue, op := "Validate", key := f.key, detail := .duplicateKey }
    else faultFrom (index + 1) (f.key :: seen) rest

/-- What is wrong with a table: a field without a slot, or a key that is empty, too long or repeated. -/
def fault? (t : Table) : Option Error := faultFrom 0 [] t.fields

/-! ## Encoding -/

/-- Writes fields in order. A buffer that is too small does not stop the walk; the last such error is returned. -/
def putFields (fields : List Field) (e : Encoder) : Option Error × Encoder :=
  go none fields e
where
  go (last : Option Error) : List Field → Encoder → Option Error × Encoder
    | [], e => (last, e)
    | f :: rest, e => match e.putField f with
      | (none, e) => go last rest e
      | (some err, e) => if err.isFatal then (some err, e) else go (some err) rest e

/-- Encodes into a buffer of a capacity: the size, and the last state of the encoder. -/
def encode (labels : Labels) (capacity : Nat) (t : Table) : Except Error Nat × Encoder :=
  let fatal? (r : Option Error) : Option Error := r.filter Error.isFatal
  match Encoder.start labels capacity t.fields.length with
  | (err, e) => match fatal? err with
    | some err => (.error err, e)
    | none => match putFields t.fields e with
      | (err, e) => match fatal? err with
        | some err => (.error err, e)
        | none => e.finish

/-- The encoded size, found by encoding into no room at all. -/
def size (t : Table) : Except Error Nat :=
  match t.encode {} 0 with
  | (.ok _, e) => .ok e.total
  | (.error err, e) => if err.isFatal then .error err else .ok e.total

/-- Encodes into a buffer of exactly the right size: the bytes, and the trace. -/
def marshal (labels : Labels) (t : Table) : Except Error (List UInt8) × List Event :=
  match t.size with
  | .error err => (.error err, [])
  | .ok n => match t.encode labels n with
    | (.ok _, e) => (.ok e.out, e.trace)
    | (.error err, e) => (.error err, e.trace)

/-! ## Decoding -/

/-- A field during a decode, with whether the decode has stored text or bytes in it. -/
structure Entry where
  field : Field
  filled : Bool := false
  deriving DecidableEq, Repr

namespace Entry

/-- Stores a slot. -/
def store (e : Entry) (s : Slot) : Entry := ⟨e.field.store s, e.filled || s.isHeap⟩

/-- The field, cleared of what the decode allocated. -/
def released (e : Entry) : Field := if e.filled then e.field.release else e.field

end Entry

/-- How far a decode came: the fields, the keys of values out of range and of skipped pairs, and the error that ended it, if any. -/
structure Walk where
  entries : List Entry
  outOfRange : List Text := []
  unknown : List Text := []
  error : Option Error := none
  deriving Repr

/-- The error that lists the keys of an otherwise complete decode; values out of range come first. -/
def Walk.aggregate (w : Walk) (op : Text) : Option Error :=
  if !w.outOfRange.isEmpty then some { code := .outOfRange, op, keys := w.outOfRange }
  else if !w.unknown.isEmpty then some { code := .unrecognizedKey, op, keys := w.unknown }
  else none

/-- The fields of a walk as they are left: cleared if an error ended the decode. -/
def Walk.fields (w : Walk) (failed : Bool) : List Field :=
  w.entries.map fun e => if failed then e.released else e.field

/-- The operation that errors of a walk name. -/
def walkOp : Text := "DecodeFields"

/-- The pair of a field in a strict map. -/
def strictPair (f : Field) : Decode Slot := do
  let key ← Decoder.takeKey walkOp f.key
  if key ≠ f.key then
    Decoder.fail { code := .unrecognizedKey, op := walkOp, key := f.key, detail := .foundKey key }
  else Decoder.takeValue walkOp f

/-- Reads a pair for each field in order. -/
def walkStrict : List Field → Decoder → Walk × Decoder
  | [], d => (⟨[], [], [], none⟩, d)
  | f :: rest, d => match (strictPair f).run.run d with
    | (.ok s, d) =>
      let (w, d) := walkStrict rest d
      ({ w with entries := Entry.store ⟨f, false⟩ s :: w.entries }, d)
    | (.error err, d) =>
      if err.code = .outOfRange then
        let (w, d) := walkStrict rest d
        ({ w with entries := ⟨f, false⟩ :: w.entries, outOfRange := f.key :: w.outOfRange }, d)
      else (⟨(f :: rest).map (⟨·, false⟩), [], [], some err⟩, d)

/-- The entries with a slot stored in the first one that has a key. -/
def storeEntry (key : Text) (s : Slot) : List Entry → List Entry
  | [] => []
  | e :: rest => if e.field.key == key then e.store s :: rest else e :: storeEntry key s rest

/-- What became of a pair. -/
inductive Pair where
  | stored (key : Text) (s : Slot)
  | unknown (key : Text)
  | outOfRange (key : Text)
  deriving DecidableEq, Repr

/-- Reads a pair that may have any key. -/
def tolerantPair (entries : List Entry) : Decode Pair := do
  match ← Decoder.takeTolerantKey walkOp with
  | .skipped name => return .unknown name
  | .key key => match entries.find? fun e => e.field.key == key with
    | none => do
      Decoder.skipUnknown walkOp key
      return .unknown key
    | some e =>
      tryCatch (do return .stored key (← Decoder.takeValue walkOp e.field)) fun err =>
        if err.code = .outOfRange then return .outOfRange key else throw err

/-- Reads so many pairs, whatever their keys. -/
def walkTolerant : (pairs : Nat) → Walk → Decoder → Walk × Decoder
  | 0, w, d => (w, d)
  | n + 1, w, d => match (tolerantPair w.entries).run.run d with
    | (.ok (.stored key s), d) => walkTolerant n { w with entries := storeEntry key s w.entries } d
    | (.ok (.unknown key), d) => walkTolerant n { w with unknown := w.unknown ++ [key] } d
    | (.ok (.outOfRange key), d) => walkTolerant n { w with outOfRange := w.outOfRange ++ [key] } d
    | (.error err, d) => ({ w with error := some err }, d)

/-- Reads the pairs that remain, by the table's rule. -/
def walk (t : Table) (d : Decoder) : Walk × Decoder :=
  if t.strict then walkStrict t.fields d
  else walkTolerant (d.count - d.read) ⟨t.fields.map (⟨·, false⟩), [], [], none⟩ d

/-- Reads the pairs that remain: the error, the table and the decoder afterwards. -/
def decodeFields (t : Table) (d : Decoder) : Option Error × Table × Decoder :=
  let (w, d) := t.walk d
  match w.error with
  | some err => (some err, { t with fields := w.fields true }, d)
  | none => (w.aggregate walkOp, { t with fields := w.fields false }, d)

/-- Decodes one message: the error, the table and the trace afterwards. -/
def decode (options : Options) (data : List UInt8) (t : Table) : Option Error × Table × List Event :=
  match Decoder.enter options (if t.strict then some t.fields.length else none) data with
  | (.error err, d) => (some err, t, d.trace)
  | (.ok (), d) =>
    let (w, d) := t.walk d
    match w.error with
    | some err => (some err, { t with fields := w.fields true }, d.trace)
    | none => match Decoder.leave.run.run d with
      | (.error err, d) => (some err, { t with fields := w.fields true }, d.trace)
      | (.ok (), d) => (w.aggregate walkOp, { t with fields := w.fields false }, d.trace)

end Table

end SensorWire
