import SensorWire.Failure
import SensorWire.Message.Basic

/-!
# Encoding and decoding messages

A message is encoded from its table and its rule. Decoding comes strict and lenient: a lenient decode takes the keys in any order and
lists the ones it skipped. The trace of both carries the name of the message.
-/

namespace SensorWire.Message

/-- The labels of a run on a message. -/
def label (m : Message) (labels : Labels) : Labels := { labels with schema := m.name }

/-! ## Encoding -/

/-- The table that is sent. -/
def outgoing (m : Message) : Table :=
  match m.rule with
  | .readings =>
    let sensor := SensorType.ofNumber (UInt8.ofNat (m.number "sensor_type"))
    let blank (present : Bool) (key : Text) (t : Table) : Table := if present then t else t.store key (.float64 Binary.nanBits)
    blank sensor.hasPressure "pressure_deci_bar" (blank sensor.hasTemperature "temperature_deg_c" m.table)
  | .payload length data => m.table.store length (.uint32 (UInt32.ofNat (m.payload data).length))
  | _ => m.table

/-- The error of samples that do not match their number. -/
def samplesFault? (m : Message) : Option Error :=
  if m.sampleCount = 0 then
    some { code := .improperValue, op := "Encode", key := sampleCountKey, detail := .noSamples }
  else if m.samples.values.length < m.sampleCount then
    some { code := .improperValue, op := "Encode", key := samplesKey,
           detail := .sampleCount m.samples.values.length m.sampleCount }
  else none

/-- Writes samples as array elements, until an error other than a buffer that is too small. -/
def putSamples : List UInt64 → Encoder → Option Error × Encoder
  | [], e => (none, e)
  | bits :: rest, e => match e.appendElement "AppendFloat64" (.double bits) with
    | (some err, e) => if err.isFatal then (some err, e) else putSamples rest e
    | (none, e) => putSamples rest e

/-- Runs the next part of an encoding unless the one before ended in a fatal error. -/
def andThen (r : Option Error × Encoder) (next : Encoder → Option Error × Encoder) : Option Error × Encoder :=
  match r with
  | (some err, e) => if err.isFatal then (some err, e) else next e
  | (none, e) => next e

/-- Writes the pairs of a message. -/
def putPairs (m : Message) (e : Encoder) : Option Error × Encoder :=
  if m.hasSamples then
    match m.samplesFault? with
    | some err => (some err, e)
    | none =>
      andThen (andThen (Table.putFields m.table.fields e) fun e => e.putArrayHead samplesKey m.sampleCount) fun e =>
        putSamples (m.samples.values.take m.sampleCount) e
  else Table.putFields m.outgoing.fields e

/-- Encodes into a buffer: the size, and the last state of the encoder. -/
def encodeIn (labels : Labels) (buffer : List UInt8) (m : Message) : Except Failure Nat × Encoder :=
  let wrap (e : Error) : Failure := .within ("encode " ++ m.name) (.codec e)
  match andThen (Encoder.startIn (m.label labels) buffer m.pairs) m.putPairs with
  | (err, e) => match err.filter Error.isFatal with
    | some err => (.error (wrap err), e)
    | none => match e.finish with
      | (.ok n, e) => (.ok n, e)
      | (.error err, e) => (.error (wrap err), e)

/-- Encodes into a buffer of zeros. -/
def encode (labels : Labels) (capacity : Nat) (m : Message) : Except Failure Nat × Encoder :=
  m.encodeIn labels (List.replicate capacity 0)

/-- The encoded size, found by encoding into no room at all. -/
def size (m : Message) : Except Failure Nat :=
  match (m.encode {} 0).1 with
  | .ok n => .ok n
  | .error f => match f.codec? with
    | some e => if e.isFatal then .error f else .ok e.needed.toNat
    | none => .error f

/-- Encodes into a buffer of exactly the right size: the bytes, and the trace. -/
def marshal (labels : Labels) (m : Message) : Except Failure (List UInt8) × List Event :=
  match m.size with
  | .error f => (.error f, [])
  | .ok n => match m.encode labels n with
    | (.ok _, e) => (.ok e.out, e.trace)
    | (.error f, e) => (.error f, e.trace)

/-! ## The sample array

Every step gives the error that ends the decode, if any, the message and the decoder. -/

/-- Reads so many samples: those before an error, and the error. -/
def takeSamples : Nat → Decoder → List UInt64 × Option Error × Decoder
  | 0, d => ([], none, d)
  | n + 1, d => match (Decoder.takeFloat64 "NextFloat64" "").run.run d with
    | (.error err, d) => ([], some err, d)
    | (.ok bits, d) =>
      let (rest, err, d) := takeSamples n d
      (bits :: rest, err, d)

/-- A message during the decode of its samples, with whether the array was allocated by it. -/
structure Sampling where
  message : Message
  allocated : Bool := false

/-- Reads an array of `n` samples. Without room set aside beforehand the array is allocated; with room, the samples go into it as they
come, so that an error leaves the ones before it. -/
def takeSignal (room n : Nat) (s : Sampling) (d : Decoder) : Option Error × Sampling × Decoder :=
  let m := s.message
  let old := m.samples.values
  if 0 < room ∧ room < n then
    (some { code := .allocationFailure, op := "Decode", key := samplesKey, detail := .sampleRoom n room }, s, d)
  else if 0 < room then
    match takeSamples n d with
    | (new, some err, d) =>
      (some err, { s with message := { m with samples := ⟨(new ++ old.drop new.length).take old.length, room⟩ } }, d)
    | (new, none, d) => (none, { s with message := { m with samples := ⟨new, room⟩ } }, d)
  else
    match (Decoder.charge "Charge" samplesKey (Int64.ofNat (8 * n))).run.run d with
    | (.error err, d) => (some err, s, d)
    | (.ok (), d) => match takeSamples n d with
      | (_, some err, d) => (some err, { s with allocated := true }, d)
      | (new, none, d) => (none, ⟨{ m with samples := ⟨new, n⟩ }, true⟩, d)

/-- The error of an array whose length is not the number of samples. -/
def lengthMismatch (m : Message) (n : Nat) : Error :=
  { code := .fieldCountMismatch, op := "Decode", key := samplesKey, detail := .sampleCount n m.sampleCount }

/-- Reads the fields in order and then the array. -/
def takeInOrder (room : Nat) (s : Sampling) (d : Decoder) : Option Error × Sampling × Decoder :=
  let (err, table, d) := s.message.table.decodeFields d
  let s := { s with message := { s.message with table } }
  let m := s.message
  match err with
  | some err => (some err, s, d)
  | none =>
    if 0 < room ∧ room < m.sampleCount then
      (some { code := .allocationFailure, op := "Decode", key := sampleCountKey, detail := .sampleRoom m.sampleCount room }, s, d)
    else match (Decoder.takeKey "Key" "").run.run d with
      | (.error err, d) => (some err, s, d)
      | (.ok key, d) =>
        if key ≠ samplesKey then
          (some { code := .unrecognizedKey, op := "Decode", key := samplesKey, detail := .foundKey key }, s, d)
        else match (Decoder.takeArrayHead "ArrayValue" key).run.run d with
          | (.error err, d) => (some err, s, d)
          | (.ok n, d) => if n ≠ m.sampleCount then (some (m.lengthMismatch n), s, d) else takeSignal room n s d

/-- Reads so many pairs in any order, the array among them: the error, the skipped keys, the message and the decoder. -/
def takeInAnyOrder (room : Nat) : (pairs : Nat) → (unknown : List Text) → Sampling → Decoder →
    Option Error × List Text × Sampling × Decoder
  | 0, unknown, s, d => (none, unknown, s, d)
  | n + 1, unknown, s, d => match (Decoder.takeTolerantKey "TolerantKey").run.run d with
    | (.error err, d) => (some err, unknown, s, d)
    | (.ok (.skipped name), d) => takeInAnyOrder room n (unknown ++ [name]) s d
    | (.ok (.key key), d) =>
      if key = samplesKey then
        match (Decoder.takeArrayHead "ArrayValue" key).run.run d with
        | (.error err, d) => (some err, unknown, s, d)
        | (.ok k, d) => match takeSignal room k s d with
          | (some err, s, d) => (some err, unknown, s, d)
          | (none, s, d) => takeInAnyOrder room n unknown s d
      else match s.message.table.lookup? key with
        | none => match (Decoder.skipUnknown "SkipUnknown" key).run.run d with
          | (.error err, d) => (some err, unknown, s, d)
          | (.ok (), d) => takeInAnyOrder room n (unknown ++ [key]) s d
        | some f => match (Decoder.takeValue "Value" f).run.run d with
          | (.error err, d) => (some err, unknown, s, d)
          | (.ok slot, d) =>
            takeInAnyOrder room n unknown { s with message := { s.message with table := s.message.table.store key slot } } d

/-- Reads the pairs of a message with samples. A decode that fails leaves no array that it allocated. -/
def takePairs (lenient : Bool) (m : Message) (d : Decoder) : Option Error × Message × Decoder :=
  let room := m.samples.capacity
  let (err, unknown, s, d) :=
    if lenient then takeInAnyOrder room (d.count - d.read) [] ⟨m, false⟩ d
    else
      let (err, s, d) := takeInOrder room ⟨m, false⟩ d
      (err, [], s, d)
  let m := s.message
  let fatal := err.or (if m.samples.values.length ≠ m.sampleCount then some (m.lengthMismatch m.samples.values.length) else none)
  match fatal with
  | some err => (some err, if s.allocated then { m with samples := {} } else m, d)
  | none =>
    (if unknown.isEmpty then none else some { code := .unrecognizedKey, op := "DecodeLenient", keys := unknown }, m, d)

/-! ## Decoding -/

/-- Decodes a message with samples: the error, the message and the trace. -/
def decodeSamples (lenient : Bool) (options : Options) (data : List UInt8) (m : Message) : Option Error × Message × List Event :=
  match Decoder.enter options (if lenient then none else some m.pairs) data with
  | (.error err, d) => (some err, m, d.trace)
  | (.ok (), d) =>
    let (err, m, d) := m.takePairs lenient d
    match err.filter fun e => !e.isAggregate with
    | some err => (some err, m, d.trace)
    | none => match Decoder.leave.run.run d with
      | (.error err, d) => (some err, m, d.trace)
      | (.ok (), d) => (err, m, d.trace)

/-- The error of a payload that has not the length that the message says. -/
def payloadFault? (m : Message) : Option Error :=
  match m.rule with
  | .payload length data =>
    let actual := (m.payload data).length
    if m.number length = actual then none
    else some { code := .malformedInput, op := "Decode", key := length, detail := .payloadLength (m.number length) actual }
  | _ => none

/-- The message without its payload. -/
def clearPayload (m : Message) : Message :=
  match m.rule with
  | .payload _ data => { m with table := m.table.store data (.bytes []) }
  | _ => m

/-- Decodes into a message: the failure, the message and the trace. Fields that a lenient decode does not meet keep their values. -/
def decode (lenient : Bool) (options : Options) (data : List UInt8) (m : Message) : Option Failure × Message × List Event :=
  let options := { options with labels := m.label options.labels }
  let wrap (e : Error) : Failure := .within ("decode " ++ m.name) (.codec e)
  let (err, m, trace) :=
    if m.hasSamples then decodeSamples lenient options data m
    else
      let (err, table, trace) := { m.table with strict := !lenient }.decode options data
      (err, { m with table := { table with strict := m.table.strict } }, trace)
  match err.filter fun e => !e.isAggregate with
  | some err => (some (wrap err), m, trace)
  | none => match m.payloadFault? with
    | some err => (some (wrap err), m.clearPayload, trace)
    | none => (err.map wrap, m, trace)

end SensorWire.Message
