import SensorWire.Codec.Table
import SensorWire.Message.Enumerations

/-!
# Messages

A message has a name, a table of fields, and a rule for what goes beyond its table: readings that the instrument does not provide are
sent as NaN, a length that belongs to a payload, or an array of samples that follows the fields.
-/

namespace SensorWire

/-- An array of samples with the room that is set aside for it. Room beforehand bounds what a decode accepts. -/
structure Samples where
  values : List UInt64 := []
  capacity : Nat := 0
  deriving DecidableEq, Repr, Inhabited

/-- What a message does beyond its table. -/
inductive Rule where
  | plain
  /-- Readings that the sensor type does not provide are sent as NaN. -/
  | readings
  /-- The field `length` says how many bytes the field `data` has. -/
  | payload (length data : Text)
  /-- An array of samples follows the fields, one of which counts it. -/
  | samples
  deriving DecidableEq, Repr

/-- A message with its values. -/
structure Message where
  name : Text
  table : Table
  rule : Rule := .plain
  samples : Samples := {}
  deriving DecidableEq, Repr

namespace Message

/-- The key of the sample array. -/
def samplesKey : Text := "difference_signal"

/-- The key of the number of samples. -/
def sampleCountKey : Text := "num_samples"

/-- Whether a message has an array of samples. -/
def hasSamples (m : Message) : Bool := m.rule == .samples

theorem hasSamples_iff_rule {m : Message} : m.hasSamples = true ↔ m.rule = .samples := beq_iff_eq

/-- Every key of a message, also one outside its table. -/
def keys (m : Message) : List Text :=
  m.table.fields.map Field.key ++ (if m.hasSamples then [samplesKey] else [])

/-- The number of pairs of the encoded message. -/
def pairs (m : Message) : Nat := m.table.fields.length + (if m.hasSamples then 1 else 0)

/-- Every key with its value. -/
def values (m : Message) : List (Text × Value) :=
  m.table.values ++ (if m.hasSamples then [(samplesKey, .floats m.samples.values)] else [])

/-- The whole number in the field with a key; zero if there is none. -/
def number (m : Message) (key : Text) : Nat :=
  match m.table.lookup? key with
  | some f => match f.value with
    | .integer _ n => n.toNat
    | _ => 0
  | none => 0

/-- The bytes in the field with a key. -/
def payload (m : Message) (key : Text) : List UInt8 :=
  match m.table.lookup? key with
  | some f => match f.value with
    | .bytes b => b
    | _ => []
  | none => []

/-- The number of samples that the message says it has. -/
def sampleCount (m : Message) : Nat := m.number sampleCountKey

/-- The fields of a sensor message that come before its own. -/
def headerFields (version : UInt32) : List Field :=
  [.holding "version" (.uint32 version),
   .holding "reading_time_utc_ms" (.uint64 0),
   .holding "reading_uptime_millis" (.uint64 0),
   .holding "sensor_reading_time_ms" (.uint64 0)]

end Message

end SensorWire
