import SensorWire.Display.Format
import SensorWire.Message.Codec
import SensorWire.Schema.Basic

/-!
# Messages of a schema

What can be done with a message that a schema describes besides what can be done with every message.
-/

namespace SensorWire.Message

/-- Sets a field that the message must have. -/
def set (m : Message) (key : Text) (v : Value) : Except Error Message :=
  match m.table.lookup? key with
  | none => .error { code := .unrecognizedKey, op := "Set", key, detail := .notIn m.name }
  | some f => do
    let f ← f.set v
    return { m with table := m.table.update key fun _ => f }

/-- The value of a field. -/
def get? (m : Message) (key : Text) : Option Value := (m.table.lookup? key).map Field.value

/-- The values of all fields in the order of their keys. -/
def entries (m : Message) : List (Text × Value) := m.table.values.mergeSort fun a b => a.1.le b.1

/-- Decodes as the schema says: in order for a strict one, and otherwise in any order. -/
def decodeAsDefined (options : Options) (data : List UInt8) (m : Message) : Option Failure × Message × List Event :=
  m.decode (!m.table.strict) options data

/-- The message on one line. -/
def line (m : Message) : Text :=
  Text.concat [m.name, "\x7b", Text.join " " (m.table.fields.map fun f =>
    Text.concat [f.key, "=", Formatter.plain f.value]), "\x7d"]

end SensorWire.Message
