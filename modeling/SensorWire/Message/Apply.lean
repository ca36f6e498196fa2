import SensorWire.Failure
import SensorWire.Message.Basic

/-!
# Setting the fields of a message

`Message.apply` sets fields from values by their keys, in the order of the keys. The first value that does not suit its field ends
it; keys that the message does not have are listed at the end.
-/

namespace SensorWire.Message

/-- The values of a list as samples. -/
def toSamples : List Value → Except Error (List UInt64)
  | [] => .ok []
  | v :: vs => do
    let bits ← v.toDouble samplesKey
    let rest ← toSamples vs
    return bits :: rest

/-- Sets one key: the message, or nothing if it has no such key. -/
def setValue (m : Message) (key : Text) (v : Value) : Except Error (Option Message) :=
  if m.hasSamples ∧ key = samplesKey then
    match v with
    | .list vs => do
      let values ← toSamples vs
      return some { m with samples := ⟨values, values.length⟩ }
    | v => throw { code := .improperValue, op := "Apply", key, detail := .notA v.typeName "list" }
  else match m.table.lookup? key with
    | none => return none
    | some f => do
      let f ← f.set v
      return some { m with table := m.table.update key fun _ => f }

/-- Sets keys one after the other: the error, the keys that the message has not, and the message. -/
def setValues : List (Text × Value) → Message → Option Error × List Text × Message
  | [], m => (none, [], m)
  | (key, v) :: rest, m => match m.setValue key v with
    | .error err => (some err, [], m)
    | .ok (some m) => setValues rest m
    | .ok none =>
      let (err, unknown, m) := setValues rest m
      (err, key :: unknown, m)

/-- Sets the fields that the values name, in the order of their keys: the failure and the message. -/
def apply (values : List (Text × Value)) (m : Message) : Option Failure × Message :=
  let wrap (e : Error) : Failure := .within m.name (.codec e)
  let sorted := values.mergeSort fun a b => a.1.le b.1
  match setValues sorted m with
  | (some err, _, m) => (some (wrap err), m)
  | (none, [], m) => (none, m)
  | (none, unknown, m) => (some (wrap { code := .unrecognizedKey, op := "Apply", keys := unknown }), m)

end SensorWire.Message
