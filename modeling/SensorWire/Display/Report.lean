import SensorWire.Display.Format
import SensorWire.Display.Path
import SensorWire.Message.Codec

/-!
# Reports about encoded messages

Bytes are decoded as a message of a given name, or as the one built-in message that they strictly are. The report has a row for every
field; keys that were skipped and values out of range are a warning.
-/

namespace SensorWire

/-- A decoded message ready to be shown. -/
structure Report where
  decoded : Message
  /-- The number of bytes. -/
  size : Nat
  rows : List Row
  warning : Option Failure := none

namespace Report

/-- The row with a key. -/
def row? (r : Report) (key : Text) : Option Row := r.rows.find? fun row => row.key == key

/-- The built-in messages as which bytes decode strictly. -/
def identify (data : List UInt8) : List Text :=
  (Catalog.all.filter fun m => (m.decode false {} data).1.isNone).map Message.name

/-- The name to decode under: the given one, or else the one that the bytes decode as. -/
def nameFor (name : Text) (data : List UInt8) : Except Failure Text :=
  if !name.isEmpty then .ok name
  else match identify data with
    | [] => .error .notIdentified
    | [found] => .ok found
    | found => .error (.ambiguous found)

/-- Decodes bytes for a report: the report or the failure, and the trace. -/
def make (f : Formatter) (options : Options) (name : Text) (data : List UInt8) (lenient : Bool) :
    Except Failure Report × List Event :=
  match nameFor name data with
  | .error failure => (.error failure, [])
  | .ok name => match Catalog.resolve? name with
    | none => (.error (.unknownMessage (some name)), [])
    | some m =>
      let (failure, m, trace) := m.decode lenient options data
      let rows := f.rows m.name m.table ++
        (if m.hasSamples then [⟨Message.samplesKey, Formatter.value (.floats m.samples.values) "", "array", ""⟩] else [])
      match failure.filter fun x => !x.isAggregate with
      | some x => (.error x, trace)
      | none => (.ok ⟨m, data.length, rows, failure⟩, trace)

/-- A report as lines. -/
def render (f : Formatter) (r : Report) : Text :=
  Text.concat [r.decoded.name, s!" ({r.size} bytes):\n", f.lines r.rows,
    match r.warning with
    | some w => f.indent 1 ("warning: " ++ w.render) ++ "\n"
    | none => ""]

/-- The row that a path names. -/
def field (f : Formatter) (options : Options) (p : Path) (data : List UInt8) (lenient : Bool) : Except Failure Row := do
  let r ← (make f options p.message data lenient).1
  match r.row? p.key with
  | some row => return row
  | none => throw (.unknownKey (some p.render))

end Report

end SensorWire
