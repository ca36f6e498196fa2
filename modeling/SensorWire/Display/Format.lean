import SensorWire.Codec.Table
import SensorWire.Display.Names
import SensorWire.Display.Unit
import SensorWire.Text.Hex
import SensorWire.Time.Duration

/-!
# Fields for people

How a field is shown: its value with its unit, with a second form where the unit is not the usual one, and names in place of numbers
that have one. A `Formatter` holds the choices.
-/

namespace SensorWire

/-- How fields are shown. -/
structure Formatter where
  showTypes : Bool := false
  /-- Whether the number stands after the name or time that it means. -/
  showRaw : Bool := true
  /-- The blanks of one level of indentation; zero stands for two. -/
  indentWidth : Int := 2
  deriving DecidableEq, Repr

/-- A field as it is shown. -/
structure Row where
  key : Text
  value : Text
  type : Text := ""
  unit : Text := ""
  deriving DecidableEq, Repr

namespace Formatter

/-- Whether lines can be indented at all: no line starts before the first column. -/
def canIndent (f : Formatter) : Bool := 0 ≤ f.indentWidth

/-- A line at an indentation. -/
def indent (f : Formatter) (depth : Nat) (line : Text) : Text :=
  Text.repeated (depth * (if f.indentWidth = 0 then 2 else f.indentWidth.toNat)) " " ++ line

/-! ## Values -/

/-- A text with a unit after it. -/
def withUnit (t unit : Text) : Text := if unit.isEmpty then t else Text.concat [t, " ", unit]

/-- A whole number with its unit; seconds also as a length of time. -/
def whole (n : Nat) (unit : Text) : Text :=
  let base := withUnit (.ofNat n) unit
  if unit = "s" ∧ n ≠ 0 then Text.concat [base, " (", Duration.render (Duration.ofSeconds n), ")"] else base

/-- A floating-point number with its unit, given its shortest form; milliamperes also in amperes and millibars in kilopascals. -/
def float (shortest : Text) (bits : UInt64) (unit : Text) : Text :=
  let base := withUnit shortest unit
  if Binary.isNan bits then "NaN"
  else if unit = "mA" then Text.concat [base, " (", Layout.fixed 3 (Binary.divide bits 1000), " A)"]
  else if unit = "mbar" then Text.concat [base, " (", Layout.fixed 2 (Binary.divide bits 10), " kPa)"]
  else base

mutual

/-- A value in the form used inside lists and maps. -/
def plain : Value → Text
  | .null => "<nil>"
  | .bool b => if b then "true" else "false"
  | .text t => t
  | .integer _ n => .ofInt n
  | .float64 bits => Layout.general.double bits
  | .float32 bits => Layout.general.single bits
  | .bytes b => Text.concat ["[", Text.join " " (b.map fun x => .ofNat x.toNat), "]"]
  | .floats l => Text.concat ["[", Text.join " " (l.map Layout.general.double), "]"]
  | .list l => Text.concat ["[", Text.join " " (plainAll l), "]"]
  | .map l => Text.concat ["map[", Text.join " " (plainEntries l), "]"]
  | .pairs l => Text.concat ["map[", Text.join " " (plainPairs l), "]"]
  | .time t => t.render
  | .big n => .ofInt n
  | .simple n => .ofNat n.toNat
  | .tag n v => Text.concat ["\x7b", .ofNat n, " ", plain v, "\x7d"]

/-- Values in the form used inside lists. -/
def plainAll : List Value → List Text
  | [] => []
  | v :: vs => plain v :: plainAll vs

/-- Entries of a map in the form used inside maps. -/
def plainEntries : List (Text × Value) → List Text
  | [] => []
  | (k, v) :: rest => Text.concat [k, ":", plain v] :: plainEntries rest

/-- Pairs in the form used inside maps. -/
def plainPairs : List (Value × Value) → List Text
  | [] => []
  | (k, v) :: rest => Text.concat [plain k, ":", plain v] :: plainPairs rest

end

/-- A value with its unit. -/
def value (v : Value) (unit : Text) : Text :=
  match v with
  | .null => "null"
  | .bool b => if b then "true" else "false"
  | .text t => t.quoted
  | .integer .int n => withUnit (.ofInt n) unit
  | .integer .uint64 n | .integer .uint32 n | .integer .uint16 n | .integer .uint8 n => whole n.toNat unit
  | .float32 bits => float (Layout.general.single bits) (Binary.widen bits) unit
  | .float64 bits => float (Layout.general.double bits) bits unit
  | .bytes b => if b.isEmpty then "(empty)" else "0x" ++ Hex.encode b
  | .floats l => withUnit (Text.concat ["[", Text.join ", " (l.map Layout.general.double), "]"]) unit
  | v => plain v

/-- Milliseconds since 1970 as a time, if they are few enough to be counted with a sign. -/
def timestamp (ms : Nat) : Text :=
  if 0x8000000000000000 ≤ ms then "out of range"
  else (Timestamp.ofUnix (ms / 1000 : Nat) (ms % 1000 * 1000000)).render

/-! ## Rows -/

/-- A name with its number, if numbers are shown. -/
def withRaw (f : Formatter) (name : Text) (n : Nat) : Text :=
  if f.showRaw then Text.concat [name, s!" ({n})"] else name

/-- A field of a message as it is shown. -/
def row (f : Formatter) (message : Text) (field : Field) : Row :=
  let unit := Unit.ofKey field.key
  let shown : Text := match field.value with
    | .integer .uint64 n => match Names.ofValue? message field.key n.toNat with
      | some name => f.withRaw name n.toNat
      | none =>
        if field.key.endsWith "_utc_ms" then f.withRaw (timestamp n.toNat) n.toNat else value field.value unit
    | v => value v unit
  ⟨field.key, shown, field.type.name, unit⟩

/-- The fields of a table as they are shown. -/
def rows (f : Formatter) (message : Text) (t : Table) : List Row := t.fields.map (f.row message)

/-- Rows as lines. -/
def lines (f : Formatter) (rows : List Row) : Text :=
  if rows.isEmpty then f.indent 1 "(no fields)"
  else Text.concat <| rows.map fun r =>
    Text.concat [f.indent 1 (Text.concat [r.key, ": ", r.value]),
      if f.showTypes && !r.type.isEmpty then Text.concat [" (", r.type, ")"] else "", "\n"]

/-- The fields of a table as lines under the name of the message. -/
def table (f : Formatter) (message : Text) (t : Table) : Text := Text.concat [message, ":\n", f.lines (f.rows message t)]

end Formatter

end SensorWire
