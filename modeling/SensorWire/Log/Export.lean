import SensorWire.Log.Fields
import SensorWire.Text.Json

/-!
# Logs for other programs

An event becomes one JSON object on a line of its own, or one record of comma-separated values.
-/

namespace SensorWire

/-- A form in which a log is exported. -/
inductive ExportFormat where
  | jsonLines
  | csv
  deriving DecidableEq, Repr

namespace ExportFormat

/-- The format with a name. -/
def ofName? (name : Text) : Option ExportFormat :=
  if name = "jsonl" then some jsonLines else if name = "csv" then some csv else none

end ExportFormat

namespace Export

/-! ## JSON lines -/

/-- A value in JSON. -/
def jsonValue : Value → Text
  | .text t => Json.string t
  | .integer _ n => .ofInt n
  | _ => "null"

/-- Entries as a JSON object, in the order of their keys. -/
def jsonObject (entries : List (Text × Value)) : Text :=
  Text.concat ["\x7b", Text.join "," ((entries.mergeSort fun a b => a.1.le b.1).map fun (k, v) =>
    Text.concat [Json.string k, ":", jsonValue v]), "\x7d"]

/-- An event as a line of JSON. -/
def jsonLine (e : Event) : Text :=
  Text.concat ["\x7b\"timestamp\":", Json.string e.time.renderMicros, ",\"fields\":", jsonObject e.fields, "\x7d\n"]

/-! ## Comma-separated values -/

/-- Whether a value stands between quotes: it holds what separates values or records, starts with a blank, or could be taken for the
end of the data. -/
def needsQuotes (t : Text) : Bool :=
  t == "\\." || t.hasChar ',' || t.hasChar '"' || t.hasChar '\n' || t.hasChar '\r' ||
    (match t.runes with
      | .char c :: _ => Char.isBlank c
      | _ => false)

/-- A value of a record. -/
def csvValue (t : Text) : Text :=
  if needsQuotes t then
    ⟨0x22 :: t.bytes.flatMap (fun b => if b = 0x22 then [0x22, 0x22] else [b]) ++ [0x22]⟩
  else t

/-- A record. -/
def csvRecord (values : List Text) : Text := Text.join "," (values.map csvValue) ++ "\n"

/-- The record that names the columns. -/
def csvHeader : Text :=
  csvRecord ["timestamp", "session_id", "operation", "category", "schema", "key", "size", "extra_bytes", "error_kind", "error_message"]

/-- The record of an event. -/
def csvEvent (e : Event) : Text :=
  let error := e.error.getD {}
  csvRecord [e.time.renderMicros, e.session, e.operation.name, e.category.name, e.schema, e.key, .ofInt e.size, .ofInt e.extra,
    error.kind, error.message]

/-- Events in a format. -/
def render : ExportFormat → List Event → Text
  | .jsonLines, es => Text.concat (es.map jsonLine)
  | .csv, es => Text.concat (csvHeader :: es.map csvEvent)

end Export

end SensorWire
