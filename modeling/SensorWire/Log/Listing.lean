import SensorWire.Event.Basic

/-!
# Logs for a reader

Each event is a line with its time, session, operation, category and schema, lines with its details, and an empty line.
-/

namespace SensorWire.Event

/-- The first bytes of a session's name, which tell sessions apart for a reader. -/
def shortSession (session : Text) : Text := if session.isEmpty then "-" else session.take 8

/-- A detail, left out if it is not wanted. -/
def detailIf (keep : Bool) (line : Text) : Text := if keep then Text.concat ["  ", line, "\n"] else ""

/-- An event for a reader. -/
def listing (e : Event) : Text :=
  let operation := Text.ofString e.operation.name
  Text.concat [e.time.renderMicros, " [sess:", shortSession e.session, "] ", operation.padEnd operation.length 6, " ",
    e.category.name, " ", if e.schema.isEmpty then "-" else e.schema, "\n",
    detailIf (!e.key.isEmpty) ("Key: " ++ e.key),
    detailIf (0 < e.size) s!"Size: {e.size} bytes",
    detailIf (0 < e.extra) s!"Extra bytes needed: {e.extra}",
    match e.error with
    | some r => Text.concat [detailIf true ("Kind: " ++ r.kind), detailIf true ("Message: " ++ r.message),
        detailIf (!r.context.isEmpty) ("Context: " ++ r.context)]
    | none => "", "\n"]

end SensorWire.Event
