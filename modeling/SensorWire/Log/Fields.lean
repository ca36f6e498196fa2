import SensorWire.Event.Basic
import SensorWire.Text.Quoted
import SensorWire.Value

/-!
# Events as named fields

Structured loggers take an event as a level, a message and named fields. `Event.line` is the form of one line of text, with the fields
that a reader of the category expects even when they are zero.
-/

namespace SensorWire

/-- How much attention an event asks for. -/
inductive Level where
  | debug
  | warning
  deriving DecidableEq, Repr

/-- The level as it stands in a line. -/
def Level.name : Level → String
  | debug => "DEBUG"
  | warning => "WARN"

namespace Event

/-- The level of an event. -/
def level (e : Event) : Level := if e.category = .error then .warning else .debug

/-- A field, left out if it is not wanted. -/
def fieldIf (keep : Bool) (key : Text) (v : Value) : List (Text × Value) := if keep then [(key, v)] else []

/-- A text field. -/
def textField (key t : Text) : List (Text × Value) := [(key, .text t)]

/-- A text field, left out if it is empty. -/
def labelField (key t : Text) : List (Text × Value) := fieldIf (!t.isEmpty) key (.text t)

/-- The fields of an error. -/
def errorFields (e : Event) : List (Text × Value) :=
  match e.error with
  | some r => textField "error_kind" r.kind ++ textField "error_msg" r.message ++ labelField "error_context" r.context
  | none => []

/-- The fields that every event has and those that name what it is about. -/
def subjectFields (e : Event) : List (Text × Value) :=
  textField "op" e.operation.name ++ textField "category" e.category.name ++ labelField "session_id" e.session ++
    labelField "schema" e.schema ++ labelField "key" e.key

/-- An event as fields, without those that are empty. -/
def fields (e : Event) : List (Text × Value) :=
  e.subjectFields ++ fieldIf (e.size != 0) "size" (.integer .int e.size) ++
    fieldIf (e.extra != 0) "extra_bytes" (.integer .int e.extra) ++ e.errorFields

/-- The fields of the line of an event: messages have a size, and overflows also what is missing. -/
def lineFields (e : Event) : List (Text × Value) :=
  e.subjectFields ++ fieldIf (e.category = .message || e.category = .overflow) "size" (.integer .int e.size) ++
    fieldIf (e.category = .overflow) "extra_bytes" (.integer .int e.extra) ++ e.errorFields

/-- Whether a character makes quotes necessary around a value. -/
def asksQuotes : Rune → Bool
  | .stray _ => true
  | .char c =>
    if c.toNat < 0x80 then c.toNat ≤ 0x20 || c == '"' || c == '='
    else c.toNat == 0xfffd || Char.isBlank c || !Char.isPrintable c

/-- A text as the value of a field in a line. -/
def lineText (t : Text) : Text := if t.isEmpty || t.runes.any asksQuotes then t.quoted else t

/-- A value in a line. -/
def lineValue : Value → Text
  | .text t => lineText t
  | .integer _ n => .ofInt n
  | _ => ""

/-- The line of an event. -/
def line (e : Event) : Text :=
  Text.concat [Text.join " " ([Text.concat ["level=", e.level.name], "msg=codec"] ++
    e.lineFields.map fun (k, v) => Text.concat [k, "=", lineValue v]), "\n"]

end Event

end SensorWire
