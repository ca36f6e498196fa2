import SensorWire.Time.Timestamp

/-!
# Codec events

Encoding and decoding report what happens as a trace of events: a message completed, a buffer that was too small, a key that no
table knows, an error. The numbers of operations and categories are part of the log format, in which other numbers may occur.
-/

namespace SensorWire

/-- The direction of the codec that an event comes from. -/
inductive Operation where
  | encode
  | decode
  | other (number : UInt8)
  deriving DecidableEq, Repr, Inhabited

namespace Operation

/-- The number of an operation in a log. -/
def number : Operation → UInt8
  | encode => 0
  | decode => 1
  | other n => n

/-- The operation with a number. -/
def ofNumber (n : UInt8) : Operation :=
  match n with
  | 0 => encode
  | 1 => decode
  | n => other n

/-- The name of an operation. -/
def name : Operation → String
  | encode => "ENCODE"
  | decode => "DECODE"
  | other _ => "UNKNOWN"

/-- The operations that a log may hold. -/
def known : List Operation := [encode, decode]

/-- The operation with a name. -/
def ofName? (name : Text) : Option Operation := known.find? fun o => name == Text.ofString o.name

end Operation

/-- What an event reports. -/
inductive Category where
  | message
  | overflow
  | unknownKey
  | error
  | other (number : UInt8)
  deriving DecidableEq, Repr, Inhabited

namespace Category

/-- The number of a category in a log. -/
def number : Category → UInt8
  | message => 0
  | overflow => 1
  | unknownKey => 2
  | error => 3
  | other n => n

/-- The category with a number. -/
def ofNumber (n : UInt8) : Category :=
  match n with
  | 0 => message
  | 1 => overflow
  | 2 => unknownKey
  | 3 => error
  | n => other n

/-- The name of a category. -/
def name : Category → String
  | message => "MESSAGE"
  | overflow => "OVERFLOW"
  | unknownKey => "UNKNOWN_KEY"
  | error => "ERROR"
  | other _ => "UNKNOWN"

/-- The categories that a log may hold. -/
def known : List Category := [message, overflow, unknownKey, error]

/-- The category with a name. -/
def ofName? (name : Text) : Option Category := known.find? fun c => name == Text.ofString c.name

end Category

/-- The error of an event: its kind, its message, and the operation it came from. -/
structure ErrorReport where
  kind : Text := ""
  message : Text := ""
  context : Text := ""
  deriving DecidableEq, Repr, Inhabited

/-- One event of the trace of a codec. -/
structure Event where
  time : Timestamp := {}
  /-- The run of a tool or a device that the event belongs to. -/
  session : Text := ""
  operation : Operation := .encode
  category : Category := .message
  /-- The name of the message. -/
  schema : Text := ""
  key : Text := ""
  /-- The encoded size in bytes. -/
  size : Int := 0
  /-- The bytes by which a buffer was too small. -/
  extra : Int := 0
  error : Option ErrorReport := none
  deriving DecidableEq, Repr, Inhabited

/-- What every event of a codec run carries. -/
structure Labels where
  session : Text := ""
  schema : Text := ""
  time : Timestamp := {}
  deriving DecidableEq, Repr, Inhabited

/-- An event with the labels of a run. -/
def Labels.mark (l : Labels) (e : Event) : Event := { e with session := l.session, schema := l.schema, time := l.time }

end SensorWire
