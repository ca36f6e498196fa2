import SensorWire.Cbor.Reader
import SensorWire.Event.Basic
import SensorWire.Text.Quoted
import SensorWire.Value

/-!
# Errors of the codec

An error has a code, the operation and key where it arose, and a detail. One code is acceptable: a buffer that was too small, which a
second attempt with more room mends. All others are fatal. `Error.render` is the only place that knows the wording.
-/

namespace SensorWire

/-- The kinds of failure. -/
inductive Code where
  | bufferTooSmall
  | malformedInput
  | unexpectedWireType
  | fieldCountMismatch
  | unrecognizedKey
  | trailingData
  | allocationFailure
  | unsupportedFieldType
  | outOfRange
  | improperValue
  | other (number : UInt8)
  deriving DecidableEq, Repr

namespace Code

/-- The kinds that have a name of their own. -/
def known : List Code :=
  [bufferTooSmall, malformedInput, unexpectedWireType, fieldCountMismatch, unrecognizedKey, trailingData, allocationFailure,
   unsupportedFieldType, outOfRange, improperValue]

/-- The number of a code. -/
def number : Code → UInt8
  | bufferTooSmall => 1
  | malformedInput => 2
  | unexpectedWireType => 3
  | fieldCountMismatch => 4
  | unrecognizedKey => 5
  | trailingData => 6
  | allocationFailure => 7
  | unsupportedFieldType => 8
  | outOfRange => 9
  | improperValue => 10
  | other n => n

/-- The code with a number. -/
def ofNumber (n : UInt8) : Code := (known.find? fun c => c.number == n).getD (other n)

/-- The name of a code. -/
def name : Code → String
  | bufferTooSmall => "BUFFER_TOO_SMALL"
  | malformedInput => "MALFORMED_INPUT"
  | unexpectedWireType => "UNEXPECTED_WIRE_TYPE"
  | fieldCountMismatch => "FIELD_COUNT_MISMATCH"
  | unrecognizedKey => "UNRECOGNIZED_KEY"
  | trailingData => "TRAILING_DATA"
  | allocationFailure => "ALLOCATION_FAILURE"
  | unsupportedFieldType => "UNSUPPORTED_FIELD_TYPE"
  | outOfRange => "OUT_OF_RANGE"
  | improperValue => "IMPROPER_VALUE"
  | other _ => "UNKNOWN"

/-- A code in the words of a message. -/
def words : Code → String
  | bufferTooSmall => "buffer too small"
  | malformedInput => "malformed input"
  | unexpectedWireType => "unexpected wire type"
  | fieldCountMismatch => "field count mismatch"
  | unrecognizedKey => "unrecognized key"
  | trailingData => "trailing data"
  | allocationFailure => "allocation failure"
  | unsupportedFieldType => "unsupported field type"
  | outOfRange => "out of range"
  | improperValue => "improper value"
  | other _ => "unknown"

/-- Whether an error ends the operation; only a buffer that was too small does not. -/
def isFatal (c : Code) : Bool := c != bufferTooSmall

end Code

/-- The outcome of an operation at large. -/
inductive Outcome where
  | success
  | acceptable
  | fatal
  | other (number : UInt8)
  deriving DecidableEq, Repr

namespace Outcome

/-- The name of an outcome. -/
def name : Outcome → String
  | success => "SUCCESS"
  | acceptable => "ACCEPTABLE"
  | fatal => "FATAL"
  | other _ => "UNKNOWN"

/-- The outcome with a number. -/
def ofNumber (n : UInt8) : Outcome :=
  match n with
  | 0 => success
  | 1 => acceptable
  | 2 => fatal
  | n => other n

end Outcome

/-- What an error says beyond its code. -/
inductive Detail where
  | none
  | negativeFieldCount (n : Int)
  | negativeArrayLength (n : Int)
  | elementsOwed (n : Nat)
  | noElementsOwed
  | pairsWritten (declared written : Nat)
  | noSimpleValue (n : Nat)
  | fieldType (name : Text)
  | unboundField (index : Nat) (type : Text)
  | emptyKey (index : Nat)
  | longKey (limit : Nat)
  | duplicateKey
  | expected (what : String) (found : String)
  | openMap
  | openArray
  | fieldCount (wanted : Int) (found : Nat)
  | pairsConsumed (read count : Nat)
  | allConsumed (count : Nat)
  | trailing (n : Nat)
  | endOfMap
  | truncatedSimple
  | wideSimple (n : Nat)
  | budget (requested left limit : Int64)
  | stringExceeds (n : Nat)
  | arrayExceeds (n : Nat)
  | foundKey (key : Text)
  | doesNotFit (n : Nat) (type : String)
  | notBoolean (n : Nat)
  | exceeds (n limit : Nat)
  | negativeValue (n : Int)
  | notUnsigned (bits : UInt64)
  | notA (type want : String)
  | noSamples
  | sampleCount (present declared : Nat)
  | sampleRoom (n room : Nat)
  | payloadLength (declared actual : Nat)
  | notIn (message : Text)
  | note (text : Text)
  deriving DecidableEq, Repr

/-- What a detail says. -/
def Detail.render : Detail → Text
  | none => ""
  | negativeFieldCount n => s!"negative field count {n}"
  | negativeArrayLength n => s!"negative array length {n}"
  | elementsOwed n => s!"{n} array elements still owed"
  | noElementsOwed => "no array elements owed"
  | pairsWritten declared written => s!"declared {declared} pairs, wrote {written}"
  | noSimpleValue n => s!"{n} has no simple value encoding"
  | fieldType name => "type " ++ name
  | unboundField index type => Text.concat [s!"field {index} has type ", type, " and no location"]
  | emptyKey index => s!"field {index} has an empty key"
  | longKey limit => s!"key longer than {limit} bytes"
  | duplicateKey => "duplicate key"
  | expected what found => s!"expected {what}, found {found}"
  | openMap => "indefinite-length map"
  | openArray => "indefinite-length array"
  | fieldCount wanted found => s!"expected {wanted} fields but got {found}"
  | pairsConsumed read count => s!"{read} of {count} pairs consumed"
  | allConsumed count => s!"all {count} pairs consumed"
  | trailing n => s!"{n} bytes after map"
  | endOfMap => "unexpected end of map"
  | truncatedSimple => "truncated simple value"
  | wideSimple n => s!"simple value {n} in two-byte form"
  | budget requested left limit => s!"{requested} bytes requested, {left} of {limit} left"
  | stringExceeds n => s!"length {n} exceeds input"
  | arrayExceeds n => s!"array length {n} exceeds input"
  | foundKey key => "found " ++ key.quoted
  | doesNotFit n type => s!"{n} does not fit {type}"
  | notBoolean n => s!"{n} is not a boolean"
  | exceeds n limit => s!"{n} exceeds {limit}"
  | negativeValue n => s!"negative value {n}"
  | notUnsigned bits => Layout.general.double bits ++ " is not an unsigned integer"
  | notA type want => s!"{type} is not a {want}"
  | noSamples => "no samples"
  | sampleCount present declared => s!"{present} samples for num_samples {declared}"
  | sampleRoom n room => s!"{n} samples, room for {room}"
  | payloadLength declared actual => s!"declares {declared} bytes, payload has {actual}"
  | notIn message => "not in " ++ message
  | note text => text

/-- What lies under an error. -/
inductive Cause where
  | item (fault : Cbor.Fault)
  | head (fault : Cbor.Head.Fault)
  | note (text : Text)
  deriving DecidableEq, Repr

/-- What a cause says. -/
def Cause.render : Cause → Text
  | item fault => fault.message
  | head fault => fault.message
  | note text => text

/-- An error of the codec. -/
structure Error where
  code : Code
  /-- The operation that failed. -/
  op : Text := ""
  key : Text := ""
  detail : Detail := .none
  /-- The bytes by which a buffer was too small. -/
  needed : Int := 0
  /-- The keys that an error lists: unrecognized ones, or those of values out of range. -/
  keys : List Text := []
  cause : Option Cause := none
  deriving DecidableEq, Repr

namespace Error

/-- The text of an error. -/
def render (e : Error) : Text :=
  let detail := e.detail.render
  Text.concat
    ["wire: ",
     if e.op.isEmpty then "" else Text.concat [e.op, if e.key.isEmpty then "" else Text.concat ["(", e.key, ")"], ": "],
     e.code.words,
     if e.code = .bufferTooSmall ∧ 0 < e.needed then s!": {e.needed} more bytes needed" else "",
     if e.keys.isEmpty then "" else ": " ++ Text.join ", " e.keys,
     if detail.isEmpty then "" else ": " ++ detail,
     match e.cause with
     | some c => ": " ++ c.render
     | none => ""]

/-- Whether the error ends the operation. -/
def isFatal (e : Error) : Bool := e.code.isFatal

/-- The outcome that the error is. -/
def outcome (e : Error) : Outcome := if e.isFatal then .fatal else .acceptable

/-- Whether the error only lists skipped keys or values out of range of a message that was otherwise read to its end. -/
def isAggregate (e : Error) : Bool := !e.keys.isEmpty && (e.code == .unrecognizedKey || e.code == .outOfRange)

/-- The bytes a second attempt needs in addition. -/
def extraBytes (e : Error) : Int := if e.code = .bufferTooSmall then e.needed else 0

/-- What a trace says about an error. -/
def report (e : Error) : ErrorReport := ⟨e.code.name, e.render, e.op⟩

/-- The event of an error. -/
def event (operation : Operation) (e : Error) : Event :=
  { operation, category := .error, key := e.key, error := some e.report }

end Error

end SensorWire
