import SensorWire.Number.Layout
import SensorWire.Time.Timestamp

/-!
# Loosely typed values

Fields are set from values whose type is only known when they arrive: what a configuration file, a command line or an embedded map
holds. Integers remember the type they came with, because a field takes only some of them.
-/

namespace SensorWire

/-- The type that an integer came with. -/
inductive IntKind where
  | int
  | int64
  | int32
  | uint
  | uint64
  | uint32
  | uint16
  | uint8
  deriving DecidableEq, Repr

/-- The name of an integer type in messages. -/
def IntKind.name : IntKind → String
  | int => "int"
  | int64 => "int64"
  | int32 => "int32"
  | uint => "uint"
  | uint64 => "uint64"
  | uint32 => "uint32"
  | uint16 => "uint16"
  | uint8 => "uint8"

/-- A value of any type. A `map` has text keys, in their order, `pairs` has any; `big`, `simple` and `tag` come from embedded maps only. -/
inductive Value where
  | null
  | bool (b : Bool)
  | text (t : Text)
  | integer (kind : IntKind) (n : Int)
  | float64 (bits : UInt64)
  | float32 (bits : UInt32)
  | bytes (b : List UInt8)
  | floats (bits : List UInt64)
  | list (values : List Value)
  | map (entries : List (Text × Value))
  | pairs (entries : List (Value × Value))
  | time (t : Timestamp)
  | big (n : Int)
  | simple (n : UInt8)
  | tag (number : Nat) (content : Value)
  deriving Repr, Inhabited

/-- The name of a value's type in messages. -/
def Value.typeName : Value → String
  | null => "<nil>"
  | bool _ => "bool"
  | text _ => "string"
  | integer kind _ => kind.name
  | float64 _ => "float64"
  | float32 _ => "float32"
  | bytes _ => "[]uint8"
  | floats _ => "[]float64"
  | list _ => "[]interface \x7b\x7d"
  | map _ => "map[string]interface \x7b\x7d"
  | pairs _ => "map[interface \x7b\x7d]interface \x7b\x7d"
  | time _ => "time.Time"
  | big _ => "big.Int"
  | simple _ => "cbor.SimpleValue"
  | tag .. => "cbor.Tag"

end SensorWire
