import SensorWire.Codec.Error

/-!
# Fields

A field has a key and a slot that holds a value of one of ten types. A slot knows how its value is written, how a loosely typed value
is converted to it, and what it is empty. A field may also have no slot, and then only a type, which need not be one of the ten: every
use of it fails.
-/

namespace SensorWire

/-- The type of a field. -/
inductive FieldType where
  | invalid
  | uint8
  | uint16
  | uint32
  | uint64
  | float32
  | float64
  | string
  | bytes
  | bool
  | simple
  | other (number : UInt8)
  deriving DecidableEq, Repr

namespace FieldType

/-- The types that a slot can have. -/
def known : List FieldType := [uint8, uint16, uint32, uint64, float32, float64, string, bytes, bool, simple]

/-- The name of a type. -/
def name : FieldType → String
  | invalid => "invalid"
  | uint8 => "uint8"
  | uint16 => "uint16"
  | uint32 => "uint32"
  | uint64 => "uint64"
  | float32 => "float32"
  | float64 => "float64"
  | string => "string"
  | bytes => "bytes"
  | bool => "bool"
  | simple => "simple"
  | other n => s!"Type({n})"

/-- The number of a type. -/
def number : FieldType → UInt8
  | invalid => 0
  | uint8 => 1
  | uint16 => 2
  | uint32 => 3
  | uint64 => 4
  | float32 => 5
  | float64 => 6
  | string => 7
  | bytes => 8
  | bool => 9
  | simple => 10
  | other n => n

/-- The type with a number. -/
def ofNumber (n : UInt8) : FieldType :=
  if n = 0 then invalid else (known.find? fun t => t.number == n).getD (other n)

/-- The type of a slot with a name. -/
def ofName? (name : Text) : Option FieldType := known.find? fun t => name == Text.ofString t.name

/-- Whether a type is an unsigned integer type. -/
def isUnsigned : FieldType → Bool
  | uint8 | uint16 | uint32 | uint64 => true
  | _ => false

end FieldType

/-- The place of a field in a message, with its value. A floating-point number is its bit pattern. -/
inductive Slot where
  | uint8 (v : UInt8)
  | uint16 (v : UInt16)
  | uint32 (v : UInt32)
  | uint64 (v : UInt64)
  | float32 (bits : UInt32)
  | float64 (bits : UInt64)
  | string (v : Text)
  | bytes (v : List UInt8)
  | bool (v : Bool)
  | simple (v : UInt8)
  deriving DecidableEq, Repr

/-! ## Conversion from loosely typed values -/

/-- Whether a number is one of those that no simple value has: one byte holds those up to 23, two bytes those from 32. -/
def reservedSimple (n : Nat) : Bool := 24 ≤ n && n < 32

namespace Value

/-- The error of a value that has not the type a field wants. -/
def improper (key : Text) (v : Value) (want : String) : Error :=
  { code := .improperValue, op := "Set", key, detail := .notA v.typeName want }

/-- A value as a natural number of at most `limit`. -/
def toUnsigned (key : Text) (limit : Nat) (v : Value) : Except Error Nat :=
  let bounded (n : Nat) : Except Error Nat :=
    if limit < n then .error { code := .outOfRange, op := "Set", key, detail := .exceeds n limit } else .ok n
  let signed (n : Int) : Except Error Nat :=
    if n < 0 then .error { code := .improperValue, op := "Set", key, detail := .negativeValue n } else bounded n.toNat
  match v with
  | integer .int n | integer .int64 n => signed n
  | integer .uint n | integer .uint64 n | integer .uint32 n => bounded n.toNat
  | float64 bits => match Binary.toWord? bits with
    | some n => bounded n
    | none => .error { code := .improperValue, op := "Set", key, detail := .notUnsigned bits }
  | v => .error (v.improper key "unsigned integer")

/-- A value as a double-precision number. -/
def toDouble (key : Text) : Value → Except Error UInt64
  | float64 bits => .ok bits
  | float32 bits => .ok (Binary.widen bits)
  | integer .int n | integer .int64 n | integer .uint64 n => .ok (Binary.ofInt n)
  | v => .error (v.improper key "number")

/-- The elements of a list as bytes. -/
def toByteList (key : Text) : List Value → Except Error (List UInt8)
  | [] => .ok []
  | v :: vs => do
    let n ← v.toUnsigned key 0xff
    let rest ← toByteList key vs
    return UInt8.ofNat n :: rest

/-- A value as bytes: bytes, text, a list of numbers below 256, or nothing. -/
def toBytes (key : Text) : Value → Except Error (List UInt8)
  | null => .ok []
  | bytes b => .ok b
  | text t => .ok t.bytes
  | list vs => toByteList key vs
  | v => .error (v.improper key "byte string")

end Value

namespace Slot

/-- The type of a slot. -/
def type : Slot → FieldType
  | uint8 _ => .uint8
  | uint16 _ => .uint16
  | uint32 _ => .uint32
  | uint64 _ => .uint64
  | float32 _ => .float32
  | float64 _ => .float64
  | string _ => .string
  | bytes _ => .bytes
  | bool _ => .bool
  | simple _ => .simple

/-- The empty slot of a type, if slots of it exist. -/
def ofType? : FieldType → Option Slot
  | .uint8 => some (uint8 0)
  | .uint16 => some (uint16 0)
  | .uint32 => some (uint32 0)
  | .uint64 => some (uint64 0)
  | .float32 => some (float32 0)
  | .float64 => some (float64 0)
  | .string => some (string "")
  | .bytes => some (bytes [])
  | .bool => some (bool false)
  | .simple => some (simple 0)
  | .invalid | .other _ => none

/-- The value in a slot: whole numbers as 64-bit words. -/
def value : Slot → Value
  | uint8 v => .integer .uint64 v.toNat
  | uint16 v => .integer .uint64 v.toNat
  | uint32 v => .integer .uint64 v.toNat
  | uint64 v => .integer .uint64 v.toNat
  | float32 bits => .float32 bits
  | float64 bits => .float64 bits
  | string v => .text v
  | bytes v => .bytes v
  | bool v => .bool v
  | simple v => .integer .uint64 v.toNat

/-- The largest whole number that a slot holds; for the other types, none. -/
def capacity? : Slot → Option Nat
  | uint8 _ => some 0xff
  | uint16 _ => some 0xffff
  | uint32 _ => some 0xffffffff
  | uint64 _ => some 0xffffffffffffffff
  | bool _ => some 1
  | _ => none

/-- Whether the slot holds text or bytes, which decoding allocates. -/
def isHeap : Slot → Bool
  | string _ | bytes _ => true
  | _ => false

/-- The slot without the text or bytes that decoding allocated. -/
def release : Slot → Slot
  | string _ => string ""
  | bytes _ => bytes []
  | s => s

/-- A slot of the same type with a whole number in it, reduced to the width of the slot; a truth value is whether it is not zero. -/
def storeNat (s : Slot) (n : Nat) : Slot :=
  match s with
  | uint8 _ => uint8 (UInt8.ofNat n)
  | uint16 _ => uint16 (UInt16.ofNat n)
  | uint32 _ => uint32 (UInt32.ofNat n)
  | uint64 _ => uint64 (UInt64.ofNat n)
  | bool _ => bool (n != 0)
  | simple _ => simple (UInt8.ofNat n)
  | s => s

/-- A slot of the same type with a converted value in it. Whole numbers must fit, and a simple value must exist. -/
def set (key : Text) (s : Slot) (v : Value) : Except Error Slot :=
  match s with
  | uint8 _ => return s.storeNat (← v.toUnsigned key 0xff)
  | uint16 _ => return s.storeNat (← v.toUnsigned key 0xffff)
  | uint32 _ => return s.storeNat (← v.toUnsigned key 0xffffffff)
  | uint64 _ => return s.storeNat (← v.toUnsigned key 0xffffffffffffffff)
  | simple _ => do
    let n ← v.toUnsigned key 0xff
    if reservedSimple n then throw { code := .improperValue, op := "Set", key, detail := .noSimpleValue n }
    else return s.storeNat n
  | bool _ => match v with
    | .bool b => return bool b
    | v => return s.storeNat (← v.toUnsigned key 1)
  | float32 _ => return float32 (Binary.narrow (← v.toDouble key))
  | float64 _ => return float64 (← v.toDouble key)
  | string _ => match v with
    | .text t => return string t
    | v => throw (v.improper key "string")
  | bytes _ => return bytes (← v.toBytes key)

end Slot

/-! ## Fields -/

/-- What a field's key leads to: a slot, or no more than a type. -/
inductive Binding where
  | bound (slot : Slot)
  | unbound (type : FieldType)
  deriving DecidableEq, Repr

/-- A field of a message. A checked field refuses numbers that do not fit its slot; another one keeps their low bits. -/
structure Field where
  key : Text
  binding : Binding
  checked : Bool := false
  deriving DecidableEq, Repr

namespace Field

/-- A field with a slot. -/
def holding (key : Text) (slot : Slot) : Field := ⟨key, .bound slot, false⟩

/-- The field that refuses numbers that do not fit. -/
def strictly (f : Field) : Field := { f with checked := true }

/-- The type of a field. -/
def type (f : Field) : FieldType :=
  match f.binding with
  | .bound s => s.type
  | .unbound t => t

/-- The slot of a field. -/
def slot? (f : Field) : Option Slot :=
  match f.binding with
  | .bound s => some s
  | .unbound _ => none

/-- Whether the field has a slot. -/
def isBound (f : Field) : Bool := f.slot?.isSome

/-- The value of a field, and no value without a slot. -/
def value (f : Field) : Value :=
  match f.binding with
  | .bound s => s.value
  | .unbound _ => .null

/-- The field with another slot. -/
def store (f : Field) (s : Slot) : Field := { f with binding := .bound s }

/-- The field without the text or bytes that decoding allocated. -/
def release (f : Field) : Field :=
  match f.binding with
  | .bound s => f.store s.release
  | .unbound _ => f

/-- The field with a converted value. -/
def set (f : Field) (v : Value) : Except Error Field :=
  match f.binding with
  | .bound s => return f.store (← s.set f.key v)
  | .unbound t => throw { code := .unsupportedFieldType, op := "Set", key := f.key, detail := .fieldType t.name }

end Field

end SensorWire
