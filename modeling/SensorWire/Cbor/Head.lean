import SensorWire.Bytes

/-!
# Item heads

Every CBOR item begins with a head: a byte whose top three bits are the major type and whose other five either are the argument,
or announce one, two, four or eight bytes of it, or say that the length is left open. `Head.encode` writes a head and `Head.read`
takes one off the front of a byte sequence; `Head.shortest` is the head that takes the fewest bytes.
-/

namespace SensorWire

namespace Cbor

/-- The major type of an item. -/
inductive Major where
  | unsigned
  | negative
  | bytes
  | text
  | array
  | map
  | tag
  | primitive
  deriving DecidableEq, Repr

namespace Major

/-- The three bits that stand for a major type. -/
def number : Major → Nat
  | unsigned => 0
  | negative => 1
  | bytes => 2
  | text => 3
  | array => 4
  | map => 5
  | tag => 6
  | primitive => 7

/-- The major type in the top three bits of a byte. -/
def ofByte (b : UInt8) : Major :=
  match b.toNat / 32 with
  | 0 => unsigned
  | 1 => negative
  | 2 => bytes
  | 3 => text
  | 4 => array
  | 5 => map
  | 6 => tag
  | _ => primitive

/-- The name of a major type in reports about ill-formed items. -/
def name : Major → String
  | unsigned => "positive integer"
  | negative => "negative integer"
  | bytes => "byte string"
  | text => "UTF-8 text string"
  | array => "array"
  | map => "map"
  | tag => "tag"
  | primitive => "primitives"

/-- Whether items of this type may leave their length open. -/
def mayBeOpen : Major → Bool
  | bytes | text | array | map => true
  | _ => false

end Major

/-- Where the argument of a head stands: in the first byte, or in so many bytes after it. -/
inductive Width where
  | inline
  | one
  | two
  | four
  | eight
  deriving DecidableEq, Repr

namespace Width

/-- The number of bytes that the argument takes after the first one. -/
def size : Width → Nat
  | inline => 0
  | one => 1
  | two => 2
  | four => 4
  | eight => 8

/-- The five low bits of the first byte of a head with an argument. -/
def info (w : Width) (arg : Nat) : Nat :=
  match w with
  | inline => arg
  | one => 24
  | two => 25
  | four => 26
  | eight => 27

/-- The width that the five low bits of the first byte announce. -/
def ofInfo? (info : Nat) : Option Width :=
  if info < 24 then some inline
  else match info with
    | 24 => some one
    | 25 => some two
    | 26 => some four
    | 27 => some eight
    | _ => none

/-- Whether an argument can be written with a width. -/
def Holds (w : Width) (arg : Nat) : Prop :=
  match w with
  | inline => arg < 24
  | w => arg < Nat.pow 256 w.size

/-- The narrowest width for an argument below 2^64. -/
def shortest (arg : Nat) : Width :=
  if arg < 24 then inline
  else if arg < 0x100 then one
  else if arg < 0x10000 then two
  else if arg < 0x100000000 then four
  else eight

end Width

/-- The last `size` bytes of a number, most significant first. -/
def bigEndian : (size n : Nat) → List UInt8
  | 0, _ => []
  | size + 1, n => bigEndian size (n / 256) ++ [UInt8.ofNat n]

/-- The number that bytes spell, most significant first. -/
def ofBigEndian (bytes : List UInt8) : Nat := bytes.foldl (fun n b => 256 * n + b.toNat) 0

/-- The head of an item; without a width its length is open. -/
structure Head where
  major : Major
  width : Option Width
  arg : Nat
  deriving DecidableEq, Repr

namespace Head

/-- Why there is no head at the front of a byte sequence. -/
inductive Fault where
  | truncated
  | reserved (info : Nat)
  | endless (major : Major)
  deriving DecidableEq, Repr

/-- What the codec says about a missing head. -/
def Fault.message : Fault → String
  | truncated => "unexpected EOF"
  | reserved info => s!"reserved additional information {info}"
  | endless major => s!"indefinite length not allowed for major type {major.number}"

/-- The first byte of a head. -/
def initial (major : Major) (info : Nat) : UInt8 := UInt8.ofNat (32 * major.number + info)

/-- The bytes of a head. -/
def encode (h : Head) : List UInt8 :=
  match h.width with
  | none => [initial h.major 31]
  | some w => initial h.major (w.info h.arg) :: bigEndian w.size h.arg

/-- The head with an argument in as few bytes as it takes. -/
def shortest (major : Major) (arg : Nat) : Head := ⟨major, some (.shortest arg), arg⟩

/-- Takes a head off the front of a byte sequence. -/
def read : List UInt8 → Except Fault (Head × List UInt8)
  | [] => .error .truncated
  | b :: rest =>
    let major := Major.ofByte b
    let info := b.toNat % 32
    match Width.ofInfo? info with
    | some .inline => .ok (⟨major, some .inline, info⟩, rest)
    | some w => match splitExact w.size rest with
      | some (arg, rest) => .ok (⟨major, some w, ofBigEndian arg⟩, rest)
      | none => .error .truncated
    | none =>
      if info = 31 then
        if major.mayBeOpen then .ok (⟨major, none, 0⟩, rest) else .error (.endless major)
      else .error (.reserved info)

end Head

end Cbor

end SensorWire
