import SensorWire.Cbor.Head
import SensorWire.Text.Utf8

/-!
# Items

A well-formed CBOR item as a tree. The tree keeps the width of every head and which lengths were left open, so that `encode` gives
back the bytes that were read.
-/

namespace SensorWire.Cbor

/-- The two kinds of string. -/
inductive StringKind where
  | bytes
  | text
  deriving DecidableEq, Repr

/-- The major type of a kind of string. -/
def StringKind.major : StringKind → Major
  | bytes => .bytes
  | text => .text

/-- A CBOR item. `negative n` is the number `-1 - n`; a simple value is one of 0 to 23 or 32 to 255; floating-point numbers are bit
patterns. The `chunks`, `openArray` and `openMap` leave their lengths open. -/
inductive Item where
  | unsigned (w : Width) (n : Nat)
  | negative (w : Width) (n : Nat)
  | string (kind : StringKind) (w : Width) (content : List UInt8)
  | chunks (kind : StringKind) (pieces : List (Width × List UInt8))
  | array (w : Width) (items : List Item)
  | openArray (items : List Item)
  | map (w : Width) (pairs : List (Item × Item))
  | openMap (pairs : List (Item × Item))
  | tag (w : Width) (number : Nat) (content : Item)
  | simple (n : UInt8)
  | half (bits : UInt16)
  | single (bits : UInt32)
  | double (bits : UInt64)
  deriving Repr

namespace Item

/-! ## Writing -/

/-- The byte that closes an open length. -/
def breakByte : UInt8 := 0xff

/-- The bytes of a string with its head. -/
def encodeString (kind : StringKind) (w : Width) (content : List UInt8) : List UInt8 :=
  Head.encode ⟨kind.major, some w, content.length⟩ ++ content

mutual

/-- The bytes of an item. -/
def encode : Item → List UInt8
  | unsigned w n => Head.encode ⟨.unsigned, some w, n⟩
  | negative w n => Head.encode ⟨.negative, some w, n⟩
  | string kind w content => encodeString kind w content
  | chunks kind pieces =>
    Head.encode ⟨kind.major, none, 0⟩ ++ pieces.flatMap (fun (w, content) => encodeString kind w content) ++ [breakByte]
  | array w items => Head.encode ⟨.array, some w, items.length⟩ ++ encodeAll items
  | openArray items => Head.encode ⟨.array, none, 0⟩ ++ encodeAll items ++ [breakByte]
  | map w pairs => Head.encode ⟨.map, some w, pairs.length⟩ ++ encodePairs pairs
  | openMap pairs => Head.encode ⟨.map, none, 0⟩ ++ encodePairs pairs ++ [breakByte]
  | tag w number content => Head.encode ⟨.tag, some w, number⟩ ++ encode content
  | simple n => (Head.shortest .primitive n.toNat).encode
  | half bits => Head.encode ⟨.primitive, some .two, bits.toNat⟩
  | single bits => Head.encode ⟨.primitive, some .four, bits.toNat⟩
  | double bits => Head.encode ⟨.primitive, some .eight, bits.toNat⟩

/-- The bytes of items one after the other. -/
def encodeAll : List Item → List UInt8
  | [] => []
  | i :: items => encode i ++ encodeAll items

/-- The bytes of pairs one after the other. -/
def encodePairs : List (Item × Item) → List UInt8
  | [] => []
  | (k, v) :: pairs => encode k ++ encode v ++ encodePairs pairs

end

/-! ## Items with the shortest heads -/

/-- A natural number below 2^64. -/
def ofNat (n : Nat) : Item := unsigned (.shortest n) n

/-- An integer between -2^64 and 2^64. -/
def ofInt (n : Int) : Item :=
  if 0 ≤ n then ofNat n.toNat else negative (.shortest (-1 - n).toNat) (-1 - n).toNat

/-- A text string. -/
def ofText (t : Text) : Item := string .text (.shortest t.length) t.bytes

/-- A byte string. -/
def ofBytes (b : List UInt8) : Item := string .bytes (.shortest b.length) b

/-- An array. -/
def ofList (items : List Item) : Item := array (.shortest items.length) items

/-- A map. -/
def ofPairs (pairs : List (Item × Item)) : Item := map (.shortest pairs.length) pairs

/-- The truth values are the simple values 20 and 21. -/
def ofBool (b : Bool) : Item := simple (if b then 21 else 20)

/-- The simple value that stands for an absent value. -/
def null : Item := simple 22

/-- The simple value that stands for an undefined value. -/
def undefined : Item := simple 23

/-! ## Views -/

/-- The major type of an item. -/
def major : Item → Major
  | unsigned .. => .unsigned
  | negative .. => .negative
  | string kind .. => kind.major
  | chunks kind _ => kind.major
  | array .. => .array
  | openArray _ => .array
  | map .. => .map
  | openMap _ => .map
  | tag .. => .tag
  | _ => .primitive

/-- Whether an item says that there is no value. -/
def isNil : Item → Bool
  | simple n => n == 22 || n == 23
  | _ => false

end Item

end SensorWire.Cbor
