import SensorWire.Text.Basic

/-!
# Reading text as UTF-8

`runes` reads bytes from the left: a well-formed sequence of one to four bytes is a character, and a byte that begins none stands
alone. Overlong forms, surrogates and values past U+10FFFF are not well formed. `IsUtf8` says that no byte stands alone.
-/

namespace SensorWire

/-- What reading UTF-8 meets: a character, or a byte that begins no well-formed sequence. -/
inductive Rune where
  | char (c : Char)
  | stray (b : UInt8)
  deriving DecidableEq, Repr

namespace Utf8

/-- Whether a byte continues a sequence. -/
def isTail (b : UInt8) : Bool := 0x80 ≤ b && b ≤ 0xbf

/-- Whether a byte may come second after the lead byte of a three-byte sequence. -/
def secondOfThree (lead b : UInt8) : Bool :=
  if lead = 0xe0 then 0xa0 ≤ b && b ≤ 0xbf
  else if lead = 0xed then 0x80 ≤ b && b ≤ 0x9f
  else isTail b

/-- Whether a byte may come second after the lead byte of a four-byte sequence. -/
def secondOfFour (lead b : UInt8) : Bool :=
  if lead = 0xf0 then 0x90 ≤ b && b ≤ 0xbf
  else if lead = 0xf4 then 0x80 ≤ b && b ≤ 0x8f
  else isTail b

/-- The value that the payload bits of a byte add to those before it. -/
def extend (high : Nat) (b : UInt8) : Nat := high * 64 + b.toNat % 64

/-- The characters and stray bytes of a byte sequence. -/
def runes : List UInt8 → List Rune
  | [] => []
  | b :: rest =>
    if b < 0x80 then .char (Char.ofNat b.toNat) :: runes rest
    else match rest with
      | [] => [.stray b]
      | b1 :: rest1 =>
        if 0xc2 ≤ b && b ≤ 0xdf && isTail b1 then
          .char (Char.ofNat (extend (b.toNat % 32) b1)) :: runes rest1
        else match rest1 with
          | [] => .stray b :: runes (b1 :: [])
          | b2 :: rest2 =>
            if 0xe0 ≤ b && b ≤ 0xef && secondOfThree b b1 && isTail b2 then
              .char (Char.ofNat (extend (extend (b.toNat % 16) b1) b2)) :: runes rest2
            else match rest2 with
              | [] => .stray b :: runes (b1 :: b2 :: [])
              | b3 :: rest3 =>
                if 0xf0 ≤ b && b ≤ 0xf4 && secondOfFour b b1 && isTail b2 && isTail b3 then
                  .char (Char.ofNat (extend (extend (extend (b.toNat % 8) b1) b2) b3)) :: runes rest3
                else .stray b :: runes (b1 :: b2 :: b3 :: rest3)

/-- Whether every byte belongs to a well-formed sequence. -/
def isValid (bytes : List UInt8) : Bool :=
  (runes bytes).all fun
    | .char _ => true
    | .stray _ => false

end Utf8

/-- A byte sequence that is well-formed UTF-8. -/
def IsUtf8 (bytes : List UInt8) : Prop := Utf8.isValid bytes = true

instance (bytes : List UInt8) : Decidable (IsUtf8 bytes) := inferInstanceAs (Decidable (_ = true))

namespace Text

/-- The characters and stray bytes of a text. -/
def runes (t : Text) : List Rune := Utf8.runes t.bytes

/-- The characters of a text, a stray byte read as the replacement character U+FFFD. -/
def chars (t : Text) : List Char :=
  t.runes.map fun
    | .char c => c
    | .stray _ => Char.ofNat 0xfffd

/-- The number of characters, a stray byte counting as one. -/
def charCount (t : Text) : Nat := t.runes.length

/-- The text as a string, when it is well-formed UTF-8. -/
def toString? (t : Text) : Option String :=
  if Utf8.isValid t.bytes then some (String.ofList t.chars) else none

end Text

end SensorWire
