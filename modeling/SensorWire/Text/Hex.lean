import SensorWire.Text.Quoted
import SensorWire.Text.Words

/-!
# Bytes as hexadecimal text

Three ways to write bytes (`encode`, `spaced`, `dump`) and one to read them. Reading drops white space and at most one `0x` and
one `0X` in front, and then wants pairs of digits in either case.
-/

namespace SensorWire.Hex

/-! ## Writing -/

/-- The two digits of a byte. -/
def byte (b : UInt8) : List Char := [hexDigit (b.toNat / 16), hexDigit (b.toNat % 16)]

/-- The digits of the bytes, nothing between them. -/
def encode (bytes : List UInt8) : Text := .ofChars (bytes.flatMap byte)

/-- The digits of the bytes, a blank between each two. -/
def spaced (bytes : List UInt8) : Text := .join " " (bytes.map fun b => .ofChars (byte b))

/-- The column of a byte in a line of a dump, an absent one blank; the eighth is followed by a wider gap. -/
def dumpColumn (bytes : List UInt8) (i : Nat) : List Char :=
  (match bytes[i]? with
    | some b => byte b
    | none => [' ', ' ']) ++ (if i = 7 then [' ', ' '] else [' '])

/-- A byte as a character of a dump: itself when it is a graphic ASCII character or a blank, else a point. -/
def dumpChar (b : UInt8) : Char := if 32 ≤ b && b ≤ 126 then Char.ofNat b.toNat else '.'

/-- One line of a dump: the offset, up to sixteen bytes, and the same bytes as characters. -/
def dumpLine (offset : Nat) (line : List UInt8) : List Char :=
  hexDigits 8 offset ++ [' ', ' '] ++ (List.range 16).flatMap (dumpColumn line) ++ [' ', '|'] ++ line.map dumpChar ++ ['|', '\n']

/-- The lines of a dump from an offset on, in at most `fuel` lines. -/
def dumpLines : (fuel offset : Nat) → List UInt8 → List Char
  | 0, _, _ => []
  | _, _, [] => []
  | fuel + 1, offset, bytes => dumpLine offset (bytes.take 16) ++ dumpLines fuel (offset + 16) (bytes.drop 16)

/-- A dump of the bytes, sixteen to a line, and a note when there are none. -/
def dump (bytes : List UInt8) : Text :=
  if bytes.isEmpty then "(empty)\n" else .ofChars (dumpLines bytes.length 0 bytes)

/-! ## Reading -/

/-- Why text is not hexadecimal. -/
inductive Fault where
  | badByte (b : UInt8)
  | oddLength
  deriving DecidableEq, Repr

/-- A code point by its number, and in quotes when it is printable. -/
def codePoint (n : Nat) : List Char :=
  let digits := (Nat.toDigits 16 n).map Char.toUpper
  ['U', '+'] ++ List.replicate (4 - digits.length) '0' ++ digits ++
    (if Char.isPrintable (Char.ofNat n) then [' ', '\'', Char.ofNat n, '\''] else [])

/-- What a fault says. -/
def Fault.message : Fault → Text
  | .badByte b => "encoding/hex: invalid byte: " ++ Text.ofChars (codePoint b.toNat)
  | .oddLength => "encoding/hex: odd length hex string"

/-- The value of a digit in either case. -/
def digitValue? (b : UInt8) : Option Nat :=
  let n := b.toNat
  if 0x30 ≤ n && n ≤ 0x39 then some (n - 0x30)
  else if 0x61 ≤ n && n ≤ 0x66 then some (n - 0x57)
  else if 0x41 ≤ n && n ≤ 0x46 then some (n - 0x37)
  else none

/-- The bytes that pairs of digits spell; the first character that is no digit is reported, and only then an odd length. -/
def decode : List UInt8 → Except Fault (List UInt8)
  | [] => .ok []
  | [a] => match digitValue? a with
    | some _ => .error .oddLength
    | none => .error (.badByte a)
  | a :: b :: rest => match digitValue? a, digitValue? b with
    | none, _ => .error (.badByte a)
    | _, none => .error (.badByte b)
    | some x, some y => (decode rest).map (UInt8.ofNat (16 * x + y) :: ·)

/-- The bytes of a text without its white space. -/
def squeeze (t : Text) : List UInt8 := (t.runes.filter fun r => !r.isBlank).flatMap Rune.bytes

/-- A list of bytes without a given start. -/
def dropStart (start : Text) (bytes : List UInt8) : List UInt8 := (Text.afterStart? start.bytes bytes).getD bytes

/-- Reads hexadecimal text as people write it. -/
def parse (t : Text) : Except Fault (List UInt8) := decode (dropStart "0X" (dropStart "0x" (squeeze t)))

end SensorWire.Hex
