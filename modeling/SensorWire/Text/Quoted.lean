import SensorWire.Text.Utf8
import SensorWire.Text.Classes

/-!
# Quoted text

Text is quoted for messages between double quotes. Printable characters stand for themselves; a quote and a backslash are marked
with a backslash; the seven control characters with a letter of their own are written with it; other ASCII controls and stray
bytes are `\x` and two digits, other characters `\u` and four or `\U` and eight.
-/

namespace SensorWire

/-- The lower-case hexadecimal digit of a number below sixteen. -/
def hexDigit (n : Nat) : Char := if n < 10 then Char.ofNat (0x30 + n) else Char.ofNat (0x57 + n)

/-- The last `width` hexadecimal digits of a number. -/
def hexDigits : (width n : Nat) → List Char
  | 0, _ => []
  | width + 1, n => hexDigits width (n / 16) ++ [hexDigit (n % 16)]

namespace Quoted

/-- The letter that stands for a control character after a backslash. -/
def controlLetter? (c : Char) : Option Char :=
  match c.toNat with
  | 0x07 => some 'a'
  | 0x08 => some 'b'
  | 0x09 => some 't'
  | 0x0a => some 'n'
  | 0x0b => some 'v'
  | 0x0c => some 'f'
  | 0x0d => some 'r'
  | _ => none

/-- One character or stray byte between the quotes. -/
def rune : Rune → List Char
  | .stray b => '\\' :: 'x' :: hexDigits 2 b.toNat
  | .char c =>
    if c = '"' || c = '\\' then ['\\', c]
    else if Char.isPrintable c then [c]
    else match controlLetter? c with
      | some l => ['\\', l]
      | none =>
        if c.toNat < 0x80 then '\\' :: 'x' :: hexDigits 2 c.toNat
        else if c.toNat < 0x10000 then '\\' :: 'u' :: hexDigits 4 c.toNat
        else '\\' :: 'U' :: hexDigits 8 c.toNat

end Quoted

/-- The text between double quotes, with escapes. -/
def Text.quoted (t : Text) : Text := ofChars ('"' :: t.runes.flatMap Quoted.rune ++ ['"'])

end SensorWire
