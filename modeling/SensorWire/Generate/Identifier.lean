import SensorWire.Text.Case
import SensorWire.Text.Words

/-!
# Identifiers of generated code

A key or message name becomes an exported identifier: its words, which anything but letters and digits divides, follow one another with
their first bytes capitalised, and some abbreviations are all capitals.
-/

namespace SensorWire.Identifier

/-- Whether this belongs to a word. -/
def inWord : Rune → Bool
  | .char c => Char.isLetter c || Char.isDecimal c
  | .stray _ => false

/-- The words of a name, the current one first. -/
def wordsFrom (current : List Rune) : List Rune → List Text
  | [] => if current.isEmpty then [] else [.ofRunes current.reverse]
  | r :: rest =>
    if inWord r then wordsFrom (r :: current) rest
    else if current.isEmpty then wordsFrom [] rest
    else .ofRunes current.reverse :: wordsFrom [] rest

/-- The words of a name. -/
def words (t : Text) : List Text := wordsFrom [] t.runes

/-- The abbreviations that are written in capitals. -/
def abbreviations : List String := ["api", "cpu", "crc", "id", "psu", "rbr", "url", "utc", "uuid"]

/-- A word with its first byte capitalised. The first byte of a longer character is no character, and is replaced by one. -/
def capitalised (word : Text) : Text :=
  match word.bytes with
  | [] => word
  | b :: rest =>
    if b < 0x80 then ⟨(Char.toCapital (Char.ofNat b.toNat)).toNat.toUInt8 :: rest⟩
    else Text.ofChars [Char.ofNat 0xfffd] ++ ⟨rest⟩

/-- A word inside an identifier. -/
def word (w : Text) : Text :=
  match abbreviations.find? fun (a : String) => w.toSmalls == Text.ofString a with
  | some a => (Text.ofString a).toCapitals
  | none => capitalised w

/-- The identifier that a name becomes. One that would be empty or start with a digit starts with `X`. -/
def ofName (t : Text) : Text :=
  let name := Text.concat ((words t).map word)
  match name.bytes with
  | [] => "X"
  | b :: _ => if 0x30 ≤ b && b ≤ 0x39 then "X" ++ name else name

end SensorWire.Identifier
