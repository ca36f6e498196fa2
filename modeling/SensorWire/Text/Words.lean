import SensorWire.Text.Classes
import SensorWire.Text.Utf8

/-!
# Words

Text without the white space around it, and the words that white space divides it into. A stray byte is part of a word.
-/

namespace SensorWire

namespace Rune

/-- The bytes that a character or stray byte was read from. -/
def bytes : Rune → List UInt8
  | char c => String.utf8EncodeChar c
  | stray b => [b]

/-- Whether this is white space. -/
def isBlank : Rune → Bool
  | char c => Char.isBlank c
  | stray _ => false

end Rune

namespace Text

/-- The text that characters and stray bytes make. -/
def ofRunes (rs : List Rune) : Text := ⟨rs.flatMap Rune.bytes⟩

/-- The text without the white space around it. -/
def trim (t : Text) : Text :=
  ofRunes (((t.runes.dropWhile Rune.isBlank).reverse.dropWhile Rune.isBlank).reverse)

/-- The words of a sequence of runes, the current one first. -/
def wordsFrom (current : List Rune) : List Rune → List (List Rune)
  | [] => if current.isEmpty then [] else [current.reverse]
  | r :: rest =>
    if r.isBlank then
      if current.isEmpty then wordsFrom [] rest else current.reverse :: wordsFrom [] rest
    else wordsFrom (r :: current) rest

/-- The words that white space divides a text into. -/
def words (t : Text) : List Text := (wordsFrom [] t.runes).map ofRunes

end Text

end SensorWire
