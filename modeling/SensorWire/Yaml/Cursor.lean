import SensorWire.Text.Utf8

/-!
# Places in a document

A `Cursor` is a place in the characters of a YAML document, with the line and column it is at. Tokens are taken off its front.
-/

namespace SensorWire.Yaml

/-- Whether a character ends a line. -/
def isBreak (c : Char) : Bool := c == '\n' || c == '\r' || c == '\x85' || c == '\u2028' || c == '\u2029'

/-- Whether a character is a blank within a line. -/
def isBlank (c : Char) : Bool := c == ' ' || c == '\t'

/-- Whether a character may be part of a name: a letter or digit of ASCII, a hyphen or an underscore. -/
def isNameChar (c : Char) : Bool := c.isAlphanum || c == '-' || c == '_'

/-- Whether a character may stand in a document. -/
def isAllowed (c : Char) : Bool :=
  let n := c.toNat
  n == 0x09 || n == 0x0a || n == 0x0d || (0x20 ≤ n && n ≤ 0x7e) || n == 0x85 || (0xa0 ≤ n && n ≤ 0xfffd) || 0x10000 ≤ n

/-- The mark that may stand before the first character of a text. -/
def byteOrderMark : Char := '\ufeff'

/-- The characters of a document, if bytes are well-formed and hold only characters that are allowed. -/
def characters? (t : Text) : Option (List Char) :=
  if !Utf8.isValid t.bytes || t.chars.any fun c => !isAllowed c then none
  else match t.chars with
    | c :: rest => some (if c = byteOrderMark then rest else c :: rest)
    | [] => some []

/-- A place in a document. Lines and columns are counted from zero. -/
structure Cursor where
  rest : List Char
  index : Nat := 0
  line : Nat := 0
  column : Nat := 0

namespace Cursor

/-- Whether the document ends here. -/
def atEnd (c : Cursor) : Bool := c.rest.isEmpty

/-- The character at a distance, if there is one. -/
def charAt? (c : Cursor) (n : Nat) : Option Char := c.rest[n]?

/-- Whether the next character is a given one. -/
def sees (c : Cursor) (x : Char) : Bool := c.rest.head? == some x

/-- Whether the character at a distance has a property. -/
def has (c : Cursor) (n : Nat) (p : Char → Bool) : Bool := (c.charAt? n).any p

/-- Whether a word ends at a distance: there is a blank, a line break or the end. -/
def wordEndsAt (c : Cursor) (n : Nat) : Bool := (c.charAt? n).all fun x => isBlank x || isBreak x

/-- The place so many characters on, in the same line. -/
def advance (c : Cursor) (n : Nat) : Cursor :=
  { c with rest := c.rest.drop n, index := c.index + n, column := c.column + n }

/-- The characters of this line with a property, and the place after them. -/
def takeWhile (c : Cursor) (p : Char → Bool) : List Char × Cursor :=
  let found := c.rest.takeWhile p
  (found, c.advance found.length)

/-- The place after the characters of this line with a property. -/
def skipWhile (c : Cursor) (p : Char → Bool) : Cursor := (c.takeWhile p).2

/-- The place after the blanks. -/
def skipBlanks (c : Cursor) : Cursor := c.skipWhile isBlank

/-- The place at the end of this line. -/
def skipToBreak (c : Cursor) : Cursor := c.skipWhile fun x => !isBreak x

/-- The text of the line break here, and the place after it. Separators of lines and paragraphs stand for themselves, other breaks
for a line feed. -/
def takeBreak (c : Cursor) : List Char × Cursor :=
  let next (n : Nat) (rest : List Char) : Cursor := ⟨rest, c.index + n, c.line + 1, 0⟩
  match c.rest with
  | '\r' :: '\n' :: rest => (['\n'], next 2 rest)
  | x :: rest => if isBreak x then ([if x == '\u2028' || x == '\u2029' then x else '\n'], next 1 rest) else ([], c)
  | [] => ([], c)

/-- The place after the line break here. -/
def skipBreak (c : Cursor) : Cursor := c.takeBreak.2

/-- Whether a line of three equal marks starts here, which begins or ends a document. -/
def isMarker (c : Cursor) (mark : Char) : Bool :=
  c.column == 0 && c.sees mark && c.charAt? 1 == some mark && c.charAt? 2 == some mark && c.wordEndsAt 3

/-- Whether a document begins or ends here. -/
def atBoundary (c : Cursor) : Bool := c.isMarker '-' || c.isMarker '.'

/-- The distance to the next comment, if nothing but blanks and line breaks stands before it, at most so far away. -/
def commentAhead? : (reach : Nat) → List Char → Option Nat
  | reach + 1, x :: rest =>
    if x == '#' then some 0
    else if isBlank x || isBreak x then (commentAhead? reach rest).map (· + 1)
    else none
  | _, _ => none

/-- The place so many characters on, across lines. -/
def advanceLines : (fuel : Nat) → (target : Nat) → Cursor → Cursor
  | 0, _, c => c
  | fuel + 1, target, c =>
    if target ≤ c.index then c
    else if c.has 0 isBreak then advanceLines fuel target c.skipBreak
    else advanceLines fuel target (c.advance 1)

/-- The place at the end of the comment here and of those that follow it with nothing but blanks between them; each takes fuel. -/
def skipComments : (fuel : Nat) → Cursor → Cursor
  | 0, c => c
  | fuel + 1, c =>
    let c := c.skipToBreak
    -- the search begins after the character that ends the comment
    match commentAhead? 511 (c.rest.drop 1) with
    | some n => skipComments fuel (advanceLines (n + 1) (c.index + n + 1) c)
    | none => c

end Cursor

end SensorWire.Yaml
