import SensorWire.Yaml.Scalar
import SensorWire.Yaml.Token

/-!
# From characters to tokens

A `Lexer` turns a document into tokens. In block style a token that begins a line may turn out to be a key only when the colon after it
is seen, so the place of such a token is remembered, and the tokens for the key and for the block it begins are put before it later.
-/

namespace SensorWire.Yaml

/-- A token that may turn out to be a key. -/
structure SimpleKey where
  /-- How many tokens stand before it. -/
  number : Nat
  line : Nat
  index : Nat
  column : Nat
  /-- Whether nothing else can stand here, because the token begins a line of a block. -/
  required : Bool

/-- The state of turning characters into tokens. -/
structure Lexer where
  cursor : Cursor
  /-- The tokens so far, the last one first. -/
  tokens : List Token := []
  /-- The column of the innermost block, less than zero outside any. -/
  indent : Int := -1
  /-- The columns of the blocks around it. -/
  indents : List Int := []
  /-- The possible key of each level of flow collections, the innermost first. -/
  keys : List (Option SimpleKey) := [none]
  /-- Whether a key may begin here. -/
  keyAllowed : Bool := true

namespace Lexer

/-- Whether the place is inside a flow collection. -/
def inFlow (l : Lexer) : Bool := 1 < l.keys.length

/-- Puts a token at the end, or before the last so many tokens. -/
def emit (l : Lexer) (lexeme : Lexeme) (line : Nat) (before : Nat := 0) : Lexer :=
  { l with tokens := l.tokens.take before ++ ⟨lexeme, line⟩ :: l.tokens.drop before }

/-- Puts a token for what stands here at the end, and goes on after so many characters. -/
def emitHere (l : Lexer) (lexeme : Lexeme) (width : Nat) : Lexer :=
  { l.emit lexeme l.cursor.line with cursor := l.cursor.advance width }

/-! ## Indentation -/

/-- Begins a block at a column, unless the place is in that block or in a flow collection already. -/
def indentTo (l : Lexer) (column : Nat) (lexeme : Lexeme) (line : Nat) (before : Nat := 0) : Lexer :=
  if l.inFlow || column ≤ l.indent then l
  else { l.emit lexeme line before with indent := column, indents := l.indent :: l.indents }

/-- Ends the blocks beyond a column; the columns of the blocks around the innermost one are passed on. -/
def dedentFrom (column : Int) : List Int → Lexer → Lexer
  | [], l => l
  | outer :: rest, l =>
    if l.indent ≤ column then l
    else dedentFrom column rest { l.emit .blockEnd l.cursor.line with indent := outer, indents := rest }

/-- Ends the blocks beyond a column. -/
def dedentTo (l : Lexer) (column : Int) : Lexer := if l.inFlow then l else dedentFrom column l.indents l

/-! ## Possible keys -/

/-- Gives up the possible key of this level, which must not be one that is required. -/
def dropKey (l : Lexer) : Option Lexer :=
  match l.keys with
  | some k :: rest => if k.required then none else some { l with keys := none :: rest }
  | _ => some l

/-- Remembers that the token that starts here may be a key. -/
def saveKey (l : Lexer) : Option Lexer :=
  if !l.keyAllowed then some l
  else do
    let l ← l.dropKey
    let c := l.cursor
    let key : SimpleKey := ⟨l.tokens.length, c.line, c.index, c.column, !l.inFlow && l.indent == c.column⟩
    return { l with keys := some key :: l.keys.drop 1 }

/-- The possible key of this level, if it can still be one: it is in this line and not far away. A key that is required and no
longer possible is a fault. -/
def possibleKey (l : Lexer) : Option (Option SimpleKey) :=
  match l.keys with
  | some k :: _ =>
    if k.line < l.cursor.line ∨ k.index + 1024 < l.cursor.index then (if k.required then none else some none) else some (some k)
  | _ => some none

/-! ## Blanks and comments -/

/-- Skips blanks, comments and line breaks up to the next token. A tab counts as a blank only where no key may begin. -/
def skipSpace : (fuel : Nat) → Lexer → Lexer
  | 0, l => l
  | fuel + 1, l =>
    let c := l.cursor
    let c := if c.column = 0 ∧ c.sees byteOrderMark then c.advance 1 else c
    let c := c.skipWhile fun x => x == ' ' || (x == '\t' && (l.inFlow || !l.keyAllowed))
    let c := if c.sees '#' then Cursor.skipComments c.rest.length c else c
    if c.has 0 isBreak then skipSpace fuel { l with cursor := c.skipBreak, keyAllowed := l.keyAllowed || !l.inFlow }
    else { l with cursor := c }

/-- Skips a comment after a token in the same line. -/
def skipLineComment (l : Lexer) : Lexer :=
  let c := l.cursor.skipBlanks
  if c.sees '#' ∧ c.index < l.cursor.index + 512 then { l with cursor := c.skipToBreak } else l

/-! ## Tags and directives -/

/-- Whether a character may stand in a tag. -/
def isTagChar (x : Char) : Bool := isNameChar x || ";/?:@&=+$,.!~*'()[]".toList.contains x

/-- The number of bytes of the character whose first byte this is. -/
def sequenceLength (b : Nat) : Nat :=
  if b < 0x80 then 1 else if b / 32 = 6 then 2 else if b / 16 = 14 then 3 else if b / 8 = 30 then 4 else 0

/-- The bytes that escapes stand for: as many as the first one asks for. -/
def tagEscapes : (fuel : Nat) → (needed : Option Nat) → List Char → Option (List UInt8 × List Char)
  | 0, _, _ => none
  | fuel + 1, needed, cs =>
    if needed = some 0 then some ([], cs)
    else match cs with
      | '%' :: a :: b :: rest => do
        let n ← hexNumber? [a, b]
        let left ← match needed with
          | none => if sequenceLength n = 0 then none else some (sequenceLength n - 1)
          | some left => if n / 64 = 2 then some (left - 1) else none
        let (bytes, rest) ← tagEscapes fuel (some left) rest
        return (UInt8.ofNat n :: bytes, rest)
      | _ => none

/-- The characters of a tag with its escapes resolved, and the place after it. -/
def tagChars : (fuel : Nat) → Cursor → Option (Text × Cursor)
  | 0, c => some ("", c)
  | fuel + 1, c =>
    match c.rest with
    | [] => some ("", c)
    | x :: _ =>
      if x = '%' then do
        let (bytes, rest) ← tagEscapes 5 none c.rest
        let (more, c) ← tagChars fuel (c.advance (c.rest.length - rest.length))
        return (⟨bytes⟩ ++ more, c)
      else if isTagChar x then do
        let (more, c) ← tagChars fuel (c.advance 1)
        return (.ofChars [x] ++ more, c)
      else some ("", c)

/-- The rest of a tag after a beginning, which must not both be empty. -/
def tagRest (start : Text) (c : Cursor) : Option (Text × Cursor) := do
  let (more, d) ← tagChars c.rest.length c
  if start.isEmpty ∧ d.index = c.index then none
  return (⟨start.bytes.drop 1⟩ ++ more, d)

/-- A handle of tags: an exclamation mark, and perhaps a name and another one. -/
def tagHandle (c : Cursor) : Option (Text × Cursor) :=
  if !c.sees '!' then none
  else
    let (name, c) := (c.advance 1).takeWhile isNameChar
    if c.sees '!' then some (.ofChars ('!' :: name ++ ['!']), c.advance 1) else some (.ofChars ('!' :: name), c)

/-- Whether a handle has both of its marks. -/
def isHandle (handle : Text) : Bool := 1 < handle.length && handle.endsWith "!"

/-- A tag, as a handle and what follows it. -/
def tagToken (c : Cursor) : Option (Text × Text × Cursor) := do
  let (handle, suffix, c) ← if c.charAt? 1 = some '<' then do
      let (suffix, c) ← tagRest "" (c.advance 2)
      if !c.sees '>' then none
      pure (Text.empty, suffix, c.advance 1)
    else do
      let (handle, c) ← tagHandle c
      if isHandle handle then do
        let (suffix, c) ← tagRest "" c
        pure (handle, suffix, c)
      else do
        let (suffix, c) ← tagRest handle c
        pure (if suffix.isEmpty then (Text.empty, Text.ofString "!", c) else (Text.ofString "!", suffix, c))
  if !c.wordEndsAt 0 then none
  return (handle, suffix, c)

/-- A number of one or two digits. -/
def versionNumber (c : Cursor) : Option (Nat × Cursor) :=
  let (digits, c) := c.takeWhile Char.isDigit
  if digits.isEmpty ∨ 2 < digits.length then none
  else some (digits.foldl (fun n x => 10 * n + (x.toNat - 0x30)) 0, c)

/-- What a directive says, and the place after it. -/
def directive (c : Cursor) : Option (Lexeme × Cursor) := do
  let (name, c) := (c.advance 1).takeWhile isNameChar
  if name.isEmpty || !c.wordEndsAt 0 then none
  let (lexeme, c) ← if name = ['Y', 'A', 'M', 'L'] then do
      let (major, c) ← versionNumber c.skipBlanks
      if !c.sees '.' then none
      let (minor, c) ← versionNumber (c.advance 1)
      pure (.versionDirective major minor, c)
    else if name = ['T', 'A', 'G'] then do
      let (handle, c) ← tagHandle c.skipBlanks
      if !(handle = "!" || isHandle handle) || !c.has 0 isBlank then none
      let (expansion, c) ← tagRest "" c.skipBlanks
      if !c.wordEndsAt 0 then none
      pure (.tagDirective handle expansion, c)
    else none
  let c := c.skipBlanks
  let c := if c.sees '#' then c.skipToBreak else c
  if !(c.atEnd || c.has 0 isBreak) then none
  return (lexeme, c.skipBreak)

/-! ## Tokens -/

/-- A mark that begins or ends a document. -/
def boundary (l : Lexer) (lexeme : Lexeme) : Option Lexer := do
  let l ← (l.dedentTo (-1)).dropKey
  return { l with keyAllowed := false }.emitHere lexeme 3

/-- The name after the mark of an anchor or an alias. -/
def nameAfterMark (c : Cursor) : Option (Text × Cursor) :=
  let (name, c) := (c.advance 1).takeWhile isNameChar
  if name.isEmpty then none
  else if c.wordEndsAt 0 || c.has 0 fun x => "?:,]\x7d%@".toList.contains x || x == Char.ofNat 0x60 then some (.ofChars name, c)
  else none

/-- An anchor, an alias, a tag or a scalar, which may be a key; it is given with the place after it. -/
def emitNode (l : Lexer) (lexeme : Lexeme) (c : Cursor) : Option Lexer := do
  let start := l.cursor.line
  let l ← l.saveKey
  return { l.emit lexeme start with keyAllowed := false, cursor := c }

/-- The colon before a value. -/
def valueToken (l : Lexer) : Option Lexer := do
  let l ← match ← l.possibleKey with
    | some k =>
      let before := l.tokens.length - k.number
      let l := l.emit .key k.line before
      let l := l.indentTo k.column .blockMappingStart k.line (before + 1)
      pure { l with keys := none :: l.keys.drop 1, keyAllowed := false }
    | none =>
      let l := { l with keys := none :: l.keys.drop 1 }
      if l.inFlow then pure { l with keyAllowed := false }
      else if l.keyAllowed then pure (l.indentTo l.cursor.column .blockMappingStart l.cursor.line)
      else none
  return l.emitHere .value 1

/-- The start of a flow collection. -/
def openFlow (l : Lexer) (lexeme : Lexeme) : Option Lexer := do
  let l ← l.saveKey
  return { l with keys := none :: l.keys, keyAllowed := true }.emitHere lexeme 1

/-- The end of a flow collection. -/
def closeFlow (l : Lexer) (lexeme : Lexeme) : Option Lexer := do
  let l ← l.dropKey
  return { l with keys := if l.inFlow then l.keys.drop 1 else l.keys, keyAllowed := false }.emitHere lexeme 1

/-- The mark of an entry of a block sequence, or of a key, which in block style begins a block. -/
def blockMark (l : Lexer) (start lexeme : Lexeme) (keyAllowed : Bool) : Option Lexer :=
  if !l.inFlow && !l.keyAllowed then none
  else do
    let l ← (l.indentTo l.cursor.column start l.cursor.line).dropKey
    return { l with keyAllowed }.emitHere lexeme 1

/-- Whether a plain scalar may begin here. -/
def startsPlain (l : Lexer) : Bool :=
  let c := l.cursor
  c.has 0 fun x =>
    !(isBlank x || isBreak x || "-?:,[]\x7b\x7d#&*!|>'\"%@".toList.contains x || x == Char.ofNat 0x60) ||
    (x == '-' && !c.has 1 isBlank) || (!l.inFlow && (x == '?' || x == ':') && !c.wordEndsAt 1)

/-- The token for what stands here, which is neither a boundary nor the end, and whether the line may end with a comment. -/
def nextToken (l : Lexer) (x : Char) : Option (Lexer × Bool) := do
  let c := l.cursor
  let withComment (r : Option Lexer) : Option (Lexer × Bool) := return (← r, true)
  if x = '[' then withComment (l.openFlow .flowSequenceStart)
  else if x = '\x7b' then withComment (l.openFlow .flowMappingStart)
  else if x = ']' then withComment (l.closeFlow .flowSequenceEnd)
  else if x = '\x7d' then withComment (l.closeFlow .flowMappingEnd)
  else if x = ',' then
    let l ← l.dropKey
    return ({ l with keyAllowed := true }.emitHere .flowEntry 1, true)
  else if x = '-' ∧ c.wordEndsAt 1 then return (← l.blockMark .blockSequenceStart .blockEntry true, false)
  else if x = '?' ∧ (l.inFlow ∨ c.wordEndsAt 1) then withComment (l.blockMark .blockMappingStart .key (!l.inFlow))
  else if x = ':' ∧ (l.inFlow ∨ c.wordEndsAt 1) then withComment l.valueToken
  else if x = '*' then
    let (name, c) ← nameAfterMark c
    withComment (l.emitNode (.reference name) c)
  else if x = '&' then
    let (name, c) ← nameAfterMark c
    withComment (l.emitNode (.anchor name) c)
  else if x = '!' then
    let (handle, suffix, c) ← tagToken c
    withComment (l.emitNode (.tag handle suffix) c)
  else if (x = '|' ∨ x = '>') ∧ !l.inFlow then
    let l ← l.dropKey
    let (text, d) ← blockScalar (x = '|') l.indent c
    return ({ l.emit (.scalar text false) c.line with keyAllowed := true, cursor := d }, false)
  else if x = '\'' ∨ x = '"' then
    let (text, c) ← quotedScalar (x = '\'') c
    withComment (l.emitNode (.scalar text false) c)
  else if l.startsPlain then
    let (text, broken, c) ← plainScalar l.inFlow (l.indent + 1).toNat c
    let l ← l.emitNode (.scalar text true) c
    return ({ l with keyAllowed := broken }, !broken)
  else none

/-- The lexer after the next token; `none` is a fault. -/
def next (l : Lexer) : Option Lexer := do
  let l := l.skipSpace (l.cursor.rest.length + 1)
  let l := l.dedentTo l.cursor.column
  let c := l.cursor
  match c.rest.head? with
  | none =>
    let l ← (l.dedentTo (-1)).dropKey
    return l.emit .streamEnd c.line
  | some x =>
    if c.column = 0 ∧ x = '%' then
      let l ← (l.dedentTo (-1)).dropKey
      let (lexeme, d) ← directive c
      return { l.emit lexeme c.line with keyAllowed := false, cursor := d }
    else if c.isMarker '-' then l.boundary .documentStart
    else if c.isMarker '.' then l.boundary .documentEnd
    else
      let (l, comment) ← l.nextToken x
      return if comment then l.skipLineComment else l

/-- Whether the end of the stream was reached. -/
def finished (l : Lexer) : Bool := (l.tokens.head?.map Token.lexeme) == some .streamEnd

/-- The tokens until the end or the first fault, and whether there is one; each token takes fuel. -/
def run : (fuel : Nat) → Lexer → List Token × Bool
  | 0, l => (l.tokens.reverse, true)
  | fuel + 1, l =>
    if l.finished then (l.tokens.reverse, false)
    else match l.next with
      | some l => run fuel l
      | none => (l.tokens.reverse, true)

end Lexer

/-- The tokens of a document until its end or the first fault, and whether there is one. -/
def tokenize (chars : List Char) : List Token × Bool := Lexer.run (chars.length + 2) { cursor := ⟨chars, 0, 0, 0⟩ }

end SensorWire.Yaml
