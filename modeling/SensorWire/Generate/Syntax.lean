import SensorWire.Generate.Source

/-!
# Code that cannot be tidied

An identifier may hold the replacement character and stray bytes, which no code may. `SourceFile.faults` lists what a reader of the code
complains about: the characters themselves, and what it expects where they make it lose its place. A reader gives up when a complaint
follows more than ten others.
-/

namespace SensorWire

/-- A complaint about code at a line and a column. -/
structure CodeFault where
  line : Nat
  column : Nat
  message : Text
  deriving DecidableEq, Repr

namespace CodeFault

/-- The number of complaints after which a reader gives up. -/
def limit : Nat := 10

/-- The complaint about a character that no code has. -/
def illegalCharacter : Text := Text.concat ["illegal character U+FFFD ", .ofChars [Char.ofNat 0x27, Char.ofNat 0xfffd, Char.ofNat 0x27]]

/-- The complaints about the characters of an identifier at a place. -/
def ofRunes (line : Nat) : (column : Nat) → List Rune → List CodeFault
  | _, [] => []
  | column, .stray _ :: rest =>
    ⟨line, column, "illegal UTF-8 encoding"⟩ :: ⟨line, column, illegalCharacter⟩ :: ofRunes line (column + 1) rest
  | column, .char c :: rest =>
    let after := ofRunes line (column + c.utf8Size) rest
    if c = Char.ofNat 0xfffd then ⟨line, column, illegalCharacter⟩ :: after else after

/-- The complaints about an identifier at a place. -/
def ofName (line column : Nat) (name : Text) : List CodeFault := ofRunes line column name.runes

end CodeFault

namespace GeneratedMessage

/-- The number of characters in an identifier that no code has. -/
def illegalCount (name : Text) : Nat :=
  (name.runes.filter fun
    | .char c => c == Char.ofNat 0xfffd
    | .stray _ => true).length

/-- Whether a reader loses its place at the member of a name: unless two illegal characters at its beginning are all, which it takes
for a selector and a comma. -/
def losesPlace (name : Text) : Bool :=
  let first := name.chars.head? == some (Char.ofNat 0xfffd)
  0 < illegalCount name && !(first && illegalCount name == 2)

/-- The complaints about identifiers on following lines; `indent` gives the column of each. -/
def nameFaults (column : GeneratedField → Nat) : (line : Nat) → List GeneratedField → List CodeFault
  | _, [] => []
  | line, f :: rest => CodeFault.ofName line (column f) f.name ++ nameFaults column (line + 1) rest

/-- The complaints about the declarations for a message that start on a line, after so many others, and whether the reader gives up. -/
def faults (start before : Nat) (m : GeneratedMessage) : List CodeFault × Bool :=
  let firstMember := start + 1 + (commentLines .draft m.typeComment).length + 1 + (if m.header then 1 else 0)
  let firstField := start + (m.lines .draft).length - m.fields.length - 3
  let column (f : GeneratedField) : Nat := (fieldLine { f with name := "", checked := false }).length - 1
  let found := nameFaults (fun _ => 2) firstMember m.fields ++ nameFaults column firstField m.fields
  let last := firstField + m.fields.length + 1
  if !m.fields.any fun f => losesPlace f.name then (found, false)
  else if CodeFault.limit < before + found.length then (found, true)
  else
    let found := found ++ [⟨last, 2, "missing ',' in argument list"⟩]
    if CodeFault.limit < before + found.length then (found, true)
    else (found ++ [⟨last + 1, 1, Text.concat ["expected operand, found ", .ofChars [Char.ofNat 0x27], "\x7d", .ofChars [Char.ofNat 0x27]]⟩],
      false)

end GeneratedMessage

namespace SourceFile

/-- The complaints about the declarations for messages that start on a line, after so many others. -/
def messageFaults : (start before : Nat) → List GeneratedMessage → List CodeFault
  | _, _, [] => []
  | start, before, m :: rest =>
    match m.faults start before with
    | (found, true) => found
    | (found, false) => found ++ messageFaults (start + (m.lines .draft).length) (before + found.length) rest

/-- The complaints about the names of types where they are first used, on lines that start at one. -/
def typeFaults : (line : Nat) → List GeneratedMessage → List CodeFault
  | _, [] => []
  | line, m :: rest => CodeFault.ofName line 25 m.type ++ typeFaults (line + 1) rest

/-- The words that no identifier may be. -/
def keywords : List String :=
  ["break", "case", "chan", "const", "continue", "default", "defer", "else", "fallthrough", "for", "func", "go", "goto", "if",
   "import", "interface", "map", "package", "range", "return", "select", "struct", "switch", "type", "var"]

/-- The first piece of code in a text: a word, a number, or a single character. -/
def firstPiece (cs : List Char) : List Char :=
  let inWord (c : Char) : Bool := c == '_' || Char.isLetter c || Char.isDecimal c
  match cs.takeWhile inWord with
  | [] => cs.take 1
  | word => word

/-- A piece of code as a complaint shows it: words and numbers as they are, and others in quotation marks. -/
def shownPiece (piece : List Char) : Text :=
  let t := Text.ofChars piece
  let isWord := piece.head?.any fun c => c == '_' || Char.isLetter c || Char.isDecimal c
  let quote := Text.ofChars [Char.ofNat 0x27]
  if isWord && !keywords.any fun (k : String) => t == Text.ofString k then t else Text.concat [quote, t, quote]

/-- The complaint about the name of the package, if it is not one word. -/
def packageFaults (f : SourceFile) : List CodeFault :=
  let cs := f.package.chars
  let piece := firstPiece cs
  let quote := Text.ofChars [Char.ofNat 0x27]
  let isName := piece.head?.any (fun c => c == '_' || Char.isLetter c) &&
    !keywords.any fun (k : String) => Text.ofChars piece == Text.ofString k
  if !isName then [⟨3, 9, Text.concat ["expected ", quote, "IDENT", quote, ", found ", shownPiece piece]⟩]
  else
    let rest := cs.drop piece.length
    let blanks := rest.takeWhile (· == ' ')
    match rest.drop blanks.length with
    | [] => []
    | more =>
      let column := 9 + (Text.ofChars piece).length + blanks.length
      [⟨3, column, Text.concat ["expected ", quote, ";", quote, ", found ", shownPiece (firstPiece more)]⟩]

/-- What a reader of the code complains about, the first complaint first. -/
def faults (f : SourceFile) : List CodeFault :=
  let count := f.messages.length
  match f.packageFaults, typeFaults 11 f.messages with
  | [], [] => messageFaults (12 + count) 0 f.messages
  | [], found => found
  | found, _ => found

/-- The tidy text of a source file with a path, or the failure of code that cannot be tidied. -/
def tidied (path : Text) (f : SourceFile) : Except Failure Text :=
  match f.faults with
  | [] => .ok (f.render .tidy)
  | first :: rest =>
    let place := Text.concat [path, s!":{first.line}:{first.column}: ", first.message]
    .error (.note (if rest.isEmpty then place else Text.concat [place, s!" (and {rest.length} more errors)"]))

end SourceFile

end SensorWire
