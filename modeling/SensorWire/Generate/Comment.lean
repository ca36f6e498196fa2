import SensorWire.Text.Words

/-!
# Comments of generated code

A description becomes a comment of trimmed lines. Tidying a comment drops blank lines at its ends and repeated ones, marks headings, and
replaces doubled quotation marks by curly ones.
-/

namespace SensorWire.Comment

/-- The text without blanks at its end. -/
def trimEnd (t : Text) : Text := ⟨(t.bytes.reverse.dropWhile (· == 0x20)).reverse⟩

/-- The lines of a description, without white space around them. -/
def descriptionLines (t : Text) : List Text := (t.trim.splitOn '\n').map Text.trim

/-- A line as a comment. -/
def line (t : Text) : Text := trimEnd ("// " ++ t)

/-! ## Tidying -/

/-- The runs of lines that are not blank, the current one first. -/
def paragraphsFrom (current : List Text) : List Text → List (List Text)
  | [] => if current.isEmpty then [] else [current.reverse]
  | l :: rest =>
    if !l.isEmpty then paragraphsFrom (l :: current) rest
    else if current.isEmpty then paragraphsFrom [] rest
    else current.reverse :: paragraphsFrom [] rest

/-- The single quotation mark. -/
def mark : Char := Char.ofNat 0x27

/-- The opening quotation mark. -/
def openingMark : Char := Char.ofNat 0x60

/-- Doubled quotation marks as curly ones. Three of the opening ones stay. -/
def curly : List Char → List Char
  | c :: d :: e :: rest =>
    if c = openingMark ∧ d = openingMark then
      if e = openingMark then c :: d :: e :: curly rest else Char.ofNat 0x201c :: curly (e :: rest)
    else if c = mark ∧ d = mark then Char.ofNat 0x201d :: curly (e :: rest)
    else c :: curly (d :: e :: rest)
  | [c, d] =>
    if c = openingMark ∧ d = openingMark then [Char.ofNat 0x201c]
    else if c = mark ∧ d = mark then [Char.ofNat 0x201d]
    else [c, d]
  | cs => cs

/-- The characters that no heading has. -/
def unfitForHeading : List Char := ";:!?+*/=[]\x7b\x7d_^°&§~%#@<\">\\".toList

/-- Whether each single quotation mark is followed by a final `s` and each full stop by more than a blank. -/
def punctuatesInside : List Char → Bool
  | [] => true
  | c :: rest =>
    if c = mark then (rest == ['s'] || ['s', ' '].isPrefixOf rest) && punctuatesInside rest
    else if c = '.' then !rest.isEmpty && rest.head? != some ' ' && punctuatesInside rest
    else punctuatesInside rest

/-- Whether a line that stands alone reads as a heading: it starts with a capital letter, ends with a letter or digit, and has little
punctuation. -/
def readsAsHeading (t : Text) : Bool :=
  let cs := t.chars
  cs.head?.any (fun c => Char.isLetter c && Char.isCapital c) &&
    cs.getLast?.any (fun c => Char.isLetter c || Char.isDecimal c) &&
    !cs.any unfitForHeading.contains && punctuatesInside cs

/-- The heading that a marked line is, if it is one. -/
def markedHeading? (t : Text) : Option Text :=
  match t.bytes with
  | 0x23 :: b :: rest =>
    let title := Text.trim ⟨rest⟩
    if (b == 0x20 || b == 0x09) && !title.isEmpty then some ("# " ++ title) else none
  | _ => none

/-- Marks the headings among paragraphs: lines that stand alone and are marked, or stand between two others and read as one. -/
def markHeadings (isFirst : Bool) : List (List Text) → List (List Text)
  | [] => []
  | [l] :: rest =>
    let plain := if !isFirst && !rest.isEmpty && readsAsHeading l then "# " ++ l else l
    [(markedHeading? l).getD plain] :: markHeadings false rest
  | p :: rest => p :: markHeadings false rest

/-- Paragraphs with a blank line between each two. -/
def joined : List (List Text) → List Text
  | [] => []
  | [p] => p
  | p :: rest => p ++ Text.empty :: joined rest

/-- The lines of a tidy comment. -/
def tidy (lines : List Text) : List Text :=
  (joined (markHeadings true (paragraphsFrom [] lines))).map fun l => .ofChars (curly l.chars)

end SensorWire.Comment
