import SensorWire.Yaml.Cursor

/-!
# The text of scalars

A scalar is written plain, between quotes, or as a block of lines. Line breaks inside a plain or quoted scalar, and in a folded block,
are joined: one break becomes a blank and of several the first is dropped.
-/

namespace SensorWire.Yaml

/-- What stands between two words of a scalar: blanks, or line breaks, of which the first is kept apart. -/
structure Gap where
  blanks : List Char := []
  first : List Char := []
  others : List Char := []
  /-- Whether the gap goes on in another line. -/
  broken : Bool := false

namespace Gap

/-- The text that a gap becomes between two words. -/
def text (g : Gap) : List Char :=
  if !g.broken then g.blanks
  else if g.first.head? = some '\n' then (if g.others.isEmpty then [' '] else g.others)
  else g.first ++ g.others

/-- Takes a gap. In a line after the first no tab may stand before the column `indent`. -/
def take (indent : Nat) : (fuel : Nat) → Gap → Cursor → Option (Gap × Cursor)
  | 0, g, c => some (g, c)
  | fuel + 1, g, c =>
    match c.rest.head? with
    | none => some (g, c)
    | some x =>
      if isBlank x then
        if g.broken then
          if x = '\t' ∧ c.column < indent then none else take indent fuel g (c.advance 1)
        else take indent fuel { g with blanks := g.blanks ++ [x] } (c.advance 1)
      else if isBreak x then
        let (b, c) := c.takeBreak
        if g.broken then take indent fuel { g with others := g.others ++ b } c
        else take indent fuel { g with blanks := [], first := b, broken := true } c
      else some (g, c)

end Gap

/-! ## Plain scalars -/

/-- Whether the next character ends a plain scalar, in a flow collection or outside one. -/
def endsPlain (flow : Bool) (c : Cursor) : Bool :=
  c.wordEndsAt 0 || (c.sees ':' && c.wordEndsAt 1) ||
    (flow && c.has 0 fun x => x == ',' || x == '?' || x == '[' || x == ']' || x == '\x7b' || x == '\x7d')

/-- The characters of a word of a plain scalar, and the place after it. -/
def plainWord (flow : Bool) : (fuel : Nat) → Cursor → List Char × Cursor
  | 0, c => ([], c)
  | fuel + 1, c =>
    match c.rest with
    | [] => ([], c)
    | x :: _ =>
      if endsPlain flow c then ([], c)
      else
        let (word, c) := plainWord flow fuel (c.advance 1)
        (x :: word, c)

/-- The text of a plain scalar, the place after it and the gap there; `indent` is the least column of a line of it outside flow
collections. -/
def plainFrom (flow : Bool) (indent : Nat) : (fuel : Nat) → (text : List Char) → Gap → Cursor → Option (List Char × Gap × Cursor)
  | 0, _, _, _ => none
  | fuel + 1, text, gap, c =>
    if c.atBoundary || c.sees '#' then some (text, gap, c)
    else
      let (word, c) := plainWord flow c.rest.length c
      let (text, gap) := if word.isEmpty then (text, gap) else (text ++ gap.text ++ word, {})
      if !(c.has 0 isBlank || c.has 0 isBreak) then some (text, gap, c)
      else match Gap.take indent c.rest.length gap c with
        | none => none
        | some (gap, c) =>
          if !flow && c.column < indent then some (text, gap, c) else plainFrom flow indent fuel text gap c

/-- The text of a plain scalar, whether the place after it is in another line, and that place. -/
def plainScalar (flow : Bool) (indent : Nat) (c : Cursor) : Option (Text × Bool × Cursor) :=
  (plainFrom flow indent (c.rest.length + 1) [] {} c).map fun (text, gap, c) => (.ofChars text, gap.broken, c)

/-! ## Quoted scalars -/

/-- The character that an escape with one letter stands for. -/
def escapeChar? (x : Char) : Option Char :=
  match x with
  | '0' => some '\x00'
  | 'a' => some '\x07'
  | 'b' => some '\x08'
  | 't' | '\t' => some '\t'
  | 'n' => some '\n'
  | 'v' => some '\x0b'
  | 'f' => some '\x0c'
  | 'r' => some '\r'
  | 'e' => some '\x1b'
  | ' ' => some ' '
  | '"' => some '"'
  | '\'' => some '\''
  | '\\' => some '\\'
  | 'N' => some '\x85'
  | '_' => some '\xa0'
  | 'L' => some '\u2028'
  | 'P' => some '\u2029'
  | _ => none

/-- The number of digits of an escape by number. -/
def escapeWidth? (x : Char) : Option Nat :=
  match x with
  | 'x' => some 2
  | 'u' => some 4
  | 'U' => some 8
  | _ => none

/-- The value of a hexadecimal digit. -/
def hexValue? (x : Char) : Option Nat :=
  if '0' ≤ x ∧ x ≤ '9' then some (x.toNat - 0x30)
  else if 'a' ≤ x ∧ x ≤ 'f' then some (x.toNat - 0x57)
  else if 'A' ≤ x ∧ x ≤ 'F' then some (x.toNat - 0x37)
  else none

/-- The number of hexadecimal digits. -/
def hexNumber? (digits : List Char) : Option Nat :=
  digits.foldl (fun n x => do return 16 * (← n) + (← hexValue? x)) (some 0)

/-- The character with a number, if there is one. -/
def character? (n : Nat) : Option Char := if n.isValidChar then some (Char.ofNat n) else none

/-- The words of a quoted scalar: the text, whether it ends with an escaped line break, and the place after it. -/
def quotedWord (single : Bool) : (fuel : Nat) → (text : List Char) → Cursor → Option (List Char × Bool × Cursor)
  | 0, _, _ => none
  | fuel + 1, text, c =>
    match c.rest with
    | [] => some (text, false, c)
    | x :: rest =>
      if isBlank x || isBreak x then some (text, false, c)
      else if single then
        if x = '\'' then
          if rest.head? = some '\'' then quotedWord single fuel (text ++ ['\'']) (c.advance 2) else some (text, false, c)
        else quotedWord single fuel (text ++ [x]) (c.advance 1)
      else if x = '"' then some (text, false, c)
      else if x = '\\' then
        match rest with
        | [] => none
        | y :: digits =>
          if isBreak y then some (text, true, (c.advance 1).skipBreak)
          else match escapeChar? y with
            | some z => quotedWord single fuel (text ++ [z]) (c.advance 2)
            | none => do
              let width ← escapeWidth? y
              if digits.length < width then none
              let z ← character? (← hexNumber? (digits.take width))
              quotedWord single fuel (text ++ [z]) (c.advance (2 + width))
      else quotedWord single fuel (text ++ [x]) (c.advance 1)

/-- The text of a quoted scalar from a place inside the quotes, and the place at the closing quote. -/
def quotedFrom (single : Bool) : (fuel : Nat) → (text : List Char) → Cursor → Option (List Char × Cursor)
  | 0, _, _ => none
  | fuel + 1, text, c =>
    if c.atBoundary || c.atEnd then none
    else do
      let (text, escaped, c) ← quotedWord single (c.rest.length + 1) text c
      if c.sees (if single then '\'' else '"') then return (text, c)
      let (gap, c) ← Gap.take 0 c.rest.length { broken := escaped } c
      quotedFrom single fuel (text ++ gap.text) c

/-- The text of a quoted scalar and the place after it. -/
def quotedScalar (single : Bool) (c : Cursor) : Option (Text × Cursor) :=
  (quotedFrom single (c.rest.length + 1) [] (c.advance 1)).map fun (text, c) => (.ofChars text, c.advance 1)

/-! ## Block scalars -/

/-- What becomes of the line breaks at the end of a block. -/
inductive Chomp where
  | strip
  | clip
  | keep
  deriving DecidableEq

/-- How a block is told to treat its end, if it is. -/
def takeChomp (c : Cursor) : Chomp × Cursor :=
  if c.sees '+' then (.keep, c.advance 1) else if c.sees '-' then (.strip, c.advance 1) else (.clip, c)

/-- The indentation that a block is given, and zero if it is not; zero itself is not allowed. -/
def takeIndentation (c : Cursor) : Option (Nat × Cursor) :=
  match c.rest.head? with
  | some x => if x.isDigit then (if x = '0' then none else some (x.toNat - 0x30, c.advance 1)) else some (0, c)
  | none => some (0, c)

/-- The line breaks before the next line of a block that is not empty, the greatest column reached on the way, and the place. An
indentation of zero is not known yet. -/
def blockBreaks (indent : Nat) : (fuel : Nat) → (breaks : List Char) → (deepest : Nat) → Cursor → Option (List Char × Nat × Cursor)
  | 0, _, _, _ => none
  | fuel + 1, breaks, deepest, c =>
    let blanks := (c.rest.takeWhile (· == ' ')).length
    let c := c.advance (if indent = 0 then blanks else min blanks (indent - c.column))
    let deepest := max deepest c.column
    if (indent = 0 || c.column < indent) && c.sees '\t' then none
    else if c.has 0 isBreak then
      let (b, c) := c.takeBreak
      blockBreaks indent fuel (breaks ++ b) deepest c
    else some (breaks, deepest, c)

/-- The text of the lines of a block, the break at the end of the last one and those after it, and the place after the block.
`first` is the break at the end of the line before, and `blank` says that that line starts with a blank. -/
def blockLines (literal : Bool) (indent : Nat) :
    (fuel : Nat) → (text first others : List Char) → (blank : Bool) → Cursor → Option (List Char × List Char × List Char × Cursor)
  | 0, _, _, _, _, _ => none
  | fuel + 1, text, first, others, blank, c =>
    if c.column ≠ indent ∨ c.atEnd then some (text, first, others, c)
    else
      let startsBlank := c.has 0 isBlank
      let joint :=
        if !literal && !blank && !startsBlank && first.head? == some '\n' then (if others.isEmpty then [' '] else [])
        else first
      let (line, c) := c.takeWhile fun x => !isBreak x
      let (b, c) := c.takeBreak
      match blockBreaks indent (c.rest.length + 1) [] 0 c with
      | none => none
      | some (breaks, _, c) => blockLines literal indent fuel (text ++ joint ++ others ++ line) b breaks startsBlank c

/-- The text of a block and the place after it; `parent` is the indentation around it, less than zero outside any block. -/
def blockScalar (literal : Bool) (parent : Int) (c : Cursor) : Option (Text × Cursor) := do
  let c := c.advance 1
  let (chomp, indentation, c) ← if c.sees '+' || c.sees '-' then do
      let (chomp, c) := takeChomp c
      let (n, c) ← takeIndentation c
      pure (chomp, n, c)
    else do
      let (n, c) ← takeIndentation c
      let (chomp, c) := if n = 0 then (Chomp.clip, c) else takeChomp c
      pure (chomp, n, c)
  let c := c.skipBlanks
  let c := if c.sees '#' then c.skipToBreak else c
  if !(c.atEnd || c.has 0 isBreak) then none
  let c := c.skipBreak
  let given := if indentation = 0 then 0 else (max parent 0).toNat + indentation
  let (breaks, deepest, c) ← blockBreaks given (c.rest.length + 1) [] 0 c
  let indent := if given = 0 then max (max deepest (parent + 1).toNat) 1 else given
  let (text, first, others, c) ← blockLines literal indent (c.rest.length + 1) [] [] breaks false c
  return (.ofChars (text ++ (if chomp = .strip then [] else first) ++ (if chomp = .keep then others else [])), c)

end SensorWire.Yaml
