import SensorWire.Failure
import SensorWire.Number.Reading

/-!
# Flags

A flag has a long name, perhaps a letter, and a kind that says what its values are. `Flag.usages` lists flags for people.
-/

namespace SensorWire

/-- What the values of a flag are. -/
inductive FlagKind where
  | text
  | switch
  | number
  /-- Texts, each given by the flag once. -/
  | texts
  /-- Texts with commas between them. -/
  | list
  deriving DecidableEq, Repr

/-- A value of a flag. -/
inductive FlagValue where
  | text (t : Text)
  | switch (on : Bool)
  | number (n : Int)
  | texts (l : List Text)
  deriving DecidableEq, Repr

/-- A flag. -/
structure Flag where
  name : String
  letter : Option Char := none
  kind : FlagKind
  usage : String
  /-- The value of a text that is not given. -/
  absent : String := ""
  deriving DecidableEq, Repr

namespace FlagKind

/-- The word for the values in usage texts. -/
def word : FlagKind → String
  | text => "string"
  | switch => ""
  | number => "int"
  | texts => "stringArray"
  | list => "strings"

/-- Why a text is not the value that it should be. -/
def misread (function : String) (t : Text) (why : String) : Except Text FlagValue :=
  .error (Text.concat [function, ": parsing ", t.quoted, ": ", why])

/-- Reads a truth value. -/
def readSwitch (t : Text) : Except Text FlagValue :=
  let isOne (names : List String) : Bool := names.any fun (n : String) => t == Text.ofString n
  if isOne ["1", "t", "T", "TRUE", "true", "True"] then .ok (.switch true)
  else if isOne ["0", "f", "F", "FALSE", "false", "False"] then .ok (.switch false)
  else misread "strconv.ParseBool" t "invalid syntax"

/-- The whole number that a text spells; digits may be grouped. -/
def number? (t : Text) : Option Int :=
  let unsigned := match t.bytes with
    | 0x2b :: rest | 0x2d :: rest => rest
    | bytes => bytes
  if NumberText.separatesDigits false unsigned then
    NumberText.signed? NumberText.natural? (t.bytes.filter fun b => b != 0x5f)
  else none

/-- Reads a whole number of 64 bits. -/
def readNumber (t : Text) : Except Text FlagValue :=
  match number? t with
  | none => misread "strconv.ParseInt" t "invalid syntax"
  | some n => if NumberText.isInt64 n then .ok (.number n) else misread "strconv.ParseInt" t "value out of range"

/-- Where the reader of a list with commas is in it. -/
inductive ListPlace where
  | start
  | bare
  | quoted
  /-- After a quotation mark inside quotation marks. -/
  | closed

/-- Reads the items of a list with commas up to the end of a line, the current one first. An item may stand in quotation marks, in
which commas and doubled quotation marks stand for themselves. -/
def items? : ListPlace → (current : List UInt8) → List UInt8 → Option (List Text)
  | .quoted, _, [] => none
  | _, current, [] => some [⟨current.reverse⟩]
  | .start, current, b :: rest =>
    if b = 0x22 then items? .quoted current rest
    else if b = 0x2c then (items? .start [] rest).map (Text.empty :: ·)
    else if b = 0x0a then some [⟨current.reverse⟩]
    else items? .bare [b] rest
  | .bare, current, b :: rest =>
    if b = 0x22 then none
    else if b = 0x2c then (items? .start [] rest).map (⟨current.reverse⟩ :: ·)
    else if b = 0x0a then some [⟨current.reverse⟩]
    else items? .bare (b :: current) rest
  | .quoted, current, b :: rest =>
    if b = 0x22 then items? .closed current rest else items? .quoted (b :: current) rest
  | .closed, current, b :: rest =>
    if b = 0x22 then items? .quoted (b :: current) rest
    else if b = 0x2c then (items? .start [] rest).map (⟨current.reverse⟩ :: ·)
    else if b = 0x0a then some [⟨current.reverse⟩]
    else none

/-- Reads a list with commas. -/
def readList (t : Text) : Except Text FlagValue :=
  if t.isEmpty then .ok (.texts [])
  else match items? .start [] t.bytes with
    | some l => .ok (.texts l)
    | none => .error "parse error"

/-- Reads a value of a kind. -/
def read (t : Text) : FlagKind → Except Text FlagValue
  | text => .ok (.text t)
  | switch => readSwitch t
  | number => readNumber t
  | texts => .ok (.texts [t])
  | list => readList t

end FlagKind

namespace Flag

/-- The names of a flag in a message. -/
def names (f : Flag) : Text :=
  match f.letter with
  | some c => Text.concat ["-", .ofChars [c], ", --", f.name]
  | none => "--" ++ Text.ofString f.name

/-- The first column of a flag in a list. -/
def column (f : Flag) : Text :=
  Text.concat [if f.letter.isSome then "  " else "      ", f.names, if f.kind = .switch then "" else " ", f.kind.word]

/-- The second column of a flag in a list. -/
def explanation (f : Flag) : Text :=
  if f.absent = "" then f.usage else Text.concat [f.usage, " (default ", (Text.ofString f.absent).quoted, ")"]

/-- Flags by name. -/
def sorted (flags : List Flag) : List Flag := flags.mergeSort fun a b => (Text.ofString a.name).le b.name

/-- Flags in two columns, by name. -/
def usages (flags : List Flag) : Text :=
  let width := (flags.map fun f => f.column.length).foldl max 0
  Text.concat ((sorted flags).map fun f =>
    Text.concat [f.column.padEnd f.column.length width, "   ", f.explanation, "\n"])

end Flag

end SensorWire
