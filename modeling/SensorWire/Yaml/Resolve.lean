import SensorWire.Number.Reading
import SensorWire.Time.Reading
import SensorWire.Yaml.Node

/-!
# The meaning of scalars

A plain scalar without a tag is whatever its text looks like: nothing, a truth value, a number, a time, or else text. A tag may ask for
one of these, and a scalar that does not look like it is a fault; under any other tag a scalar is text.
-/

namespace SensorWire.Yaml

/-- What a scalar means. -/
inductive Meaning where
  | null
  | bool (b : Bool)
  | int (n : Int)
  | float (bits : UInt64)
  | time (t : Timestamp)
  | text (t : Text)
  | merge
  deriving DecidableEq, Repr

/-- The tag of what a scalar means. -/
def Meaning.tag : Meaning → Text
  | null => "!!null"
  | bool _ => "!!bool"
  | int _ => "!!int"
  | float _ => "!!float"
  | time _ => "!!timestamp"
  | text _ => "!!str"
  | merge => "!!merge"

/-- Words that mean something else than themselves. -/
def words : List (List String × Meaning) :=
  [(["true", "True", "TRUE"], .bool true), (["false", "False", "FALSE"], .bool false),
   (["", "~", "null", "Null", "NULL"], .null), ([".nan", ".NaN", ".NAN"], .float Binary.nanBits),
   ([".inf", ".Inf", ".INF", "+.inf", "+.Inf", "+.INF"], .float 0x7ff0000000000000),
   (["-.inf", "-.Inf", "-.INF"], .float 0xfff0000000000000), (["<<"], .merge)]

/-- What a word means. -/
def word? (t : Text) : Option Meaning :=
  (words.find? fun w => w.1.any fun s => t == Text.ofString s).map Prod.snd

/-- The layouts of times: a date, with or without a time of day, and that with or without an offset. -/
def timeLayouts : List TimeLayout :=
  let date : TimeLayout := [.year, .mark '-', .month false, .mark '-', .day false]
  let clock : TimeLayout := [.hour, .mark ':', .minute false, .mark ':', .second false, .fraction]
  [date ++ .mark 'T' :: clock ++ [.zone], date ++ .mark 't' :: clock ++ [.zone], date ++ .blanks :: clock, date]

/-- The time that a text is: it starts with a year of four digits and a hyphen. -/
def time? (t : Text) : Option Timestamp :=
  let start := t.bytes.takeWhile NumberText.isDigit
  if start.length = 4 ∧ t.bytes[4]? = some 0x2d then timeLayouts.findSome? fun l => (Timestamp.read l t).toOption else none

/-- A whole number that fits 64 bits, with a sign or without one. -/
def fitting (n : Int) : Option Meaning := if NumberText.isInt64 n ∨ 0 ≤ n ∧ n < 0x10000000000000000 then some (.int n) else none

/-- A whole number whose sign stands after the mark of its base. -/
def innerSign? (bytes : List UInt8) : Option Meaning := do
  let read (base : Nat) (rest : List UInt8) : Option Meaning := do
    let n ← NumberText.signed? (NumberText.someDigits? base) rest
    if NumberText.isInt64 n then some (.int n) else none
  match bytes with
  | 0x30 :: 0x62 :: rest => read 2 rest
  | 0x30 :: 0x6f :: rest => read 8 rest
  | _ => none

/-- The number that a text is; underscores in it are ignored. A sign before a number that only fits without one makes it a fraction. -/
def number? (t : Text) : Option Meaning :=
  let bytes := t.bytes.filter (· != 0x5f)
  let whole := do
    let n ← NumberText.signed? NumberText.natural? bytes
    if NumberText.isInt64 n ∨ bytes.head? ≠ some 0x2b then fitting n else none
  whole.orElse fun _ => ((NumberText.double? bytes).map Meaning.float).orElse fun _ => innerSign? bytes

/-- What a text looks like; times are looked for only where they may stand. -/
def lookOf (times : Bool) (t : Text) : Meaning :=
  match word? t with
  | some m => m
  | none => match t.bytes.head? with
    | none => .text t
    | some b =>
      if b = 0x2e then
        if NumberText.separatesDigits false t.bytes then
          ((NumberText.double? (t.bytes.filter (· != 0x5f))).map Meaning.float).getD (.text t)
        else .text t
      else if NumberText.isDigit b ∨ b = 0x2b ∨ b = 0x2d then
        (((if times then time? t else none).map Meaning.time).orElse fun _ => number? t).getD (.text t)
      else .text t

/-- The short form of a tag. -/
def shortTag (tag : Text) : Text :=
  match tag.dropStart? "tag:yaml.org,2002:" with
  | some rest => "!!" ++ rest
  | none => tag

/-- The tags, besides none, that ask a scalar to look like something. -/
def lookTags : List String := ["!!bool", "!!int", "!!float", "!!null", "!!timestamp"]

/-- The meaning of a scalar with a tag, where it has one: text under a tag that does not ask for a look. Numbers may be asked for as
fractions. -/
def resolve? (tag t : Text) : Option Meaning :=
  if !tag.isEmpty && !lookTags.any fun s => tag == Text.ofString s then some (.text t)
  else
    let m := lookOf (tag.isEmpty || tag == "!!timestamp") t
    if tag.isEmpty ∨ tag = m.tag then some m
    else match tag == "!!float", m with
      | true, .int n => if NumberText.isInt64 n then some (.float (Binary.ofInt n)) else none
      | _, _ => none

namespace Node

/-- Whether a tag is none. -/
def isNoTag (tag : Text) : Bool := tag.isEmpty || tag == "!"

/-- The tag of a node, given or not. -/
def tag : Node → Text
  | scalar _ tag t plain =>
    if !isNoTag tag then shortTag tag else if plain then (lookOf true t).tag else "!!str"
  | sequence _ tag _ => if isNoTag tag then "!!seq" else shortTag tag
  | mapping _ tag _ => if isNoTag tag then "!!map" else shortTag tag
  | reference _ _ target => target.tag
  | loop .. => ""

/-- The line that a node starts in. -/
def line : Node → Nat
  | scalar line .. | sequence line .. | mapping line .. | reference line .. | loop line .. => line

/-- Whether a node is the key whose value is a mapping to take entries from. -/
def isMerge : Node → Bool
  | scalar l tag t plain => t == "<<" && (scalar l tag t plain).tag == "!!merge"
  | _ => false

/-- Whether a node is a mapping. -/
def isMapping : Node → Bool
  | mapping .. => true
  | _ => false

end Node

end SensorWire.Yaml
