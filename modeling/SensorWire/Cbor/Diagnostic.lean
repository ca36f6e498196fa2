import SensorWire.Cbor.Reader
import SensorWire.Number.Layout
import SensorWire.Text.Hex

/-!
# Diagnostic notation

An item as people write it: numbers in decimal, byte strings in hexadecimal, text in quotes, containers in brackets, an underscore
where a length was left open, and after a floating-point number a suffix that tells its width.
-/

namespace SensorWire.Cbor.Diagnostic

/-- A 16-bit unit as an escape. -/
def escaped (n : Nat) : List Char := ['\\', 'u'] ++ hexDigits 4 n

/-- A character of quoted text: graphic ASCII as it is, some controls with a letter, all else as one or two 16-bit units. -/
def char (c : Char) : List Char :=
  let n := c.toNat
  if c = '\t' then ['\\', 't']
  else if c = '\n' then ['\\', 'n']
  else if c = '\r' then ['\\', 'r']
  else if c = '\\' || c = '"' then ['\\', c]
  else if 0x20 ≤ n && n ≤ 0x7e then [c]
  else if n < 0x10000 then escaped n
  else escaped (0xd800 + (n - 0x10000) / 0x400) ++ escaped (0xdc00 + (n - 0x10000) % 0x400)

/-- Text in quotes. The replacement character is taken for a sign of ill-formed text. -/
def text (bytes : List UInt8) : Except Fault Text :=
  if !Utf8.isValid bytes || (Text.mk bytes).chars.contains (Char.ofNat 0xfffd) then .error .invalidText
  else .ok (.ofChars (['"'] ++ (Text.mk bytes).chars.flatMap char ++ ['"']))

/-- A byte string. -/
def bytes (b : List UInt8) : Text := Text.concat ["h'", Hex.encode b, "'"]

/-- A string of a kind. -/
def string (kind : StringKind) (b : List UInt8) : Except Fault Text :=
  match kind with
  | .bytes => .ok (bytes b)
  | .text => text b

/-- The chunks of a string whose length was left open. -/
def chunks (kind : StringKind) (pieces : List (Width × List UInt8)) : Except Fault Text :=
  if pieces.isEmpty then
    .ok (match kind with
      | .bytes => "''_"
      | .text => "\"\"_")
  else do
    let parts ← pieces.mapM fun p => string kind p.2
    return Text.concat ["(_ ", Text.join ", " parts, ")"]

/-- A floating-point number, whose digits are those of a double, with the suffix of its width, which infinities and NaNs lack. -/
def float (bits : UInt64) (suffix : String) : Text :=
  Layout.diagnostic.double bits ++
    (match Binary.datum bits with
      | .finite .. => suffix
      | _ => "")

/-- The simple values, four of which have names. -/
def simple (n : UInt8) : Text :=
  match n with
  | 20 => "false"
  | 21 => "true"
  | 22 => "null"
  | 23 => "undefined"
  | n => s!"simple({n})"

mutual

/-- An item in diagnostic notation. Tags 2 and 3 make a number of a byte string. -/
def item : Item → Except Fault Text
  | .unsigned _ n => .ok (.ofNat n)
  | .negative _ n => .ok (.ofInt (-1 - n))
  | .string kind _ b => string kind b
  | .chunks kind pieces => chunks kind pieces
  | .array _ is => do return Text.concat ["[", Text.join ", " (← items is), "]"]
  | .openArray is => do return Text.concat ["[_ ", Text.join ", " (← items is), "]"]
  | .map _ ps => do return Text.concat ["\x7b", Text.join ", " (← pairs ps), "\x7d"]
  | .openMap ps => do return Text.concat ["\x7b_ ", Text.join ", " (← pairs ps), "\x7d"]
  | .tag _ n content =>
    if n = 2 ∨ n = 3 then
      if content.major ≠ .bytes then .error (.tagContent (toString n) "byte string" content.major)
      else
        let magnitude := ofBigEndian content.content
        .ok (if n = 2 then .ofNat magnitude else .ofInt (-1 - magnitude))
    else do return Text.concat [.ofNat n, "(", ← item content, ")"]
  | .simple n => .ok (simple n)
  | .half b => .ok (float (Binary.widenHalf b) "_1")
  | .single b => .ok (float (Binary.widen b) "_2")
  | .double b => .ok (float b "_3")

/-- Items in diagnostic notation, until one that has none. -/
def items : List Item → Except Fault (List Text)
  | [] => .ok []
  | i :: is => do
    let t ← item i
    let ts ← items is
    return t :: ts

/-- Pairs in diagnostic notation. -/
def pairs : List (Item × Item) → Except Fault (List Text)
  | [] => .ok []
  | (k, v) :: ps => do
    let key ← item k
    let value ← item v
    let ts ← pairs ps
    return Text.concat [key, ": ", value] :: ts

end

/-- The first item of a byte sequence in diagnostic notation, and a note of how many bytes follow it. -/
def first (data : List UInt8) : Except Fault Text := do
  let (i, rest) ← Item.read {} data
  let t ← item i
  return if rest.isEmpty then t else t ++ s!"\n({rest.length} trailing bytes)"

end SensorWire.Cbor.Diagnostic
