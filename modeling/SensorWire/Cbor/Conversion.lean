import SensorWire.Cbor.Reader
import SensorWire.Time.Reading
import SensorWire.Value

/-!
# Items as values

A well-formed item is converted to a value, a time or a number of a given range. Each conversion says which items it takes; some tags
promise what their content is, and a broken promise is a fault before anything else. Tag 55799, which only says that CBOR follows,
is dropped.
-/

namespace SensorWire.Cbor

/-- Why an item is not the value that it should be. -/
inductive DataFault where
  | item (f : Fault)
  /-- An item of the wrong type; `field` is the place it was meant for, if it has a name. -/
  | mismatch (found : Major) (type : String) (note : Option Text) (field : Option Text)
  | duplicateKey (key : Text) (index : Nat)
  | badKey (type : String)
  | badTime (value : Text) (fault : TimeFault)
  | trailing (count start : Nat)
  deriving DecidableEq, Repr

namespace DataFault

/-- What a fault says. -/
def message : DataFault → Text
  | item f => f.message
  | mismatch found type note field =>
    Text.concat
      [s!"cbor: cannot unmarshal {found.name} into Go ",
       match field with
       | some name => Text.concat ["struct field ", name, " of type "]
       | none => "value of type ",
       type,
       match note with
       | some n => Text.concat [" (", n, ")"]
       | none => ""]
  | duplicateKey key index => Text.concat ["cbor: found duplicate map key ", key, s!" at map element index {index}"]
  | badKey type => s!"cbor: invalid map key type: {type}"
  | badTime value fault => Text.concat ["cbor: cannot set ", value, " for time.Time: ", fault.message .internet value]
  | trailing count start => s!"cbor: {count} bytes of extraneous data starting at index {start}"

/-- The fault of an item of the wrong type. -/
def wrong (found : Major) (type : String) : DataFault := mismatch found type none none

/-- The fault of a number that is too large for its place. -/
def overflow (found : Major) (type : String) (n : Int) (limit : String) : DataFault :=
  mismatch found type (some (Text.concat [.ofInt n, " overflows ", limit])) none

/-- A fault with the name of the place that the item was meant for. -/
def inField (name : Text) : DataFault → DataFault
  | mismatch found type note _ => mismatch found type note (some name)
  | f => f

end DataFault

/-- The tag that only says that CBOR follows. -/
def selfDescribed : Nat := 55799

/-- The fault of a tag whose content is not what the tag promises. -/
def tagFault? (number : Nat) (content : Item) : Option Fault :=
  match number, content with
  | 0, c => if c.major = .text then none else some (.tagContent "0" "text string" c.major)
  | 1, .half _ | 1, .single _ | 1, .double _ | 1, .unsigned .. | 1, .negative .. => none
  | 1, c => some (.tagContent "1" "integer or floating-point number" c.major)
  | 2, c | 3, c => if c.major = .bytes then none else some (.tagContent "2 or 3" "byte string" c.major)
  | _, _ => none

namespace Item

/-- The item without the tags around it that only say that CBOR follows. -/
def undescribed : Item → Item
  | tag w n content => if n = selfDescribed then undescribed content else tag w n content
  | i => i

/-- The fault of the first of the tags around an item whose content is not what it promises. -/
def tagsFault? : Item → Option Fault
  | tag _ n content => (tagFault? n content).or (tagsFault? content)
  | _ => none

/-- The item without the tags around it. -/
def untagged : Item → Item
  | tag _ _ content => untagged content
  | i => i

/-- The whole number that a byte string under tag 2 or 3 is. -/
def bignum (number : Nat) (content : Item) : Int :=
  let magnitude := ofBigEndian content.content
  if number = 2 then magnitude else -1 - magnitude

/-- The item without the tags around it, but for those that make a number of a byte string. -/
def settled : Item → Item
  | tag w n content => if n = 2 ∨ n = 3 then tag w n content else settled content
  | i => i

/-- The item that a place of a given type is filled from: without tags that say nothing, and with promises of tags kept. -/
def admitted (i : Item) : Except DataFault Item :=
  let i := i.undescribed
  match i.tagsFault? with
  | some f => .error (.item f)
  | none => .ok i.settled

/-- The fault of a settled item that a place of a type does not take; a number under a tag must not be too large even for that. -/
def unsuited (type : String) : Item → DataFault
  | tag _ n content =>
    let v := bignum n content
    if v < -0x8000000000000000 ∨ 0x10000000000000000 ≤ v then .overflow .tag type v type else .wrong .tag type
  | negative _ n => if 0x8000000000000000 ≤ n then .overflow .negative type (-1 - n) type else .wrong .negative type
  | i => .wrong i.major type

end Item

/-! ## Times -/

/-- The time that a number of seconds since 1970 is, whole seconds and nanoseconds both cut off toward zero. A number that is not
finite is no time. -/
def timeOfDouble (bits : UInt64) : Timestamp :=
  match Binary.datum bits with
  | .finite negative m e =>
    let (a, b) := Binary.scaled m e
    let sign : Int := if negative then -1 else 1
    -- seconds beyond 64 bits are the least number of 64 bits
    let whole := sign * ((a / b : Nat) : Int)
    let seconds := if -0x8000000000000000 ≤ whole ∧ whole < 0x8000000000000000 then whole else -0x8000000000000000
    let product := UInt64.ofNat (Binary.double.round false (a % b * 1000000000) b)
    let nanos := sign * (Binary.truncate? product).getD 0
    if nanos < 0 then Timestamp.ofUnix (seconds - 1) (nanos + 1000000000).toNat
    else Timestamp.ofUnix seconds nanos.toNat
  | _ => {}

namespace Item

/-- The time that an item is: text in the internet form, or seconds since 1970. Tags around it do not count, and no value is no
time. -/
def toTime (i : Item) : Except DataFault (Option Timestamp) :=
  let i := i.untagged
  let type := "time.Time"
  if i.isNil then .ok none
  else match i with
    | .unsigned _ n =>
      if n < 0x8000000000000000 then .ok (some (.ofUnix n 0)) else .error (.overflow .unsigned type n "Go's int64")
    | .negative _ n =>
      if n < 0x8000000000000000 then .ok (some (.ofUnix (-1 - n) 0)) else .error (.overflow .negative type (-1 - n) "Go's int64")
    | .half b => .ok (some (timeOfDouble (Binary.widenHalf b)))
    | .single b => .ok (some (timeOfDouble (Binary.widen b)))
    | .double b => .ok (some (timeOfDouble b))
    | i =>
      if i.major = .text then
        match i.text with
        | .error f => .error (.item f)
        | .ok t => match Timestamp.parse t with
          | .ok time => .ok (some time)
          | .error f => .error (.badTime t f)
      else .error (.wrong i.major type)

end Item

/-! ## Values -/

/-- Whether two values are the same key of a map. A NaN is no key twice, and the two zeros are one. -/
def sameKey : Value → Value → Bool
  | .null, .null => true
  | .bool a, .bool b => a == b
  | .text a, .text b => a == b
  | .integer k a, .integer l b => k == l && a == b
  | .float64 a, .float64 b => !Binary.isNan a && (a == b || (a &&& b == 0 && (a ||| b) == 0x8000000000000000))
  | .bytes a, .bytes b => a == b
  | .simple a, .simple b => a == b
  | .time a, .time b => a == b
  | .tag m a, .tag n b => m == n && sameKey a b
  | _, _ => false

/-- The name of a value's type if the value cannot be the key of a map. -/
def badKeyType? : Value → Option String
  | .list _ => some "[]interface \x7b\x7d"
  | .pairs _ => some "map[interface \x7b\x7d]interface \x7b\x7d"
  | .big _ => some "big.Int"
  | .tag _ v => (badKeyType? v).map fun _ => "cbor.Tag"
  | .bytes _ => none
  | _ => none

mutual

/-- The value that an item is. With `strip`, tags that only say that CBOR follows are dropped. -/
def toValue (strip : Bool) : Item → Except DataFault Value
  | .unsigned _ n => .ok (.integer .uint64 n)
  | .negative _ n => .ok (if n < 0x8000000000000000 then .integer .int64 (-1 - n) else .big (-1 - n))
  | .string .bytes _ b => .ok (.bytes b)
  | .chunks .bytes pieces => .ok (.bytes (pieces.flatMap Prod.snd))
  | .string .text w b => (Item.text (.string .text w b)).mapError DataFault.item |>.map Value.text
  | .chunks .text pieces => (Item.text (.chunks .text pieces)).mapError DataFault.item |>.map Value.text
  | .array _ items => do return .list (← toValues items)
  | .openArray items => do return .list (← toValues items)
  | .map _ pairs => do return .pairs (← toPairs pairs)
  | .openMap pairs => do return .pairs (← toPairs pairs)
  | .tag w n content =>
    if strip ∧ n = selfDescribed then toValue true content
    else match tagFault? n content with
      | some f => .error (.item f)
      | none =>
        if n = 0 ∨ n = 1 then do return .time ((← Item.toTime (.tag w n content)).getD {})
        else if n = 2 ∨ n = 3 then .ok (.big (Item.bignum n content))
        else do return .tag n (← toValue false content)
  | .simple n =>
    .ok (match n with
      | 20 => .bool false
      | 21 => .bool true
      | 22 => .null
      | 23 => .null
      | n => .simple n)
  | .half b => .ok (.float64 (Binary.widenHalf b))
  | .single b => .ok (.float64 (Binary.widen b))
  | .double b => .ok (.float64 b)

/-- The values of items, or the first fault. -/
def toValues : List Item → Except DataFault (List Value)
  | [] => .ok []
  | i :: items => do
    let v ← toValue true i
    let vs ← toValues items
    return v :: vs

/-- The pairs of a map, the last value of a repeated key counting, or the first fault. -/
def toPairs : List (Item × Item) → Except DataFault (List (Value × Value))
  | [] => .ok []
  | (k, v) :: pairs => do
    let key ← toValue true k
    match badKeyType? key with
    | some type => throw (.badKey type)
    | none =>
      let value ← toValue true v
      let rest ← toPairs pairs
      return if rest.any fun p => sameKey p.1 key then rest else (key, value) :: rest

end

/-! ## Maps with text keys -/

/-- A text, converted from an item; no value leaves what was there before. -/
def toText (before : Text) (i : Item) : Except DataFault Text := do
  let i ← i.admitted
  if i.isNil then return before
  else if i.major = .text then i.text.mapError DataFault.item
  else throw (i.unsuited "string")

/-- The entries of a map with text keys, in the order of the keys; the last value of a repeated key counts. A key that is no value is
the key before it. -/
def toEntries (before : Text) (acc : List (Text × Value)) : List (Item × Item) → Except DataFault (List (Text × Value))
  | [] => .ok (acc.mergeSort fun a b => a.1.le b.1)
  | (k, v) :: pairs => do
    let key ← toText before k
    let i := v.undescribed
    let value ← toValue false i
    toEntries key (acc.filter (fun e => e.1 != key) ++ [(key, value)]) pairs

/-- The map with text keys that bytes hold, and nothing besides it. -/
def readEntries (data : List UInt8) : Except DataFault (List (Text × Value)) := do
  let (i, rest) ← (Item.read {} data).mapError DataFault.item
  if !rest.isEmpty then throw (.trailing rest.length (data.length - rest.length))
  match ← i.admitted with
  | .map _ pairs => toEntries "" [] pairs
  | .openMap pairs => toEntries "" [] pairs
  | i => if i.isNil then return [] else throw (i.unsuited "map[string]interface \x7b\x7d")

end SensorWire.Cbor
