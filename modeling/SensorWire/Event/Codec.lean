import SensorWire.Event.Basic
import SensorWire.Failure

/-!
# Events as bytes

An event is a map with the numbers 1 to 9 as keys; what is empty is left out. A log is a sequence of such maps. Reading is strict: no
open lengths, little nesting, no key twice. Unknown keys are skipped, so that older readers take newer logs, but an event must
have a known operation and category.
-/

namespace SensorWire.Event

open Cbor

/-! ## Writing -/

/-- A member of a map, left out if it is empty. -/
def member (key : Nat) (keep : Bool) (i : Item) : List (Item × Item) := if keep then [(.ofNat key, i)] else []

/-- A text member, left out if it is empty. -/
def textMember (key : Nat) (t : Text) : List (Item × Item) := member key (!t.isEmpty) (.ofText t)

/-- The item of an error. -/
def errorItem (r : ErrorReport) : Item :=
  .ofPairs (member 1 true (.ofText r.kind) ++ member 2 true (.ofText r.message) ++ textMember 3 r.context)

/-- The item of an event. -/
def toItem (e : Event) : Item :=
  .ofPairs (member 1 true (if e.time.isZero then .null else .ofText e.time.render) ++ textMember 2 e.session ++
    member 3 true (.ofNat e.operation.number.toNat) ++ member 4 true (.ofNat e.category.number.toNat) ++
    textMember 5 e.schema ++ textMember 6 e.key ++ member 7 (e.size != 0) (.ofInt e.size) ++
    member 8 (e.extra != 0) (.ofInt e.extra) ++
    (match e.error with
      | some r => member 9 true (errorItem r)
      | none => []))

/-- The bytes of an event. -/
def encode (e : Event) : List UInt8 := e.toItem.encode

/-- The bytes of events one after the other. -/
def encodeAll (es : List Event) : List UInt8 := es.flatMap encode

/-! ## Reading maps with numbered members -/

/-- What a reader of events accepts. -/
def limits : Limits := { depth := 4, openLengths := false }

/-- The key of a member as it is told apart from others: a number, a text, or another value. -/
inductive MemberKey where
  | known (index : Nat) (shown : Text)
  | other (v : Value)

/-- A key as a fault shows it. -/
def showKey : Value → Text
  | .null => "<nil>"
  | .bool b => if b then "true" else "false"
  | .text t => t.quoted
  | .float64 bits => Layout.general.double bits
  | .simple n => "0x" ++ Text.ofChars (Nat.toDigits 16 n.toNat)
  | .integer _ n => .ofInt n
  | _ => ""

/-- The member that a number or its digits name, out of so many. -/
def memberKey (count : Nat) (k : Item) : Except DataFault (Option MemberKey × Option DataFault) :=
  match k with
  | .unsigned _ n =>
    if 1 ≤ n ∧ n ≤ count then .ok (some (.known n (.ofNat n)), none)
    else .ok (some (.other (.integer .int64 (Int64.ofNat n).toInt)), none)
  | .negative _ n =>
    if 0x8000000000000000 ≤ n then
      .error (.mismatch .negative "int64" (some s!"-1-{n} overflows Go's int64") none)
    else .ok (some (.other (.integer .int64 (-1 - n))), none)
  | k =>
    if k.major = .text then
      match k.text with
      | .error f => .error (.item f)
      | .ok t => match (List.range count).find? fun i => t == Text.ofNat (i + 1) with
        | some i => .ok (some (.known (i + 1) t.quoted), none)
        | none => .ok (some (.other (.text t)), none)
    else
      -- a key of another type is a fault, and yet must not come twice
      let fault := DataFault.mismatch k.major "string"
        (some s!"map key is of type {k.major.name} and cannot be used to match struct field name") none
      match toValue true k with
      | .error _ => .ok (none, some fault)
      | .ok v => match v, badKeyType? v with
        | .bytes _, _ => .ok (none, some fault)
        | v, none => .ok (some (.other v), some fault)
        | _, some _ => .ok (none, some fault)

/-- The state of reading a map: what was read, the members and other keys seen, and the first fault. -/
structure Members (α : Type) where
  value : α
  known : List Nat := []
  others : List Value := []
  fault : Option DataFault := none

/-- Records a fault unless there is one already. -/
def Members.blame {α : Type} (s : Members α) (f : DataFault) : Members α := { s with fault := s.fault.or (some f) }

/-- Reads the pairs of a map from an index on. The first fault counts, but a key that comes twice ends the reading. -/
def readMembers {α : Type} (count : Nat) (store : Nat → Item → α → Except DataFault α) :
    (index : Nat) → Members α → List (Item × Item) → Except DataFault α
  | _, s, [] => match s.fault with
    | some f => .error f
    | none => .ok s.value
  | index, s, (k, v) :: pairs =>
    match memberKey count k with
    | .error f => readMembers count store (index + 1) (s.blame f) pairs
    | .ok (key, fault) =>
      let s := match fault with
        | some f => s.blame f
        | none => s
      match key with
      | none => readMembers count store (index + 1) s pairs
      | some (.known i shown) =>
        if s.known.contains i then .error (.duplicateKey shown index)
        else
          let s := { s with known := i :: s.known }
          match store i v s.value with
          | .ok a => readMembers count store (index + 1) { s with value := a } pairs
          | .error f => readMembers count store (index + 1) (s.blame f) pairs
      | some (.other o) =>
        if s.others.any fun p => sameKey p o then .error (.duplicateKey (showKey o) index)
        else readMembers count store (index + 1) { s with others := o :: s.others } pairs

/-- Reads a map with numbered members; no value leaves everything as it was. -/
def readMap {α : Type} (type : String) (count : Nat) (store : Nat → Item → α → Except DataFault α) (a : α) (i : Item) :
    Except DataFault α := do
  let i ← i.admitted
  match i with
  | .map _ pairs => readMembers count store 0 { value := a } pairs
  | .openMap pairs => readMembers count store 0 { value := a } pairs
  | i =>
    if i.isNil then return a
    else if i.major = .array then
      throw (.mismatch .array type (some "cannot decode CBOR array to struct without toarray option") none)
    else throw (i.unsuited type)

/-! ## Members of events -/

/-- A whole number between two bounds; no value leaves what was there. -/
def readInt (type : String) (low high before : Int) (i : Item) : Except DataFault Int := do
  let i ← i.admitted
  let bounded (major : Major) (n : Int) : Except DataFault Int :=
    if n < low ∨ high < n then
      -- a type without negative numbers does not take them at all
      throw (if n < 0 ∧ low = 0 ∧ -0x8000000000000000 ≤ n then .wrong major type else .overflow major type n type)
    else return n
  match i with
  | .unsigned _ n => bounded .unsigned n
  | .negative _ n => bounded .negative (-1 - n)
  | .tag _ n content => bounded .tag (Item.bignum n content)
  | .simple n =>
    if i.isNil then return before
    else if n = 20 ∨ n = 21 then throw (.wrong .primitive type)
    else bounded .primitive n.toNat
  | i => throw (.wrong i.major type)

/-- The time of an event; no value leaves what was there. -/
def readTime (before : Timestamp) (i : Item) : Except DataFault Timestamp := do
  let i := i.undescribed
  match i.tagsFault? with
  | some f => throw (.item f)
  | none => return (← i.toTime).getD before

/-- Stores a member of an error. -/
def storeError (index : Nat) (i : Item) (r : ErrorReport) : Except DataFault ErrorReport :=
  match index with
  | 1 => return { r with kind := ← toText r.kind i }
  | 2 => return { r with message := ← toText r.message i }
  | _ => return { r with context := ← toText r.context i }

/-- Stores a member of an event. -/
def store (index : Nat) (i : Item) (e : Event) : Except DataFault Event :=
  let int := readInt "int" (-0x8000000000000000) (0x8000000000000000 - 1)
  match index with
  | 1 => return { e with time := ← readTime e.time i }
  | 2 => return { e with session := ← toText e.session i }
  | 3 => return { e with operation := .ofNumber (UInt8.ofNat (← readInt "log.Operation" 0 255 e.operation.number.toNat i).toNat) }
  | 4 => return { e with category := .ofNumber (UInt8.ofNat (← readInt "log.Category" 0 255 e.category.number.toNat i).toNat) }
  | 5 => return { e with schema := ← toText e.schema i }
  | 6 => return { e with key := ← toText e.key i }
  | 7 => return { e with size := ← int e.size i }
  | 8 => return { e with extra := ← int e.extra i }
  | _ =>
    if i.isNil then return { e with error := none }
    else return { e with error := some (← readMap "log.ErrorEventData" 3 storeError (e.error.getD {}) i) }

/-- Stores a member of an event; a fault names the member. -/
def storeNamed (index : Nat) (i : Item) (e : Event) : Except DataFault Event :=
  (store index i e).mapError (DataFault.inField s!"log.Event.{index}")

/-- The event that an item is. -/
def ofItem (i : Item) : Except DataFault Event := readMap "log.Event" 9 storeNamed {} i

/-- The failure of an event whose operation or category is not known. -/
def strange? (e : Event) : Option Failure :=
  if 1 < e.operation.number then some (.note s!"event has unknown operation {e.operation.number}")
  else if 3 < e.category.number then some (.note s!"event has unknown category {e.category.number}")
  else none

/-- An event that is known, from its item. -/
def ofItemKnown (i : Item) : Except Failure Event := do
  let e ← (ofItem i).mapError Failure.data
  match e.strange? with
  | some f => throw f
  | none => return e

/-- The one event that bytes hold. -/
def decode (data : List UInt8) : Except Failure Event := do
  let (i, rest) ← (Item.read limits data).mapError fun f => .data (.item f)
  if !rest.isEmpty then throw (.data (.trailing rest.length (data.length - rest.length)))
  ofItemKnown i

end SensorWire.Event
