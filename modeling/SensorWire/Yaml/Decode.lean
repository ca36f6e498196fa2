import SensorWire.Cbor.Conversion
import SensorWire.Failure
import SensorWire.Text.Base64
import SensorWire.Yaml.Resolve

/-!
# Values from documents

A `Shape` says what a document should hold, and `Node.decode` turns a document of that shape into a value. Everything that does not fit
is listed with its line; some documents, such as those with a key that is a mapping, cannot be understood at all. A key written as
`<<` takes entries from other mappings, where the mapping itself does not have them.
-/

namespace SensorWire.Yaml

/-- What a document or a part of it should hold. -/
inductive Shape where
  | any
  | text
  | bool
  | uint32
  | int
  | list (item : Shape)
  /-- Any values by names. -/
  | entries
  /-- The members of a structure with a name; a strict one has no others. -/
  | record (name : String) (strict : Bool) (members : List (String × Shape))

namespace Shape

/-- The name of a shape in messages. -/
def name : Shape → String
  | any => "interface \x7b\x7d"
  | text => "string"
  | bool => "bool"
  | uint32 => "uint32"
  | int => "int"
  | list item => "[]" ++ item.name
  | entries => "map[string]interface \x7b\x7d"
  | record name .. => name

end Shape

/-- A step of decoding: it may find faults, or find that the document cannot be understood. -/
abbrev Decode (α : Type) := StateT (List Text) Option α

namespace Decode

/-- The document cannot be understood. -/
def give {α : Type} : Decode α := fun _ => none

/-- Adds a fault to the list. -/
def note (line : Nat) (t : Text) : Decode Unit := modify fun faults => faults ++ [Text.concat ["line ", .ofNat line, ": ", t]]

end Decode

/-! ## Scalars -/

/-- Whether a word stands for a truth value where one is expected. -/
def truth? (t : Text) : Option Bool :=
  if ["y", "Y", "yes", "Yes", "YES", "on", "On", "ON"].any fun s => t == Text.ofString s then some true
  else if ["n", "N", "no", "No", "NO", "off", "Off", "OFF"].any fun s => t == Text.ofString s then some false
  else none

/-- A value of any type. -/
def Meaning.value : Meaning → Value
  | null => .null
  | bool b => .bool b
  | int n => .integer (if NumberText.isInt64 n then .int else .uint64) n
  | float bits => .float64 bits
  | time t => .time t
  | text t => .text t
  | merge => .text "<<"

/-- The number that a place for whole numbers takes from a fraction. -/
def wholeOfFloat? (bits : UInt64) : Option Int :=
  match Binary.datum bits with
  | .finite .. => Binary.truncate? bits
  | .infinite true => some (-0x10000000000000000)
  | _ => none

/-- What a place of a shape takes from a scalar that means something; the text is that of the scalar. -/
def Shape.ofMeaning? (s : Shape) (t : Text) (m : Meaning) : Option Value :=
  match s, m with
  | .any, m => some m.value
  | .text, _ => some (.text t)
  | .bool, .bool b => some (.bool b)
  | .bool, .text t => (truth? t).map Value.bool
  | .uint32, .int n => if 0 ≤ n ∧ n < 0x100000000 then some (.integer .uint32 n) else none
  | .uint32, .float bits => do
    let n ← wholeOfFloat? bits
    if 0 ≤ n ∧ n < 0x100000000 then some (.integer .uint32 n) else none
  | .int, .int n => if NumberText.isInt64 n then some (.integer .int n) else none
  | .int, .float bits => do
    let n ← wholeOfFloat? bits
    -- what is beyond the numbers that can be counted wraps around to the least one
    if 0x8000000000000000 < n then none else some (.integer .int (if NumberText.isInt64 n then n else -0x8000000000000000))
  | _, _ => none

/-- What a place of a shape takes from a scalar without a value: collections become empty, and other places stay as they are. -/
def Shape.ofNull? : Shape → Option Value
  | .any => some .null
  | .list _ => some (.list [])
  | .entries => some (.map [])
  | _ => none

/-- The text of a scalar in a fault, cut if it is long. -/
def excerpt (t : Text) : Text := if 10 < t.length then Text.concat [" `", t.take 7, "...`"] else Text.concat [" `", t, "`"]

/-- The fault of a node that does not fit a shape. -/
def misfit (s : Shape) (line : Nat) (tag t : Text) : Decode (Option Value) := do
  let shown : Text := if tag = "!!seq" ∨ tag = "!!map" then "" else excerpt t
  Decode.note line (Text.concat ["cannot unmarshal ", tag, shown, " into ", s.name])
  return none

/-- A scalar with a tag in a place of a shape. -/
def decodeScalar (s : Shape) (line : Nat) (tag t : Text) : Decode (Option Value) :=
  match resolve? tag t with
  | none => Decode.give
  | some m =>
    if tag = "!!binary" then
      match Base64.decode? t with
      | none => Decode.give
      | some b => match s.ofMeaning? ⟨b⟩ (.text ⟨b⟩) with
        | some v => return some v
        | none => misfit s line tag t
    else if m = .null then return s.ofNull?
    else match s.ofMeaning? t m with
      | some v => return some v
      | none => misfit s line tag t

/-! ## Mappings -/

/-- Whether two keys are written the same: both are scalars with the same text, sequences, mappings, or aliases of one anchor. -/
def sameSpelling : Node → Node → Bool
  | .scalar _ _ a _, .scalar _ _ b _ => a == b
  | .sequence .., .sequence .. => true
  | .mapping .., .mapping .. => true
  | .reference _ a _, .reference _ b _ => a == b
  | .reference _ a _, .loop _ b => a == b
  | .loop _ a, .reference _ b _ => a == b
  | .loop _ a, .loop _ b => a == b
  | _, _ => false

/-- How a key is shown that is written twice. -/
def spelling : Node → Text
  | .scalar _ _ t _ => t
  | .reference _ name _ => name
  | .loop _ name => name
  | _ => ""

/-- Lists the keys that are written again after this one. -/
def noteAgain (key : Node) : List (Node × Node) → Decode Unit
  | [] => return ()
  | (k, _) :: rest => do
    if sameSpelling key k then
      Decode.note k.line (Text.concat ["mapping key ", (spelling k).quoted, s!" already defined at line {key.line}"])
    noteAgain key rest

/-- Lists the keys that are written more than once. -/
def noteTwice : List (Node × Node) → Decode Unit
  | [] => return ()
  | (k, _) :: rest => do
    noteAgain k rest
    noteTwice rest

/-- What a mapping is read into. -/
inductive Target where
  | record (name : String) (strict : Bool) (members : List (String × Shape))
  | entries
  | pairs

namespace Target

/-- The shape of a key. -/
def keyShape : Target → Shape
  | pairs => .any
  | _ => .text

/-- The shape of the value of a key, if the key has one. -/
def valueShape? (t : Target) (key : Value) : Option Shape :=
  match t, key with
  | record _ _ members, .text k => (members.find? fun m => k == Text.ofString m.1).map Prod.snd
  | record .., _ => none
  | _, _ => some .any

end Target

/-- The state of reading mappings into a target. -/
structure Assembly where
  /-- What was read, by keys. -/
  entries : List (Value × Value) := []
  /-- The keys that mappings to take entries from must not have; none in the outermost mapping. -/
  taken : Option (List Value) := none
  /-- The members that this mapping has set. -/
  done : List Value := []

namespace Assembly

/-- Whether a list has a key. -/
def hasKey (keys : List Value) (k : Value) : Bool := keys.any fun x => Cbor.sameKey x k

/-- Sets a key, in its place if it is there. -/
def setIn (k v : Value) : List (Value × Value) → List (Value × Value)
  | [] => [(k, v)]
  | (x, old) :: rest => if Cbor.sameKey x k then (x, v) :: rest else (x, old) :: setIn k v rest

/-- Sets a key. -/
def set (a : Assembly) (k v : Value) : Assembly := { a with entries := setIn k v a.entries }

/-- The entries whose keys are texts, in the order of these. -/
def textEntries (a : Assembly) : List (Text × Value) :=
  let found := a.entries.filterMap fun (k, v) => match k with
    | .text t => some (t, v)
    | _ => none
  found.mergeSort fun x y => x.1.le y.1

/-- What was read as a value. -/
def value (a : Assembly) : Target → Value
  | .pairs => .pairs a.entries
  | _ => .map a.textEntries

end Assembly

/-- Whether a value can not be a key. -/
def isCollection : Value → Bool
  | .list _ | .map _ | .pairs _ => true
  | _ => false

/-- Whether all keys of a mapping are texts. -/
def hasTextKeys (pairs : List (Node × Node)) : Bool := pairs.all fun p => p.1.tag == "!!str" || p.1.tag == "!!merge"

/-- Takes a key into account: the assembly and whether its value is wanted. -/
def Assembly.admit (a : Assembly) (key : Value) : Assembly × Bool :=
  match a.taken with
  | none => (a, true)
  | some keys => if hasKey keys key then (a, false) else ({ a with taken := some (key :: keys) }, true)

/-- The shape of the value of a key that is wanted: none, with a fault, for a member that is set twice or that there is not. -/
def Assembly.place (a : Assembly) (t : Target) (line : Nat) (key : Value) : Decode (Option Shape) := do
  if isCollection key then Decode.give
  else match t, t.valueShape? key, key with
    | .record name strict _, none, .text k =>
      if strict then Decode.note line (Text.concat ["field ", k, " not found in type ", name])
      return none
    | .record name .., some s, .text k =>
      if hasKey a.done key then
        Decode.note line (Text.concat ["field ", k, " already set in type ", name])
        return none
      return some s
    | _, s, _ => return s

mutual

/-- A node in a place of a shape; nothing if it does not fit or says nothing. -/
def Node.decode (s : Shape) : Node → Decode (Option Value)
  | .reference _ _ target => target.decode s
  | .loop .. => Decode.give
  | .scalar line tag t plain => decodeScalar s line (Node.scalar line tag t plain).tag t
  | .sequence line tag items => match s with
    | .any => return some (.list (← decodeItems .any items))
    | .list item => return some (.list (← decodeItems item items))
    | s => misfit s line (Node.sequence line tag []).tag ""
  | .mapping line tag pairs => do
    let before := (← get).length
    noteTwice pairs
    if before < (← get).length then return none
    let into (t : Target) : Decode (Option Value) := do
      let a ← decodePairs t {} pairs
      let keys ← if pairs.any fun p => p.1.isMerge then decodeKeys pairs else pure []
      let a ← decodeMerges t keys a pairs
      return some (a.value t)
    match s with
    | .any => into (if hasTextKeys pairs then .entries else .pairs)
    | .entries => into .entries
    | .record name strict members => into (.record name strict members)
    | s => misfit s line (Node.mapping line tag []).tag ""

/-- Items in places of a shape; those that do not fit or say nothing are left out. -/
def decodeItems (s : Shape) : List Node → Decode (List Value)
  | [] => return []
  | n :: rest => do
    let v ← n.decode s
    let vs ← decodeItems s rest
    return match v with
      | some v => v :: vs
      | none => vs

/-- Reads the pairs of a mapping into a target, but for those that name other mappings. -/
def decodePairs (t : Target) (a : Assembly) : List (Node × Node) → Decode Assembly
  | [] => return a
  | (k, v) :: rest => do
    if k.isMerge then decodePairs t a rest
    else match ← k.decode t.keyShape with
      | none => decodePairs t a rest
      | some key =>
        let (a, wanted) := a.admit key
        if !wanted then decodePairs t a rest
        else match ← a.place t k.line key with
          | none => decodePairs t a rest
          | some s =>
            let a := { a with done := key :: a.done }
            match ← v.decode s with
            | some value => decodePairs t (a.set key value) rest
            | none => decodePairs t a rest

/-- The keys of a mapping. -/
def decodeKeys : List (Node × Node) → Decode (List Value)
  | [] => return []
  | (k, _) :: rest => do
    let key ← k.decode .any
    let keys ← decodeKeys rest
    return match key with
      | some key => key :: keys
      | none => keys

/-- Reads the mappings that the pairs of a mapping name into a target; `keys` are those of the outermost mapping. -/
def decodeMerges (t : Target) (keys : List Value) (a : Assembly) : List (Node × Node) → Decode Assembly
  | [] => return a
  | (k, v) :: rest => do
    if k.isMerge then
      let merged ← v.decodeMerge t { a with taken := some (a.taken.getD keys) }
      decodeMerges t keys merged rest
    else decodeMerges t keys a rest

/-- Reads a mapping, or each mapping of a sequence, into a target. -/
def Node.decodeMerge (t : Target) (a : Assembly) : Node → Decode Assembly
  | .mapping _ _ pairs => do
    let before := (← get).length
    noteTwice pairs
    if before < (← get).length then return a
    let a ← decodePairs t { a with done := [] } pairs
    decodeMerges t [] a pairs
  | .reference _ _ target => if target.isMapping then target.decodeMerge t a else Decode.give
  | .sequence _ _ items => decodeMergeItems t a items
  | _ => Decode.give

/-- Reads each mapping of a sequence into a target. -/
def decodeMergeItems (t : Target) (a : Assembly) : List Node → Decode Assembly
  | [] => return a
  | n :: rest => do
    if n.isMapping || (match n with | .reference _ _ target => target.isMapping | _ => false) then
      decodeMergeItems t (← n.decodeMerge t a) rest
    else Decode.give

end

/-- What a document holds, if it says anything, or the failure. -/
def Node.decodeAll (s : Shape) (n : Node) : Except Failure (Option Value) :=
  match (n.decode s).run [] with
  | none => .error .badDocument
  | some (v, []) => .ok v
  | some (_, faults) => .error (.misshapen faults)

/-- What the first document of a text holds, if there is one and it says anything, or the failure. -/
def decodeText (s : Shape) (t : Text) : Except Failure (Option Value) :=
  match Stream.ofText? t with
  | none => .error .badDocument
  | some stream => match stream.next with
    | none => .error .badDocument
    | some (none, _) => .ok none
    | some (some n, _) => n.decodeAll s

end SensorWire.Yaml
