import SensorWire.Hash.Blake3
import SensorWire.Message.Basic
import SensorWire.Schema.Definition
import SensorWire.Text.Hex

/-!
# Schemas

A schema is a definition that describes a message: every field has a known type, and the table of fields is one that the codec takes.
Two schemas have the same fingerprint if they have the same name, header and fields, whatever they are described as.
-/

namespace SensorWire

/-- A definition that describes a message, with the types of its fields. -/
structure Schema where
  definition : Definition
  fields : List Field
  deriving DecidableEq, Repr

namespace Schema

/-- The name of the messages that a schema describes. -/
def name (s : Schema) : Text := s.definition.name

/-! ## Making schemas -/

/-- The failure of a definition. -/
def invalid {α : Type} (pieces : List Text) : Except Failure α := .error (.invalidSchema (.note (Text.concat pieces)))

/-- The field that a definition describes, which has an index among those of its message. -/
def field (name : Text) (index : Nat) (f : FieldDefinition) : Except Failure Field :=
  match FieldType.ofName? f.type with
  | none => invalid [name, s!" field {index} (", f.key, "): unknown type ", f.type.quoted]
  | some type =>
    if f.checked && !type.isUnsigned then invalid [name, " field ", f.key, ": only unsigned fields can be checked"]
    else .ok ⟨f.key, (Slot.ofType? type).elim (.unbound type) .bound, f.checked⟩

/-- The fields that definitions describe. -/
def fieldsFrom (name : Text) (index : Nat) : List FieldDefinition → Except Failure (List Field)
  | [] => .ok []
  | f :: rest => do
    let f ← field name index f
    return f :: (← fieldsFrom name (index + 1) rest)

/-- The version in the header of new messages. -/
def version (s : Schema) : UInt32 := if s.definition.version = 0 then 1 else s.definition.version

/-- The fields of the header, if there is one. -/
def headerFields (s : Schema) : List Field := if s.definition.header then Message.headerFields s.version else []

/-- The table of a new message. -/
def table (s : Schema) : Table := ⟨s.headerFields ++ s.fields, s.definition.strict⟩

/-- A new message. -/
def new (s : Schema) : Message := { name := s.name, table := s.table }

/-- Makes a schema of a definition. -/
def compile (d : Definition) : Except Failure Schema := do
  if d.name.isEmpty then invalid ["missing name"]
  else if d.fields.isEmpty && !d.header then invalid [d.name, " has no fields"]
  else
    let s : Schema := ⟨d, ← fieldsFrom d.name 0 d.fields⟩
    match s.table.fault? with
    | some e => throw (.invalidSchema (.within d.name (.codec e)))
    | none => return s

/-- Makes schemas of the documents of a stream, each of which takes fuel; no two may have the same name. -/
def parseFrom : (fuel : Nat) → (seen : List Text) → Yaml.Stream → Except Failure (List Schema)
  | 0, _, _ => .ok []
  | fuel + 1, seen, stream =>
    match stream.next with
    | none => .error (.invalidSchema .badDocument)
    | some (none, _) => .ok []
    | some (some n, stream) => do
      let s ← compile (← (Definition.ofNode n).mapError Failure.invalidSchema)
      if seen.contains s.name then invalid [s.name, " defined twice"]
      else return s :: (← parseFrom fuel (s.name :: seen) stream)

/-- Makes schemas of a text. -/
def parse (t : Text) : Except Failure (List Schema) :=
  match Yaml.Stream.ofText? t with
  | none => .error (.invalidSchema .badDocument)
  | some stream => parseFrom (stream.tokens.length + 1) [] stream

/-- The keys of the messages, in order. -/
def keys (s : Schema) : List Text := s.table.fields.map Field.key

/-! ## Fingerprints -/

/-- The bytes that determine a fingerprint: the name, whether there is a header, and the keys and types of the fields. -/
def shapeBytes (s : Schema) : List UInt8 :=
  (Cbor.Item.ofList [.ofText s.name, .ofBool s.definition.header,
    .ofList (s.fields.map fun f => .ofList [.ofText f.key, .ofText f.type.name])]).encode

/-- The key of fingerprints. -/
def fingerprintKey : List UInt8 :=
  let label := (Text.ofString "bm-messages.schema.v1").bytes
  label ++ List.replicate (32 - label.length) 0

/-- The fingerprint of a schema. -/
def fingerprint (s : Schema) : List UInt8 := Blake3.keyedHash fingerprintKey s.shapeBytes

/-- The fingerprint as text. -/
def fingerprintText (s : Schema) : Text := Hex.encode s.fingerprint

/-- The first bytes of the fingerprint as text. -/
def shortFingerprint (s : Schema) : Text := Hex.encode (s.fingerprint.take 8)

end Schema

end SensorWire
