import SensorWire.Generate.Identifier
import SensorWire.Schema.Basic

/-!
# What is generated for a schema

Each schema becomes a type with a member for every field. `GeneratedMessage.ofSchema` chooses the names, and `GeneratedMessage.ofAll`
sees to it that no two types have the same.
-/

namespace SensorWire

/-- A member of a generated type. -/
structure GeneratedField where
  key : Text
  name : Text
  type : FieldType
  checked : Bool := false
  deriving DecidableEq, Repr

/-- A generated type. -/
structure GeneratedMessage where
  /-- The name of the message. -/
  name : Text
  /-- The name of the type. -/
  type : Text
  description : Text := ""
  version : UInt32
  header : Bool := false
  strict : Bool := false
  fingerprint : Text
  fields : List GeneratedField
  deriving DecidableEq, Repr

namespace GeneratedField

/-- The type of a member in the generated code, and the function that makes its field. -/
def code? : FieldType → Option (String × String)
  | .uint8 => some ("uint8", "wire.Uint8")
  | .uint16 => some ("uint16", "wire.Uint16")
  | .uint32 => some ("uint32", "wire.Uint32")
  | .uint64 => some ("uint64", "wire.Uint64")
  | .bool => some ("bool", "wire.Bool")
  | .simple => some ("uint8", "wire.Simple")
  | .float32 => some ("float32", "wire.Float32")
  | .float64 => some ("float64", "wire.Float64")
  | .string => some ("string", "wire.String")
  | .bytes => some ("[]byte", "wire.Bytes")
  | .invalid | .other _ => none

/-- The type of the member in the generated code. -/
def memberType (f : GeneratedField) : String := (code? f.type).elim "" Prod.fst

/-- The function that makes the field in the generated code. -/
def constructor (f : GeneratedField) : String := (code? f.type).elim "" Prod.snd

/-- The names that every generated type uses itself. -/
def reserved : List String := ["Header", "Name", "Table"]

/-- The name of the member for a key. -/
def memberName (key : Text) : Text :=
  let name := Identifier.ofName key
  if reserved.any fun (r : String) => name == Text.ofString r then name ++ "Value" else name

end GeneratedField

namespace GeneratedMessage

/-- The members for fields, given those before them; no two may have the same name. -/
def fieldsFrom (message : Text) (before : List GeneratedField) : List Field → Except Failure (List GeneratedField)
  | [] => .ok []
  | f :: rest =>
    let refuse (pieces : List Text) : Except Failure (List GeneratedField) := .error (.note (Text.concat pieces))
    if (GeneratedField.code? f.type).isNone then
      refuse [message, ".", f.key, ": no Go type for ", (Text.ofString f.type.name).quoted]
    else
      let name := GeneratedField.memberName f.key
      match before.find? fun g => g.name == name with
      | some g => refuse [message, ": keys ", g.key, " and ", f.key, " both map to field ", name]
      | none => do
        let g : GeneratedField := { key := f.key, name, type := f.type, checked := f.checked }
        return g :: (← fieldsFrom message (before ++ [g]) rest)

/-- The type that is generated for a schema. -/
def ofSchema (s : Schema) : Except Failure GeneratedMessage := do
  let d := s.definition
  return { name := d.name, type := Identifier.ofName d.name, description := d.description, version := s.version,
           header := d.header, strict := d.strict, fingerprint := s.fingerprintText, fields := ← fieldsFrom d.name [] s.fields }

/-- The types for schemas, given those before them; no two may have the same name. -/
def ofAllFrom (before : List GeneratedMessage) : List Schema → Except Failure (List GeneratedMessage)
  | [] => .ok []
  | s :: rest => do
    let m ← ofSchema s
    match before.find? fun g => g.type == m.type with
    | some g => throw (.note (Text.concat [g.name, " and ", m.name, " both generate type ", m.type]))
    | none => return m :: (← ofAllFrom (before ++ [m]) rest)

/-- The types for schemas. -/
def ofAll (schemas : List Schema) : Except Failure (List GeneratedMessage) := ofAllFrom [] schemas

/-- The names that are declared for a message: its type, its fingerprint and, with a header, its constructor. -/
def declaredNames (m : GeneratedMessage) : List Text :=
  [m.type, m.type ++ "Fingerprint"] ++ (if m.header then ["New" ++ m.type] else [])

end GeneratedMessage

end SensorWire
