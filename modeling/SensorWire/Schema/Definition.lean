import SensorWire.Yaml.Decode

/-!
# Definitions of messages

What a user writes to describe a message: its name, whether it starts with the header of sensor messages, and its fields in order.
-/

namespace SensorWire

/-- The definition of a field. -/
structure FieldDefinition where
  key : Text := ""
  type : Text := ""
  checked : Bool := false
  deriving DecidableEq, Repr

/-- The definition of a message. -/
structure Definition where
  name : Text := ""
  description : Text := ""
  /-- The version in the header, and zero for the usual one. -/
  version : UInt32 := 0
  header : Bool := false
  strict : Bool := false
  fields : List FieldDefinition := []
  deriving DecidableEq, Repr

namespace Value

/-- The member of a structure with a name. -/
def member? (v : Value) (name : String) : Option Value :=
  match v with
  | map entries => entries.lookup (Text.ofString name)
  | _ => none

/-- A text member, empty if there is none. -/
def textAt (v : Value) (name : String) : Text :=
  match v.member? name with
  | some (text t) => t
  | _ => ""

/-- A member that is true or false, and false if there is none. -/
def flagAt (v : Value) (name : String) : Bool :=
  match v.member? name with
  | some (bool b) => b
  | _ => false

/-- A whole number that is a member, zero if there is none. -/
def numberAt (v : Value) (name : String) : Int :=
  match v.member? name with
  | some (integer _ n) => n
  | _ => 0

/-- The items of a member, none if there is none. -/
def itemsAt (v : Value) (name : String) : List Value :=
  match v.member? name with
  | some (list l) => l
  | _ => []

end Value

namespace FieldDefinition

/-- What the definition of a field holds. -/
def shape : Yaml.Shape := .record "schema.FieldDef" true [("key", .text), ("type", .text), ("checked", .bool)]

/-- The definition that a value is. -/
def ofValue (v : Value) : FieldDefinition := ⟨v.textAt "key", v.textAt "type", v.flagAt "checked"⟩

end FieldDefinition

namespace Definition

/-- What the definition of a message holds. -/
def shape : Yaml.Shape :=
  .record "schema.Definition" true
    [("name", .text), ("description", .text), ("version", .uint32), ("header", .bool), ("strict", .bool),
     ("fields", .list FieldDefinition.shape)]

/-- The definition that a value is. -/
def ofValue (v : Value) : Definition :=
  { name := v.textAt "name", description := v.textAt "description", version := UInt32.ofNat (v.numberAt "version").toNat,
    header := v.flagAt "header", strict := v.flagAt "strict", fields := (v.itemsAt "fields").map FieldDefinition.ofValue }

/-- The definition in a document, which is empty where the document says nothing. -/
def ofNode (n : Yaml.Node) : Except Failure Definition := do return (← n.decodeAll shape).elim {} ofValue

end Definition

end SensorWire
