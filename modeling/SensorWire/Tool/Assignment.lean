import SensorWire.Yaml.Decode

/-!
# Assignments

A field and its value written `key=value`. The value is YAML, so that numbers, truth values and lists are written as themselves.
-/

namespace SensorWire

/-- A field and a value for it. -/
structure Assignment where
  key : Text
  value : Value
  deriving Repr

namespace Assignment

/-- Reads an assignment. The key ends at the first equals sign and is not empty; an empty value is null. -/
def parse (t : Text) : Except Failure Assignment :=
  let misread : Except Failure Assignment := .error (.note (Text.concat ["expected key=value, got ", t.quoted]))
  match t.cut? '=' with
  | none => misread
  | some (key, value) =>
    if key.isEmpty then misread
    else match Yaml.decodeText .any value with
      | .error f => .error (.within ("value of " ++ key) f)
      | .ok v => .ok ⟨key, v.getD .null⟩

/-- Puts an assignment in place of an earlier one of the same key. -/
def putIn (values : List (Text × Value)) (a : Assignment) : List (Text × Value) :=
  values.filter (fun e => e.1 != a.key) ++ [(a.key, a.value)]

/-- Reads assignments over values, later ones over earlier ones. -/
def parseAll (values : List (Text × Value)) : List Text → Except Failure (List (Text × Value))
  | [] => .ok values
  | t :: rest => do
    let a ← parse t
    parseAll (a.putIn values) rest

end Assignment

end SensorWire
