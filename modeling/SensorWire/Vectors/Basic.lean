import SensorWire.Files
import SensorWire.Schema.Definition
import SensorWire.Text.Hex
import SensorWire.Text.Words

/-!
# Test vectors

A test vector is a message with the values that produce it, its encoded size and, if they are pinned, its bytes. The vectors of a
directory are in its `.yaml` files, each of which holds a list of them.
-/

namespace SensorWire

/-- A message with its encoding. -/
structure TestVector where
  name : Text
  message : Text
  size : Int := 0
  /-- The bytes as hex text; none are pinned if it is empty. -/
  hex : Text := ""
  values : List (Text × Value) := []

namespace TestVector

/-- The pinned bytes. -/
def bytes (v : TestVector) : Except Failure (List UInt8) :=
  (Hex.decode (Text.concat v.hex.words).bytes).mapError fun f => .within ("vector " ++ v.name) (.note f.message)

/-- Vectors by name. -/
def sorted (vs : List TestVector) : List TestVector := vs.mergeSort fun a b => a.name.le b.name

/-! ## Reading vectors -/

/-- What a vector in a file holds. -/
def shape : Yaml.Shape :=
  .record "vectors.Vector" false
    [("name", .text), ("message", .text), ("size", .int), ("hex", .text), ("values", .entries)]

/-- The vector that a value is. -/
def ofValue (v : Value) : TestVector :=
  { name := v.textAt "name", message := v.textAt "message", size := v.numberAt "size", hex := v.textAt "hex",
    values := match v.member? "values" with
      | some (.map l) => l
      | _ => [] }

/-- The vectors in the text of a file. -/
def parse (file text : Text) : Except Failure (List TestVector) :=
  match Yaml.decodeText (.list shape) text with
  | .error f => .error (.within ("parsing " ++ file) f)
  | .ok (some (.list l)) => .ok (l.map ofValue)
  | .ok _ => .ok []

/-- Puts the vectors of a file after those of others, each of which comes with its file; each needs a message and a name of its own. -/
def gather (file : Text) : (before : List (TestVector × Text)) → List TestVector → Except Failure (List (TestVector × Text))
  | before, [] => .ok before
  | before, v :: rest =>
    if v.name.isEmpty || v.message.isEmpty then .error (.note (file ++ ": vector needs a name and a message"))
    else match before.find? fun x => x.1.name == v.name with
      | some (_, other) =>
        .error (.note (Text.concat [file, ": vector ", v.name.quoted, " already defined in ", other]))
      | none => gather file (before ++ [(v, file)]) rest

/-- The vectors of files of a directory after those of others. -/
def readFiles (directory : Text) (before : List (TestVector × Text)) :
    List (Text × List UInt8) → Except Failure (List (TestVector × Text))
  | [] => .ok before
  | (name, data) :: rest => do
    let file := Text.concat [directory, "/", name]
    readFiles directory (← gather file before (← parse file ⟨data⟩)) rest

/-- The vectors of one of some directories, by name. -/
def readDirectory (directories : List (Text × Files)) (directory : Text) : Except Failure (List TestVector) := do
  match directories.lookup directory with
  | none => throw (.missingDirectory directory)
  | some fs =>
    let named := fs.entries.filter fun e => e.1.endsWith ".yaml"
    let found ← readFiles directory [] (named.mergeSort fun a b => a.1.le b.1)
    return sorted (found.map Prod.fst)

end TestVector

end SensorWire
