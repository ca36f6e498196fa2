import SensorWire.CommandLine.Run
import SensorWire.Generate.Syntax

/-!
# The command line of the code generator
-/

namespace SensorWire.GeneratorTool

/-- The flags of the tool. -/
def flags : List Flag :=
  [{ name := "package", letter := some 'p', kind := .text, usage := "Package name of the generated file" },
   { name := "output", letter := some 'o', kind := .text, usage := "Output Go file" }]

/-- The name of a file without its directory. -/
def baseName (path : Text) : Text := (Files.splitName path).2

/-- What the file is generated from. -/
def sourceName : List Text → Text
  | [] => ""
  | [path] => baseName path
  | path :: rest => Text.concat [baseName path, s!" and {rest.length} more"]

/-- The schemas of files. -/
def loadAll (fs : Files) : List Text → Except Failure (List Schema)
  | [] => .ok []
  | path :: rest => do
    let schemas ← Schema.load fs path
    return schemas ++ (← loadAll fs rest)

/-- Writes the tidy text of a source file. If it cannot be tidied, the draft is left beside it. -/
def write (path : Text) (f : SourceFile) : Command Unit := do
  match f.tidied path with
  | .ok text =>
    let files ← Command.ofExcept ((← get).files.write path text.bytes)
    modify fun env => { env with files }
  | .error failure => do
    match (← get).files.write (path ++ ".broken") (f.render .draft).bytes with
    | .ok files => modify fun env => { env with files }
    | .error _ => return ()
    throw (.within ("goimports " ++ baseName path) failure)

/-- Generates code for the schemas of files. -/
def generate (package output : Text) (paths : List Text) : Command Unit := do
  let schemas ← Command.ofExcept (loadAll (← get).files paths)
  let f ← Command.ofExcept (SourceFile.ofSchemas package (sourceName paths) schemas)
  write output f
  Command.print (Text.concat ["  generated ", output, s!" ({schemas.length} messages)\n"])

/-- Runs the tool: the exit status and the environment. -/
def run (args : List Text) (env : Environment) : Nat × Environment :=
  let explain (pieces : List Text) : Environment := { env with errors := env.errors ++ Text.concat pieces }
  let usage : Text := "Usage of bmmsg-gen:\n" ++ Flag.usages flags
  match Arguments.parse flags true args with
  | .error .help => (0, explain [usage])
  | .error fault => (2, explain [fault.message, "\n", usage, fault.message, "\n"])
  | .ok a =>
    let package := a.text "package"
    let output := a.text "output"
    if package.isEmpty || output.isEmpty || a.others.isEmpty then
      (1, explain ["Usage: bmmsg-gen --package <name> --output <file.go> <schema.yaml> ...\n", Flag.usages flags])
    else Command.finish "error" (generate package output a.others) env

end SensorWire.GeneratorTool
