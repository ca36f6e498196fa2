import SensorWire.CommandLine.Run
import SensorWire.Tool.Shell

/-!
# The command line of the message tool

Flags for all commands stand before the command, and its own flags after it.
-/

namespace SensorWire.MessageTool

/-- The flags for all commands. -/
def flags : List Flag :=
  [{ name := "log", kind := .text, usage := "Capture codec events to a file (.zst compresses)" },
   { name := "events", kind := .text, usage := "Echo codec events to stderr (slog, zap, logrus)" },
   { name := "session", kind := .text, usage := "Session ID for captured events (default: random UUID)" },
   { name := "schemas", kind := .list, usage := "YAML files defining dynamic messages" },
   { name := "alloc-limit", kind := .number, usage := "Bytes one decode may allocate (0: no limit)" }]

/-- How to use the tool. -/
def usage : Text :=
  Text.concat [
    "bmmsg - Bristlemouth message codec tool\n\n",
    "Usage:\n  bmmsg [global flags] <command> [flags] [args]\n\n",
    "Commands:\n",
    "  encode       Encode a message from YAML values and key=value pairs\n",
    "  decode       Decode a message, identifying it when no name is given\n",
    "  diag         Print the CBOR diagnostic notation of a message\n",
    "  schemas      List registered and dynamic messages\n",
    "  fingerprint  Print the fingerprints of a schema file\n",
    "  shell        Edit, encode and decode messages interactively\n\n",
    "Global flags:\n", Flag.usages flags]

/-! ## Commands -/

/-- Encodes a message. -/
def encode : Subcommand :=
  { tool := "bmmsg", name := "encode", synopsis := "encode [flags] <message>",
    flags :=
      [{ name := "values", letter := some 'f', kind := .text, usage := "YAML file of field values" },
       { name := "set", letter := some 's', kind := .texts, usage := "Set a field (key=value, repeatable)" },
       { name := "size", kind := .number, usage := "Encode into a buffer of this many bytes (0: fit)" },
       { name := "output", letter := some 'o', kind := .text, usage := "Write the raw bytes to a file" },
       { name := "hex", kind := .switch, usage := "Print compact hex instead of a hex dump" }] }

/-- Decodes a message. -/
def decode : Subcommand :=
  { tool := "bmmsg", name := "decode", synopsis := "decode [flags] [message] <file|->",
    flags :=
      [{ name := "hex", kind := .switch, usage := "Input is hex text" },
       { name := "lenient", kind := .switch, usage := "Accept keys in any order and skip unknown keys" },
       { name := "field", kind := .text, usage := "Print one field (key or message/key)" },
       { name := "types", kind := .switch, usage := "Show wire types" }] }

/-- Shows a message in diagnostic notation. -/
def diagnose : Subcommand :=
  { tool := "bmmsg", name := "diag", synopsis := "diag [flags] <file|->",
    flags := [{ name := "hex", kind := .switch, usage := "Input is hex text" }] }

/-- Lists messages. -/
def schemas : Subcommand :=
  { tool := "bmmsg", name := "schemas", synopsis := "schemas [flags]",
    flags := [{ name := "keys", letter := some 'k', kind := .switch, usage := "List each message's keys and types" }] }

/-- Prints fingerprints. -/
def fingerprint : Subcommand := { tool := "bmmsg", name := "fingerprint", synopsis := "fingerprint <schema.yaml>" }

/-- Runs the command that encodes. -/
def runEncode (args : List Text) : Command Unit :=
  encode.run args fun a =>
    match a.others with
    | [message] => Command.encode
        { message, valuesFile := a.text "values", assignments := a.texts "set", capacity := (a.number "size").toNat,
          output := a.text "output", hex := a.switch "hex" }
    | _ => encode.misuse "message name required"

/-- Runs the command that decodes. -/
def runDecode (args : List Text) : Command Unit :=
  decode.run args fun a => do
    modify fun env => { env with formatter.showTypes := a.switch "types" }
    let (message, input) ← match a.others with
      | [input] => pure (Text.empty, input)
      | [message, input] => pure (message, input)
      | _ => decode.misuse "input file required"
    let data ← Command.readInput input (a.switch "hex")
    Command.decode { message, lenient := a.switch "lenient", field := a.text "field" } data

/-- Runs the command that shows diagnostic notation. -/
def runDiagnose (args : List Text) : Command Unit :=
  diagnose.run args fun a => do
    match a.others with
    | [input] => Command.diagnose (← Command.readInput input (a.switch "hex"))
    | _ => diagnose.misuse "input file required"

/-- Runs the command that prints fingerprints. -/
def runFingerprint (args : List Text) : Command Unit :=
  fingerprint.run args fun a =>
    match a.others with
    | [path] => Command.listFingerprints path
    | _ => fingerprint.misuse "schema file required"

/-- The lines of an input. The last one need not end. -/
def inputLines (input : List UInt8) : List Text :=
  let lines := Text.splitOn ⟨input.map fun b => if b = 0x0d then 0x0a else b⟩ '\n'
  if lines.getLast? == some Text.empty then lines.dropLast else lines

/-- Runs a shell on the lines of the standard input. -/
def runShell : Command Unit := fun env =>
  let (_, env) := (Command.print Shell.help).run.run env
  let (r, shell) := Shell.execAll (inputLines env.input) { environment := env }
  (r, shell.environment)

/-- Runs a command by its name. -/
def runNamed (name : Text) (args : List Text) : Command Unit :=
  if name = "encode" then runEncode args
  else if name = "decode" then runDecode args
  else if name = "diag" then runDiagnose args
  else if name = "schemas" then schemas.run args fun a => Command.listMessages (a.switch "keys")
  else if name = "fingerprint" then runFingerprint args
  else if name = "shell" then runShell
  else throw (.note ("unknown command: " ++ name))

/-- The configuration that flags ask for. -/
def configuration (a : Arguments) (freshSession : Text) : Configuration :=
  let session := a.text "session"
  { logPath := a.text "log", echo := a.text "events", session := if session.isEmpty then freshSession else session,
    schemaFiles := a.texts "schemas", limit := a.number "alloc-limit" }

/-- Runs a command in an environment that is set up for it, and closes the log. -/
def runConfigured (c : Configuration) (name : Text) (args : List Text) : Command Unit := do
  Command.start c
  tryCatch (runNamed name args) fun f => do
    Command.closeLog
    throw f
  Command.closeLog

/-- Runs the tool: the exit status and the environment. Events get `freshSession` unless the flags name a session. -/
def run (freshSession : Text) (args : List Text) (env : Environment) : Nat × Environment :=
  let explained := { env with errors := env.errors ++ usage }
  match Arguments.parse flags false args with
  | .error .help => (0, explained)
  | .error _ => (1, env)
  | .ok a => match a.others with
    | [] => (1, explained)
    | name :: rest =>
      if name = "help" then (0, explained)
      else Command.finish "Error" (runConfigured (configuration a freshSession) name rest) env

end SensorWire.MessageTool
