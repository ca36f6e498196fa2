import SensorWire.CommandLine.Run
import SensorWire.Log.Commands

/-!
# The command line of the log tool
-/

namespace SensorWire.LogTool

/-- How to use the tool. -/
def usage : Text :=
  Text.concat [
    "bmmsg-log - Bristlemouth message codec log analyzer\n\n",
    "Usage:\n  bmmsg-log <command> [flags] <file.blog>\n\n",
    "Commands:\n",
    "  view     View log file in human-readable format\n",
    "  export   Export log file to JSONL or CSV format\n",
    "  filter   Filter log file and write to new file\n",
    "  stats    Show statistics about the log file\n\n",
    "Use \"bmmsg-log <command> --help\" for more information about a command.\n"]

/-- The flags that choose events. -/
def filterFlags : List Flag :=
  [{ name := "session", kind := .text, usage := "Filter by session ID" },
   { name := "schema", kind := .text, usage := "Filter by message name" },
   { name := "operation", kind := .text, usage := "Filter by operation (encode, decode)" },
   { name := "category", kind := .text, usage := "Filter by category (message, overflow, unknown_key, error)" },
   { name := "error-kind", kind := .text, usage := "Filter error events by kind (e.g. MALFORMED_INPUT)" },
   { name := "time-start", kind := .text, usage := "Filter by start time (RFC3339)" },
   { name := "time-end", kind := .text, usage := "Filter by end time (RFC3339)" }]

/-- The events that flags choose. -/
def request (a : Arguments) : FilterRequest :=
  ⟨a.text "session", a.text "schema", a.text "operation", a.text "category", a.text "error-kind", a.text "time-start",
   a.text "time-end"⟩

/-- Lists events. -/
def view : Subcommand :=
  { tool := "bmmsg-log", name := "view", synopsis := "view [flags] <file.blog>", flags := filterFlags }

/-- Exports a log. -/
def exporting : Subcommand :=
  { tool := "bmmsg-log", name := "export", synopsis := "export [flags] <file.blog>",
    flags :=
      [{ name := "format", kind := .text, usage := "Output format (jsonl, csv)", absent := "jsonl" },
       { name := "output", letter := some 'o', kind := .text, usage := "Output file (default: stdout)" }] }

/-- Filters a log into another. -/
def filter : Subcommand :=
  { tool := "bmmsg-log", name := "filter", synopsis := "filter [flags] -o <out.blog> <file.blog>",
    flags := filterFlags ++
      [{ name := "output", letter := some 'o', kind := .text, usage := "Output file (required; .zst compresses)" }] }

/-- Counts events. -/
def stats : Subcommand := { tool := "bmmsg-log", name := "stats", synopsis := "stats <file.blog>" }

/-- The log that arguments name. -/
def logPath (s : Subcommand) (a : Arguments) : Command Text :=
  match a.others with
  | [] => s.misuse "log file path required"
  | path :: _ => return path

/-- Fails if there is a failure. -/
def raise : Option Failure → Command Unit
  | some f => throw f
  | none => return ()

/-- Runs the command that lists events. -/
def runView (args : List Text) : Command Unit :=
  view.run args fun a => do
    let path ← logPath view a
    let f ← Command.ofExcept (request a).build
    let (text, failure) := (← get).files.listLog path f
    Command.print text
    raise failure

/-- Runs the command that exports. -/
def runExport (args : List Text) : Command Unit :=
  exporting.run args fun a => do
    let path ← logPath exporting a
    let format := a.text "format" "jsonl"
    let output := a.text "output"
    if output.isEmpty then
      let (text, failure) := (← get).files.exportedLog path format
      Command.print text
      raise failure
    else do
      let (failure, files) := (← get).files.exportLog path format output
      modify fun env => { env with files }
      raise failure

/-- Runs the command that filters. -/
def runFilter (args : List Text) : Command Unit :=
  filter.run args fun a => do
    let path ← logPath filter a
    let output := a.text "output"
    if output.isEmpty then filter.misuse "output file (-o) required"
    else do
      let (count, failure, files) := (← get).files.filterLog path (request a) output
      modify fun env => { env with files }
      raise failure
      Command.print (Text.concat [s!"Filtered {count} events to ", output, "\n"])

/-- Runs the command that counts. -/
def runStats (args : List Text) : Command Unit :=
  stats.run args fun a => do
    let path ← logPath stats a
    Command.print (← Command.ofExcept ((← get).files.countLog path))

/-- Runs the tool: the exit status and the environment. -/
def run (args : List Text) (env : Environment) : Nat × Environment :=
  let complain (t : Text) : Environment := { env with errors := Text.concat [env.errors, t, usage] }
  match args with
  | [] => (1, complain "")
  | name :: rest =>
    let isOne (names : List String) : Bool := names.any fun (n : String) => name == Text.ofString n
    if isOne ["-h", "-help", "--help", "help"] then (0, { env with output := env.output ++ usage })
    else if name = "view" then Command.finish "Error" (runView rest) env
    else if name = "export" then Command.finish "Error" (runExport rest) env
    else if name = "filter" then Command.finish "Error" (runFilter rest) env
    else if name = "stats" then Command.finish "Error" (runStats rest) env
    else (1, complain (Text.concat ["Unknown command: ", name, "\n"]))

end SensorWire.LogTool
