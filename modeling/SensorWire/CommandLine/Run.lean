import SensorWire.CommandLine.Arguments
import SensorWire.Tool.Environment

/-!
# Running a command line

What the command lines of the tools have in common: a subcommand with flags explains itself, and its failure is printed.
-/

namespace SensorWire

/-- A subcommand of a tool. -/
structure Subcommand where
  tool : String
  name : String
  /-- How it is called. -/
  synopsis : String
  flags : List Flag := []

namespace Subcommand

/-- How to use a subcommand. -/
def usage (s : Subcommand) : Text :=
  Text.concat [s.tool, " ", s.name, "\n\nUsage:\n  ", s.tool, " ", s.synopsis, "\n\nFlags:\n", Flag.usages s.flags]

/-- Runs a subcommand on its arguments, or explains it if they ask for help. -/
def run (s : Subcommand) (args : List Text) (action : Arguments → Command Unit) : Command Unit :=
  match Arguments.parse s.flags true args with
  | .error .help => Command.printError s.usage
  | .error fault => throw (.note fault.message)
  | .ok a => action a

/-- Explains a subcommand whose arguments are wrong, and fails. -/
def misuse {α : Type} (s : Subcommand) (message : String) : Command α := do
  Command.printError s.usage
  throw (.note message)

end Subcommand

/-- Runs a command to its end: the exit status and the environment. The text of a failure is printed after a word. -/
def Command.finish (word : String) (c : Command Unit) (env : Environment) : Nat × Environment :=
  match c.run.run env with
  | (.ok (), env) => (0, env)
  | (.error f, env) => (1, { env with errors := env.errors ++ Text.concat [word, ": ", f.render, "\n"] })

end SensorWire
