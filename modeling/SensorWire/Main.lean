import SensorWire.CommandLine.GeneratorTool
import SensorWire.CommandLine.LogTool
import SensorWire.CommandLine.MessageTool
import Std.Time.DateTime.Timestamp

/-!
# The program

The first argument names a tool: `bmmsg`, `bmmsg-log` or `bmmsg-gen`. The files that the others may mean are read before the tool runs,
and those that it changed are written after it.
-/

namespace SensorWire.Program

/-- The names of files that an argument may mean: the argument itself, what follows its equals sign or its letter, and the items of
each. -/
def mentioned (arg : Text) : List Text :=
  let values := [arg, ((arg.cut? '=').map Prod.snd).getD "", ⟨arg.bytes.drop 2⟩]
  values ++ values.flatMap fun v => v.splitOn ','

/-- The names of files that arguments may mean. -/
def mentionedFiles (args : List Text) : List String :=
  ((args.flatMap mentioned).eraseDups.filter fun t => !t.isEmpty && !Files.isDirectory t).filterMap Text.toString?

/-- Reads a file, if there is one. -/
def readFile (path : String) : IO (Option (List UInt8)) := do
  try
    return some (← IO.FS.readBinFile path).data.toList
  catch _ => return none

/-- Whether a directory exists. -/
def exists? (path : String) : IO Bool := do
  try
    let _ ← IO.FS.realPath path
    return true
  catch _ => return false

/-- The files that arguments may mean, and the directories that they may lie in. -/
def gather (args : List Text) : IO Files := do
  let mut files : Files := {}
  for path in mentionedFiles args do
    if let some data ← readFile path then files := files.put path data
    if let (some directory, _) := Files.splitName path then
      if ← exists? (directory.toString?.getD "") then files := { files with directories := directory :: files.directories }
  return files

/-- Writes the files that were changed. -/
def store (before after : Files) : IO Unit := do
  for (path, data) in after.entries do
    if before.find? path != some data then
      IO.FS.writeBinFile (path.toString?.getD "") ⟨data.toArray⟩

/-- Reads the standard input to its end. -/
partial def readAll (input : IO.FS.Stream) (before : ByteArray) : IO ByteArray := do
  let piece ← input.read 65536
  if piece.isEmpty then return before else readAll input (before ++ piece)

/-- A session label from sixteen random bytes. -/
def sessionLabel (bytes : List UInt8) : Text :=
  let marked := bytes.mapIdx fun i b => if i = 6 then b % 16 + 64 else if i = 8 then b % 64 + 128 else b
  let part (start length : Nat) : Text := Hex.encode ((marked.drop start).take length)
  Text.join "-" [part 0 4, part 4 2, part 6 2, part 8 2, part 10 6]

/-- The present time. -/
def now : IO Timestamp := do
  let nanos := (← Std.Time.Timestamp.now).toNanosecondsSinceUnixEpoch.toInt
  return Timestamp.ofUnix (nanos / 1000000000) (nanos % 1000000000).toNat

/-- Runs a tool by its name. -/
def run (tool : String) (args : List Text) (env : Environment) : IO (Nat × Environment) := do
  match tool with
  | "bmmsg" => return MessageTool.run (sessionLabel (← IO.getRandomBytes 16).data.toList) args env
  | "bmmsg-log" => return LogTool.run args env
  | "bmmsg-gen" => return GeneratorTool.run args env
  | _ => return (1, { env with errors := "Usage: (bmmsg | bmmsg-log | bmmsg-gen) [args]\n" })

end SensorWire.Program

open SensorWire in
/-- Runs the tool that the first argument names on the others. -/
def main (arguments : List String) : IO UInt32 := do
  match arguments with
  | [] => return 1
  | tool :: rest =>
    let args := rest.map Text.ofString
    let files ← Program.gather args
    let wantsInput := args.any fun a => a == "-" || a == "shell"
    let input ← if wantsInput then Program.readAll (← IO.getStdin) .empty else pure .empty
    let (code, env) ← Program.run tool args { files, input := input.data.toList, time := ← Program.now }
    Program.store files env.files
    (← IO.getStdout).write ⟨env.output.bytes.toArray⟩
    (← IO.getStderr).write ⟨env.errors.bytes.toArray⟩
    return code.toUInt32
