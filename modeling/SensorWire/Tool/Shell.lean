import SensorWire.Tool.Commands

/-!
# The shell

A shell holds the message that is being edited and its last encoding. Each line is an `Instruction`; a new message forgets the last
encoding. Failures are printed, and none of them ends the shell.
-/

namespace SensorWire

/-- What a line asks for. -/
inductive Instruction where
  | nothing
  | help
  | schemas (keys : Bool)
  | new (args : List Text)
  | set (args : List Text)
  | display
  | encode
  | decode (args : List Text)
  | diagnose (args : List Text)
  | quit
  | unknown (name : Text)
  deriving DecidableEq, Repr

/-- Reads a line: a name in any case and its arguments, with blanks between them. -/
def Instruction.parse (line : Text) : Instruction :=
  match line.words with
  | [] => .nothing
  | word :: args =>
    let name := word.toSmalls
    let isOne (names : List String) : Bool := names.any fun (n : String) => name == Text.ofString n
    if isOne ["help", "?"] then .help
    else if isOne ["schemas", "ls"] then .schemas (args.head? == some "-k")
    else if isOne ["new", "n"] then .new args
    else if isOne ["set", "s"] then .set args
    else if isOne ["show"] then .display
    else if isOne ["encode", "e"] then .encode
    else if isOne ["decode", "d"] then .decode args
    else if isOne ["diag"] then .diagnose args
    else if isOne ["quit", "exit", "q"] then .quit
    else .unknown name

/-- A shell. -/
structure Shell where
  environment : Environment
  /-- The message that is being edited. -/
  current : Option Message := none
  /-- The last encoding of the message. -/
  last : Option (List UInt8) := none

namespace Shell

/-- A step of a shell that may fail. -/
abbrev Action (α : Type) := ExceptT Failure (StateM Shell) α

/-- Runs a command in the environment of the shell. -/
def run {α : Type} (c : Command α) : Action α := fun s =>
  let (r, environment) := c.run.run s.environment
  (r, { s with environment })

/-- The failure of a line. -/
def refuse {α : Type} (t : Text) : Action α := throw (.note t)

/-- What the shell can do. -/
def help : Text :=
  Text.concat [
    "Commands:\n",
    "  schemas [-k]          List messages, with -k their keys\n",
    "  new <message>         Start a new message\n",
    "  set key=value ...     Set fields of the current message\n",
    "  show                  Show the current message\n",
    "  encode                Encode the current message\n",
    "  decode [msg] [hex]    Decode hex, or the last encoding\n",
    "  diag [hex]            CBOR diagnostic of hex, or the last encoding\n",
    "  quit                  Exit\n"]

/-- The message that is being edited. -/
def message : Action Message := do
  match (← get).current with
  | some m => return m
  | none => refuse "no message (use new <message>)"

/-- Starts a new message. -/
def new : List Text → Action Unit
  | [name] => do
    let m ← run (Command.newMessage name)
    modify fun s => { s with current := some m, last := none }
    run (Command.print (Text.concat ["new ", m.name, "\n"]))
  | _ => refuse "usage: new <message>"

/-- Sets fields. What was set before a failure stays set. -/
def set (args : List Text) : Action Unit := do
  let m ← message
  if args.isEmpty then refuse "usage: set key=value ..."
  else do
    let values ← run (Command.ofExcept (Assignment.parseAll [] args))
    let (failure, m) := m.apply values
    modify fun s => { s with current := some m }
    match failure with
    | some f => throw f
    | none => return ()

/-- Shows the message. -/
def display : Action Unit := do
  let m ← message
  run do
    Command.checkIndent
    Command.print ((← get).formatter.table m.name m.table)

/-- Encodes the message and keeps the bytes. -/
def encode : Action Unit := do
  let m ← message
  let data ← run (Command.marshal m)
  modify fun s => { s with last := some data }
  run (Command.print (Text.concat [s!"{data.length} bytes: ", Hex.spaced data, "\n"]))

/-- The bytes that the longest run of arguments at the end spells, and the arguments before them. -/
def spelled? : List Text → Option (List UInt8 × List Text)
  | [] => none
  | args@(arg :: rest) =>
    match (Hex.parse (Text.concat args)).toOption.filter (fun data => !data.isEmpty) with
    | some data => some (data, [])
    | none => (spelled? rest).map fun (data, before) => (data, arg :: before)

/-- The bytes that the arguments spell, or else the last encoding, and the other arguments. -/
def bytesFor (args : List Text) : Action (List UInt8 × List Text) := do
  match spelled? args, (← get).last with
  | some found, _ => return found
  | none, some data => return (data, args)
  | none, none => refuse "nothing to decode (give hex or encode first)"

/-- Decodes bytes as the message that is named, or without arguments as the one that is being edited. -/
def decode (args : List Text) : Action Unit := do
  let (data, rest) ← bytesFor args
  let name := match rest, args, (← get).current with
    | name :: _, _, _ => name
    | [], [], some m => m.name
    | _, _, _ => ""
  run (Command.decode { message := name } data)

/-- Shows bytes in diagnostic notation. -/
def diagnose (args : List Text) : Action Unit := do
  let (data, _) ← bytesFor args
  run (Command.diagnose data)

/-- Carries out an instruction: whether the shell goes on. -/
def perform : Instruction → Action Unit
  | .nothing | .quit => return ()
  | .help => run (Command.print help)
  | .schemas keys => run (Command.listMessages keys)
  | .new args => new args
  | .set args => set args
  | .display => display
  | .encode => encode
  | .decode args => decode args
  | .diagnose args => diagnose args
  | .unknown name => refuse (Text.concat ["unknown command ", name.quoted, " (try help)"])

/-- Carries out a line and prints its failure: whether the line ends the shell, unless lines cannot be indented. -/
def exec (line : Text) (s : Shell) : Except Failure Bool × Shell :=
  let i := Instruction.parse line
  match (perform i).run.run s with
  | (.ok (), s) => (.ok (i == .quit), s)
  | (.error .badIndent, s) => (.error .badIndent, s)
  | (.error f, s) =>
    (.ok false, { s with environment.output := s.environment.output ++ Text.concat ["error: ", f.render, "\n"] })

/-- Carries out lines until one ends the shell. -/
def execAll : List Text → Shell → Except Failure Unit × Shell
  | [], s => (.ok (), s)
  | line :: rest, s => match s.exec line with
    | (.error f, s) => (.error f, s)
    | (.ok true, s) => (.ok (), s)
    | (.ok false, s) => execAll rest s

end Shell

end SensorWire
