import SensorWire.Display.Format
import SensorWire.Log.Fields
import SensorWire.Log.Logger
import SensorWire.Schema.Record

/-!
# What commands work with

The environment of a command: the files and the standard input that it reads, what it has printed, the schemas that were loaded, and
the log of its codec events. A `Command` is a step on an environment that may fail; what it did before it failed stays done.
-/

namespace SensorWire

/-- The names that ask for an echo of codec events, besides the log. -/
def echoNames : List Text := ["slog", "zap", "logrus"]

/-- The choices that an environment is made from; an empty text makes none. -/
structure Configuration where
  logPath : Text := ""
  echo : Text := ""
  session : Text := ""
  schemaFiles : List Text := []
  /-- The bytes that one decode may allocate, if positive. -/
  limit : Int := 0

/-- What a command works with. -/
structure Environment where
  session : Text := ""
  formatter : Formatter := {}
  schemas : List Schema := []
  limit : Int64 := 0
  logger : Option Logger := none
  /-- Whether codec events are echoed. -/
  echo : Bool := false
  files : Files := {}
  /-- The standard input. -/
  input : List UInt8 := []
  /-- The time that events are stamped with. -/
  time : Timestamp := {}
  /-- What was printed. -/
  output : Text := ""
  /-- What was printed on the side: echoed events and usage. -/
  errors : Text := ""

/-- A step on an environment that may fail. -/
abbrev Command (α : Type) := ExceptT Failure (StateM Environment) α

namespace Environment

/-- The options of every decode. -/
def options (env : Environment) : Options := ⟨{ session := env.session }, env.limit⟩

/-- Sends one codec event to the log and the echo. -/
def log (env : Environment) (e : Event) : Environment :=
  let e := { e with time := env.time }
  let env := match env.logger with
    | none => env
    | some l =>
      let (l, files) := l.log e env.files
      { env with logger := some l, files }
  if env.echo then { env with errors := env.errors ++ e.line } else env

/-- Puts schemas beside the loaded ones, in place of those of the same name. -/
def addSchema (env : Environment) (s : Schema) : Environment :=
  { env with schemas := env.schemas.filter (fun x => x.name != s.name) ++ [s] }

/-- The loaded schemas by name. -/
def sortedSchemas (env : Environment) : List Schema := env.schemas.mergeSort fun a b => a.name.le b.name

/-- What a message name stands for. -/
inductive Known where
  | builtIn (m : Message)
  | loaded (s : Schema)

/-- A new message. -/
def Known.new : Known → Message
  | builtIn m => m
  | loaded s => s.new

/-- Finds what a name stands for: a built-in message in any case, or else a loaded schema of exactly this name. -/
def find? (env : Environment) (name : Text) : Option Known :=
  match Catalog.resolve? name with
  | some m => some (.builtIn m)
  | none => (env.schemas.find? fun s => s.name == name).map .loaded

end Environment

/-- Reads the schemas of a file. -/
def Schema.load (fs : Files) (path : Text) : Except Failure (List Schema) := do
  (Schema.parse ⟨← fs.read path⟩).mapError (.within path)

namespace Command

/-- The outcome of a pure step. -/
def ofExcept {α : Type} (r : Except Failure α) : Command α := ExceptT.mk (pure r)

/-- Prints a text. -/
def print (t : Text) : Command Unit := modify fun env => { env with output := env.output ++ t }

/-- Prints a text on the side. -/
def printError (t : Text) : Command Unit := modify fun env => { env with errors := env.errors ++ t }

/-- Sends codec events to the log and the echo. -/
def log (es : List Event) : Command Unit := modify fun env => es.foldl Environment.log env

/-- Fails unless lines can be indented. -/
def checkIndent : Command Unit := do
  if (← get).formatter.canIndent then return () else throw .badIndent

/-- A new message of a name. -/
def newMessage (name : Text) : Command Message := do
  match (← get).find? name with
  | some k => return k.new
  | none => throw (.unknownMessage (some name))

/-- Reads bytes from a file, or from the standard input under the name `-`; they may be given as hex text. -/
def readInput (path : Text) (isHex : Bool) : Command (List UInt8) := do
  let env ← get
  let data ← ofExcept (if path = "-" then .ok env.input else env.files.read path)
  ofExcept (if isHex then (Hex.parse ⟨data⟩).mapError fun f => .within path (.note f.message) else .ok data)

/-! ## Setting up -/

/-- Loads the schemas of a file in order, until one that has the name of a built-in message. -/
def addSchemas (path : Text) : List Schema → Command Unit
  | [] => return ()
  | s :: rest => do
    if (Catalog.find? s.name).isSome then throw (.note (Text.concat [path, ": ", s.name, " is a built-in message"]))
    modify fun env => env.addSchema s
    addSchemas path rest

/-- Loads the schemas of a file. -/
def loadSchemas (path : Text) : Command Unit := do
  addSchemas path (← ofExcept (Schema.load (← get).files path))

/-- Loads the schemas of files. -/
def loadAll : List Text → Command Unit
  | [] => return ()
  | path :: rest => do
    loadSchemas path
    loadAll rest

/-- Opens the event log. -/
def openLog (path : Text) : Command Unit := do
  let (l, files) ← ofExcept ((Logger.start path (← get).files).mapError (.within "opening event log"))
  modify fun env => { env with logger := some l, files }

/-- Closes the event log. -/
def closeLog : Command Unit := modify fun env =>
  match env.logger with
  | none => env
  | some l =>
    let (l, files) := l.close env.files
    { env with logger := some l, files }

/-- Makes the choices of a configuration. -/
def configure (c : Configuration) : Command Unit := do
  modify fun env => { env with session := c.session }
  if !c.logPath.isEmpty then openLog c.logPath
  if !c.echo.isEmpty then
    if echoNames.contains c.echo then modify fun env => { env with echo := true }
    else throw (.note (Text.concat ["unknown event backend ", c.echo.quoted, " (", Text.join ", " echoNames, ")"]))
  if 0 < c.limit then modify fun env => { env with limit := Int64.ofInt c.limit }
  loadAll c.schemaFiles

/-- Makes the choices of a configuration; a failure closes the log. -/
def start (c : Configuration) : Command Unit :=
  tryCatch (configure c) fun f => do
    closeLog
    throw f

end Command

end SensorWire
