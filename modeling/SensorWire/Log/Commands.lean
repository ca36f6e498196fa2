import SensorWire.Log.Export
import SensorWire.Log.Listing
import SensorWire.Log.Logger
import SensorWire.Log.Statistics

/-!
# What can be done with a log

The log in a file is listed, counted, exported or filtered into another file. What was written before a failure stays written.
-/

namespace SensorWire.Files

/-- Opens a log for a command. -/
def openLog (fs : Files) (path : Text) : Except Failure LogSource :=
  (fs.log path).mapError (.within "failed to open log file")

/-- The failure of a command on a log that does not end cleanly. -/
def readFailure? (ending : Failure) : Option Failure := ending.unclean?.map (.within "failed to read event")

/-- Lists the events that a filter accepts. -/
def listLog (fs : Files) (path : Text) (f : Filter) : Text × Option Failure :=
  match fs.openLog path with
  | .error err => ("", some err)
  | .ok source =>
    let (es, ending) := source.readFiltered f
    (Text.concat (es.map Event.listing), readFailure? ending)

/-- Counts the events of a log that ends cleanly. -/
def countLog (fs : Files) (path : Text) : Except Failure Text := do
  let (es, ending) := (← fs.openLog path).readFiltered {}
  match readFailure? ending with
  | some err => throw err
  | none => return (Statistics.ofEvents es).render

/-- The text that a log is exported as. -/
def exportedLog (fs : Files) (path format : Text) : Text × Option Failure :=
  match fs.openLog path with
  | .error err => ("", some err)
  | .ok source => match ExportFormat.ofName? format with
    | none => ("", some (.note (Text.concat ["unknown format: ", format, " (supported: jsonl, csv)"])))
    | some f =>
      let (es, ending) := source.readFiltered {}
      (Export.render f es, readFailure? ending)

/-- Exports a log to a file, which is empty first. -/
def exportLog (fs : Files) (path format output : Text) : Option Failure × Files :=
  match fs.openLog path with
  | .error err => (some err, fs)
  | .ok _ => match fs.write output [] with
    | .error err => (some (.within "failed to create output file" err), fs)
    | .ok fs =>
      let (text, err) := fs.exportedLog path format
      (err, fs.put output text.bytes)

/-- Puts the events that a filter accepts at the end of another log: their number and the failure. -/
def filterLog (fs : Files) (path : Text) (request : FilterRequest) (output : Text) : Nat × Option Failure × Files :=
  match request.build with
  | .error err => (0, some err, fs)
  | .ok f => match fs.openLog path with
    | .error err => (0, some err, fs)
    | .ok source =>
      let (es, ending) := source.readFiltered f
      match fs.appendLog output es with
      | .error err => (0, some (.within "failed to create output logger" err), fs)
      | .ok fs => (es.length, readFailure? ending, fs)

end SensorWire.Files
