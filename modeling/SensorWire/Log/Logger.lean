import SensorWire.Log.Reading

/-!
# Writing logs

A logger puts events at the end of a file. In a compressed file they wait until the logger is flushed or closed; each logger writes a
frame of its own, and none if it has nothing to write. A closed logger ignores everything.
-/

namespace SensorWire

/-- A logger on a file. -/
structure Logger where
  path : Text
  /-- The bytes that wait to be compressed. -/
  pending : List UInt8 := []
  /-- Whether the frame of the logger has been started. -/
  started : Bool := false
  closed : Bool := false
  deriving DecidableEq, Repr

namespace Logger

/-- Whether the logger compresses. -/
def compresses (l : Logger) : Bool := LogSource.isCompressed l.path

/-- Opens a logger; the file is created if it does not exist. -/
def start (path : Text) (fs : Files) : Except Failure (Logger × Files) :=
  match fs.refusal? path with
  | some err => .error err
  | none => .ok ({ path }, fs.append path [])

/-- Writes an event. -/
def log (l : Logger) (e : Event) (fs : Files) : Logger × Files :=
  if l.closed then (l, fs)
  else if l.compresses then ({ l with pending := l.pending ++ e.encode }, fs)
  else (l, fs.append l.path e.encode)

/-- Writes events. -/
def logAll (l : Logger) (es : List Event) (fs : Files) : Logger × Files :=
  es.foldl (fun (l, fs) e => l.log e fs) (l, fs)

/-- The frame of the waiting bytes, as far as it is not yet written. -/
def frame (l : Logger) : List UInt8 := (if l.started then [] else Zstd.header) ++ Zstd.blocks l.pending

/-- Writes the waiting bytes. -/
def flush (l : Logger) (fs : Files) : Logger × Files :=
  if l.closed || !l.compresses || l.pending.isEmpty then (l, fs)
  else ({ l with pending := [], started := true }, fs.append l.path l.frame)

/-- Writes the waiting bytes and ends the frame. -/
def close (l : Logger) (fs : Files) : Logger × Files :=
  if l.closed || !l.compresses || (l.pending.isEmpty && !l.started) then ({ l with closed := true }, fs)
  else ({ l with pending := [], started := true, closed := true }, fs.append l.path (l.frame ++ Zstd.ending))

end Logger

/-- Puts events at the end of a log file, and closes it. -/
def Files.appendLog (fs : Files) (path : Text) (es : List Event) : Except Failure Files := do
  let (l, fs) ← Logger.start path fs
  let (l, fs) := l.logAll es fs
  return (l.close fs).2

end SensorWire
