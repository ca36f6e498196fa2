import SensorWire.Event.Codec
import SensorWire.Files
import SensorWire.Log.Filter
import SensorWire.Zstd.Frame

/-!
# Reading logs

A log is a stream of events without a frame around them. A `LogReader` reads one event after the other; with a filter, it skips the
events that the filter does not accept. Reading a whole log gives the events before the first failure and that failure; the end of
the stream between two events is `Failure.endOfStream`.
-/

namespace SensorWire

/-- What a log file gives: bytes, and the failure after them if they do not simply end. -/
structure LogSource where
  data : List UInt8
  broken : Option Failure := none

namespace LogSource

/-- Whether a log with this name is compressed. -/
def isCompressed (path : Text) : Bool := path.endsWith ".zst"

/-- The failure that a fault of the frames of a compressed log is. -/
def frameFailure : Zstd.Fault → Failure
  | .truncated => .data (.item .truncated)
  | f => .note f.message

/-- The source in a file's bytes. -/
def ofBytes (path : Text) (data : List UInt8) : LogSource :=
  if isCompressed path then
    let (content, fault) := Zstd.read data
    ⟨content, fault.map frameFailure⟩
  else ⟨data, none⟩

/-- The failure that reading ends with when the bytes do not hold the next event, which has a number. -/
def endingOf (s : LogSource) (number : Nat) (f : Cbor.Fault) : Failure :=
  let here := Failure.within s!"event {number}"
  match f, s.broken with
  | .empty, none => .endOfStream
  | .empty, some b => here b
  | .truncated, some b => here b
  | f, _ => here (.data (.item f))

end LogSource

/-- Whether a failure is the end of a stream, or passes it on. -/
def Failure.isEnd : Failure → Bool
  | endOfStream => true
  | data (.item .empty) => true
  | within _ inner => inner.isEnd
  | both first second => first.isEnd || second.isEnd
  | invalidSchema inner => inner.isEnd
  | _ => false

/-- The failure of a log that does not end cleanly. -/
def Failure.unclean? : Failure → Option Failure
  | endOfStream => none
  | f => some f

/-- A reader of a log: the events that it gives, what is unread, and the number of events that were read. -/
structure LogReader where
  source : LogSource
  filter : Filter := {}
  unread : List UInt8
  count : Nat := 0

namespace LogReader

/-- A reader at the beginning of a log. -/
def start (source : LogSource) (filter : Filter) : LogReader := { source, filter, unread := source.data }

/-- Reads the next event, whatever the filter. -/
def take (r : LogReader) : Except Failure Event × LogReader :=
  match Cbor.Item.read Event.limits r.unread with
  | .error f => (.error (r.source.endingOf (r.count + 1) f), r)
  | .ok (i, rest) =>
    let r := { r with unread := rest, count := r.count + 1 }
    ((Event.ofItemKnown i).mapError (.within s!"event {r.count}"), r)

/-- Reads up to the next event that the filter accepts; each event takes fuel. -/
def nextWithin : (fuel : Nat) → LogReader → Except Failure Event × LogReader
  | 0, r => (.error .endOfStream, r)
  | fuel + 1, r => match r.take with
    | (.error f, r) => (.error (if f.isEnd then .endOfStream else f), r)
    | (.ok e, r) => if r.filter.accepts e then (.ok e, r) else nextWithin fuel r

/-- Reads up to the next event that the filter accepts. Each event takes a byte at least, so that the length of what is unread is fuel
enough. -/
def next (r : LogReader) : Except Failure Event × LogReader := r.nextWithin (r.unread.length + 1)

/-- Reads events, each by a step that takes fuel, and gives them with the failure that ends the reading. -/
def drain (step : LogReader → Except Failure Event × LogReader) : (fuel : Nat) → LogReader → List Event × Failure
  | 0, _ => ([], .endOfStream)
  | fuel + 1, r => match step r with
    | (.error f, _) => ([], f)
    | (.ok e, r) =>
      let (es, ending) := drain step fuel r
      (e :: es, ending)

end LogReader

namespace LogSource

/-- The events of a log and the failure that ends it. -/
def read (s : LogSource) : List Event × Failure := LogReader.drain LogReader.take (s.data.length + 1) (.start s {})

/-- The events of a log that a filter accepts, and the failure that ends the log. -/
def readFiltered (s : LogSource) (f : Filter) : List Event × Failure :=
  LogReader.drain LogReader.next (s.data.length + 1) (.start s f)

end LogSource

/-- Opens the log in a file. A directory can be opened too, but gives nothing. -/
def Files.log (fs : Files) (path : Text) : Except Failure LogSource :=
  if isDirectory path then .ok ⟨[], some (directoryFailure "read" path)⟩
  else do return .ofBytes path (← fs.read path)

end SensorWire
