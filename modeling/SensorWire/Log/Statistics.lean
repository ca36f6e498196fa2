import SensorWire.Event.Basic
import SensorWire.Text.Utf8
import SensorWire.Time.Duration

/-!
# Statistics of a log

One pass over the events counts them by operation, category, schema, session and kind of error, and keeps the least and greatest
size of the messages of each schema, the largest overflow, and the time between the first and the last event.
-/

namespace SensorWire

/-- How often each of some things was seen, in the order of their first appearance. -/
abbrev Tally (α : Type) := List (α × Nat)

namespace Tally

/-- Counts a thing once more. -/
def add {α : Type} [BEq α] (a : α) : Tally α → Tally α
  | [] => [(a, 1)]
  | (b, n) :: rest => if b == a then (b, n + 1) :: rest else (b, n) :: add a rest

/-- How often a thing was seen. -/
def count {α : Type} [BEq α] (t : Tally α) (a : α) : Nat := (t.lookup a).getD 0

end Tally

/-- The statistics of the events of one schema. -/
structure SchemaStatistics where
  encodes : Nat := 0
  decodes : Nat := 0
  overflows : Nat := 0
  errors : Nat := 0
  /-- The least size of a message, and zero if none has one. -/
  minSize : Int := 0
  maxSize : Int := 0
  deriving DecidableEq, Repr, Inhabited

namespace SchemaStatistics

/-- Takes the size of a message into account. -/
def addSize (s : SchemaStatistics) (n : Int) : SchemaStatistics :=
  if n ≤ 0 then s
  else { s with minSize := if s.minSize = 0 ∨ n < s.minSize then n else s.minSize,
                maxSize := if s.maxSize < n then n else s.maxSize }

/-- Takes an event into account. -/
def add (s : SchemaStatistics) (e : Event) : SchemaStatistics :=
  match e.category with
  | .message =>
    (if e.operation = Operation.encode then { s with encodes := s.encodes + 1 } else { s with decodes := s.decodes + 1 }).addSize e.size
  | .overflow => { s with overflows := s.overflows + 1 }
  | .error => { s with errors := s.errors + 1 }
  | _ => s

end SchemaStatistics

/-- The statistics of a log. -/
structure Statistics where
  total : Nat := 0
  operations : Tally Operation := []
  categories : Tally Category := []
  schemas : List (Text × SchemaStatistics) := []
  sessions : Tally Text := []
  errorKinds : Tally Text := []
  /-- The most bytes that a buffer lacked. -/
  maxExtra : Int := 0
  /-- The earliest time, where no time at all gives way to any other. -/
  start : Timestamp := {}
  /-- The latest time. -/
  stop : Timestamp := {}
  deriving DecidableEq, Repr, Inhabited

namespace Statistics

/-- The name under which the events of a schema are counted. -/
def label (schema : Text) : Text := if schema.isEmpty then "(unlabelled)" else schema

/-- Takes an event into account for the schema with a name. -/
def addSchema (name : Text) (e : Event) : List (Text × SchemaStatistics) → List (Text × SchemaStatistics)
  | [] => [(name, SchemaStatistics.add {} e)]
  | (n, s) :: rest => if n == name then (n, s.add e) :: rest else (n, s) :: addSchema name e rest

/-- Takes an event into account. -/
def add (s : Statistics) (e : Event) : Statistics where
  total := s.total + 1
  operations := s.operations.add e.operation
  categories := s.categories.add e.category
  schemas := addSchema (label e.schema) e s.schemas
  sessions := if e.session.isEmpty then s.sessions else s.sessions.add e.session
  errorKinds := match e.error with
    | some r => s.errorKinds.add r.kind
    | none => s.errorKinds
  maxExtra := if e.category = .overflow ∧ s.maxExtra < e.extra then e.extra else s.maxExtra
  start := if s.start.isZero || e.time.before s.start then e.time else s.start
  stop := if s.stop.before e.time then e.time else s.stop

/-- The statistics of events. -/
def ofEvents (es : List Event) : Statistics := es.foldl add {}

/-! ## Rendering -/

/-- A name in a column of a width, and a count. -/
def countLine (width : Nat) (name : Text) (n : Nat) : Text :=
  let name := name ++ ":"
  Text.concat ["  ", name.padEnd name.charCount width, " ", .ofNat n, "\n"]

/-- The lines of the counts of known things that were seen. -/
def countLines {α : Type} [BEq α] (t : Tally α) (name : α → String) (known : List α) : Text :=
  Text.concat ((known.filter fun a => 0 < t.count a).map fun a => countLine 12 (name a) (t.count a))

/-- The line of a schema. -/
def schemaLine (name : Text) (s : SchemaStatistics) : Text :=
  Text.concat ["  ", name, s!": {s.encodes} encoded, {s.decodes} decoded",
    if 0 < s.maxSize then s!", {s.minSize}-{s.maxSize} bytes" else "",
    if 0 < s.overflows then s!", {s.overflows} overflows" else "",
    if 0 < s.errors then s!", {s.errors} errors" else "", "\n"]

/-- The statistics for a reader. -/
def render (s : Statistics) : Text :=
  Text.concat ["=== Codec Log Statistics ===\n\n",
    if s.total = 0 then "" else
      Text.concat ["Time Range: ", s.start.renderSeconds, " to ", s.stop.renderSeconds, "\nDuration:   ",
        Duration.render (Duration.toSecond (Duration.between s.start s.stop)), "\n\n"],
    s!"Total Events: {s.total}\nSessions:     {s.sessions.length}\n\nEvents by Operation:\n",
    countLines s.operations Operation.name Operation.known, "\nEvents by Category:\n",
    countLines s.categories Category.name Category.known,
    if 0 < s.maxExtra then s!"  Largest overflow: {s.maxExtra} bytes\n" else "", "\n",
    if s.schemas.isEmpty then "" else
      Text.concat (s!"Messages: {s.schemas.length}\n" ::
        (s.schemas.mergeSort fun a b => a.1.le b.1).map fun (name, t) => schemaLine name t),
    if s.errorKinds.isEmpty then "" else
      Text.concat ("\nErrors by Kind:\n" ::
        (s.errorKinds.mergeSort fun a b => a.1.le b.1).map fun (kind, n) => countLine 24 kind n)]

end Statistics

end SensorWire
