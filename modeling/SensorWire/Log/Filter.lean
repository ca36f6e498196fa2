import SensorWire.Event.Basic
import SensorWire.Failure
import SensorWire.Text.Case
import SensorWire.Time.Reading

/-!
# Filters on events

A filter accepts the events that meet all of its conditions. A `FilterRequest` is what a user writes; `FilterRequest.build` makes a
filter of it or says what is wrong with it.
-/

namespace SensorWire

/-- Conditions on events; what is empty is no condition. -/
structure Filter where
  session : Text := ""
  operation : Option Operation := none
  category : Option Category := none
  schema : Text := ""
  /-- The kind of the error that an event must have. -/
  errorKind : Text := ""
  /-- The first time that is accepted. -/
  start : Option Timestamp := none
  /-- The first time after the start that is not accepted. -/
  stop : Option Timestamp := none
  deriving DecidableEq, Repr

namespace Filter

/-- Whether a text meets a condition on it. -/
def allows (wanted found : Text) : Bool := wanted.isEmpty || found == wanted

/-- Whether an event meets all conditions. -/
def accepts (f : Filter) (e : Event) : Bool :=
  allows f.session e.session && f.operation.all (· == e.operation) && f.category.all (· == e.category) &&
    allows f.schema e.schema && (f.errorKind.isEmpty || e.error.any (·.kind == f.errorKind)) &&
    f.start.all (fun t => !e.time.before t) && f.stop.all fun t => e.time.before t

end Filter

/-- The operation that a user names, in any case. -/
def Operation.parse (t : Text) : Except Failure Operation :=
  match ofName? t.toCapitals with
  | some o => .ok o
  | none => .error (.note (Text.concat ["invalid operation: ", t, " (must be encode or decode)"]))

/-- The category that a user names, in any case and with hyphens for underscores. -/
def Category.parse (t : Text) : Except Failure Category :=
  match ofName? (t.replaceChar '-' '_').toCapitals with
  | some c => .ok c
  | none => .error (.note (Text.concat ["invalid category: ", t, " (must be message, overflow, unknown_key, or error)"]))

/-- Conditions as a user writes them; an empty text is no condition. -/
structure FilterRequest where
  session : Text := ""
  schema : Text := ""
  operation : Text := ""
  category : Text := ""
  errorKind : Text := ""
  start : Text := ""
  stop : Text := ""
  deriving DecidableEq, Repr

namespace FilterRequest

/-- What a text that is not empty stands for. -/
def given {α : Type} (parse : Text → Except Failure α) (t : Text) : Except Failure (Option α) :=
  if t.isEmpty then .ok none else do return some (← parse t)

/-- The time that a user writes. -/
def time (context : String) (t : Text) : Except Failure Timestamp :=
  (Timestamp.parse t).mapError fun f => .within context (.note (f.message .internet t))

/-- The filter of a request, or the first thing that is wrong with it. -/
def build (r : FilterRequest) : Except Failure Filter := do
  let start ← given (time "invalid time-start format") r.start
  let stop ← given (time "invalid time-end format") r.stop
  let operation ← given Operation.parse r.operation
  let category ← given Category.parse r.category
  return { session := r.session, operation, category, schema := r.schema, errorKind := r.errorKind.toCapitals, start, stop }

end FilterRequest

end SensorWire
