import Mathlib
import SensorWire.Codec.Encoder
import SensorWire.Proofs.Head

/-!
# Encoders and their room

Every call on an encoder is one of five actions (`Call.action`). What the actions of a run amount to does not depend on the room: a
`Draft` holds the counts, the fatal error and all bytes of the message so far. An encoder carries a draft (`Encoder.Carries`): it has
the same counts and the same error, it has written a beginning of the bytes, all of them unless they do not fit, and it has left the
rest of its buffer alone. One step keeps this (`Carries.act`), and so does a run (`Carries.run`).

Main statement: a run in a small buffer and the same run in a large one differ only in what was written
(`bounded_simulates_unbounded`).
-/

namespace SensorWire

open Cbor

/-! ## Actions -/

/-- What a call asks of an encoder: to fail whatever the state, to write a pair, a key with the head of an array, or an element, or
to check that the map is complete. -/
inductive Action where
  | refused (err : Error)
  | pair (op key : Text) (value : Item)
  | array (key : Text) (n : Nat)
  | element (op : Text) (value : Item)
  | close

namespace Action

/-- The operation that the errors of an action name. -/
def op : Action → Text
  | refused err => err.op
  | pair op _ _ => op
  | array _ _ => "PutArrayHead"
  | element op _ => op
  | close => "Finish"

/-- The key that the errors of an action name. -/
def key : Action → Text
  | refused err => err.key
  | pair _ key _ => key
  | array key _ => key
  | element _ _ => ""
  | close => ""

/-- A key and a simple value, unless there is no such value. -/
def simple (key : Text) (v : UInt8) : Action :=
  if reservedSimple v.toNat then
    refused { code := .improperValue, op := "PutSimple", key, detail := .noSimpleValue v.toNat }
  else pair "PutSimple" key (.simple v)

/-- A key and the head of an array, unless the number of elements is negative. -/
def arrayHead (key : Text) (n : Int) : Action :=
  if n < 0 then refused { code := .improperValue, op := "PutArrayHead", key, detail := .negativeArrayLength n }
  else array key n.toNat

/-- A field by the rule of its type. -/
def field (f : Field) : Action :=
  match f.binding with
  | .unbound t => refused { code := .unsupportedFieldType, op := "PutField", key := f.key, detail := .fieldType t.name }
  | .bound (.uint8 v) => pair "PutField" f.key (.ofNat v.toNat)
  | .bound (.uint16 v) => pair "PutField" f.key (.ofNat v.toNat)
  | .bound (.uint32 v) => pair "PutField" f.key (.ofNat v.toNat)
  | .bound (.uint64 v) => pair "PutField" f.key (.ofNat v.toNat)
  | .bound (.simple v) => simple f.key v
  | .bound (.bool v) => pair "PutBool" f.key (.ofNat v.toNat)
  | .bound (.float32 bits) => pair "PutFloat32" f.key (.single bits)
  | .bound (.float64 bits) => pair "PutFloat64" f.key (.double bits)
  | .bound (.string v) => pair "PutText" f.key (.ofText v)
  | .bound (.bytes v) => pair "PutBytes" f.key (.ofBytes v)

end Action

namespace Encoder

/-- The action of a call. -/
def Call.action : Call → Action
  | uint8 key v => .pair "PutUint8" key (.ofNat v.toNat)
  | uint16 key v => .pair "PutUint16" key (.ofNat v.toNat)
  | uint32 key v => .pair "PutUint32" key (.ofNat v.toNat)
  | uint64 key v => .pair "PutUint64" key (.ofNat v.toNat)
  | bool key v => .pair "PutBool" key (.ofNat v.toNat)
  | simple key v => .simple key v
  | float32 key bits => .pair "PutFloat32" key (.single bits)
  | float64 key bits => .pair "PutFloat64" key (.double bits)
  | text key v => .pair "PutText" key (.ofText v)
  | bytes key v => .pair "PutBytes" key (.ofBytes v)
  | arrayHead key n => .arrayHead key n
  | elementFloat64 bits => .element "AppendFloat64" (.double bits)
  | elementFloat32 bits => .element "AppendFloat32" (.single bits)
  | elementUInt64 v => .element "AppendUint64" (.ofNat v.toNat)
  | field f => .field f
  | finish => .close

/-- Carries out an action. -/
def act (e : Encoder) : Action → Option Error × Encoder
  | .refused err => e.guarded (e.fail err)
  | .pair op key value => e.put op key value
  | .array key n => e.putArrayHead key n
  | .element op value => e.appendElement op value
  | .close => e.close

theorem guarded_ite (e : Encoder) (c : Prop) [Decidable c] (x y : Option Error × Encoder) :
    e.guarded (if c then x else y) = if c then e.guarded x else e.guarded y := by
  split <;> rfl

theorem guarded_put (e : Encoder) (op key : Text) (value : Item) : e.guarded (e.put op key value) = e.put op key value := by
  unfold put guarded
  split <;> rfl

theorem putSimple_eq_act (e : Encoder) (key : Text) (v : UInt8) : e.putSimple key v = e.act (.simple key v) := by
  rw [putSimple, guarded_ite, guarded_put, Action.simple]
  split <;> rfl

theorem putArrayHead_eq_act (e : Encoder) (key : Text) (n : Int) : e.putArrayHead key n = e.act (.arrayHead key n) := by
  unfold Action.arrayHead
  by_cases h : n < 0
  · rw [if_pos h, putArrayHead, if_pos h, act]
  · have hn : (n.toNat : Int) = n := Int.toNat_of_nonneg (Int.not_lt.1 h)
    rw [if_neg h, act, hn]

theorem putField_eq_act (e : Encoder) (f : Field) : e.putField f = e.act (.field f) := by
  obtain ⟨key, binding, checked⟩ := f
  cases binding with
  | unbound t => rfl
  | bound s =>
    cases s with
    | simple v => exact putSimple_eq_act e key v
    | _ => rfl

/-- A call on an encoder is its action. -/
theorem step_eq_act (e : Encoder) (c : Call) : e.step c = e.act c.action := by
  cases c with
  | simple key v => exact putSimple_eq_act e key v
  | arrayHead key n => exact putArrayHead_eq_act e key n
  | field f => exact putField_eq_act e f
  | _ => rfl

end Encoder

theorem Action.isFatal_of_simple {key : Text} {v : UInt8} {err : Error} (h : Action.simple key v = .refused err) :
    err.isFatal = true := by
  unfold Action.simple at h
  split at h <;> cases h
  rfl

/-- The errors with which calls are refused whatever the state are fatal. -/
theorem Encoder.Call.isFatal_of_refused {c : Encoder.Call} {err : Error} (h : c.action = .refused err) :
    err.isFatal = true := by
  cases c with
  | simple key v => exact Action.isFatal_of_simple h
  | arrayHead key n =>
    simp only [Encoder.Call.action, Action.arrayHead] at h
    split at h <;> cases h
    rfl
  | field f =>
    obtain ⟨key, binding, checked⟩ := f
    cases binding with
    | unbound t => cases h; rfl
    | bound s =>
      cases s with
      | simple v => exact Action.isFatal_of_simple h
      | _ => cases h
  | _ => cases h

/-! ## Drafts -/

/-- What an encoder was told, whatever its room: the counts, the fatal error, and all bytes of the message so far. -/
structure Draft where
  declared : Nat
  pairs : Nat := 0
  owed : Nat := 0
  fatal : Option Error := none
  bytes : List UInt8

namespace Draft

/-- The draft of a map of so many pairs. -/
def start (count : Nat) : Draft := { declared := count, bytes := (Head.shortest .map count).encode }

/-- Records a fatal error. -/
def fail (g : Draft) (err : Error) : Option Error × Draft := (some err, { g with fatal := some err })

/-- What an action does to a draft without a fatal error: the fatal error it returns, if any, and the next draft. -/
def perform (g : Draft) : Action → Option Error × Draft
  | .refused err => g.fail err
  | .pair op key value =>
    if 0 < g.owed then g.fail { code := .fieldCountMismatch, op, key, detail := .elementsOwed g.owed }
    else (none, { g with bytes := g.bytes ++ (Item.ofText key).encode ++ value.encode, pairs := g.pairs + 1 })
  | .array key n =>
    (none, { g with bytes := g.bytes ++ (Item.ofText key).encode ++ (Head.shortest .array n).encode, pairs := g.pairs + 1,
                    owed := n })
  | .element op value =>
    if g.owed = 0 then g.fail { code := .fieldCountMismatch, op, detail := .noElementsOwed }
    else (none, { g with bytes := g.bytes ++ value.encode, owed := g.owed - 1 })
  | .close =>
    if g.owed ≠ 0 then g.fail { code := .fieldCountMismatch, op := "Finish", detail := .elementsOwed g.owed }
    else if g.pairs ≠ g.declared then
      g.fail { code := .fieldCountMismatch, op := "Finish", detail := .pairsWritten g.declared g.pairs }
    else (none, g)

/-- What an action does to a draft: nothing after a fatal error. -/
def act (g : Draft) (a : Action) : Option Error × Draft :=
  match g.fatal with
  | some err => (some err, g)
  | none => g.perform a

/-- The draft after a list of actions. -/
def run (g : Draft) (actions : List Action) : Draft := actions.foldl (fun g a => (g.act a).2) g

theorem run_cons (g : Draft) (a : Action) (actions : List Action) : g.run (a :: actions) = (g.act a).2.run actions := rfl

theorem run_append (g : Draft) (as bs : List Action) : g.run (as ++ bs) = (g.run as).run bs :=
  List.foldl_append

theorem act_of_fatal {g : Draft} {err : Error} (h : g.fatal = some err) (a : Action) : g.act a = (some err, g) := by
  rw [act, h]

theorem act_of_not_fatal {g : Draft} (h : g.fatal = none) (a : Action) : g.act a = g.perform a := by
  rw [act, h]

/-- After a fatal error a run changes nothing. -/
theorem run_of_fatal {g : Draft} {err : Error} (h : g.fatal = some err) (actions : List Action) : g.run actions = g := by
  induction actions with
  | nil => rfl
  | cons a actions ih => rw [run_cons, act_of_fatal h, ih]

/-- A run that ends without a fatal error began without one. -/
theorem not_fatal_of_run {g : Draft} {actions : List Action} (h : (g.run actions).fatal = none) : g.fatal = none := by
  cases hf : g.fatal with
  | none => rfl
  | some err => rw [run_of_fatal hf, hf] at h; cases h

/-- The bytes of a draft only grow. -/
theorem bytes_act (g : Draft) (a : Action) : g.bytes <+: (g.act a).2.bytes := by
  unfold act
  split
  · exact List.prefix_refl _
  · cases a with
    | refused err => exact List.prefix_refl _
    | pair op key value =>
      rw [perform]
      split
      · exact List.prefix_refl _
      · exact ⟨(Item.ofText key).encode ++ value.encode, by simp⟩
    | array key n => exact ⟨(Item.ofText key).encode ++ (Head.shortest .array n).encode, by simp [perform]⟩
    | element op value =>
      rw [perform]
      split
      · exact List.prefix_refl _
      · exact ⟨value.encode, rfl⟩
    | close =>
      simp only [perform, fail]
      split_ifs <;> exact List.prefix_refl _

theorem bytes_run (g : Draft) (actions : List Action) : g.bytes <+: (g.run actions).bytes := by
  induction actions generalizing g with
  | nil => exact List.prefix_refl _
  | cons a actions ih => exact (g.bytes_act a).trans (ih _)

end Draft

/-! ## An encoder carries a draft -/

namespace Encoder

/-- An encoder in a buffer carries a draft: it has the same counts and the same error, it has written a beginning of the bytes, all of
them unless they do not fit, and the rest of the buffer is untouched. -/
structure Carries (buffer : List UInt8) (e : Encoder) (g : Draft) : Prop where
  declared : e.declared = g.declared
  pairs : e.pairs = g.pairs
  owed : e.owed = g.owed
  fatal : e.fatal = g.fatal
  total : e.total = g.bytes.length
  written : e.out <+: g.bytes
  fits : e.overflow = false → e.out = g.bytes
  spills : e.overflow = true → buffer.length < g.bytes.length
  room : e.out.length ≤ buffer.length
  beyond : e.beyond = buffer.drop e.out.length

variable {buffer : List UInt8} {e : Encoder} {g : Draft}

theorem Carries.capacity (h : Carries buffer e g) : e.capacity = buffer.length := by
  have := h.room
  rw [Encoder.capacity, h.beyond, List.length_drop]
  omega

theorem Carries.overflow_iff (h : Carries buffer e g) : e.overflow = true ↔ buffer.length < g.bytes.length := by
  refine ⟨h.spills, fun hlt => ?_⟩
  cases ho : e.overflow with
  | true => rfl
  | false =>
    have hroom := h.room
    rw [h.fits ho] at hroom
    omega

/-- The bytes that are missing are those past the end of the buffer. -/
theorem Carries.extraBytes (h : Carries buffer e g) : e.extraBytes = g.bytes.length - buffer.length := by
  rw [Encoder.extraBytes, h.total, h.capacity]
  split
  · rfl
  · rename_i ho
    have := (not_congr h.overflow_iff).1 ho
    omega

/-- The buffer is what was written and what it held before. -/
theorem Carries.buffer_eq (h : Carries buffer e g) : e.buffer = e.out ++ buffer.drop e.out.length := by
  rw [Encoder.buffer, h.beyond]

/-- A write adds its bytes to the draft. -/
theorem Carries.write (h : Carries buffer e g) (bytes : List UInt8) :
    Carries buffer (e.write bytes) { g with bytes := g.bytes ++ bytes } := by
  have hcap := h.capacity
  have hroom := h.room
  dsimp only [Encoder.write]
  split_ifs with ho hfit
  · have hspill := h.spills ho
    exact ⟨h.declared, h.pairs, h.owed, h.fatal, by simp [h.total], h.written.trans (List.prefix_append _ _),
      fun hn => absurd (hn.symm.trans ho) Bool.false_ne_true, fun _ => by rw [List.length_append]; omega, h.room, h.beyond⟩
  · have hout := h.fits (Bool.not_eq_true _ ▸ ho)
    have hfit' : buffer.length < g.bytes.length + bytes.length := by
      rw [← hcap, ← hout]
      exact hfit
    exact ⟨h.declared, h.pairs, h.owed, h.fatal, by simp [h.total], h.written.trans (List.prefix_append _ _), nofun,
      fun _ => by rw [List.length_append]; exact hfit', h.room, h.beyond⟩
  · have hout := h.fits (Bool.not_eq_true _ ▸ ho)
    have hfit' : e.out.length + bytes.length ≤ buffer.length := by
      rw [← hcap]
      exact Nat.not_lt.1 hfit
    refine ⟨h.declared, h.pairs, h.owed, h.fatal, by simp [h.total], ?_, fun _ => ?_, fun hs => absurd hs ho, ?_, ?_⟩
    · rw [hout]
    · rw [hout]
    · rw [List.length_append]
      exact hfit'
    · simp only [h.beyond, List.drop_drop, List.length_append]

/-- One pair more in both. -/
theorem Carries.addPair (h : Carries buffer e g) : Carries buffer { e with pairs := e.pairs + 1 } { g with pairs := g.pairs + 1 } :=
  ⟨h.declared, congrArg (· + 1) h.pairs, h.owed, h.fatal, h.total, h.written, h.fits, h.spills, h.room, h.beyond⟩

/-- So many elements owed in both. -/
theorem Carries.owe (h : Carries buffer e g) (n : Nat) : Carries buffer { e with owed := n } { g with owed := n } :=
  ⟨h.declared, h.pairs, rfl, h.fatal, h.total, h.written, h.fits, h.spills, h.room, h.beyond⟩

/-- Events do not touch the draft. -/
theorem Carries.emit (h : Carries buffer e g) (ev : Event) : Carries buffer (e.emit ev) g :=
  ⟨h.declared, h.pairs, h.owed, h.fatal, h.total, h.written, h.fits, h.spills, h.room, h.beyond⟩

/-- A fatal error is recorded in both. -/
theorem Carries.fail (h : Carries buffer e g) (err : Error) : Carries buffer (e.fail err).2 (g.fail err).2 :=
  ⟨h.declared, h.pairs, h.owed, rfl, h.total, h.written, h.fits, h.spills, h.room, h.beyond⟩

/-- What a call reports whose draft has no fatal error to report: the bytes that are missing, if any. -/
def shortage (buffer : List UInt8) (size : Nat) (op key : Text) : Option Error :=
  if buffer.length < size then some { code := .bufferTooSmall, op, key, needed := (size - buffer.length : Nat) } else none

theorem Carries.result (h : Carries buffer e g) (op key : Text) :
    e.result op key = (shortage buffer g.bytes.length op key, e) := by
  rw [Encoder.result, shortage]
  by_cases ho : buffer.length < g.bytes.length
  · rw [if_pos (h.overflow_iff.2 ho), if_pos ho, tooSmall, h.extraBytes]
  · rw [if_neg (mt h.overflow_iff.1 ho), if_neg ho]

/-- What an encoder reports of an action, given what the draft makes of it. -/
def report (buffer : List UInt8) (a : Action) (r : Option Error × Draft) : Option Error :=
  r.1.or (shortage buffer r.2.bytes.length a.op a.key)

/-- One step: the encoder carries the next draft and reports its error, or the bytes that are missing. -/
theorem Carries.act (h : Carries buffer e g) (a : Action) :
    Carries buffer (e.act a).2 (g.act a).2 ∧ (e.act a).1 = report buffer a (g.act a) := by
  cases hf : g.fatal with
  | some err =>
    have hstuck : e.act a = (some err, e) := by
      cases a <;> simp [Encoder.act, guarded, put, putArrayHead, appendElement, close, h.fatal, hf]
    rw [hstuck, Draft.act_of_fatal hf]
    exact ⟨h, rfl⟩
  | none =>
    have hf' : e.fatal = none := h.fatal.trans hf
    rw [Draft.act_of_not_fatal hf]
    cases a with
    | refused err =>
      simp only [Encoder.act, guarded, hf', Draft.perform]
      exact ⟨h.fail err, rfl⟩
    | pair op key value =>
      simp only [Encoder.act, put, guarded, hf', Draft.perform, h.owed]
      split
      · exact ⟨h.fail _, rfl⟩
      · have hw := ((h.write (Item.ofText key).encode).write value.encode).addPair
        rw [hw.result]
        exact ⟨hw, rfl⟩
    | array key n =>
      have hw := ((h.write (Item.ofText key).encode).write (Head.shortest .array n).encode).addPair.owe n
      have hn : ¬(n : Int) < 0 := Int.not_lt.2 (Int.natCast_nonneg n)
      simp only [Encoder.act, putArrayHead, guarded, hf', hn, if_false, Int.toNat_natCast, Draft.perform]
      rw [hw.result]
      exact ⟨hw, rfl⟩
    | element op value =>
      simp only [Encoder.act, appendElement, guarded, hf', Draft.perform, h.owed]
      split
      · exact ⟨h.fail _, rfl⟩
      · have hw := (h.write value.encode).owe (g.owed - 1)
        rw [hw.result]
        exact ⟨hw, rfl⟩
    | close =>
      simp only [Encoder.act, close, guarded, hf', Draft.perform, h.owed, h.pairs, h.declared]
      split_ifs with ho hp hs
      · exact ⟨h.fail _, rfl⟩
      · exact ⟨h.fail _, rfl⟩
      · refine ⟨h.emit _, ?_⟩
        have hr := congrArg Prod.fst (h.result "Finish" "")
        rw [Encoder.result, if_pos hs] at hr
        exact hr
      · refine ⟨h.emit _, ?_⟩
        have hr := congrArg Prod.fst (h.result "Finish" "")
        rw [Encoder.result, if_neg hs] at hr
        exact hr

/-- A run carries the run of the draft. -/
theorem Carries.run (h : Carries buffer e g) (calls : List Call) :
    Carries buffer (e.run calls) (g.run (calls.map Call.action)) := by
  induction calls generalizing e g with
  | nil => exact h
  | cons c calls ih =>
    have hstep := (h.act c.action).1
    rw [← step_eq_act] at hstep
    exact ih hstep

/-- A new encoder carries a new draft, and reports the head that does not fit. -/
theorem carries_startIn (labels : Labels) (buffer : List UInt8) {count : Int} (hcount : 0 ≤ count) :
    Carries buffer (startIn labels buffer count).2 (.start count.toNat) ∧
      (startIn labels buffer count).1 = shortage buffer (Draft.start count.toNat).bytes.length "NewEncoder" "" := by
  have hnew : Carries buffer { beyond := buffer, labels, declared := count.toNat } ⟨count.toNat, 0, 0, none, []⟩ :=
    ⟨rfl, rfl, rfl, rfl, rfl, List.prefix_refl _, fun _ => rfl, nofun, Nat.zero_le _, rfl⟩
  have hw := hnew.write (Head.shortest .map count.toNat).encode
  rw [startIn, if_neg (Int.not_lt.2 hcount), hw.result]
  exact ⟨hw, rfl⟩

end Encoder

/-- The fatal error of a draft is fatal. -/
def Draft.Sound (g : Draft) : Prop := ∀ err, g.fatal = some err → err.isFatal = true

theorem Draft.sound_start (count : Nat) : (Draft.start count).Sound := by
  intro err h
  exact absurd (show none = some err from h) (Option.some_ne_none err).symm

/-- A call on a sound draft leaves it sound, and the error that it returns is fatal. -/
theorem Draft.Sound.act {g : Draft} (h : g.Sound) (c : Encoder.Call) :
    (g.act c.action).2.Sound ∧ ∀ err, (g.act c.action).1 = some err → err.isFatal = true := by
  have hfail : ∀ err : Error, err.isFatal = true →
      (g.fail err).2.Sound ∧ ∀ err', (g.fail err).1 = some err' → err'.isFatal = true := by
    intro err herr
    refine ⟨?_, ?_⟩ <;> rintro err' ⟨⟩ <;> exact herr
  cases hf : g.fatal with
  | some err =>
    rw [Draft.act_of_fatal hf]
    refine ⟨h, ?_⟩
    rintro err' ⟨⟩
    exact h err hf
  | none =>
    have hsound : ∀ g' : Draft, g'.fatal = g.fatal → g'.Sound := fun g' hg' err herr => h err (hg' ▸ herr)
    have hnone : ∀ err : Error, none = some err → err.isFatal = true :=
      fun err herr => absurd herr (Option.some_ne_none err).symm
    rw [Draft.act_of_not_fatal hf]
    cases ha : c.action with
    | refused err => exact hfail err (Encoder.Call.isFatal_of_refused ha)
    | pair op key value =>
      rw [Draft.perform]
      split
      · exact hfail _ rfl
      · exact ⟨hsound _ rfl, hnone⟩
    | array key n => exact ⟨hsound _ rfl, hnone⟩
    | element op value =>
      rw [Draft.perform]
      split
      · exact hfail _ rfl
      · exact ⟨hsound _ rfl, hnone⟩
    | close =>
      rw [Draft.perform]
      split
      · exact hfail _ rfl
      · split
        · exact hfail _ rfl
        · exact ⟨h, hnone⟩

theorem Draft.Sound.run {g : Draft} (h : g.Sound) (calls : List Encoder.Call) : (g.run (calls.map Encoder.Call.action)).Sound := by
  induction calls generalizing g with
  | nil => exact h
  | cons c calls ih => exact ih (h.act c).1

/-! ## Runs in two buffers -/

namespace Encoder

/-- A call in a buffer of zeros with a capacity, and the same call in a buffer with room for everything: what each returns and
leaves. Both have the same size and the same fatal error, and a fatal error is returned by both or by neither. Otherwise the first
tells how many bytes are missing exactly if some are. What it has written is a beginning of what the other has, all of it if there is
room, and the rest of its buffer is still zero. -/
structure Simulates (capacity : Nat) (bounded free : Option Error × Encoder) : Prop where
  size : bounded.2.total = free.2.total
  fatal : bounded.2.fatal = free.2.fatal
  failure : bounded.1.filter Error.isFatal = free.1.filter Error.isFatal
  extra : bounded.2.extraBytes = bounded.2.total - capacity
  short : bounded.1.filter Error.isFatal = none →
    if capacity < bounded.2.total then
      ∃ err, bounded.1 = some err ∧ err.code = .bufferTooSmall ∧ err.needed = (bounded.2.total : Int) - capacity
    else bounded.1 = none
  written : bounded.2.out <+: free.2.out
  whole : bounded.2.total ≤ capacity → bounded.2.out = free.2.out
  zeros : bounded.2.buffer = bounded.2.out ++ List.replicate (capacity - bounded.2.out.length) 0

/-- A shortage is not fatal. -/
theorem filter_shortage (buffer : List UInt8) (size : Nat) (op key : Text) :
    (shortage buffer size op key).filter Error.isFatal = none := by
  unfold shortage
  split <;> rfl

/-- Two encoders that carry the same draft, one of them with room for all of it. -/
theorem simulates_of_carries {capacity : Nat} {buffer : List UInt8} {r u : Option Error × Encoder} {g : Draft} {op key : Text}
    (fatal : Option Error) (hr : Carries (List.replicate capacity 0) r.2 g) (hu : Carries buffer u.2 g)
    (hroom : g.bytes.length ≤ buffer.length) (hfatal : ∀ err, fatal = some err → err.isFatal = true)
    (hr1 : r.1 = fatal.or (shortage (List.replicate capacity 0) g.bytes.length op key))
    (hu1 : u.1 = fatal.or (shortage buffer g.bytes.length op key)) : Simulates capacity r u := by
  have hlen : (List.replicate capacity (0 : UInt8)).length = capacity := List.length_replicate
  have hfree : u.2.out = g.bytes := by
    apply hu.fits
    cases ho : u.2.overflow with
    | false => rfl
    | true => exact absurd (hu.spills ho) (Nat.not_lt.2 hroom)
  refine ⟨hr.total.trans hu.total.symm, hr.fatal.trans hu.fatal.symm, ?_, ?_, ?_, hfree ▸ hr.written, ?_, ?_⟩
  · rw [hr1, hu1]
    cases fatal with
    | some err => rfl
    | none => rw [Option.none_or, Option.none_or, filter_shortage, filter_shortage]
  · rw [hr.extraBytes, hr.total, hlen]
  · intro hnot
    cases fatal with
    | some err =>
      rw [hr1, Option.some_or, Option.filter_some, if_pos (hfatal err rfl)] at hnot
      cases hnot
    | none =>
      rw [hr1, Option.none_or, shortage, hlen, hr.total]
      split
      · rename_i hlt
        exact ⟨_, rfl, rfl, by push_cast [Nat.le_of_lt hlt]; rfl⟩
      · rfl
  · intro hle
    rw [hfree]
    apply hr.fits
    cases ho : r.2.overflow with
    | false => rfl
    | true =>
      have := hr.spills ho
      rw [hr.total] at hle
      omega
  · rw [hr.buffer_eq, List.drop_replicate]

/-- Finishing gives what closing reports, or the number of bytes written. -/
theorem finish_fst (e : Encoder) :
    e.finish.1 = match e.close.1 with
      | some err => .error err
      | none => .ok e.close.2.out.length := by
  rw [Encoder.finish]
  rcases e.close with ⟨_ | err, e'⟩ <;> rfl

/-- A draft that is complete can be closed. -/
theorem Carries.act_close {buffer : List UInt8} {e : Encoder} {g : Draft} (h : Carries buffer e g) (hf : e.fatal = none)
    (ho : e.owed = 0) (hp : e.pairs = e.declared) : g.act .close = (none, g) := by
  rw [Draft.act_of_not_fatal (h.fatal ▸ hf), Draft.perform]
  simp [← h.owed, ho, ← h.pairs, ← h.declared, hp]

/-- Closing a complete draft gives its size if it fits, and else the bytes that are missing. -/
theorem Carries.finish {buffer : List UInt8} {e : Encoder} {g : Draft} (h : Carries buffer e g) (hf : e.fatal = none)
    (ho : e.owed = 0) (hp : e.pairs = e.declared) :
    e.finish.1 = if e.total ≤ buffer.length then .ok e.total
      else .error { code := .bufferTooSmall, op := "Finish", needed := (e.total : Int) - buffer.length } := by
  obtain ⟨hcarries, hreport⟩ := h.act .close
  rw [h.act_close hf ho hp] at hcarries hreport
  simp only [Encoder.act, report, Option.none_or, Action.op, Action.key] at hcarries hreport
  rw [finish_fst, hreport, shortage, h.total]
  by_cases hlt : buffer.length < g.bytes.length
  · rw [if_pos hlt, if_neg (Nat.not_le.2 hlt)]
    push_cast [Nat.le_of_lt hlt]
    rfl
  · have hout : e.close.2.out = g.bytes := by
      apply hcarries.fits
      rw [Bool.eq_false_iff]
      exact mt hcarries.overflow_iff.1 hlt
    rw [if_neg hlt, if_pos (Nat.not_lt.1 hlt), hout]

/-- A run in a small buffer and the same run in one with room for everything. After the start and after every call the first
simulates the second, and finishing it gives the size if there is room, and else the bytes that are missing. -/
theorem bounded_simulates_unbounded (labels : Labels) (count : Int) (hcount : 0 ≤ count) (capacity room : Nat)
    (calls : List Call) (hroom : ((start labels room count).2.run calls).total ≤ room) :
    Simulates capacity (start labels capacity count) (start labels room count) ∧
    (∀ before call after, calls = before ++ call :: after →
      Simulates capacity (((start labels capacity count).2.run before).step call)
        (((start labels room count).2.run before).step call)) ∧
    (let e := (start labels capacity count).2.run calls
     e.fatal = none → e.owed = 0 → e.pairs = e.declared →
      e.finish.1 = if e.total ≤ capacity then .ok e.total
        else .error { code := .bufferTooSmall, op := "Finish", needed := (e.total : Int) - capacity }) := by
  obtain ⟨hr, hr1⟩ := carries_startIn labels (List.replicate capacity 0) hcount
  obtain ⟨hu, hu1⟩ := carries_startIn labels (List.replicate room 0) hcount
  have hsize : ((Draft.start count.toNat).run (calls.map Call.action)).bytes.length ≤ room := by
    rw [← (hu.run calls).total]
    exact hroom
  -- a beginning of the calls needs no more room than all of them
  have hbegin : ∀ before after, calls = before ++ after →
      ((Draft.start count.toNat).run (before.map Call.action)).bytes.length ≤ (List.replicate room (0 : UInt8)).length := by
    rintro before after rfl
    rw [List.map_append, Draft.run_append] at hsize
    rw [List.length_replicate]
    exact (Draft.bytes_run _ _).length_le.trans hsize
  refine ⟨?_, ?_, ?_⟩
  · exact simulates_of_carries none hr hu (hbegin [] calls rfl) (fun err h => absurd h (Option.some_ne_none err).symm) hr1 hu1
  · rintro before call after hcalls
    obtain ⟨hr', hr1'⟩ := (hr.run before).act call.action
    obtain ⟨hu', hu1'⟩ := (hu.run before).act call.action
    have hsound := ((Draft.sound_start count.toNat).run before).act call
    rw [← step_eq_act] at hr' hr1' hu' hu1'
    refine simulates_of_carries _ hr' hu' ?_ hsound.2 hr1' hu1'
    have := hbegin (before ++ [call]) after (by rw [hcalls, List.append_assoc]; rfl)
    rwa [List.map_append, Draft.run_append] at this
  · intro e hf ho hp
    have := (hr.run calls).finish hf ho hp
    rwa [List.length_replicate] at this

/-- A key and a number in three bytes of room: the head and the key fit, and the number does not. -/
theorem uint8_in_three_bytes :
    ((start {} 64 1).2.run [.uint8 ⟨[97]⟩ 255]).total ≤ 64 ∧
      Simulates 3 ((start {} 3 1).2.step (.uint8 ⟨[97]⟩ 255)) ((start {} 64 1).2.step (.uint8 ⟨[97]⟩ 255)) :=
  ⟨by decide, (bounded_simulates_unbounded {} 1 (by decide) 3 64 [.uint8 ⟨[97]⟩ 255] (by decide)).2.1 [] _ [] rfl⟩

end Encoder

end SensorWire
