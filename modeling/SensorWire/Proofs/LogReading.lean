import Mathlib
import SensorWire.Log.Reading
import SensorWire.Proofs.EventCodec

/-!
# What a log gives

A reader takes event after event until one that cannot be taken (`LogReader.Yields`). Reading a log is that run, and reading it through
a filter leaves out of the same run what the filter does not accept (`LogSource.readFiltered_eq`): the fuel of the two loops never runs
out, since each event takes a byte at least. Events that were written one after the other are taken one after the other.

Main statement: `Event.log_round_trip`.
-/

namespace SensorWire

open Cbor

/-- A failure as a reader with a filter passes it on: one that is the end of a stream is the end of this one. -/
def Failure.settled (f : Failure) : Failure := if f.isEnd then .endOfStream else f

namespace LogReader

variable {r r' : LogReader} {e : Event} {es : List Event} {f : Failure} {fuel : Nat}

/-! ## One event -/

theorem take_of_fault {fault : Fault} (h : Item.read Event.limits r.unread = .error fault) :
    r.take = (.error (r.source.endingOf (r.count + 1) fault), r) := by
  simp only [take, h]

theorem take_of_item {i : Item} {rest : List UInt8} (h : Item.read Event.limits r.unread = .ok (i, rest)) :
    r.take = ((Event.ofItemKnown i).mapError (.within s!"event {r.count + 1}"), { r with unread := rest, count := r.count + 1 }) := by
  simp only [take, h]

/-- An event that is taken takes a byte at least, and nothing of the source or the filter changes. -/
theorem take_ok (h : r.take = (.ok e, r')) : r'.filter = r.filter ∧ r'.unread.length < r.unread.length := by
  cases hread : Item.read Event.limits r.unread with
  | error fault =>
    rw [take_of_fault hread] at h
    cases h
  | ok p =>
    obtain ⟨i, rest⟩ := p
    rw [take_of_item hread, Prod.mk.injEq] at h
    obtain ⟨hbytes, hwithin⟩ := Item.read_eq_ok_iff.1 hread
    obtain ⟨b, tail, hfirst, -⟩ := hwithin.first
    rw [← h.2]
    refine ⟨rfl, ?_⟩
    change rest.length < r.unread.length
    rw [hbytes, hfirst, List.cons_append, List.length_cons, List.length_append]
    omega

/-- What is taken does not depend on the filter. -/
theorem take_filtered (r : LogReader) (g : Filter) :
    ({ r with filter := g } : LogReader).take = (r.take.1, { r.take.2 with filter := g }) := by
  cases hread : Item.read Event.limits r.unread with
  | error fault => rw [take_of_fault hread, take_of_fault (r := { r with filter := g }) hread]
  | ok p => rw [take_of_item hread, take_of_item (r := { r with filter := g }) hread]

/-! ## Whole runs -/

/-- The events that are taken one after the other, whatever the filter, and the failure to take another. -/
inductive Yields : LogReader → List Event → Failure → Prop
  | done {r r' : LogReader} {f : Failure} (h : r.take = (.error f, r')) : Yields r [] f
  | more {r r' : LogReader} {e : Event} {es : List Event} {f : Failure} (h : r.take = (.ok e, r')) (rest : Yields r' es f) :
    Yields r (e :: es) f

/-- Every reader comes to an end. -/
theorem exists_yields (r : LogReader) : ∃ es f, Yields r es f := by
  induction hlength : r.unread.length using Nat.strong_induction_on generalizing r with
  | _ n ih =>
    subst hlength
    rcases htake : r.take with ⟨result, r'⟩
    cases result with
    | error f => exact ⟨[], f, .done htake⟩
    | ok e =>
      obtain ⟨es, f, hrest⟩ := ih _ (take_ok htake).2 r' rfl
      exact ⟨e :: es, f, .more htake hrest⟩

theorem Yields.filtered (h : Yields r es f) (g : Filter) : Yields { r with filter := g } es f := by
  induction h with
  | @done r r' f h =>
    have htake := take_filtered r g
    rw [h] at htake
    exact .done htake
  | @more r r' e es f h _ ih =>
    have htake := take_filtered r g
    rw [h] at htake
    exact .more htake ih

/-- Taking every event gives the whole run. -/
theorem Yields.drain_take (h : Yields r es f) (hfuel : r.unread.length < fuel) : drain take fuel r = (es, f) := by
  induction h generalizing fuel with
  | done h =>
    obtain ⟨fuel, rfl⟩ := Nat.exists_eq_add_of_lt hfuel
    simp only [drain, h]
  | more h _ ih =>
    obtain ⟨fuel, rfl⟩ : ∃ k, fuel = k + 1 := ⟨fuel - 1, by omega⟩
    have hless := (take_ok h).2
    simp only [drain, h, ih (show _ < fuel by omega)]

/-! ## Runs through a filter -/

/-- More fuel than there are bytes makes no difference. -/
theorem nextWithin_eq_next (hfuel : r.unread.length < fuel) : r.nextWithin fuel = r.next := by
  suffices heq : ∀ k k' (r : LogReader), r.unread.length < k → r.unread.length < k' → r.nextWithin k = r.nextWithin k' from
    heq _ _ r hfuel (Nat.lt_succ_self _)
  intro k
  induction k with
  | zero =>
    intro k' r hk
    exact absurd hk (Nat.not_lt_zero _)
  | succ k ih =>
    intro k' r hk hk'
    obtain ⟨k', rfl⟩ : ∃ n, k' = n + 1 := ⟨k' - 1, by omega⟩
    rcases htake : r.take with ⟨result, r'⟩
    cases result with
    | error f => simp only [nextWithin, htake]
    | ok e =>
      have hless := (take_ok htake).2
      simp only [nextWithin, htake, ih k' r' (by omega) (by omega)]

theorem next_error (h : r.take = (.error f, r')) : r.next = (.error f.settled, r') := by
  simp only [next, nextWithin, h]
  rfl

theorem next_accepted (h : r.take = (.ok e, r')) (haccepts : r.filter.accepts e = true) : r.next = (.ok e, r') := by
  have hfilter := (take_ok h).1
  simp only [next, nextWithin, h, hfilter, haccepts, if_true]

/-- An event that is not accepted is passed over. -/
theorem next_rejected (h : r.take = (.ok e, r')) (haccepts : r.filter.accepts e = false) : r.next = r'.next := by
  obtain ⟨hfilter, hless⟩ := take_ok h
  simp only [next, nextWithin, h, hfilter, haccepts, Bool.false_eq_true, if_false]
  exact nextWithin_eq_next hless

/-- Taking the accepted events leaves the others out of the run. -/
theorem Yields.drain_next (h : Yields r es f) (hfuel : r.unread.length < fuel) :
    drain next fuel r = (es.filter r.filter.accepts, f.settled) := by
  induction h generalizing fuel with
  | done h =>
    obtain ⟨fuel, rfl⟩ := Nat.exists_eq_add_of_lt hfuel
    simp only [drain, next_error h, List.filter_nil]
  | @more r r' e es f h _ ih =>
    obtain ⟨fuel, rfl⟩ : ∃ k, fuel = k + 1 := ⟨fuel - 1, by omega⟩
    obtain ⟨hfilter, hless⟩ := take_ok h
    cases haccepts : r.filter.accepts e with
    | true =>
      have hrest := ih (show _ < fuel by omega)
      simp only [drain, next_accepted h haccepts, hrest, hfilter, List.filter_cons, haccepts, if_true]
    | false =>
      -- the step of the drain is that of the reader behind the event, with fuel left over
      have hrest := ih (show _ < fuel + 1 by omega)
      simp only [drain] at hrest ⊢
      rw [next_rejected h haccepts, hrest, hfilter, List.filter_cons_of_neg (by simp [haccepts])]

end LogReader

namespace LogSource

open LogReader

variable {s : LogSource} {es : List Event} {f : Failure}

theorem read_of_yields (h : Yields (.start s {}) es f) : s.read = (es, f) := h.drain_take (Nat.lt_succ_self _)

theorem readFiltered_of_yields (h : Yields (.start s {}) es f) (g : Filter) :
    s.readFiltered g = (es.filter g.accepts, f.settled) :=
  (h.filtered g).drain_next (Nat.lt_succ_self _)

/-- A reader with a filter gives what a reader of everything gives, but for the events that are not accepted. -/
theorem readFiltered_eq (s : LogSource) (g : Filter) : s.readFiltered g = (s.read.1.filter g.accepts, s.read.2.settled) := by
  obtain ⟨es, f, hyields⟩ := exists_yields (.start s {})
  rw [read_of_yields hyields, readFiltered_of_yields hyields]

end LogSource

theorem Filter.accepts_empty (e : Event) : ({} : Filter).accepts e = true := rfl

/-! ## Events that were written -/

namespace LogReader

variable {r : LogReader} {e : Event} {es es' : List Event} {f : Failure} {rest : List UInt8}

theorem take_encode (h : e.Loggable) (hunread : r.unread = e.encode ++ rest) :
    r.take = (.ok e.readBack, { r with unread := rest, count := r.count + 1 }) := by
  have hread : Item.read Event.limits r.unread = .ok (e.toItem, rest) := by
    rw [hunread]
    exact h.within.read_encode rest
  rw [take_of_item hread, h.ofItemKnown]
  rfl

/-- Events that can be logged are taken one after the other. -/
theorem Yields.after_encodeAll (h : ∀ e ∈ es, e.Loggable) (hunread : r.unread = Event.encodeAll es ++ rest)
    (hrest : Yields { r with unread := rest, count := r.count + es.length } es' f) : Yields r (es.map Event.readBack ++ es') f := by
  induction es generalizing r with
  | nil =>
    have hsame : ({ r with unread := rest, count := r.count + 0 } : LogReader) = r := by
      rw [← show r.unread = rest from hunread]
      rfl
    rw [List.length_nil, hsame] at hrest
    exact hrest
  | cons e es ih =>
    rw [List.forall_mem_cons] at h
    rw [Event.encodeAll, List.flatMap_cons, List.append_assoc] at hunread
    refine .more (take_encode h.1 hunread) (ih h.2 rfl ?_)
    rw [List.length_cons] at hrest
    have hcount : r.count + 1 + es.length = r.count + (es.length + 1) := by omega
    rw [hcount]
    exact hrest

/-- At the end of the bytes, a stream that is whole ends. -/
theorem Yields.at_end (hunread : r.unread = []) (hwhole : r.source.broken = none) : Yields r [] .endOfStream := by
  have hread : Item.read Event.limits r.unread = .error .empty := by
    rw [hunread]
    rfl
  have htake := take_of_fault hread
  simp only [LogSource.endingOf, hwhole] at htake
  exact .done htake

/-- An event whose item is refused is not taken. -/
theorem Yields.at_refused (h : e.Representable) (hunread : r.unread = e.encode ++ rest) (hitem : Event.ofItemKnown e.toItem = .error f) :
    Yields r [] (.within s!"event {r.count + 1}" f) := by
  have hread : Item.read Event.limits r.unread = .ok (e.toItem, rest) := by
    rw [hunread]
    exact h.within.read_encode rest
  have htake := take_of_item hread
  rw [hitem] at htake
  exact .done htake

end LogReader

namespace Event

open LogReader

/-- Two events that differ at most in the offset at which their times are shown. -/
structure Same (a b : Event) : Prop where
  rest : { b with time := a.time } = a
  seconds : b.time.seconds = a.time.seconds
  nanos : b.time.nanos = a.time.nanos

theorem same_readBack (e : Event) : Same e e.readBack := ⟨rfl, e.instant_readBack.1, e.instant_readBack.2⟩

/-- A log of events that can be logged, from its beginning. -/
theorem yields_encodeAll {es : List Event} (h : ∀ e ∈ es, e.Loggable) :
    Yields (.start ⟨encodeAll es, none⟩ {}) (es.map readBack) .endOfStream := by
  have hend : Yields { start ⟨encodeAll es, none⟩ {} with unread := [], count := 0 + es.length } [] .endOfStream := .at_end rfl rfl
  have hyields := Yields.after_encodeAll (r := .start ⟨encodeAll es, none⟩ {}) h (List.append_nil _).symm hend
  rwa [List.append_nil] at hyields

/-- An event log is a faithful record. Events that can be logged are read back in order as they were written, but for the offset at which a
time that is none would be shown, and then the stream ends; each is decoded from its own bytes likewise. An event with an operation or
category that is not known is written too, but reading it fails, alone or after others; if nothing else is wrong with it, the failure
is that of the operation or category. -/
theorem log_round_trip :
    (∀ es : List Event, (∀ e ∈ es, e.Loggable) →
      LogSource.read ⟨encodeAll es, none⟩ = (es.map readBack, .endOfStream) ∧
      ∀ e ∈ es, decode e.encode = .ok e.readBack ∧ Same e e.readBack) ∧
    (∀ (es : List Event) (e : Event) (rest : List UInt8), (∀ e ∈ es, e.Loggable) → e.Representable →
      1 < e.operation.number ∨ 3 < e.category.number →
      ∃ f, decode e.encode = .error f ∧
        LogSource.read ⟨encodeAll (es ++ [e]) ++ rest, none⟩ = (es.map readBack, .within s!"event {es.length + 1}" f) ∧
        (e.Legible → e.strange? = some f)) := by
  constructor
  · intro es h
    refine ⟨LogSource.read_of_yields (yields_encodeAll h), fun e he => ⟨?_, e.same_readBack⟩⟩
    rw [(h e he).toRepresentable.decode_encode, (h e he).ofItemKnown]
  · intro es e rest h hrepresentable hnumber
    have hstrange : e.strange? ≠ none := by
      rw [ne_eq, strange?_eq_none_iff, not_and_or, UInt8.not_le, UInt8.not_le]
      exact hnumber
    obtain ⟨f, hitem, hnamed⟩ := ofItemKnown_of_strange hstrange
    refine ⟨f, by rw [hrepresentable.decode_encode, hitem], LogSource.read_of_yields ?_, hnamed⟩
    have hbytes : encodeAll (es ++ [e]) ++ rest = encodeAll es ++ (e.encode ++ rest) := by
      simp only [encodeAll, List.flatMap_append, List.flatMap_cons, List.flatMap_nil, List.append_nil, List.append_assoc]
    have hend := Yields.at_refused (r := { start ⟨encodeAll es ++ (e.encode ++ rest), none⟩ {} with
      unread := e.encode ++ rest, count := 0 + es.length }) hrepresentable rfl hitem
    have hyields := Yields.after_encodeAll (r := .start ⟨encodeAll es ++ (e.encode ++ rest), none⟩ {}) h rfl hend
    rw [hbytes]
    rw [List.append_nil, Nat.zero_add] at hyields
    exact hyields

/-- A buffer that was too small, logged five and a half hours east. -/
def lateOverflow : Event :=
  { time := ⟨63905192132, 250000000, 19800⟩, session := "run-7", operation := .encode, category := .overflow, schema := "SoftData",
    key := "temperature", size := 64, extra := 12, error := some { kind := "BUFFER_OVERFLOW" } }

theorem ordinary_lateOverflow : lateOverflow.Ordinary where
  nanos := by decide
  offset := by decide
  texts := by decide
  size := by unfold Fits64; decide
  extra := by unfold Fits64; decide
  operation := by decide
  category := by decide
  utf8 := by decide
  civil := ⟨by decide +kernel, by decide, by decide⟩

theorem loggable_lateOverflow : lateOverflow.Loggable := ordinary_lateOverflow.loggable (by decide)

theorem lateOverflow_comes_back :
    LogSource.read ⟨encodeAll [lateOverflow], none⟩ = ([lateOverflow], .endOfStream) ∧
      ∃ f, LogSource.read ⟨encodeAll [lateOverflow, { lateOverflow with operation := .other 7 }], none⟩ =
        ([lateOverflow], .within s!"event {2}" f) ∧ { lateOverflow with operation := .other 7 }.strange? = some f := by
  have hall : ∀ e ∈ [lateOverflow], e.Loggable := List.forall_mem_singleton.2 loggable_lateOverflow
  have hlegible : { lateOverflow with operation := .other 7 }.Legible :=
    { loggable_lateOverflow.toLegible with }
  refine ⟨(log_round_trip.1 [lateOverflow] hall).1, ?_⟩
  obtain ⟨f, -, hread, hnamed⟩ := log_round_trip.2 [lateOverflow] { lateOverflow with operation := .other 7 } [] hall
    hlegible.toRepresentable (.inl (by decide))
  rw [List.append_nil] at hread
  exact ⟨f, hread, hnamed hlegible⟩

/-- A message logged 25 hours east. -/
def farEast : Event := { time := ⟨63905102132, 0, 90000⟩, operation := .decode, schema := "SoftData", size := 11 }

theorem ordinary_farEast : farEast.Ordinary where
  nanos := by decide
  offset := by decide
  texts := by decide
  size := by unfold Fits64; decide
  extra := by unfold Fits64; decide
  operation := by decide
  category := by decide
  utf8 := by decide
  civil := ⟨by decide +kernel, by decide, by decide⟩

theorem read_farEast : ∃ f, decode farEast.encode = .error f ∧
    LogSource.read ⟨farEast.encode, none⟩ = ([], .within s!"event {1}" f) := by
  have hrefused : (Event.ofItemKnown farEast.toItem).isOk = false := by decide +kernel
  cases hitem : Event.ofItemKnown farEast.toItem with
  | ok e =>
    rw [hitem] at hrefused
    cases hrefused
  | error f =>
    have hrepresentable := ordinary_farEast.toRepresentable
    have hyields := Yields.at_refused (r := .start ⟨farEast.encode, none⟩ {}) hrepresentable (List.append_nil _).symm hitem
    exact ⟨f, hrepresentable.decode_encode.trans hitem, LogSource.read_of_yields hyields⟩

/-- The text of an offset of 25 hours is written and not read, so that the bound on the offset is needed. -/
theorem farEast_is_written_and_refused :
    farEast.Ordinary ∧ farEast.time.render = ("2026-01-28T10:15:32+25:00" : String) ∧ ∀ e, decode farEast.encode ≠ .ok e := by
  refine ⟨ordinary_farEast, by decide +kernel, ?_⟩
  obtain ⟨f, hdecode, -⟩ := read_farEast
  intro e he
  rw [hdecode] at he
  cases he

end Event

end SensorWire
