import Mathlib
import SensorWire.Proofs.Sampling

/-!
# The event that tells how a decode ended

The last event of a decode tells how it ended, as a message or as an error, and no event before it does. There are two exceptions, both
of them errors of a check that a message makes itself. The length of a payload is checked when the map has been left, and by then the trace
has told of a message. The checks on the samples are made inside the map, and their errors are not traced at all.

Main statement: `decode_tells_outcome`.
-/

namespace SensorWire

open Decoder

/-! ## Outcomes -/

/-- Whether the events of a category tell how a decode ended. -/
def Category.isOutcome : Category → Bool
  | message | error => true
  | _ => false

/-- The category of the event that tells of an error, or of none. An error that lists keys is no failure. -/
def outcomeOf (err? : Option Error) : Category := if (err?.filter fun e => !e.isAggregate).isSome then .error else .message

/-- The trace tells once how the decode ended, and does so last. -/
structure TellsOutcome (outcome : Category) (trace : List Event) : Prop where
  once : (trace.map Event.category).filter Category.isOutcome = [outcome]
  last : (trace.map Event.category).getLast? = some outcome

section Skips

variable {err? : Option Error} {labels : Labels} {names : List Text}

theorem category_skipsThen (labels : Labels) (names : List Text) (last? : Option Event) :
    (skipsThen labels names last?).map Event.category = List.replicate names.length .unknownKey ++ last?.toList.map Event.category := by
  have hmark : Event.category ∘ labels.mark = Event.category := rfl
  have hskip : Event.category ∘ skipEvent = fun _ => .unknownKey := rfl
  rw [skipsThen, List.map_map, hmark, List.map_append, List.map_map, hskip, List.map_const']

/-- The names of skipped pairs tell of no outcome. -/
theorem outcomes_skipsThen (labels : Labels) (names : List Text) (last? : Option Event) :
    ((skipsThen labels names last?).map Event.category).filter Category.isOutcome =
      (last?.toList.map Event.category).filter Category.isOutcome := by
  rw [category_skipsThen, List.filter_append, List.filter_replicate_of_neg (by simp [Category.isOutcome]), List.nil_append]

theorem isOutcome_outcomeOf (err? : Option Error) : (outcomeOf err?).isOutcome = true := by
  rw [outcomeOf]
  split_ifs <;> rfl

theorem tellsOutcome_skipsThen {ev : Event} (h : ev.category = outcomeOf err?) :
    TellsOutcome (outcomeOf err?) (skipsThen labels names (some ev)) := by
  constructor
  · rw [outcomes_skipsThen, Option.toList_some, List.map_singleton, h, List.filter_cons_of_pos (isOutcome_outcomeOf err?), List.filter_nil]
  · rw [category_skipsThen, Option.toList_some, List.map_singleton, List.getLast?_concat, h]

theorem outcomeOf_fatal {err : Error} (h : err.keys = []) : outcomeOf (some err) = .error := by
  rw [outcomeOf, Option.filter_some_pos (by simp [Error.isAggregate, h])]
  rfl

theorem category_of_decodeEvent {size : Nat} {ev : Event} (h : DecodeEvent size err? ev) : ev.category = outcomeOf err? := by
  cases h with
  | message => rfl
  | listed lists => simp [outcomeOf, lists]
  | failed lists => simp [outcomeOf, lists, errorEvent]

end Skips

namespace Message

variable {m blank : Message} {lenient : Bool} {options : Options} {data : List UInt8}

/-- How the error of a decode and its trace go together. -/
inductive Told (m : Message) : Option Error → List Event → Prop
  | outcome {err? : Option Error} {trace : List Event} (tells : TellsOutcome (outcomeOf err?) trace)
      (op : ∀ err, err? = some err → err.op ≠ checkOp) : Told m err? trace
  /-- A check of the samples fails. -/
  | unsaid {err : Error} {trace : List Event} (samples : m.hasSamples = true) (op : err.op = checkOp)
      (silent : (trace.map Event.category).filter Category.isOutcome = []) : Told m (some err) trace
  /-- The length of the payload is another. -/
  | missaid {err : Error} {trace : List Event} (plain : m.hasSamples = false) (op : err.op = checkOp) (keys : err.keys = [])
      (tells : TellsOutcome .message trace) : Told m (some err) trace

/-- An error that is traced. -/
theorem Told.of_event {err : Error} (labels : Labels) (names : List Text) (hkeys : err.keys = []) (hop : err.op ≠ checkOp) :
    m.Told (some err) (skipsThen labels names (some (err.event .decode))) := by
  refine .outcome (tellsOutcome_skipsThen (outcomeOf_fatal hkeys).symm) fun err' herr => ?_
  cases herr
  exact hop

/-! ## Messages with samples -/

theorem op_of_listing {unknown : List Text} {err : Error} (h : listing unknown = some err) : err.op = "DecodeLenient" := by
  rw [listing] at h
  split_ifs at h
  cases h
  rfl

theorem SamplesDecoded.told {labels : Labels} {r : Option Error × Message × List Event} (hsamples : m.hasSamples = true)
    (h : SamplesDecoded lenient labels m r) : m.Told r.1 r.2.2 := by
  cases h with
  | barred inside keys =>
    refine .of_event _ _ keys ?_
    rw [inside.op]
    decide +kernel
  | @failed err _ _ _ _ _ keys =>
    by_cases hop : err.op = checkOp
    · refine .unsaid hsamples hop ?_
      rw [if_pos hop, outcomes_skipsThen]
      rfl
    · rw [if_neg hop]
      exact .of_event _ _ keys hop
  | followed _ _ _ op _ keys =>
    refine .of_event _ _ keys ?_
    rw [op]
    decide +kernel
  | @whole _ unknown =>
    refine .outcome (tellsOutcome_skipsThen ?_) fun err herr => ?_
    · rw [outcomeOf, listing_filter]
      rfl
    · rw [op_of_listing herr]
      decide +kernel

/-! ## Messages without samples -/

theorem op_of_payloadFault {err : Error} (h : m.payloadFault? = some err) : err.op = checkOp ∧ err.keys = [] := by
  unfold payloadFault? at h
  split at h
  · dsimp only at h
    split_ifs at h
    cases h
    exact ⟨rfl, rfl⟩
  · cases h

/-- Errors of a table are never those of a check that a message makes itself. -/
theorem op_ne_of_table {t : Table} {err : Error} (h : (t.decode options data).1 = some err) : err.op ≠ checkOp := by
  rcases Table.op_of_decode h with hop | hop | hop
  all_goals
    rw [hop]
    decide +kernel

theorem told_of_table (hplain : m.hasSamples = false) (lenient : Bool) (options : Options) (data : List UInt8) :
    ∃ err?, (m.decode lenient options data).1 = err?.map (fun e => .within ("decode " ++ m.name) (.codec e)) ∧
      m.Told err? (m.decode lenient options data).2.2 := by
  have hread : m.readMap lenient (m.labelled options) data = _ := if_neg (by simp [hplain])
  obtain ⟨ev, hev, htrace⟩ := Table.exists_decodeEvent { m.table with strict := !lenient } (m.labelled options) data
  have hop : ∀ err, (m.readMap lenient (m.labelled options) data).1 = some err → err.op ≠ checkOp := by
    rw [hread]
    exact fun err herr => op_ne_of_table herr
  have htells : TellsOutcome (outcomeOf (m.readMap lenient (m.labelled options) data).1) (m.readMap lenient (m.labelled options) data).2.2 := by
    rw [hread]
    dsimp only
    rw [htrace]
    exact tellsOutcome_skipsThen (category_of_decodeEvent hev)
  rw [decode_eq_checkPayload]
  rcases checkPayload_cases m.name (m.readMap lenient (m.labelled options) data) with herr | ⟨hlists, err, hfault, herr⟩
  · rw [herr]
    exact ⟨_, rfl, .outcome htells hop⟩
  · obtain ⟨hcheck, hkeys⟩ := op_of_payloadFault hfault
    rw [outcomeOf, hlists] at htells
    rw [herr]
    exact ⟨some err, rfl, .missaid hplain hcheck hkeys htells⟩

/-! ## Every message -/

theorem OfKind.told (hm : m.OfKind blank) (hblank : blank.Blank) (lenient : Bool) (options : Options) (data : List UInt8) :
    ∃ err?, (m.decode lenient options data).1 = err?.map (fun e => .within ("decode " ++ m.name) (.codec e)) ∧
      m.Told err? (m.decode lenient options data).2.2 := by
  cases hsamples : m.hasSamples with
  | true =>
    obtain ⟨r, hdecoded, hdecode⟩ := hm.samplesDecoded hblank hsamples lenient options data
    rw [hdecode]
    exact ⟨r.1, rfl, hdecoded.told hsamples⟩
  | false => exact told_of_table hsamples lenient options data

/-- The trace of a decode tells once, and last, whether it failed, but for the errors of the checks that a message makes itself. Of such an
error of a message with samples nothing is told, and before such an error of any other message the trace tells of a message. -/
theorem decode_tells_outcome (hblank : blank.Blank) (hm : m.OfKind blank) (lenient : Bool) (options : Options) (data : List UInt8) :
    ∃ err?, (m.decode lenient options data).1 = err?.map (fun e => .within ("decode " ++ m.name) (.codec e)) ∧
      (TellsOutcome (outcomeOf err?) (m.decode lenient options data).2.2 ↔ ∀ err, err? = some err → err.op ≠ checkOp) ∧
      ∀ err, err? = some err → err.op = checkOp →
        if m.hasSamples then ((m.decode lenient options data).2.2.map Event.category).filter Category.isOutcome = []
        else TellsOutcome .message (m.decode lenient options data).2.2 := by
  obtain ⟨err?, herr, htold⟩ := hm.told hblank lenient options data
  refine ⟨err?, herr, ?_⟩
  generalize (m.decode lenient options data).2.2 = trace at htold ⊢
  cases htold with
  | outcome tells op => exact ⟨iff_of_true tells op, fun err h hcheck => absurd hcheck (op err h)⟩
  | unsaid samples op silent =>
    refine ⟨iff_of_false (fun htells => ?_) fun hop => hop _ rfl op, fun _ _ _ => ?_⟩
    · cases silent.symm.trans htells.once
    · rw [if_pos samples]
      exact silent
  | missaid plain op keys tells =>
    refine ⟨iff_of_false (fun htells => ?_) fun hop => hop _ rfl op, fun _ _ _ => ?_⟩
    · -- one outcome was told, and it is not that of the error
      have hboth := htells.once.symm.trans tells.once
      rw [outcomeOf_fatal keys] at hboth
      cases hboth
    · rw [plain]
      exact tells

/-- A payload of one byte that is said to have two: the error comes after a message was told of. -/
theorem short_payload_told_as_message :
    let blank := Catalog.service "DeviceTestRequest" [.holding "data_len" (.uint32 0), .holding "data" (.bytes [])]
      (.payload "data_len" "data")
    let decoded := blank.decode false {} [0xa2, 0x68, 0x64, 0x61, 0x74, 0x61, 0x5f, 0x6c, 0x65, 0x6e, 0x02, 0x64, 0x64, 0x61, 0x74, 0x61,
      0x41, 0x07]
    blank ∈ Catalog.all ∧ (decoded.1.bind Failure.codec?).map Error.code = some .malformedInput ∧ TellsOutcome .message decoded.2.2 := by
  intro blank decoded
  have hblank : blank ∈ Catalog.all := List.mem_of_find?_eq_some (show Catalog.find? blank.name = some blank by decide +kernel)
  have hcheck : (decoded.1.bind Failure.codec?).map (fun err => (err.code, err.op)) = some (.malformedInput, checkOp) := by decide +kernel
  obtain ⟨err?, herr, -, hfails⟩ := decode_tells_outcome (.catalogue hblank) (Blank.catalogue hblank).ofKind_self false {} _
  have hcodec : decoded.1.bind Failure.codec? = err? := by
    rw [show decoded.1 = _ from herr]
    cases err? <;> rfl
  obtain ⟨err, hsome, hpair⟩ := Option.map_eq_some_iff.1 hcheck
  obtain ⟨hcode, hop⟩ := Prod.mk.inj hpair
  refine ⟨hblank, ?_, hfails err (hcodec.symm.trans hsome) hop⟩
  rw [hsome, Option.map_some, hcode]

end Message

end SensorWire
