import Mathlib
import SensorWire.Message.Catalog
import SensorWire.Proofs.Sending

/-!
# Messages in buffers of any size

One message is encoded into two buffers. Part by part the two encoders carry the same draft, and they report the same fatal error or both
none (`Together`): a shortage stops neither of them, and a fatal error does not wait until there is room. So the buffer decides neither
whether a message can be encoded nor with which fatal error it cannot, and what is found without any room holds for every buffer.

Main statement: `size_marshal_encode_agree`.
-/

namespace SensorWire

open Cbor Item Encoder

namespace Message

/-- Two encoders after the same part of an encoding, each in its own buffer. -/
structure Together (buffer buffer' : List UInt8) (r r' : Option Error × Encoder) : Prop where
  draft : ∃ g, Carries buffer r.2 g ∧ Carries buffer' r'.2 g
  fatal : r.1.filter Error.isFatal = r'.1.filter Error.isFatal

variable {buffer buffer' : List UInt8} {r r' : Option Error × Encoder} {e e' : Encoder} {g : Draft} {err : Error}

/-! ## One part after another -/

theorem andThen_of_filter (h : r.1.filter Error.isFatal = some err) (next : Encoder → Option Error × Encoder) : andThen r next = r := by
  obtain ⟨hsome, herr⟩ := Option.filter_eq_some_iff.1 h
  obtain ⟨err', e⟩ := r
  cases hsome
  simp only [andThen, herr, if_true]

/-- What is fatal in a report does not come from the buffer. -/
theorem filter_report (buffer : List UInt8) (a : Action) (r : Option Error × Draft) :
    (report buffer a r).filter Error.isFatal = r.1.filter Error.isFatal := by
  obtain ⟨_ | err, g⟩ := r
  · exact filter_shortage ..
  · rfl

theorem together_act (h : Carries buffer e g) (h' : Carries buffer' e' g) (a : Action) : Together buffer buffer' (e.act a) (e'.act a) := by
  obtain ⟨hcarries, hreport⟩ := h.act a
  obtain ⟨hcarries', hreport'⟩ := h'.act a
  refine ⟨⟨_, hcarries, hcarries'⟩, ?_⟩
  rw [hreport, hreport', filter_report, filter_report]

theorem Together.andThen (h : Together buffer buffer' r r') (next : Encoder → Option Error × Encoder)
    (hnext : ∀ {e e' g}, Carries buffer e g → Carries buffer' e' g → Together buffer buffer' (next e) (next e')) :
    Together buffer buffer' (andThen r next) (andThen r' next) := by
  obtain ⟨g, hcarries, hcarries'⟩ := h.draft
  cases hfatal : r.1.filter Error.isFatal with
  | none =>
    rw [andThen_of_mild hfatal, andThen_of_mild (h.fatal ▸ hfatal)]
    exact hnext hcarries hcarries'
  | some err =>
    rw [andThen_of_filter hfatal, andThen_of_filter (h.fatal ▸ hfatal)]
    exact h

/-! ## The parts of a message -/

/-- One field more: a fatal error ends the run, and any other is kept. -/
theorem putFields_go_cons (last : Option Error) (f : Field) (fields : List Field) (e : Encoder) :
    Table.putFields.go last (f :: fields) e = match (e.putField f).1.filter Error.isFatal with
      | some err => (some err, (e.putField f).2)
      | none => Table.putFields.go ((e.putField f).1.or last) fields (e.putField f).2 := by
  rw [Table.putFields.go]
  rcases e.putField f with ⟨_ | err, e'⟩
  · rfl
  · cases herr : err.isFatal <;> simp [Option.filter_some, herr]

theorem together_putFields (fields : List Field) (h : Carries buffer e g) (h' : Carries buffer' e' g) {last last' : Option Error}
    (hlast : last.filter Error.isFatal = none) (hlast' : last'.filter Error.isFatal = none) :
    Together buffer buffer' (Table.putFields.go last fields e) (Table.putFields.go last' fields e') := by
  -- the errors kept so far may differ from buffer to buffer, but none of them is fatal
  induction fields generalizing e e' g last last' with
  | nil => exact ⟨⟨g, h, h'⟩, hlast.trans hlast'.symm⟩
  | cons f fields ih =>
    have hstep : Together buffer buffer' (e.putField f) (e'.putField f) := by
      rw [putField_eq_act, putField_eq_act]
      exact together_act h h' (.field f)
    obtain ⟨g', hcarries, hcarries'⟩ := hstep.draft
    have hkept : ∀ {err last : Option Error}, err.filter Error.isFatal = none → last.filter Error.isFatal = none →
        (err.or last).filter Error.isFatal = none := by
      rintro (_ | err) last herr hlast
      · exact hlast
      · exact herr
    rw [putFields_go_cons, putFields_go_cons, ← hstep.fatal]
    cases hfatal : (e.putField f).1.filter Error.isFatal with
    | none => exact ih hcarries hcarries' (hkept hfatal hlast) (hkept (hstep.fatal ▸ hfatal) hlast')
    | some err => exact ⟨⟨g', hcarries, hcarries'⟩, rfl⟩

theorem putSamples_cons (bits : UInt64) (samples : List UInt64) (e : Encoder) :
    putSamples (bits :: samples) e = andThen (e.appendElement "AppendFloat64" (.double bits)) (putSamples samples) := by
  rw [putSamples]
  rcases e.appendElement "AppendFloat64" (.double bits) with ⟨_ | err, e'⟩ <;> rfl

theorem together_putSamples (samples : List UInt64) (h : Carries buffer e g) (h' : Carries buffer' e' g) :
    Together buffer buffer' (putSamples samples e) (putSamples samples e') := by
  induction samples generalizing e e' g with
  | nil => exact ⟨⟨g, h, h'⟩, rfl⟩
  | cons bits samples ih =>
    have hstep : Together buffer buffer' (e.appendElement "AppendFloat64" (.double bits))
        (e'.appendElement "AppendFloat64" (.double bits)) := together_act h h' (.element "AppendFloat64" (.double bits))
    rw [putSamples_cons, putSamples_cons]
    exact hstep.andThen (putSamples samples) ih

theorem together_putArrayHead (key : Text) (n : Int) (h : Carries buffer e g) (h' : Carries buffer' e' g) :
    Together buffer buffer' (e.putArrayHead key n) (e'.putArrayHead key n) := by
  rw [putArrayHead_eq_act, putArrayHead_eq_act]
  exact together_act h h' (.arrayHead key n)

variable (m : Message)

theorem together_putPairs (h : Carries buffer e g) (h' : Carries buffer' e' g) :
    Together buffer buffer' (m.putPairs e) (m.putPairs e') := by
  unfold putPairs
  split
  · cases m.samplesFault? with
    | some err => exact ⟨⟨g, h, h'⟩, rfl⟩
    | none =>
      have hfields : Together buffer buffer' (Table.putFields m.table.fields e) (Table.putFields m.table.fields e') :=
        together_putFields m.table.fields h h' rfl rfl
      exact (hfields.andThen _ (together_putArrayHead samplesKey m.sampleCount)).andThen _ (together_putSamples _)
  · exact together_putFields m.outgoing.fields h h' rfl rfl

/-- All parts before the end, whatever the labels. -/
theorem together_start_putPairs (labels labels' : Labels) (buffer buffer' : List UInt8) :
    Together buffer buffer' (andThen (startIn labels buffer m.pairs) m.putPairs) (andThen (startIn labels' buffer' m.pairs) m.putPairs) := by
  obtain ⟨hstart, hmild⟩ := Table.startIn_of_count labels buffer m.pairs
  obtain ⟨hstart', hmild'⟩ := Table.startIn_of_count labels' buffer' m.pairs
  exact Together.andThen ⟨⟨_, hstart, hstart'⟩, hmild.trans hmild'.symm⟩ m.putPairs m.together_putPairs

variable {m}

/-! ## Whole messages -/

/-- A message that cannot be written is refused with one fatal error, whatever the buffer. -/
theorem encodeIn_of_not_sends (h : ¬m.Sends) :
    ∃ err, err.isFatal = true ∧ ∀ labels buffer, (m.encodeIn labels buffer).1 = .error (m.encodeFailure err) := by
  obtain ⟨hstart, hmild⟩ := Table.startIn_of_count (m.label {}) [] m.pairs
  obtain ⟨err, hput, herr⟩ := putPairs_of_not_sends h hstart
  refine ⟨err, herr, fun labels buffer => ?_⟩
  -- the error was found without any room, and every other buffer agrees with that
  have hfatal : (andThen (startIn (m.label labels) buffer m.pairs) m.putPairs).1.filter Error.isFatal = some err := by
    rw [(m.together_start_putPairs (m.label labels) (m.label {}) buffer []).fatal, andThen_of_mild hmild, hput, Option.filter_some,
      if_pos herr]
  rw [encodeIn]
  rcases hrun : andThen (startIn (m.label labels) buffer m.pairs) m.putPairs with ⟨err', e⟩
  rw [hrun] at hfatal
  simp only [hfatal]
  rfl

theorem size_of_encodeIn_fatal (hencode : (m.encodeIn {} []).1 = .error (m.encodeFailure err)) (herr : err.isFatal = true) :
    m.size = .error (m.encodeFailure err) := by
  have hempty : (m.encode {} 0).1 = .error (m.encodeFailure err) := hencode
  simp only [size, hempty, encodeFailure, Failure.codec?, herr, if_true]

theorem length_item_pos (m : Message) : 0 < m.item.encode.length := by
  rw [List.length_pos_iff, bytes_item]
  exact fun h => (Head.shortest .map m.pairs).encode_ne_nil (List.append_eq_nil_iff.1 h).1

/-- With room for it, a message stands in front of what the buffer held behind it. -/
theorem buffer_encodeIn (h : m.Sends) (labels : Labels) (hroom : m.item.encode.length ≤ buffer.length) :
    (m.encodeIn labels buffer).2.buffer = m.item.encode ++ buffer.drop m.item.encode.length := by
  have hcarries := (encodeIn_of_sends h labels buffer).1
  have hout : (m.encodeIn labels buffer).2.out = m.item.encode := by
    refine hcarries.fits (Bool.eq_false_iff.2 fun hoverflow => ?_)
    exact absurd (hcarries.spills hoverflow) (Nat.not_lt.2 hroom)
  rw [hcarries.buffer_eq, hout]

/-- The size of a message is found exactly when it is marshalled, and it is the number of bytes, which is not zero. Every buffer of at least
that size takes the message: the same bytes in front, and the rest of the buffer as it was. Every smaller one is told how many bytes are
missing. If no size is found, marshalling and encoding into any buffer fail in the same way, with an error that is fatal. -/
theorem size_marshal_encode_agree (m : Message) (labels : Labels) :
    ((∃ n, m.size = .ok n) ↔ ∃ bytes, (m.marshal labels).1 = .ok bytes) ∧
    (∀ n bytes, m.size = .ok n → (m.marshal labels).1 = .ok bytes →
      0 < n ∧ bytes.length = n ∧ ∀ buffer : List UInt8,
        (n ≤ buffer.length →
          (m.encodeIn labels buffer).1 = .ok n ∧ (m.encodeIn labels buffer).2.buffer = bytes ++ buffer.drop n) ∧
        (buffer.length < n → ∃ f err, (m.encodeIn labels buffer).1 = .error f ∧ f.codec? = some err ∧
          err.code = .bufferTooSmall ∧ err.needed = (n : Int) - buffer.length)) ∧
    ∀ f, m.size = .error f → (∃ err, f.codec? = some err ∧ err.isFatal = true) ∧ (m.marshal labels).1 = .error f ∧
      ∀ buffer, (m.encodeIn labels buffer).1 = .error f := by
  by_cases hsends : m.Sends
  · have hsize := size_of_sends hsends
    have hmarshal := marshal_of_sends hsends labels
    refine ⟨⟨fun _ => ⟨_, hmarshal⟩, fun _ => ⟨_, hsize⟩⟩, ?_, fun f hf => ?_⟩
    · intro n bytes hn hbytes
      obtain rfl : m.item.encode.length = n := Except.ok.inj (hsize.symm.trans hn)
      obtain rfl : m.item.encode = bytes := Except.ok.inj (hmarshal.symm.trans hbytes)
      refine ⟨m.length_item_pos, rfl, fun buffer => ?_⟩
      have hencode := (encodeIn_of_sends hsends labels buffer).2
      refine ⟨fun hroom => ?_, fun hshort => ?_⟩
      · rw [if_pos hroom] at hencode
        exact ⟨hencode, buffer_encodeIn hsends labels hroom⟩
      · rw [if_neg (Nat.not_le.2 hshort)] at hencode
        exact ⟨_, _, hencode, rfl, rfl, rfl⟩
    · cases hsize.symm.trans hf
  · obtain ⟨err, herr, hencode⟩ := encodeIn_of_not_sends hsends
    have hsize := size_of_encodeIn_fatal (hencode {} []) herr
    have hmarshal : (m.marshal labels).1 = .error (m.encodeFailure err) := by rw [marshal, hsize]
    refine ⟨⟨?_, ?_⟩, ?_, fun f hf => ?_⟩
    · rintro ⟨n, hn⟩
      cases hsize.symm.trans hn
    · rintro ⟨bytes, hbytes⟩
      cases hmarshal.symm.trans hbytes
    · intro n bytes hn
      cases hsize.symm.trans hn
    · obtain rfl : m.encodeFailure err = f := Except.error.inj (hsize.symm.trans hf)
      exact ⟨⟨err, rfl, herr⟩, hmarshal, hencode labels⟩

/-- A request of 15 bytes in a buffer of 17 and in one of 14, and levels whose band index is no simple value in one of two. -/
theorem request_in_buffers :
    let m := Catalog.service "ConfigCborMapRequest" (Catalog.words ["partition_id"])
    let levels := Catalog.sensor "BorealisLevels" Catalog.levelFields
    let reserved : Message := { levels with table := levels.table.store "first_band_index" (.simple 24) }
    (∃ bytes, (m.marshal {}).1 = .ok bytes ∧ bytes.length = 15 ∧
      (m.encodeIn {} (List.replicate 17 255)).2.buffer = bytes ++ [255, 255]) ∧
    (∃ f err, (m.encodeIn {} (List.replicate 14 255)).1 = .error f ∧ f.codec? = some err ∧ err.needed = 1) ∧
    ∃ f, (reserved.encodeIn {} []).1 = .error f ∧ (reserved.encodeIn {} [255, 255]).1 = .error f := by
  intro m levels reserved
  obtain ⟨hiff, hagree, -⟩ := size_marshal_encode_agree m {}
  have hsize : m.size = .ok 15 := rfl
  obtain ⟨bytes, hbytes⟩ := hiff.1 ⟨15, hsize⟩
  obtain ⟨-, hlength, hbuffers⟩ := hagree 15 bytes hsize hbytes
  refine ⟨⟨bytes, hbytes, hlength, ((hbuffers (List.replicate 17 255)).1 (by decide)).2⟩, ?_, ?_⟩
  · obtain ⟨f, err, hf, herr, -, hneeded⟩ := (hbuffers (List.replicate 14 255)).2 (by decide)
    exact ⟨f, err, hf, herr, hneeded⟩
  · have hisOk : reserved.size.isOk = false := by decide +kernel
    cases hrefused : reserved.size with
    | ok n =>
      rw [hrefused] at hisOk
      cases hisOk
    | error f =>
      obtain ⟨-, -, hany⟩ := (size_marshal_encode_agree reserved {}).2.2 f hrefused
      exact ⟨f, hany [], hany [255, 255]⟩

end Message

end SensorWire
