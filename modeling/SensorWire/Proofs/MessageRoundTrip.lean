import Mathlib
import SensorWire.Proofs.Agreement
import SensorWire.Proofs.NormalForm

/-!
# Messages written and read back

What marshalling a message of the catalogue gives is decoded into the empty message of its name, and what comes back is the normal form of
the message (`Message.normal`). Messages without samples are tables, with the length of their payload checked after they are read. A
message with samples is read as its fields in order (`decodeFields_of_fits`) and the array after them (`takeSignal_doubles`).

Main statement: `message_round_trip`.
-/

namespace SensorWire

open Cbor Item Decoder

/-! ## Fields before other pairs -/

/-- The fields of a strict table are read, and the decoder then faces the pairs after them. -/
theorem Table.decodeFields_of_fits {t : Table} {d : Decoder} {pairs after : List (Item × Item)} (hstrict : t.strict = true)
    (hfits : List.Forall₂ Field.Fits t.fields pairs) (h : FacesPairs d (pairs ++ after)) :
    ∃ d', t.decodeFields d = (rangeError (overflowKeys t.fields pairs), { t with fields := receivedFields t.fields pairs }, d') ∧
      FacesPairs d' after ∧ d'.trailing = d.trailing := by
  obtain ⟨entries, d', hwalk, hentries, hafter, htrailing⟩ := walkStrict_of_fits_append hfits h
  refine ⟨d', ?_, hafter, htrailing⟩
  simp only [decodeFields, walk, hstrict, if_true, hwalk, aggregate_strict, ← hentries]
  rfl

namespace Message

/-! ## Samples -/

/-- Samples that stand in front of what is unread are all read. -/
theorem takeSamples_doubles (samples : List UInt64) {d : Decoder} {rest : List UInt8}
    (h : d.unread = (samples.map Item.double).flatMap Item.encode ++ rest) :
    takeSamples samples.length d = (samples, none, { d with unread := rest }) := by
  induction samples generalizing d with
  | nil =>
    obtain rfl : d.unread = rest := h
    rfl
  | cons bits samples ih =>
    have hfaces : Faces d (.double bits) ((samples.map Item.double).flatMap Item.encode ++ rest) := by
      refine ⟨?_, trivial⟩
      rw [h, List.map_cons, List.flatMap_cons, List.append_assoc]
    rw [List.length_cons, takeSamples, hfaces.takeFloat64 "NextFloat64" ""]
    dsimp only
    rw [ih rfl]

/-- Without room set aside, an array of samples is allocated and read. -/
theorem takeSignal_doubles (samples : List UInt64) {d : Decoder} {rest : List UInt8}
    (h : d.unread = (samples.map Item.double).flatMap Item.encode ++ rest) (halloc : d.options.allocLimit ≤ 0) (s : Sampling) :
    takeSignal 0 samples.length s d =
      (none, ⟨{ s.message with samples := ⟨samples, samples.length⟩ }, true⟩,
        { d with unread := rest, allocated := d.allocated + Int64.ofNat (8 * samples.length) }) := by
  have hcharge := gives_charge halloc "Charge" samplesKey (Int64.ofNat (8 * samples.length))
  have htake := takeSamples_doubles samples (d := { d with allocated := d.allocated + Int64.ofNat (8 * samples.length) }) h
  simp only [takeSignal, Nat.lt_irrefl, false_and, if_false]
  rw [hcharge]
  dsimp only
  rw [htake]

theorem spells_samplesKey : (Item.ofText samplesKey).Spells samplesKey := ⟨rfl, by decide +kernel⟩

/-- A message with the fields and the samples that were read. -/
def filled (m : Message) (fields : List Field) (samples : List UInt64) : Message :=
  { m with table := { m.table with fields }, samples := ⟨samples, samples.length⟩ }

section InOrder

variable {m : Message} {d : Decoder} {options : Options} {pairs : List (Item × Item)} {samples : List UInt64}

/-- When the fields, the key of the samples and the head of the array are read, the samples remain. -/
theorem takeInOrder_of_gives {s : Sampling} {table : Table} {d₁ d₂ d₃ : Decoder} {room n : Nat} (hroom : room = 0 ∨ n ≤ room)
    (hfields : s.message.table.decodeFields d = (none, table, d₁)) (hkey : Gives (takeKey "Key" "") d₁ samplesKey d₂)
    (harray : Gives (takeArrayHead "ArrayValue" samplesKey) d₂ n d₃) (hcount : sampleCount { s.message with table } = n) :
    takeInOrder room s d = takeSignal room n { s with message := { s.message with table } } d₃ := by
  have hfits : ¬(0 < room ∧ room < n) := by omega
  simp only [takeInOrder, hfields, hfits, if_false, show (takeKey "Key" "").run.run d₁ = _ from hkey, ne_eq,
    not_true_eq_false, show (takeArrayHead "ArrayValue" samplesKey).run.run d₂ = _ from harray, hcount]

/-- Pairs that fit the fields, and the samples that they count. -/
theorem takeInOrder_of_fits (hstrict : m.table.strict = true) (hfits : List.Forall₂ Field.Fits m.table.fields pairs)
    (hrange : overflowKeys m.table.fields pairs = []) (h : FacesPairs d (pairs ++ [samplesPair samples]))
    (hcount : (m.filled (receivedFields m.table.fields pairs) samples).sampleCount = samples.length) :
    ∃ d', takeInOrder 0 ⟨m, false⟩ d = (none, ⟨m.filled (receivedFields m.table.fields pairs) samples, true⟩, d') ∧
      d'.read = d'.count ∧ d'.unread = [] ∧ d'.trailing = d.trailing := by
  obtain ⟨d₁, hfields, hlast, htrailing⟩ := Table.decodeFields_of_fits hstrict hfits h
  rw [hrange] at hfields
  have hpair := hlast.first
  have hkey := hpair.key.takeKey hpair.more spells_samplesKey "Key" ""
  have hvalue : Faces (afterKey d₁ (samplesPair samples) []) (.array _ (samples.map Item.double)) [] := hpair.faces_value
  have harray := hvalue.takeArrayHead "ArrayValue" samplesKey
  rw [List.length_map] at harray
  have hread : d₁.read + 1 = d₁.count := hlast.remaining.symm
  have horder := takeInOrder_of_gives (s := ⟨m, false⟩) (Or.inl rfl) hfields hkey harray hcount
  refine ⟨_, horder.trans (takeSignal_doubles samples rfl ?_ _), ?_, ?_, ?_⟩
  · exact hlast.noLimit
  · exact hread
  · rfl
  · exact htrailing

/-- A message with samples is read from its pairs. -/
theorem takePairs_of_fits (hstrict : m.table.strict = true) (hempty : m.samples = {})
    (hfits : List.Forall₂ Field.Fits m.table.fields pairs) (hrange : overflowKeys m.table.fields pairs = [])
    (h : FacesPairs d (pairs ++ [samplesPair samples]))
    (hcount : (m.filled (receivedFields m.table.fields pairs) samples).sampleCount = samples.length) :
    ∃ d', m.takePairs false d = (none, m.filled (receivedFields m.table.fields pairs) samples, d') ∧
      d'.read = d'.count ∧ d'.unread = [] ∧ d'.trailing = d.trailing := by
  obtain ⟨d', horder, hend⟩ := takeInOrder_of_fits hstrict hfits hrange h hcount
  refine ⟨d', ?_, hend⟩
  have hlength : (m.filled (receivedFields m.table.fields pairs) samples).samples.values.length = samples.length := rfl
  simp only [takePairs, Bool.false_eq_true, if_false, show m.samples.capacity = 0 by rw [hempty], horder, hlength, hcount, ne_eq,
    not_true_eq_false, Option.or_none, List.isEmpty_nil, if_true]

/-- A message with samples is decoded from the map of its pairs. -/
theorem decodeSamples_of_fits (hstrict : m.table.strict = true) (hsamples : m.hasSamples = true) (hempty : m.samples = {})
    (halloc : options.allocLimit ≤ 0) (hfits : List.Forall₂ Field.Fits m.table.fields pairs)
    (hrange : overflowKeys m.table.fields pairs = [])
    (hcount : (m.filled (receivedFields m.table.fields pairs) samples).sampleCount = samples.length)
    (hin : (Item.ofPairs (pairs ++ [samplesPair samples])).Within {} 0 false) :
    let r := m.decodeSamples false options (Item.ofPairs (pairs ++ [samplesPair samples])).encode
    r.1 = none ∧ r.2.1 = m.filled (receivedFields m.table.fields pairs) samples := by
  intro r
  have hpairs : (pairs ++ [samplesPair samples]).length = m.pairs := by
    rw [List.length_append, ← hfits.length_eq, Message.pairs, if_pos hsamples]
    rfl
  have hexpected : ∀ n, some (m.pairs : Int) = some n → ((pairs ++ [samplesPair samples]).length : Int) = n % 0x10000000000000000 := by
    rintro n ⟨⟩
    have hle : (pairs ++ [samplesPair samples]).length < 2 ^ 63 := hin.2.2.1
    omega
  have henter := enter_map hin options hexpected []
  rw [List.append_nil] at henter
  have hfaces := Table.facesPairs_inside (w := .shortest (pairs ++ [samplesPair samples]).length) halloc
    (PairsWithin.shallower (Nat.zero_le 1) hin.2.2.2.2) 0
  obtain ⟨d, htake, hread, hunread, htrailing⟩ := takePairs_of_fits hstrict hempty hfits hrange hfaces hcount
  obtain ⟨d', hleave⟩ := gives_leave hread hunread htrailing
  have hdecode : r = (none, m.filled (receivedFields m.table.fields pairs) samples, d'.trace) := by
    simp only [r, decodeSamples, Bool.false_eq_true, if_false, ofPairs, henter, List.length_nil, htake, Option.filter_none,
      show leave.run.run d = _ from hleave]
  rw [hdecode]
  exact ⟨rfl, rfl⟩

end InOrder

/-! ## Messages of the catalogue -/

/-- A message within what can be read: its text is UTF-8, of a length of 63 bits, its bytes are fewer than 2^32, and it says that it has
no more than 131072 samples, if it has samples. -/
structure Readable (m : Message) : Prop where
  text : ∀ f ∈ m.table.fields, ∀ v, f.slot? = some (.string v) → IsUtf8 v.bytes ∧ v.length < 2 ^ 63
  bytes : ∀ f ∈ m.table.fields, ∀ v, f.slot? = some (.bytes v) → v.length < 2 ^ 32
  samples : m.name = signalName → m.sampleCount ≤ 131072

/-- A message that can be read: its keys and its text are UTF-8, lengths are of 63 bits, and there are no more than 131072 fields, and
samples if it has samples. -/
structure Legible (m : Message) : Prop where
  text : ∀ f ∈ m.table.fields, f.IsText
  addressable : ∀ f ∈ m.table.fields, f.Addressable
  fields : m.table.fields.length ≤ 131072
  samples : m.name = signalName → m.sampleCount ≤ 131072

section Catalogue

variable {m blank : Message} {options : Options}

/-- What is sent in place of a field is neither text nor bytes. -/
theorem Legible.sent (h : m.Legible) {f : Field} (hf : f ∈ m.table.fields) : (m.sent f).Addressable ∧ (m.sent f).IsText := by
  rcases m.sent_cases f with hsame | ⟨s, -, hstore, htype⟩
  · rw [hsame]
    exact ⟨h.addressable f hf, h.text f hf⟩
  · have hslot : (m.sent f).slot? = some s := by
      rw [hstore]
      rfl
    have hother : ∀ s', (m.sent f).slot? = some s' → s'.type = .float64 ∨ s'.type = .uint32 := by
      intro s' hs'
      rw [hslot] at hs'
      exact Option.some.inj hs' ▸ htype
    refine ⟨⟨fun v hv => ?_, fun v hv => ?_⟩, ?_, fun v hv => ?_⟩
    · rcases hother _ hv with h | h <;> cases h
    · rcases hother _ hv with h | h <;> cases h
    · rw [key_sent]
      exact (h.text f hf).1
    · rcases hother _ hv with h | h <;> cases h

theorem Readable.payloadFits (h : m.Readable) : m.PayloadFits :=
  fun p _ => length_payload_lt (by decide) h.bytes p.2

variable (hb : blank ∈ Catalog.all) (hm : m.OfKind blank)

include hb hm

theorem OfKind.legible (hread : m.Readable) : m.Legible := by
  obtain ⟨-, hcount, hkeys⟩ := Catalog.empty_of_mem blank hb
  refine ⟨fun f hf => ⟨?_, fun v hv => (hread.text f hf v hv).1⟩, fun f hf => ?_, hm.fields.length_eq ▸ hcount.le, hread.samples⟩
  · obtain ⟨g, hg, hlike⟩ := hm.exists_blank hf
    rw [hlike.key]
    exact hkeys g hg
  · exact ⟨fun v hv => (hread.text f hf v hv).2, fun v hv => (hread.bytes f hf v hv).trans (by norm_num)⟩

theorem OfKind.mem_outgoing {f : Field} (hf : f ∈ m.outgoing.fields) : ∃ g ∈ m.table.fields, m.sent g = f := by
  rw [hm.fields_outgoing hb] at hf
  exact List.mem_map.1 hf

/-- What a message sends is a table that can be written and read. -/
theorem OfKind.sendable (hsends : m.Sends) (hread : m.Legible) : m.outgoing.Sendable := by
  have hshape := hm.shape (.catalogue hb)
  have hkeys : m.outgoing.fields.map Field.key = m.table.fields.map Field.key :=
    (Field.Alike.map_key (hm.alike_outgoing hb)).symm.trans (Field.Alike.map_key hm.fields).symm
  refine ⟨?_, hsends.writable, fun f hf => ?_, fun f hf => ?_, hkeys ▸ hshape.keysDiffer⟩
  · rw [(hm.alike_outgoing hb).length_eq]
    exact (Catalog.empty_of_mem blank hb).2.1.le
  · obtain ⟨g, hg, rfl⟩ := hm.mem_outgoing hb hf
    exact (hread.sent hg).1
  · obtain ⟨g, hg, rfl⟩ := hm.mem_outgoing hb hf
    rw [key_sent]
    exact hshape.shortKeys g hg

theorem OfKind.isText_outgoing (hread : m.Legible) : ∀ f ∈ m.outgoing.fields, f.IsText := by
  intro f hf
  obtain ⟨g, hg, rfl⟩ := hm.mem_outgoing hb hf
  exact (hread.sent hg).2

/-- The normal form is the blank message with the fields that are sent, made quiet, and the samples. -/
theorem OfKind.normal_eq : m.normal =
    { blank with
      table := ⟨m.outgoing.fields.map Field.quieted, blank.table.strict⟩
      samples := if m.name = signalName then ⟨m.sentSamples, m.sampleCount⟩ else {} } := by
  have hfields : m.outgoing.fields.map Field.quieted = m.table.fields.map fun f => (m.sent f).quieted := by
    rw [hm.fields_outgoing hb, List.map_map]
    rfl
  rw [hfields, ← hm.name, ← hm.rule, ← hm.strict]
  rfl

/-- A message without samples is read as a table. -/
theorem OfKind.readMap_of_table (halloc : options.allocLimit ≤ 0) (hsends : m.Sends) (hread : m.Legible)
    (hsamples : m.name ≠ signalName) :
    (blank.readMap false options m.item.encode).1 = none ∧ (blank.readMap false options m.item.encode).2.1 = m.normal := by
  have hnone : ¬m.hasSamples = true := mt (hm.hasSamples_iff hb).1 hsamples
  have hnone' : ¬blank.hasSamples = true := by rwa [hasSamples, ← hm.rule]
  have hitem : m.item = m.outgoing.message := by
    rw [item, sentPairs, if_neg hnone, List.append_nil]
    rfl
  have hlike : List.Forall₂ Field.Alike m.outgoing.fields (Table.mk blank.table.fields true).fields := hm.alike_outgoing hb
  obtain ⟨herr, htable⟩ := (hm.sendable hb hsends hread).decode_of_isText halloc hlike (hm.isText_outgoing hb hread)
  rw [readMap, if_neg hnone', hitem, hm.normal_eq hb, if_neg hsamples]
  refine ⟨herr, ?_⟩
  rw [← (Catalog.empty_of_mem blank hb).1]
  simp only [Bool.not_false, htable]

theorem OfKind.length_sentSamples (hsends : m.Sends) (hsamples : m.name = signalName) : m.sentSamples.length = m.sampleCount := by
  have hfault := hsends.samples ((hm.hasSamples_iff hb).2 hsamples)
  rw [sentSamples, List.length_take]
  exact Nat.min_eq_left (samplesFault?_eq_none_iff.1 hfault).2

/-- The map of a message with samples is read as it is. -/
theorem OfKind.within_item (hsends : m.Sends) (hread : m.Legible) (hsamples : m.name = signalName) : m.item.Within {} 0 false := by
  have hsend := hm.sendable hb hsends hread
  have hpairs : m.sentPairs.length ≤ 131072 := by
    rw [length_sentPairs, Message.pairs, ← length_outgoing, (hm.alike_outgoing hb).length_eq]
    have := (Catalog.empty_of_mem blank hb).2.1
    split <;> omega
  have hcount : (m.sentSamples.map Item.double).length ≤ 131072 := by
    rw [List.length_map, hm.length_sentSamples hb hsends hsamples]
    exact hread.samples hsamples
  have hshort : samplesKey.length < 2 ^ 63 := by decide +kernel
  have hkey : (Item.ofText samplesKey).Within {} 1 false := ⟨Width.holds_shortest (hshort.trans (by norm_num)), hshort⟩
  have hdoubles : AllWithin {} 2 (m.sentSamples.map Item.double) :=
    allWithin_iff.2 (List.forall_mem_map.2 fun _ _ => trivial)
  have harray : (Item.ofList (m.sentSamples.map Item.double)).Within {} 1 false :=
    ⟨Width.holds_shortest (by omega), by decide, by omega, hcount, hdoubles⟩
  refine ⟨Width.holds_shortest (by omega), by decide, by omega, hpairs, pairsWithin_iff.2 ?_⟩
  rw [sentPairs, if_pos ((hm.hasSamples_iff hb).2 hsamples)]
  refine List.forall_mem_append.2 ⟨List.forall_mem_map.2 (hsend.within_pairs 1), ?_⟩
  exact List.forall_mem_singleton.2 ⟨hkey, harray⟩

/-- A message with samples is read as its fields and the array after them. -/
theorem OfKind.readMap_of_samples (halloc : options.allocLimit ≤ 0) (hsends : m.Sends) (hread : m.Legible)
    (hsamples : m.name = signalName) :
    (blank.readMap false options m.item.encode).1 = none ∧ (blank.readMap false options m.item.encode).2.1 = m.normal := by
  have hhas : m.hasSamples = true := (hm.hasSamples_iff hb).2 hsamples
  have hhas' : blank.hasSamples = true := by rwa [hasSamples, ← hm.rule]
  have hstrict : blank.table.strict = true := hm.strict ▸ (hm.samples (.catalogue hb) (hasSamples_iff_rule.1 hhas)).1
  have hsend := hm.sendable hb hsends hread
  have hlike := hm.alike_outgoing hb
  have hfits := (forall₂_fits_iff hlike hsend.bound (hsend.within_pairs 0)).2 (hm.isText_outgoing hb hread)
  have hfilled : blank.filled (receivedFields blank.table.fields (m.outgoing.fields.map Field.pair)) m.sentSamples = m.normal := by
    rw [receivedFields_pairs hlike hsend.bound, hm.normal_eq hb, if_pos hsamples, filled, hm.length_sentSamples hb hsends hsamples]
  have hcount : m.normal.sampleCount = m.sentSamples.length := by
    rw [hm.length_sentSamples hb hsends hsamples]
    exact (values_normal (forced?_of_signal hsamples sampleCountKey)).1
  have hitem : m.item = .ofPairs (m.outgoing.fields.map Field.pair ++ [samplesPair m.sentSamples]) := by
    rw [item, sentPairs, if_pos hhas]
  have hin := hm.within_item hb hsends hread hsamples
  rw [readMap, if_pos hhas', ← hfilled]
  rw [hitem] at hin ⊢
  exact decodeSamples_of_fits hstrict hhas' (Catalog.empty_of_mem blank hb).1 halloc hfits (overflowKeys_pairs hlike hsend.bound)
    (hfilled ▸ hcount) hin

/-- What a message of the catalogue is written as is read as its normal form. -/
theorem OfKind.readMap_item (halloc : options.allocLimit ≤ 0) (hsends : m.Sends) (hread : m.Legible) :
    (blank.readMap false options m.item.encode).1 = none ∧ (blank.readMap false options m.item.encode).2.1 = m.normal := by
  by_cases hsamples : m.name = signalName
  · exact hm.readMap_of_samples hb halloc hsends hread hsamples
  · exact hm.readMap_of_table hb halloc hsends hread hsamples

/-- It is decoded to its normal form if its payload is not too long. -/
theorem OfKind.decode_of_payloadFits (halloc : options.allocLimit ≤ 0) (hsends : m.Sends) (hread : m.Legible) (hpayload : m.PayloadFits) :
    (blank.decode false options m.item.encode).1 = none ∧ (blank.decode false options m.item.encode).2.1 = m.normal := by
  obtain ⟨hnone, hnormal⟩ : (blank.readMap false (blank.labelled options) m.item.encode).1 = none ∧
      (blank.readMap false (blank.labelled options) m.item.encode).2.1 = m.normal := hm.readMap_item hb halloc hsends hread
  simp only [decode_eq_checkPayload, checkPayload, hnone, hnormal, Option.filter_none, (payloadFault?_normal_iff hb hm).2 hpayload,
    Option.map_none, and_self]

theorem OfKind.decode_item (halloc : options.allocLimit ≤ 0) (hsends : m.Sends) (hread : m.Readable) :
    (blank.decode false options m.item.encode).1 = none ∧ (blank.decode false options m.item.encode).2.1 = m.normal :=
  hm.decode_of_payloadFits hb halloc hsends (hm.legible hb hread) hread.payloadFits

/-- The fields of the message with samples can always be written. -/
theorem OfKind.sends_iff_of_signal (hsamples : m.name = signalName) :
    m.Sends ↔ 0 < m.sampleCount ∧ m.sampleCount ≤ m.samples.values.length := by
  rw [← samplesFault?_eq_none_iff]
  have hhas : m.hasSamples = true := (hm.hasSamples_iff hb).2 hsamples
  refine ⟨fun h => h.samples hhas, fun h => ⟨fun f hf => ?_, fun _ => h⟩⟩
  rw [outgoing_of_hasSamples hhas] at hf
  refine ⟨(hm.shape (.catalogue hb)).bound f hf, fun v hv => ?_⟩
  obtain ⟨g, hg, hlike⟩ := hm.exists_blank hf
  exact absurd (hlike.type.symm.trans (Field.type_of_slot? hv)) (Catalog.signal_of_mem blank hb (hm.name ▸ hsamples) g hg)

end Catalogue

/-! ## Messages of schemas -/

section Schemas

variable {definition : Definition} {s : Schema} {m : Message} {options : Options}

end Schemas

/-- What marshalling a message of the catalogue gives is decoded into the empty message of its name, without an error, and what comes back
is the normal form of the message. The message with samples is marshalled exactly when it says that it has some, and has as many. -/
theorem message_round_trip (labels : Labels) (options : Options) (halloc : options.allocLimit ≤ 0) {m blank : Message}
    (hblank : Catalog.find? m.name = some blank) (hm : m.OfKind blank) :
    (∀ bytes, (m.marshal labels).1 = .ok bytes → m.Readable →
      (blank.decode false options bytes).1 = none ∧ (blank.decode false options bytes).2.1 = m.normal) ∧
    (m.name = signalName →
      ((∃ bytes, (m.marshal labels).1 = .ok bytes) ↔ 0 < m.sampleCount ∧ m.sampleCount ≤ m.samples.values.length)) := by
  have hb : blank ∈ Catalog.all := List.mem_of_find?_eq_some hblank
  constructor
  · intro bytes hbytes hread
    have hsends : m.Sends := (marshal_ok_iff_sends labels).1 ⟨bytes, hbytes⟩
    obtain rfl : m.item.encode = bytes := Except.ok.inj ((marshal_of_sends hsends labels).symm.trans hbytes)
    exact hm.decode_item hb halloc hsends hread
  · intro hsamples
    exact (marshal_ok_iff_sends labels).trans (hm.sends_iff_of_signal hb hsamples)

/-- Of three samples, two are sent and come back. -/
theorem signal_comes_back_cut :
    let blank := Catalog.sensor "RbrPressureDifferenceSignal"
      (Catalog.words ["sequence_num", "total_samples", "num_samples"] ++ Catalog.doubles ["residual_0", "residual_1"]) .samples
    let m : Message := { blank with
      table := blank.table.store sampleCountKey (.uint32 2)
      samples := ⟨[0x3ff0000000000000, 0x4000000000000000, 0x4008000000000000], 3⟩ }
    Catalog.find? m.name = some blank ∧ m.Readable ∧ ∃ bytes, (m.marshal {}).1 = .ok bytes ∧ (blank.decode false {} bytes).1 = none ∧
      (blank.decode false {} bytes).2.1.samples = ⟨[0x3ff0000000000000, 0x4000000000000000], 2⟩ := by
  intro blank m
  have hblank : Catalog.find? m.name = some blank := by decide +kernel
  have hlike : ∀ p ∈ blank.table.fields.zip m.table.fields,
      p.2.key = p.1.key ∧ p.2.type = p.1.type ∧ p.2.checked = p.1.checked ∧ p.2.isBound = true := by decide +kernel
  have hm : m.OfKind blank := by
    refine ⟨rfl, rfl, rfl, List.forall₂_iff_zip.2 ⟨by decide +kernel, fun hmem => ?_⟩⟩
    obtain ⟨hkey, htype, hchecked, hbound⟩ := hlike _ hmem
    exact ⟨hkey, htype, hchecked, hbound⟩
  have hnumbers : ∀ f ∈ m.table.fields, f.type ≠ .string ∧ f.type ≠ .bytes := by decide +kernel
  have hread : m.Readable :=
    ⟨fun f hf _ hv => absurd (Field.type_of_slot? hv) (hnumbers f hf).1, fun f hf _ hv => absurd (Field.type_of_slot? hv) (hnumbers f hf).2,
      fun _ => by decide +kernel⟩
  obtain ⟨hback, hok⟩ := message_round_trip {} {} (by decide) hblank hm
  obtain ⟨bytes, hbytes⟩ := (hok rfl).2 (by decide +kernel)
  obtain ⟨hnone, hnormal⟩ := hback bytes hbytes hread
  refine ⟨hblank, hread, bytes, hbytes, hnone, ?_⟩
  rw [hnormal]
  decide +kernel

end Message

end SensorWire
