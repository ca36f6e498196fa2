import Mathlib
import SensorWire.Message.Codec
import SensorWire.Proofs.Item
import SensorWire.Proofs.Marshal

/-!
# What a message is written as

A message is written as the map of the fields that it sends, with the array of its samples after them if it has one (`Message.item`). The
encoding is made of parts that each add to the draft and report no more than a shortage (`Adds`), one after the other (`andThen`). It ends
early when a field cannot be written, or when there are fewer samples than the message says, or none.

Main statements: `marshal_of_sends` and `marshal_of_not_sends`.
-/

namespace SensorWire

open Cbor Item Encoder

/-- A draft with a key and the head of an array added. -/
def Draft.addArrayHead (g : Draft) (key : Text) (n : Nat) : Draft :=
  { g with bytes := g.bytes ++ (ofText key).encode ++ (Head.shortest .array n).encode, pairs := g.pairs + 1, owed := n }

/-- A draft with elements of an array added. -/
def Draft.addElements (g : Draft) (items : List Item) : Draft :=
  { g with bytes := g.bytes ++ items.flatMap encode, owed := g.owed - items.length }

namespace Message

/-! ## Parts of an encoding -/

/-- A part of an encoding leaves an encoder that carries a draft, and reports no more than a shortage. -/
structure Adds (buffer : List UInt8) (r : Option Error × Encoder) (g : Draft) : Prop where
  carries : Carries buffer r.2 g
  mild : r.1.filter Error.isFatal = none

variable {buffer : List UInt8} {r : Option Error × Encoder} {e : Encoder} {g : Draft}

/-- After a part without a fatal error comes the next one. -/
theorem andThen_of_mild (h : r.1.filter Error.isFatal = none) (next : Encoder → Option Error × Encoder) : andThen r next = next r.2 := by
  obtain ⟨_ | err, e⟩ := r
  · rfl
  · simp only [andThen, Table.not_isFatal_of_filter h, Bool.false_eq_true, if_false]

/-- A fatal error ends the encoding. -/
theorem andThen_of_fatal {err : Error} (h : r.1 = some err) (herr : err.isFatal = true) (next : Encoder → Option Error × Encoder) :
    (andThen r next).1 = some err := by
  obtain ⟨_ | err', e⟩ := r
  · cases h
  · cases h
    simp only [andThen, herr, if_true]

theorem Adds.andThen (h : Adds buffer r g) {g' : Draft} (next : Encoder → Option Error × Encoder) (hnext : Adds buffer (next r.2) g') :
    Adds buffer (andThen r next) g' := by
  rw [andThen_of_mild h.mild]
  exact hnext

/-- An action that the draft takes without an error. -/
theorem adds_act (h : Carries buffer e g) {a : Action} {g' : Draft} (ha : g.act a = (none, g')) : Adds buffer (e.act a) g' := by
  obtain ⟨hcarries, hreport⟩ := h.act a
  rw [ha] at hcarries hreport
  refine ⟨hcarries, ?_⟩
  rw [hreport]
  exact filter_shortage ..

theorem adds_putArrayHead (h : Carries buffer e g) (hfatal : g.fatal = none) (key : Text) (n : Nat) :
    Adds buffer (e.putArrayHead key n) (g.addArrayHead key n) := by
  have haction : Action.arrayHead key n = .array key n := if_neg (Int.not_lt.2 (Int.natCast_nonneg n))
  rw [putArrayHead_eq_act, haction]
  refine adds_act h ?_
  rw [Draft.act_of_not_fatal hfatal]
  rfl

/-- Samples that an array wants are added to it. -/
theorem adds_putSamples (h : Carries buffer e g) (hfatal : g.fatal = none) (samples : List UInt64) (howed : samples.length ≤ g.owed) :
    Adds buffer (putSamples samples e) (g.addElements (samples.map .double)) := by
  induction samples generalizing e g with
  | nil =>
    have hsame : g.addElements [] = g := by simp [Draft.addElements]
    rw [List.map_nil, hsame]
    exact ⟨h, rfl⟩
  | cons bits samples ih =>
    rw [List.length_cons] at howed
    have hact : g.act (.element "AppendFloat64" (.double bits)) = (none, g.addElements [.double bits]) := by
      rw [Draft.act_of_not_fatal hfatal, Draft.perform, if_neg (by omega)]
      simp [Draft.addElements]
    have hstep : Adds buffer (e.appendElement "AppendFloat64" (.double bits)) (g.addElements [.double bits]) := adds_act h hact
    have hsplit : g.addElements ((bits :: samples).map .double) = (g.addElements [.double bits]).addElements (samples.map .double) := by
      simp only [Draft.addElements, List.map_cons, List.flatMap_cons, List.flatMap_nil, List.append_nil, List.append_assoc,
        List.length_cons, List.length_nil, List.length_map]
      congr 1
      omega
    rw [hsplit, putSamples]
    have hrest := ih hstep.carries hfatal (show samples.length ≤ g.owed - 1 by omega)
    rcases hput : e.appendElement "AppendFloat64" (.double bits) with ⟨_ | err, e'⟩
    · rw [hput] at hrest
      exact hrest
    · rw [hput] at hrest hstep
      simp only [Table.not_isFatal_of_filter hstep.mild, Bool.false_eq_true, if_false]
      exact hrest

/-! ## The pairs of a message -/

/-- The samples that a message sends. -/
def sentSamples (m : Message) : List UInt64 := m.samples.values.take m.sampleCount

/-- The pair that samples are written as. -/
def samplesPair (samples : List UInt64) : Item × Item := (.ofText samplesKey, .ofList (samples.map .double))

/-- The pairs that a message is written as. -/
def sentPairs (m : Message) : List (Item × Item) :=
  m.outgoing.fields.map Field.pair ++ if m.hasSamples then [samplesPair m.sentSamples] else []

/-- The map that a message is written as. -/
def item (m : Message) : Item := .ofPairs m.sentPairs

/-- The draft of a message that can be written. -/
def sentDraft (m : Message) : Draft := { declared := m.pairs, pairs := m.pairs, bytes := m.item.encode }

/-- A message that can be written: all its fields can, and there are as many samples as it says, one at least. -/
structure Sends (m : Message) : Prop where
  writable : ∀ f ∈ m.outgoing.fields, f.Writable
  samples : m.hasSamples = true → m.samplesFault? = none

variable {m : Message}

theorem samplesFault?_eq_none_iff : m.samplesFault? = none ↔ 0 < m.sampleCount ∧ m.sampleCount ≤ m.samples.values.length := by
  unfold samplesFault?
  split_ifs with hzero hfew
  · simp [hzero]
  · simp only [false_iff, not_and]
    omega
  · simp only [true_iff]
    omega

theorem length_updateFirst (key : Text) (update : Field → Field) (fields : List Field) :
    (Table.updateFirst key update fields).length = fields.length := by
  induction fields with
  | nil => rfl
  | cons f fields ih =>
    rw [Table.updateFirst]
    split
    · rfl
    · rw [List.length_cons, List.length_cons, ih]

theorem length_outgoing (m : Message) : m.outgoing.fields.length = m.table.fields.length := by
  have hstore : ∀ (t : Table) (key : Text) (s : Slot), (t.store key s).fields.length = t.fields.length :=
    fun t key s => length_updateFirst key _ t.fields
  unfold outgoing
  split
  · dsimp only
    split_ifs <;> simp [hstore]
  · exact hstore ..
  · rfl

theorem outgoing_of_hasSamples (h : m.hasSamples = true) : m.outgoing = m.table := by
  rw [outgoing, hasSamples_iff_rule.1 h]

theorem length_sentPairs (m : Message) : m.sentPairs.length = m.pairs := by
  rw [sentPairs, pairs, List.length_append, List.length_map, length_outgoing]
  split <;> rfl

theorem bytes_item (m : Message) : m.item.encode = (Head.shortest .map m.pairs).encode ++ encodePairs m.sentPairs := by
  rw [item, ofPairs, Cbor.Item.encode, length_sentPairs]
  rfl

/-- Writing the pairs of a message that can be written makes its draft. -/
theorem adds_putPairs (hsends : m.Sends) (h : Carries buffer e (.start m.pairs)) : Adds buffer (m.putPairs e) m.sentDraft := by
  obtain ⟨hcarries, hmild⟩ := Table.putFields_of_writable h rfl rfl hsends.writable none rfl
  by_cases hsamples : m.hasSamples = true
  · have hcount := (samplesFault?_eq_none_iff.1 (hsends.samples hsamples)).2
    have hlen : m.sentSamples.length = m.sampleCount := by
      rw [sentSamples, List.length_take]
      omega
    rw [outgoing_of_hasSamples hsamples] at hcarries hmild
    have hfields : Adds buffer (Table.putFields m.table.fields e) _ := ⟨hcarries, hmild⟩
    have hhead := hfields.andThen (fun e => e.putArrayHead samplesKey m.sampleCount)
      (adds_putArrayHead hfields.carries rfl samplesKey m.sampleCount)
    have hall := hhead.andThen (putSamples m.sentSamples) (adds_putSamples hhead.carries rfl m.sentSamples hlen.le)
    have hdraft : (((Draft.start m.pairs).addFields m.table.fields).addArrayHead samplesKey m.sampleCount).addElements
        (m.sentSamples.map .double) = m.sentDraft := by
      simp only [Draft.addFields, Draft.addArrayHead, Draft.addElements, Draft.start, sentDraft, List.length_map, hlen, Nat.sub_self,
        bytes_item, sentPairs, samplesPair, hsamples, if_true, outgoing_of_hasSamples hsamples, encodePairs_eq_flatMap, List.flatMap_append,
        List.flatMap_cons, List.flatMap_nil, ofList, Cbor.Item.encode, encodeAll_eq_flatMap, List.append_nil, List.append_assoc,
        Head.shortest, pairs, Nat.zero_add]
    rw [hdraft] at hall
    simp only [putPairs, hsamples, if_true, hsends.samples hsamples]
    exact hall
  · have hdraft : (Draft.start m.pairs).addFields m.outgoing.fields = m.sentDraft := by
      simp [Draft.addFields, Draft.start, sentDraft, bytes_item, sentPairs, hsamples, pairs, length_outgoing]
    rw [hdraft] at hcarries
    simp only [putPairs, hsamples, Bool.false_eq_true, if_false]
    exact ⟨hcarries, hmild⟩

/-- Writing the pairs of any other message returns a fatal error. -/
theorem putPairs_of_not_sends (hsends : ¬m.Sends) (h : Carries buffer e (.start m.pairs)) :
    ∃ err, (m.putPairs e).1 = some err ∧ err.isFatal = true := by
  by_cases hsamples : m.hasSamples = true
  · cases hfault : m.samplesFault? with
    | some err =>
      refine ⟨err, by simp only [putPairs, hsamples, if_true, hfault], ?_⟩
      unfold samplesFault? at hfault
      split_ifs at hfault <;> cases hfault <;> rfl
    | none =>
      have hfields : ¬∀ f ∈ m.table.fields, f.Writable := fun hfields =>
        hsends ⟨outgoing_of_hasSamples hsamples ▸ hfields, fun _ => hfault⟩
      obtain ⟨err, hput, herr⟩ := Table.putFields_of_not_writable h rfl rfl hfields none
      refine ⟨err, ?_, herr⟩
      simp only [putPairs, hsamples, if_true, hfault]
      exact andThen_of_fatal (andThen_of_fatal hput herr _) herr _
  · have hfields : ¬∀ f ∈ m.outgoing.fields, f.Writable := fun hfields => hsends ⟨hfields, fun hs => absurd hs hsamples⟩
    obtain ⟨err, hput, herr⟩ := Table.putFields_of_not_writable h rfl rfl hfields none
    refine ⟨err, ?_, herr⟩
    simp only [putPairs, hsamples, Bool.false_eq_true, if_false]
    exact hput

/-! ## Whole messages -/

/-- What encoding gives, as the message that it is of reports it. -/
def encodeFailure (m : Message) (err : Error) : Failure := .within ("encode " ++ m.name) (.codec err)

/-- Encoding a message that can be written gives its size if there is room, and else the bytes that are missing. -/
theorem encodeIn_of_sends (h : m.Sends) (labels : Labels) (buffer : List UInt8) :
    Carries buffer (m.encodeIn labels buffer).2 m.sentDraft ∧
      (m.encodeIn labels buffer).1 = if m.item.encode.length ≤ buffer.length then .ok m.item.encode.length
        else .error (m.encodeFailure
          { code := .bufferTooSmall, op := "Finish", needed := (m.item.encode.length : Int) - buffer.length }) := by
  obtain ⟨hstart, hmild⟩ := Table.startIn_of_count (m.label labels) buffer m.pairs
  have hall := Adds.andThen ⟨hstart, hmild⟩ m.putPairs (adds_putPairs h hstart)
  rcases hrun : andThen (Encoder.startIn (m.label labels) buffer m.pairs) m.putPairs with ⟨err, e⟩
  rw [hrun] at hall
  obtain ⟨hcarries, hnone⟩ := hall
  have hclosed := Table.carries_finish hcarries hcarries.fatal hcarries.owed (hcarries.pairs.trans hcarries.declared.symm)
  have hfinish := hcarries.finish hcarries.fatal hcarries.owed (hcarries.pairs.trans hcarries.declared.symm)
  rw [hcarries.total, show m.sentDraft.bytes = m.item.encode from rfl] at hfinish
  simp only [encodeIn, hrun, hnone]
  rcases hend : e.finish with ⟨err' | n, e'⟩
  · rw [hend] at hclosed hfinish
    refine ⟨hclosed, ?_⟩
    by_cases hle : m.item.encode.length ≤ buffer.length
    · rw [if_pos hle] at hfinish
      cases hfinish
    · rw [if_neg hle] at hfinish
      rw [if_neg hle, Except.error.inj hfinish]
      rfl
  · rw [hend] at hclosed hfinish
    refine ⟨hclosed, ?_⟩
    by_cases hle : m.item.encode.length ≤ buffer.length
    · rw [if_pos hle] at hfinish
      rw [if_pos hle, Except.ok.inj hfinish]
    · rw [if_neg hle] at hfinish
      cases hfinish

theorem encode_of_sends (h : m.Sends) (labels : Labels) (capacity : Nat) :
    Carries (List.replicate capacity 0) (m.encode labels capacity).2 m.sentDraft ∧
      (m.encode labels capacity).1 = if m.item.encode.length ≤ capacity then .ok m.item.encode.length
        else .error (m.encodeFailure
          { code := .bufferTooSmall, op := "Finish", needed := (m.item.encode.length : Int) - capacity }) := by
  have hencode := encodeIn_of_sends h labels (List.replicate capacity 0)
  rw [List.length_replicate] at hencode
  exact hencode

theorem size_of_sends (h : m.Sends) : m.size = .ok m.item.encode.length := by
  have hresult := (encode_of_sends h {} 0).2
  rw [size, hresult]
  split_ifs with hle
  · rfl
  · simp [encodeFailure, Failure.codec?, Error.isFatal, Code.isFatal]

/-- A message that can be written is marshalled to its item. -/
theorem marshal_of_sends (h : m.Sends) (labels : Labels) : (m.marshal labels).1 = .ok m.item.encode := by
  obtain ⟨hcarries, hresult⟩ := encode_of_sends h labels m.item.encode.length
  rw [if_pos (Nat.le_refl _)] at hresult
  have hout : (m.encode labels m.item.encode.length).2.out = m.item.encode := by
    refine hcarries.fits ?_
    rw [Bool.eq_false_iff]
    refine mt hcarries.overflow_iff.1 ?_
    rw [List.length_replicate]
    exact Nat.lt_irrefl _
  rw [marshal, size_of_sends h]
  rcases hencode : m.encode labels m.item.encode.length with ⟨f | n, e⟩
  · rw [hencode] at hresult
    cases hresult
  · rw [hencode] at hout
    simp only [hencode]
    exact congrArg Except.ok hout

/-- Any other message is not marshalled. -/
theorem marshal_of_not_sends (h : ¬m.Sends) (labels : Labels) : ∃ f, (m.marshal labels).1 = .error f := by
  obtain ⟨hstart, hmild⟩ := Table.startIn_of_count (m.label {}) [] m.pairs
  obtain ⟨err, hput, herr⟩ := putPairs_of_not_sends h hstart
  have hsize : m.size = .error (m.encodeFailure err) := by
    have hencode : (m.encode {} 0).1 = .error (m.encodeFailure err) := by
      rw [encode, List.replicate_zero, encodeIn, andThen_of_mild hmild]
      rcases hrun : m.putPairs (Encoder.startIn (m.label {}) [] m.pairs).2 with ⟨err', e⟩
      rw [hrun] at hput
      cases hput
      simp only [Option.filter_some, herr, if_true]
      rfl
    simp only [size, hencode, encodeFailure, Failure.codec?, herr, if_true]
  exact ⟨_, by rw [marshal, hsize]⟩

theorem marshal_ok_iff_sends (labels : Labels) : (∃ bytes, (m.marshal labels).1 = .ok bytes) ↔ m.Sends := by
  refine ⟨fun ⟨bytes, hbytes⟩ => ?_, fun h => ⟨_, marshal_of_sends h labels⟩⟩
  by_contra h
  obtain ⟨f, hf⟩ := marshal_of_not_sends h labels
  cases hbytes.symm.trans hf

end Message

end SensorWire
