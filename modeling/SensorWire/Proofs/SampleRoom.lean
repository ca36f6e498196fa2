import Mathlib
import SensorWire.Proofs.PairOrder
import SensorWire.Proofs.SampleArray

/-!
# Room for samples

A message with samples may have room set aside for them. An array that is read goes into the room, if it fits, and the budget is not asked.
Without room, an array is allocated and the budget is charged for it. In either case a decode that does not fail leaves as many samples as
the message says.

A decode with room takes the same maps as one without, but for those with an array that does not fit. A lenient decode may meet several
arrays, and each has to fit, though only the last one stays.

Main statement: `samples_fit_room`.
-/

namespace SensorWire

open Cbor Item Decoder

/-! ## Reading samples again -/

/-- A double-precision number that is taken stands in front. -/
theorem Decoder.Gives.of_takeFloat64 {d d' : Decoder} {op key : Text} {bits : UInt64} (h : Gives (takeFloat64 op key) d bits d') :
    ∃ rest, Faces d (.double bits) rest ∧ d' = { d with unread := rest } := by
  obtain ⟨⟨b, tail⟩, d₁, hpeek, hrest⟩ := h.of_bind
  obtain ⟨-, rfl⟩ := hpeek.of_peek
  dsimp only at hrest
  split at hrest
  · exact absurd hrest (not_gives_fail _)
  · obtain ⟨i, rest, hfaces, -, -⟩ := hrest.of_next
    by_cases hdouble : ∃ bits', i = .double bits'
    · obtain ⟨bits', rfl⟩ := hdouble
      cases h.symm.trans (hfaces.takeFloat64 op key)
      exact ⟨rest, hfaces, rfl⟩
    · obtain ⟨err, d₂, hfails, -⟩ := hfaces.takeFloat64_fails (fun bits' hi => hdouble ⟨bits', hi⟩) op key
      cases hfails.symm.trans h

/-- The value of a field that is neither text nor bytes costs nothing. -/
theorem Field.cost_of_number {f : Field} {k : Nat} {i : Item} {v : Verdict} (htype : f.type ≠ .string ∧ f.type ≠ .bytes)
    (h : f.verdict? k i = some v) : v.cost = 0 := by
  rw [Table.cost_of_verdict? h]
  obtain ⟨key, binding, checked⟩ := f
  cases binding with
  | unbound type => rfl
  | bound s =>
    cases s with
    | string text => exact absurd rfl htype.1
    | bytes content => exact absurd rfl htype.2
    | _ => rfl

namespace Message

section Again

variable {n room : Nat} {values : List UInt64} {s s' : Sampling} {d d' : Decoder}

/-- The samples that are read stand in front, and are all that is taken off. -/
theorem unread_of_takeSamples (h : takeSamples n d = (values, none, d')) :
    d.unread = (values.map Item.double).flatMap Item.encode ++ d'.unread ∧ d' = { d with unread := d'.unread } := by
  induction n generalizing d values with
  | zero =>
    cases h
    exact ⟨rfl, rfl⟩
  | succ n ih =>
    rw [takeSamples] at h
    rcases htake : (takeFloat64 "NextFloat64" "").run.run d with ⟨err | bits, d₁⟩
    · rw [htake] at h
      cases h
    · obtain ⟨rest, hfaces, rfl⟩ := Gives.of_takeFloat64 htake
      rcases hmore : takeSamples n { d with unread := rest } with ⟨values', err?, d₂⟩
      rw [htake] at h
      simp only [hmore] at h
      cases h
      obtain ⟨hunread, hsame⟩ := ih hmore
      refine ⟨?_, hsame⟩
      rw [List.map_cons, List.flatMap_cons, List.append_assoc, ← hunread]
      exact hfaces.unread

/-- An array that was allocated and read is also read into room that it fits. -/
theorem takeSignal_into_room (h : takeSignal 0 n s d = (none, s', d')) (hroom : 0 < room) (hn : n ≤ room) (s₁ : Sampling) :
    takeSignal room n s₁ d =
      (none, ⟨{ s₁.message with samples := ⟨s'.message.samples.values, room⟩ }, s₁.allocated⟩, { d' with allocated := d.allocated }) := by
  simp only [takeSignal, Nat.lt_irrefl, false_and, if_false] at h
  rcases hcharge : (charge "Charge" samplesKey (Int64.ofNat (8 * n))).run.run d with ⟨err | _, d₁⟩
  · rw [hcharge] at h
    cases h
  obtain rfl := Gives.of_charge hcharge
  rcases htake : takeSamples n { d with allocated := d.allocated + Int64.ofNat (8 * n) } with ⟨new, _ | err, d₂⟩
  · rw [hcharge] at h
    simp only [htake] at h
    cases h
    -- the samples are read again from the same bytes, by a decoder that was not charged
    obtain ⟨hunread, hsame⟩ := unread_of_takeSamples htake
    have hagain : takeSamples new.length d = (new, none, { d with unread := d'.unread }) := takeSamples_doubles new hunread
    rw [length_takeSamples htake] at hagain
    have hfits : ¬(0 < room ∧ room < n) := by omega
    unfold takeSignal
    dsimp only
    rw [if_neg hfits, if_pos hroom, hagain, hsame]
  · rw [hcharge] at h
    simp only [htake] at h
    cases h

end Again

/-! ## Room in place of none -/

/-- The message with room set aside for samples, whatever it holds. -/
def withRoom (m : Message) (old : List UInt64) (room : Nat) : Message := { m with samples := ⟨old, room⟩ }

section InOrder

variable {room : Nat} {old : List UInt64} {s s' : Sampling} {d d' : Decoder} {m : Message} {options : Options} {data : List UInt8}

/-- Pairs that are read in order without room are also read into room that the samples fit. -/
theorem takeInOrder_into_room (h : takeInOrder 0 s d = (none, s', d')) (hroom : 0 < room) (hcount : s'.message.sampleCount ≤ room)
    (old : List UInt64) :
    ∃ a, takeInOrder room ⟨s.message.withRoom old room, false⟩ d =
      (none, ⟨s'.message.withRoom s'.message.samples.values room, false⟩, { d' with allocated := a }) := by
  obtain ⟨table, d₁, d₂, d₃, hfields, hkey, harray, hsignal⟩ := gives_of_takeInOrder h
  obtain ⟨samples, hmessage⟩ := takeSignal_message 0 (sampleCount { s.message with table }) { s with message := { s.message with table } } d₃
  rw [hsignal] at hmessage
  have hfits : sampleCount { s.message with table } ≤ room := by
    rw [hmessage] at hcount
    exact hcount
  have hinto := takeSignal_into_room hsignal hroom hfits ⟨{ s.message.withRoom old room with table }, false⟩
  have hagain := takeInOrder_of_gives (s := ⟨s.message.withRoom old room, false⟩) (Or.inr hfits) hfields hkey harray rfl
  refine ⟨d₃.allocated, ?_⟩
  rw [hagain, hinto, hmessage]
  rfl

/-- A strict decode without room also reads into room that the samples fit. -/
theorem decodeSamples_into_room (hcapacity : m.samples.capacity = 0) (h : (m.decodeSamples false options data).1 = none) (hroom : 0 < room)
    (hcount : (m.decodeSamples false options data).2.1.sampleCount ≤ room) :
    ((m.withRoom old room).decodeSamples false options data).1 = none := by
  obtain ⟨d, m', d₁, d', henter, hpairs, hleave, hdecode⟩ := takePairs_of_decodeSamples h
  rw [hdecode] at hcount
  obtain ⟨s, horder⟩ := takeInOrder_of_takePairs hpairs
  have hwalk : m.walkPairs false d = (none, [], s, d₁) := by simp only [walkPairs, Bool.false_eq_true, if_false, horder]
  rw [takePairs_eq, hwalk, closePairs, Option.none_or] at hpairs
  split_ifs at hpairs with hlength
  · cases hpairs
  cases hpairs
  rw [hcapacity] at horder
  obtain ⟨a, hinto⟩ := takeInOrder_into_room horder hroom hcount old
  have hagain : (m.withRoom old room).takePairs false d = (none, s.message.withRoom s.message.samples.values room, { d₁ with allocated := a }) := by
    have hwalk' : (m.withRoom old room).walkPairs false d =
        (none, [], ⟨s.message.withRoom s.message.samples.values room, false⟩, { d₁ with allocated := a }) := by
      simp only [walkPairs, Bool.false_eq_true, if_false]
      rw [show (m.withRoom old room).samples.capacity = room from rfl, hinto]
    rw [takePairs_eq, hwalk']
    exact closePairs_whole (s := ⟨s.message.withRoom s.message.samples.values room, false⟩) (not_not.1 hlength) [] _
  rcases leave_cases d₁ with ⟨err, d₂, hfails, -⟩ | ⟨hread, hunread, htrailing⟩
  · cases hfails.symm.trans hleave
  have hleft := leave_traces (d := { d₁ with allocated := a }) hread hunread htrailing
  have henter' : enter options (some ((m.withRoom old room).pairs : Int)) data = (.ok (), d) := henter
  rw [decodeSamples, if_neg Bool.false_ne_true, henter']
  simp only [hagain, Option.filter_none]
  rw [hleft]

end InOrder

/-! ## Readings and room -/

/-- Every array of samples in a map fits the room. -/
def ArraysFit (pairs : List (Item × Item)) (room : Nat) : Prop :=
  ∀ p ∈ pairs, p.1.Spells samplesKey → ∀ w items, p.2 = .array w items → items.length ≤ room

section Readings

variable {m : Message} {p : Item × Item} {r : Reading} {pairs : List (Item × Item)} {values old : List UInt64} {room : Nat} {limit : Int64}

/-- The samples after readings: those of the last array, or the old ones if there is none. -/
theorem samples_applyAll (room : Nat) (m : Message) (rs : List Reading) :
    (applyAll room m rs).samples = m.samples ∨
      ∃ values, .samples values ∈ rs ∧ (applyAll room m rs).samples = ⟨values, if room = 0 then values.length else room⟩ := by
  induction rs generalizing m with
  | nil => exact Or.inl rfl
  | cons r rs ih =>
    rcases ih (r.apply room m) with hkept | ⟨values, hmem, hlast⟩
    · cases r with
      | field v => exact Or.inl hkept
      | samples values => exact Or.inr ⟨values, List.mem_cons_self, hkept⟩
    · exact Or.inr ⟨values, List.mem_cons_of_mem _ hmem, hlast⟩

/-- With an array among the readings, room in place of none changes nothing but the room. -/
theorem applyAll_into_room (hroom : 0 < room) {rs : List Reading} (h : m.samples.values = old ∨ ∃ values, .samples values ∈ rs) :
    applyAll room (m.withRoom old room) rs = (applyAll 0 m rs).withRoom (applyAll 0 m rs).samples.values room := by
  induction rs generalizing m old with
  | nil =>
    obtain rfl : m.samples.values = old := by simpa using h
    rfl
  | cons r rs ih =>
    cases r with
    | field v =>
      have hrest : (Reading.apply 0 m (.field v)).samples.values = old ∨ ∃ values, .samples values ∈ rs := by
        rcases h with hold | ⟨values, hmem⟩
        · exact Or.inl hold
        · exact Or.inr ⟨values, by simpa using hmem⟩
      exact ih hrest
    | samples values =>
      have hstart : Reading.apply room (m.withRoom old room) (.samples values) = (Reading.apply 0 m (.samples values)).withRoom values room := by
        simp [Reading.apply, withRoom, Nat.ne_of_gt hroom]
      rw [applyAll, List.foldl_cons, hstart]
      exact ih (Or.inl rfl)

/-- The samples that are read come from an array that has its key, and for which there is room. -/
theorem exists_array_of_mem_readings (h : .samples values ∈ m.readings pairs) :
    ∃ p ∈ pairs, ∃ w, p.1.Spells samplesKey ∧ p.2 = .array w (values.map .double) ∧
      (m.samples.capacity = 0 ∨ values.length ≤ m.samples.capacity) := by
  obtain ⟨p, hp, hr⟩ := List.mem_filterMap.1 h
  by_cases hkey : m.hasSamples = true ∧ p.1.Spells samplesKey
  · obtain ⟨values', hsame, hvalues, hfits⟩ := (reading?_samples hkey.1 hkey.2).1 hr
    cases hsame
    obtain ⟨w, hitem⟩ := samples?_eq_some_iff.1 hvalues
    exact ⟨p, hp, w, hkey.2, hitem, hfits⟩
  · obtain ⟨v, hfield, -⟩ := (reading?_field hkey).1 hr
    cases hfield

/-- Samples that stay come from an array, if there were none before. -/
theorem mem_readings_of_after (hnone : m.samples.values = []) (h : 0 < (m.after pairs).samples.values.length) :
    .samples (m.after pairs).samples.values ∈ m.readings pairs := by
  rcases samples_applyAll m.samples.capacity m (m.readings pairs) with hkept | ⟨values, hmem, hlast⟩
  · rw [after, hkept, hnone] at h
    exact absurd h (Nat.lt_irrefl 0)
  · rw [after, hlast]
    exact hmem

/-- Room that was set aside stays, and the samples fit it. -/
theorem room_after (hslice : m.samples.values.length ≤ m.samples.capacity) (hroom : 0 < m.samples.capacity) (pairs : List (Item × Item)) :
    (m.after pairs).samples.capacity = m.samples.capacity ∧ (m.after pairs).samples.values.length ≤ m.samples.capacity := by
  rw [after]
  rcases samples_applyAll m.samples.capacity m (m.readings pairs) with hkept | ⟨values, hmem, hlast⟩
  · rw [hkept]
    exact ⟨rfl, hslice⟩
  · obtain ⟨p, -, w, -, -, hzero | hfits⟩ := exists_array_of_mem_readings hmem
    · exact absurd hzero (Nat.ne_of_gt hroom)
    · rw [hlast, if_neg (Nat.ne_of_gt hroom)]
      exact ⟨rfl, hfits⟩

/-- What is made of a pair does not change with the room, if its array fits. -/
theorem reading?_withRoom (h : m.reading? p = some r)
    (hfits : p.1.Spells samplesKey → ∀ w items, p.2 = .array w items → items.length ≤ room) : (m.withRoom old room).reading? p = some r := by
  by_cases hkey : m.hasSamples = true ∧ p.1.Spells samplesKey
  · obtain ⟨values, rfl, hvalues, -⟩ := (reading?_samples hkey.1 hkey.2).1 h
    obtain ⟨w, hitem⟩ := samples?_eq_some_iff.1 hvalues
    have hlength := hfits hkey.2 w _ hitem
    rw [List.length_map] at hlength
    exact (reading?_samples (m := m.withRoom old room) hkey.1 hkey.2).2 ⟨values, rfl, hvalues, Or.inr hlength⟩
  · obtain ⟨v, rfl, hv⟩ := (reading?_field hkey).1 h
    exact (reading?_field (m := m.withRoom old room) hkey).2 ⟨v, rfl, hv⟩

/-- Arrays that are read into room fit it. -/
theorem arraysFit_of_reads (hsamples : m.hasSamples = true) (hroom : 0 < room)
    (h : ∀ p ∈ pairs, ∃ r, (m.withRoom old room).reading? p = some r) : ArraysFit pairs room := by
  intro p hp hkey w items hitem
  obtain ⟨r, hr⟩ := h p hp
  obtain ⟨values, -, hvalues, hfits⟩ := (reading?_samples (m := m.withRoom old room) hsamples hkey).1 hr
  obtain ⟨w', hitem'⟩ := samples?_eq_some_iff.1 hvalues
  obtain ⟨-, rfl⟩ := Item.array.inj (hitem.symm.trans hitem')
  rw [List.length_map]
  rcases hfits with hzero | hle
  · exact absurd hzero (Nat.ne_of_gt hroom)
  · exact hle

/-- A pair costs nothing, if there is room for samples and the fields are numbers. -/
theorem cost_eq_zero (hnumbers : ∀ f ∈ m.table.fields, f.type ≠ .string ∧ f.type ≠ .bytes) (hroom : 0 < room)
    (h : m.reading? p = some r) : r.cost room = 0 := by
  by_cases hkey : m.hasSamples = true ∧ p.1.Spells samplesKey
  · obtain ⟨values, rfl, -⟩ := (reading?_samples hkey.1 hkey.2).1 h
    exact if_neg (Nat.ne_of_gt hroom)
  · obtain ⟨v, rfl, hv⟩ := (reading?_field hkey).1 h
    rcases Table.verdict?_cases rfl hv with ⟨name, -, rfl⟩ | ⟨key, -, -, rfl⟩ | ⟨key, f, -, hf, hverdict⟩
    · rfl
    · rfl
    · exact Field.cost_of_number (hnumbers f (List.mem_of_getElem? hf)) hverdict

theorem costs_eq_zero (hnumbers : ∀ f ∈ m.table.fields, f.type ≠ .string ∧ f.type ≠ .bytes) (hroom : 0 < room)
    (pairs : List (Item × Item)) : ∀ cost ∈ (m.readings pairs).map (Reading.cost room), cost = 0 := by
  intro cost hcost
  obtain ⟨r, hr, rfl⟩ := List.mem_map.1 hcost
  obtain ⟨p, -, hp⟩ := List.mem_filterMap.1 hr
  exact cost_eq_zero hnumbers hroom hp

/-- What costs nothing is always afforded. -/
theorem affordsAll_of_free {costs : List Nat} (h : ∀ cost ∈ costs, cost = 0) (allocated : Int64) : AffordsAll limit allocated costs := by
  induction costs generalizing allocated with
  | nil => trivial
  | cons cost costs ih =>
    rw [List.forall_mem_cons] at h
    exact ⟨Or.inl h.1, ih h.2 _⟩

/-- A map that is read to its end without room, and has samples, is read to its end with room that its arrays fit. -/
theorem finishes_withRoom (hnumbers : ∀ f ∈ m.table.fields, f.type ≠ .string ∧ f.type ≠ .bytes) (hcapacity : m.samples.capacity = 0)
    (hroom : 0 < room) (h : m.Finishes limit pairs) (harray : ∃ values, .samples values ∈ m.readings pairs) (hfits : ArraysFit pairs room)
    (old : List UInt64) :
    (m.withRoom old room).Finishes limit pairs ∧ (m.withRoom old room).readings pairs = m.readings pairs ∧
      (m.withRoom old room).after pairs = (m.after pairs).withRoom (m.after pairs).samples.values room := by
  have hreads : ∀ p ∈ pairs, (m.withRoom old room).reading? p = m.reading? p := by
    intro p hp
    obtain ⟨r, hr⟩ := h.reads p hp
    rw [hr]
    exact reading?_withRoom hr (hfits p hp)
  have hreadings : (m.withRoom old room).readings pairs = m.readings pairs := List.filterMap_congr hreads
  have hafter : (m.withRoom old room).after pairs = (m.after pairs).withRoom (m.after pairs).samples.values room := by
    rw [after, after, hreadings, hcapacity]
    exact applyAll_into_room hroom (Or.inr harray)
  refine ⟨⟨fun p hp => ?_, ?_, fun hsamples => ?_⟩, hreadings, hafter⟩
  · rw [hreads p hp]
    exact h.reads p hp
  · exact affordsAll_of_free (costs_eq_zero (m := m.withRoom old room) hnumbers hroom pairs) _
  · rw [hafter]
    exact h.counts hsamples

end Readings

/-! ## Decodes that do not fail -/

/-- The bytes that a decode of a message with samples takes from the budget. -/
def charged (lenient : Bool) (options : Options) (data : List UInt8) (m : Message) : Int64 :=
  match enter (m.labelled options) (if lenient then none else some m.pairs) data with
  | (.error _, d) => d.allocated
  | (.ok (), d) => (m.takePairs lenient d).2.2.allocated

/-- A message with samples has no text and no bytes. -/
theorem numbers_of_mem : ∀ m ∈ Catalog.all, m.rule = .samples → ∀ f ∈ m.table.fields, f.type ≠ .string ∧ f.type ≠ .bytes := by
  decide +kernel

section Decodes

variable {m blank : Message} {options : Options} {data : List UInt8} {lenient : Bool}

theorem OfKind.numbers (hm : m.OfKind blank) (hblank : blank.Blank) (hsamples : m.hasSamples = true) :
    ∀ f ∈ m.table.fields, f.type ≠ .string ∧ f.type ≠ .bytes := by
  intro f hf
  have hrule := hasSamples_iff_rule.1 hsamples
  obtain ⟨g, hg, hlike⟩ := hm.exists_blank hf
  rw [hlike.type]
  cases hblank with
  | catalogue hmem => exact numbers_of_mem _ hmem (hm.rule ▸ hrule) g hg
  | schema => exact absurd (hm.rule.symm.trans hrule) (by simp [Schema.new])

/-- A strict decode that does not fail lists nothing. -/
theorem eq_none_of_decodeSamples (hstrict : m.table.strict = true) (hchecked : ∀ f ∈ m.table.fields, f.checked = false)
    (hlists : ((m.decodeSamples false options data).1.filter fun e => !e.isAggregate) = none) :
    (m.decodeSamples false options data).1 = none := by
  rw [decodeSamples, if_neg Bool.false_ne_true] at hlists ⊢
  rcases henter : enter options (some (m.pairs : Int)) data with ⟨err | _, d⟩
  · rw [henter] at hlists
    exact absurd hlists (Table.filter_of_keys (of_enter_error henter).2.1)
  have hkeys : ∀ err, (m.takePairs false d).1 = some err → err.keys = [] := fun err => keys_of_takePairs hstrict hchecked
  rw [henter] at hlists
  dsimp only at hlists ⊢
  generalize m.takePairs false d = r at hlists hkeys ⊢
  obtain ⟨_ | err, m', d₁⟩ := r
  · rcases leave_cases d₁ with ⟨err, d₂, hleave, hreported⟩ | ⟨hread, hunread, htrailing⟩
    · simp only [Option.filter_none, hleave] at hlists
      exact absurd hlists (Table.filter_of_keys hreported.keys)
    · simp only [Option.filter_none]
      rw [leave_traces hread hunread htrailing]
  · have hfatal : ((some err).filter fun e => !e.isAggregate) = some err :=
      Option.filter_some_pos (by simp [Error.isAggregate, hkeys err rfl])
    simp only [hfatal, reduceCtorEq] at hlists

/-- What a strict decode does, if it does not fail, a lenient one does too, and takes the same from the budget. -/
theorem lenient_of_decodes (hstrict : m.table.strict = true) (hshape : Shape m.table.fields) (hnot : ∀ f ∈ m.table.fields, f.key ≠ samplesKey)
    (hchecked : ∀ f ∈ m.table.fields, f.checked = false)
    (hlists : ((m.decodeSamples lenient (m.labelled options) data).1.filter fun e => !e.isAggregate) = none) :
    m.decodeSamples true (m.labelled options) data = m.decodeSamples lenient (m.labelled options) data ∧
      m.charged true options data = m.charged lenient options data := by
  cases lenient with
  | true => exact ⟨rfl, rfl⟩
  | false =>
    have hnone := eq_none_of_decodeSamples hstrict hchecked hlists
    obtain ⟨d, m', d₁, d', henter, hpairs, hlenient, -, -⟩ := takePairs_lenient_of_decodeSamples hstrict hshape hnot hnone
    refine ⟨decodeSamples_lenient hstrict hshape hnot hnone, ?_⟩
    rw [charged, charged, if_pos rfl, if_neg Bool.false_ne_true, henter, enter_none_of_enter henter]
    simp only [hpairs, hlenient]

theorem OfKind.decodes_iff (hm : m.OfKind blank) (hblank : blank.Blank) (hsamples : m.hasSamples = true) :
    Failure.resultClass (m.decode lenient options data).1 ≠ .fatal ↔
      ((m.decodeSamples lenient (m.labelled options) data).1.filter fun e => !e.isAggregate) = none := by
  rw [(hm.decode_of_samples hblank hsamples lenient options data).2, Ne, Failure.resultClass_eq_fatal_iff, not_not]

/-- A decode that does not fail, strict or lenient, has read a map to its end. -/
theorem OfKind.finishes_of_decode (hm : m.OfKind blank) (hblank : blank.Blank) (hsamples : m.hasSamples = true)
    (h : Failure.resultClass (m.decode lenient options data).1 ≠ .fatal) :
    ∃ w pairs, data = (Item.map w pairs).encode ∧ (Item.map w pairs).Within {} 0 false ∧ m.Finishes options.allocLimit pairs ∧
      (m.decode lenient options data).1 =
        (listing ((m.readings pairs).filterMap Reading.skipped?)).map (fun e => .within ("decode " ++ m.name) (.codec e)) ∧
      (m.decode lenient options data).2.1 = m.after pairs ∧
      m.charged lenient options data = Int64.ofNat ((m.readings pairs).map (Reading.cost m.samples.capacity)).sum := by
  have hchecked := unchecked_of_samples hblank hm hsamples
  obtain ⟨hstrict, hnot⟩ := hm.samples hblank (hasSamples_iff_rule.1 hsamples)
  have hdecode := (hm.decode_of_samples hblank hsamples lenient options data).2
  have hlists := (hm.decodes_iff hblank hsamples).1 h
  obtain ⟨hsame, hcharged⟩ := lenient_of_decodes hstrict (hm.shape hblank) hnot hchecked hlists
  rw [← hsame] at hlists hdecode
  obtain ⟨w, pairs, rfl, hin, hfinishes⟩ := map_of_decodeSamples hsamples hchecked hlists
  obtain ⟨trace, hlenient⟩ := decodeSamples_of_finishes hsamples hchecked hin hfinishes
  obtain ⟨d', hpairs, -, -, hallocated⟩ := takePairs_of_finishes hsamples hchecked hin hfinishes 0
  refine ⟨w, pairs, rfl, hin, hfinishes, ?_, ?_, ?_⟩
  · rw [hdecode, hlenient]
  · rw [hdecode, hlenient]
  · have henter : enter (m.labelled options) none (Item.map w pairs).encode = (.ok (), inside (m.labelled options) w pairs 0) :=
      Table.enter_lenient (t := ⟨[], false⟩) rfl hin _
    rw [← hcharged, charged, if_pos rfl, henter]
    simp only [hpairs, hallocated]

/-- A map that is read to its end is decoded by a lenient decode without a fatal error. -/
theorem OfKind.decodes_of_finishes (hm : m.OfKind blank) (hblank : blank.Blank) (hsamples : m.hasSamples = true) {w : Width}
    {pairs : List (Item × Item)} (hin : (Item.map w pairs).Within {} 0 false) (h : m.Finishes options.allocLimit pairs) :
    Failure.resultClass (m.decode true options (Item.map w pairs).encode).1 ≠ .fatal := by
  have hfinishes : m.Finishes (m.labelled options).allocLimit pairs := h
  obtain ⟨trace, hlenient⟩ := decodeSamples_of_finishes hsamples (unchecked_of_samples hblank hm hsamples) hin hfinishes
  rw [hm.decodes_iff hblank hsamples, hlenient]
  exact listing_filter _

theorem OfKind.withRoom (hm : m.OfKind blank) (old : List UInt64) (room : Nat) : (m.withRoom old room).OfKind blank :=
  ⟨hm.name, hm.rule, hm.strict, hm.fields⟩

/-- A map that is decoded without room is decoded into room that its arrays fit. -/
theorem OfKind.decodes_into_room (hm : m.OfKind blank) (hblank : blank.Blank) (hsamples : m.hasSamples = true)
    (hcapacity : m.samples.capacity = 0) {room : Nat} (hroom : 0 < room) {w : Width} {pairs : List (Item × Item)}
    (hin : (Item.map w pairs).Within {} 0 false) (hfinishes : m.Finishes options.allocLimit pairs)
    (hafter : (m.decode lenient options (Item.map w pairs).encode).2.1 = m.after pairs)
    (hdecodes : Failure.resultClass (m.decode lenient options (Item.map w pairs).encode).1 ≠ .fatal)
    (harray : .samples (m.after pairs).samples.values ∈ m.readings pairs) (hfits : ArraysFit pairs room) (old : List UInt64) :
    Failure.resultClass ((m.withRoom old room).decode lenient options (Item.map w pairs).encode).1 ≠ .fatal := by
  cases lenient with
  | true =>
    have hinto := finishes_withRoom (hm.numbers hblank hsamples) hcapacity hroom hfinishes ⟨_, harray⟩ hfits old
    exact (hm.withRoom old room).decodes_of_finishes hblank hsamples hin hinto.1
  | false =>
    obtain ⟨hstrict, -⟩ := hm.samples hblank (hasSamples_iff_rule.1 hsamples)
    have hlists := (hm.decodes_iff hblank hsamples).1 hdecodes
    have hnone := eq_none_of_decodeSamples hstrict (unchecked_of_samples hblank hm hsamples) hlists
    have hcount : (m.decodeSamples false (m.labelled options) (Item.map w pairs).encode).2.1.sampleCount ≤ room := by
      obtain ⟨p, hp, w', hkey, hitem, -⟩ := exists_array_of_mem_readings harray
      have hlength := hfits p hp hkey w' _ hitem
      rw [List.length_map, hfinishes.counts hsamples, ← hafter, (hm.decode_of_samples hblank hsamples false options _).2] at hlength
      exact hlength
    have hinto : ((m.withRoom old room).decodeSamples false (m.labelled options) (Item.map w pairs).encode).1 = none :=
      decodeSamples_into_room hcapacity hnone hroom hcount
    rw [(hm.withRoom old room).decodes_iff hblank hsamples, show (m.withRoom old room).labelled options = m.labelled options from rfl, hinto]
    rfl

/-- A map that is decoded into room is read to its end with the room, and its arrays fit. -/
theorem OfKind.arraysFit_of_decode (hm : m.OfKind blank) (hblank : blank.Blank) (hsamples : m.hasSamples = true) {room : Nat}
    (hroom : 0 < room) {w : Width} {pairs : List (Item × Item)} (hin : (Item.map w pairs).Within {} 0 false) {old : List UInt64}
    (h : Failure.resultClass ((m.withRoom old room).decode lenient options (Item.map w pairs).encode).1 ≠ .fatal) :
    ArraysFit pairs room ∧
      ((m.withRoom old room).decode lenient options (Item.map w pairs).encode).1 =
        (listing (((m.withRoom old room).readings pairs).filterMap Reading.skipped?)).map
          (fun e => .within ("decode " ++ m.name) (.codec e)) ∧
      ((m.withRoom old room).decode lenient options (Item.map w pairs).encode).2.1 = (m.withRoom old room).after pairs := by
  obtain ⟨w', pairs', hdata, hin', hfinishes, hfailure, hafter, -⟩ := (hm.withRoom old room).finishes_of_decode hblank hsamples h
  obtain ⟨hsame, -⟩ := hin.encode_append_inj hin' (congrArg (· ++ []) hdata)
  obtain ⟨rfl, rfl⟩ := Item.map.inj hsame
  exact ⟨arraysFit_of_reads hsamples hroom hfinishes.reads, hfailure, hafter⟩

end Decodes

/-! ## The statement -/

/-- The samples that a decode leaves, and the room for them. For a message that holds no more samples than it has room for, and a decode into
it, strict or lenient, that does not fail, or only lists keys: there are as many samples as the message then says. If room was set aside,
the room is still there and the samples fit it, and nothing was taken from the budget. If there was none, and there are samples now, the bytes
are a map, and a decode into room takes the map exactly if every array of samples in it fits; what it leaves is then the same but for the
room. -/
theorem samples_fit_room {blank m : Message} (hblank : blank.Blank) (hm : m.OfKind blank) (hsamples : m.hasSamples = true)
    (hslice : m.samples.values.length ≤ m.samples.capacity) {lenient : Bool} {options : Options} {data : List UInt8}
    (hdecodes : Failure.resultClass (m.decode lenient options data).1 ≠ .fatal) :
    let r := m.decode lenient options data
    r.2.1.samples.values.length = r.2.1.sampleCount ∧
    (0 < m.samples.capacity →
      r.2.1.samples.capacity = m.samples.capacity ∧ r.2.1.sampleCount ≤ m.samples.capacity ∧ m.charged lenient options data = 0) ∧
    (m.samples.capacity = 0 → 0 < r.2.1.sampleCount →
      ∃ w pairs, data = (Item.map w pairs).encode ∧ (Item.map w pairs).WellFormed ∧ ∀ old room, 0 < room →
        let r' := (m.withRoom old room).decode lenient options data
        (Failure.resultClass r'.1 ≠ .fatal ↔ ArraysFit pairs room) ∧
        (Failure.resultClass r'.1 ≠ .fatal → r'.1 = r.1 ∧ r'.2.1 = r.2.1.withRoom r.2.1.samples.values room)) := by
  intro r
  obtain ⟨w, pairs, rfl, hin, hfinishes, hfailure, hafter, hcharged⟩ := hm.finishes_of_decode hblank hsamples hdecodes
  have hcount : r.2.1.samples.values.length = r.2.1.sampleCount := by
    rw [hafter]
    exact hfinishes.counts hsamples
  refine ⟨hcount, fun hroom => ?_, fun hcapacity hsome => ⟨w, pairs, rfl, ⟨_, hin⟩, fun old room hroom => ?_⟩⟩
  · obtain ⟨hkept, hfits⟩ := room_after hslice hroom pairs
    refine ⟨by rw [hafter, hkept], ?_, ?_⟩
    · rw [← hcount, hafter]
      exact hfits
    · rw [hcharged, List.sum_eq_zero (costs_eq_zero (hm.numbers hblank hsamples) hroom pairs)]
      rfl
  · intro r'
    rw [← hcount, hafter] at hsome
    have hempty : m.samples.values = [] := List.length_eq_zero_iff.1 (Nat.le_zero.1 (hcapacity ▸ hslice))
    have harray := mem_readings_of_after hempty hsome
    refine ⟨⟨fun hdecodes' => (hm.arraysFit_of_decode hblank hsamples hroom hin hdecodes').1, fun hfits => ?_⟩, fun hdecodes' => ?_⟩
    · exact hm.decodes_into_room hblank hsamples hcapacity hroom hin hfinishes hafter hdecodes harray hfits old
    · obtain ⟨hfits, hfailure', hafter'⟩ := hm.arraysFit_of_decode hblank hsamples hroom hin hdecodes'
      obtain ⟨-, hreadings, hinto⟩ := finishes_withRoom (hm.numbers hblank hsamples) hcapacity hroom hfinishes ⟨_, harray⟩ hfits old
      rw [hfailure', hafter', hreadings, hinto, hfailure, hafter]
      exact ⟨rfl, rfl⟩

/-- Two arrays, of two samples and of one. Room for two samples takes both arrays at no charge, and room for one does not take the first. -/
theorem samples_fit_room_two_arrays :
    let blank := Catalog.sensor "RbrPressureDifferenceSignal"
      (Catalog.words ["sequence_num", "total_samples", "num_samples"] ++ Catalog.doubles ["residual_0", "residual_1"]) .samples
    let key (t : Text) : Item := .string .text .inline t.bytes
    let data := (Item.map .inline [(key samplesKey, .array .inline [.double 1, .double 2]), (key sampleCountKey, .unsigned .inline 1),
      (key samplesKey, .array .inline [.double 3])]).encode
    let r := blank.decode true {} data
    let wide := blank.withRoom [] 2
    r.1 = none ∧ r.2.1.samples.values = [3] ∧ (wide.decode true {} data).1 = none ∧
      (wide.decode true {} data).2.1 = r.2.1.withRoom r.2.1.samples.values 2 ∧ wide.charged true {} data = 0 ∧
      Failure.resultClass ((blank.withRoom [] 1).decode true {} data).1 = .fatal := by
  intro blank key data r wide
  have hblank : blank.Blank := .catalogue (by decide +kernel)
  have hkind := hblank.ofKind_self
  have hnone : r.1 = none := by decide +kernel
  have hdecodes : Failure.resultClass r.1 ≠ .fatal := by simp [hnone, Failure.resultClass]
  have hwide : Failure.resultClass (wide.decode true {} data).1 ≠ .fatal := by decide +kernel
  obtain ⟨-, -, hinto⟩ := samples_fit_room hblank hkind rfl (Nat.le_refl 0) hdecodes
  obtain ⟨w, pairs, -, -, hroom⟩ := hinto rfl (by decide +kernel)
  obtain ⟨hfailure, hmessage⟩ := (hroom [] 2 (by decide)).2 hwide
  obtain ⟨-, hkept, -⟩ := samples_fit_room hblank (hkind.withRoom [] 2) rfl (Nat.zero_le 2) hwide
  exact ⟨hnone, by decide +kernel, hfailure.trans hnone, hmessage, (hkept (by decide)).2.2, by decide +kernel⟩

end Message

end SensorWire
