import Mathlib
import SensorWire.Display.Report
import SensorWire.Proofs.MessageRoundTrip

/-!
# What bytes are a message of

Bytes are identified by decoding them strictly as each message of the catalogue. A strict decode that ends well pins down the keys of the
map, in their order (`startsWithKeys_of_decode`), for a message that is a table and for the one with an array of samples alike. No two messages
of the catalogue have the same keys, so no two of them take the same bytes (`eq_of_decode`).

Main statement: `identification_is_exact`.
-/

namespace SensorWire

open Cbor Item Decoder

/-- Only one item stands in front of what is unread. -/
theorem Decoder.Faces.unique {d : Decoder} {i j : Item} {rest rest' : List UInt8} (h : Faces d i rest) (h' : Faces d j rest') : i = j :=
  (h.within.encode_append_inj h'.within (h.unread.symm.trans h'.unread)).1

/-! ## The keys of what was read -/

section Read

variable {d d' : Decoder} {f : Field} {fields : List Field} {s : Slot} {slots : List Slot} {p : Item × Item}
  {pairs : List (Item × Item)} {op key t : Text}

/-- A key that was taken is the one of the next pair. -/
theorem FacesPairs.spells_of_takeKey (h : FacesPairs d pairs) (hkey : Gives (takeKey op key) d t d') :
    ∃ p rest, pairs = p :: rest ∧ p.1.Spells t := by
  obtain ⟨i, rest, hi, hmore, hspells, -⟩ := hkey.of_takeKey
  cases pairs with
  | nil =>
    have hremaining : d.count = d.read + 0 := h.remaining
    omega
  | cons p pairs => exact ⟨p, pairs, rfl, h.first.key.unique hi ▸ hspells⟩

/-- A pair that a strict table takes fits its field, and the decoder goes on after it. -/
theorem FacesPairs.fits_of_strictPair (h : FacesPairs d (p :: pairs)) (hbound : f.isBound = true)
    (hpair : Gives (Table.strictPair f) d s d') : f.Fits p ∧ FacesPairs d' pairs := by
  have hfits : f.Fits p := by
    by_contra hnot
    obtain ⟨err, d₁, hrun, -⟩ := h.first.strictPair_stops hbound hnot
    cases hrun.symm.trans hpair
  refine ⟨hfits, ?_⟩
  cases ho : f.overflows p.2 with
  | true =>
    obtain ⟨err, hrun, -⟩ := h.first.strictPair_refuses hfits ho
    cases hrun.symm.trans hpair
  | false =>
    obtain ⟨s', x, -, hrun⟩ := h.first.strictPair_filled hfits ho
    cases hrun.symm.trans hpair
    exact h.rest x

/-- What was read for the fields of a strict table are the first pairs, one for each field. -/
theorem Table.Reads.fits (h : Table.Reads fields d slots d') (hbound : ∀ f ∈ fields, f.isBound = true) (hfaces : FacesPairs d pairs) :
    ∃ front after, pairs = front ++ after ∧ List.Forall₂ Field.Fits fields front ∧ FacesPairs d' after := by
  induction h generalizing pairs with
  | nil d => exact ⟨[], pairs, rfl, .nil, hfaces⟩
  | @cons f fields s slots d d₁ d' hpair _ ih =>
    rw [List.forall_mem_cons] at hbound
    obtain ⟨d₀, hkey, -⟩ := of_strictPair hpair
    obtain ⟨p, pairs, rfl, -⟩ := hfaces.spells_of_takeKey hkey
    obtain ⟨hfits, hrest⟩ := hfaces.fits_of_strictPair hbound.1 hpair
    obtain ⟨front, after, rfl, hfront, hafter⟩ := ih hbound.2 hrest
    exact ⟨p :: front, after, rfl, .cons hfits hfront, hafter⟩

/-- Pairs with keys, in order. -/
def SpelledBy (keys : List Text) (pairs : List (Item × Item)) : Prop := List.Forall₂ (fun key p => p.1.Spells key) keys pairs

theorem SpelledBy.of_fits (h : List.Forall₂ Field.Fits fields pairs) : SpelledBy (fields.map Field.key) pairs :=
  List.forall₂_map_left_iff.2 (h.imp fun _ _ hfits => hfits.key.2)

/-- Pairs have only one list of keys. -/
theorem SpelledBy.unique {keys keys' : List Text} (h : SpelledBy keys pairs) (h' : SpelledBy keys' pairs) : keys = keys' := by
  induction h generalizing keys' with
  | nil =>
    cases h'
    rfl
  | cons hkey _ ih =>
    cases h' with
    | cons hkey' hrest => rw [← hkey.content_eq, hkey'.content_eq, ih hrest]

end Read

namespace Message

variable {m m' blank : Message} {options : Options} {data : List UInt8}

/-- The bytes begin with a map that has the keys of a message, in order. -/
def StartsWithKeys (m : Message) (data : List UInt8) : Prop :=
  ∃ w pairs rest, data = (Item.map w pairs).encode ++ rest ∧ (Item.map w pairs).Within {} 0 false ∧ SpelledBy m.keys pairs

/-- Inside a map that was entered without a limit on allocation, the decoder faces the pairs of the map. -/
theorem facesPairs_of_enter {d : Decoder} {expected : Option Int} (halloc : options.allocLimit ≤ 0)
    (h : enter options expected data = (.ok (), d)) :
    ∃ w pairs rest, data = (Item.map w pairs).encode ++ rest ∧ (Item.map w pairs).Within {} 0 false ∧ FacesPairs d pairs := by
  obtain ⟨w, pairs, rest, rfl, hin, rfl⟩ := eq_inside_of_enter h
  exact ⟨w, pairs, rest, rfl, hin, Table.facesPairs_inside halloc (PairsWithin.shallower (Nat.zero_le 1) hin.2.2.2.2) _⟩

/-- The decoder that has read all pairs faces none. -/
theorem eq_nil_of_leave {d d' : Decoder} {pairs : List (Item × Item)} {u : Unit} (h : FacesPairs d pairs) (hleave : Gives leave d u d') :
    pairs = [] := by
  have hremaining := h.remaining
  have hall := hleave.of_leave
  exact List.eq_nil_of_length_eq_zero (by omega)

/-- A table that was decoded strictly has the keys of the map. -/
theorem startsWithKeys_of_table (halloc : options.allocLimit ≤ 0) (hshape : Shape m.table.fields) (hsamples : ¬m.hasSamples = true)
    (h : ({ m.table with strict := true }.decode options data).1 = none) : m.StartsWithKeys data := by
  obtain ⟨d, w, d₁, d', henter, hwalk, herr, hnone, hleave⟩ := Table.walk_of_decode h
  obtain ⟨slots, hreads, -⟩ := Table.reads_of_walk rfl hwalk herr hnone
  obtain ⟨w, pairs, rest, hdata, hin, hfaces⟩ := facesPairs_of_enter halloc henter
  obtain ⟨front, after, rfl, hfits, hafter⟩ := hreads.fits hshape.bound hfaces
  obtain rfl := eq_nil_of_leave hafter hleave
  rw [List.append_nil] at hdata hin
  refine ⟨w, front, rest, hdata, hin, ?_⟩
  rw [keys, if_neg hsamples, List.append_nil]
  exact .of_fits hfits

/-- A message with samples that was decoded strictly has the keys of the map. -/
theorem startsWithKeys_of_samples (halloc : options.allocLimit ≤ 0) (hshape : Shape m.table.fields) (hstrict : m.table.strict = true)
    (hsamples : m.hasSamples = true) (h : (m.decodeSamples false options data).1 = none) : m.StartsWithKeys data := by
  obtain ⟨d, m', d₁, d', henter, hpairs, hleave, -⟩ := takePairs_of_decodeSamples h
  obtain ⟨s, horder⟩ := takeInOrder_of_takePairs hpairs
  obtain ⟨slots, n, d₂, d₃, d₄, hreads, hkey, -, -⟩ := reads_of_takeInOrder (s := ⟨m, false⟩) hstrict horder
  obtain ⟨w, pairs, rest, hdata, hin, hfaces⟩ := facesPairs_of_enter halloc henter
  obtain ⟨front, after, rfl, hfits, hafter⟩ := hreads.fits hshape.bound hfaces
  obtain ⟨p, after, rfl, hspells⟩ := hafter.spells_of_takeKey hkey
  -- one pair more than there are fields was read, and these were all
  obtain rfl : after = [] := by
    obtain ⟨hread, hcount⟩ := read_of_takeInOrder (s := ⟨m, false⟩) hstrict (wholeItems_of_enter henter) horder
    have hremaining := hfaces.remaining
    have hall := hleave.of_leave
    have hlength : m.table.fields.length = front.length := hfits.length_eq
    dsimp only at hread
    rw [List.length_append, List.length_cons] at hremaining
    exact List.eq_nil_of_length_eq_zero (by omega)
  refine ⟨w, front ++ [p], rest, hdata, hin, ?_⟩
  rw [keys, if_pos hsamples]
  exact List.rel_append (SpelledBy.of_fits hfits) (.cons hspells .nil)

/-- Bytes that a message takes in strict decoding begin with a map that has its keys, in order. -/
theorem startsWithKeys_of_decode (hblank : blank.Blank) (hm : m.OfKind blank) (halloc : options.allocLimit ≤ 0)
    (h : (m.decode false options data).1 = none) : m.StartsWithKeys data := by
  have hread : (m.readMap false (m.labelled options) data).1 = none := eq_none_of_checkPayload h
  have hshape := hm.shape hblank
  have halloc' : (m.labelled options).allocLimit ≤ 0 := halloc
  by_cases hsamples : m.hasSamples = true
  · rw [readMap, if_pos hsamples] at hread
    exact startsWithKeys_of_samples halloc' hshape (hm.samples hblank (hasSamples_iff_rule.1 hsamples)).1 hsamples hread
  · rw [readMap, if_neg hsamples] at hread
    exact startsWithKeys_of_table halloc' hshape hsamples hread

/-- The same bytes do not begin with two lists of keys. -/
theorem StartsWithKeys.unique (h : m.StartsWithKeys data) (h' : m'.StartsWithKeys data) : m.keys = m'.keys := by
  obtain ⟨w, pairs, rest, rfl, hin, hkeys⟩ := h
  obtain ⟨w', pairs', rest', hdata, hin', hkeys'⟩ := h'
  obtain ⟨hmap, -⟩ := hin.encode_append_inj hin' hdata
  cases hmap
  exact hkeys.unique hkeys'

end Message

/-! ## The catalogue -/

theorem Catalog.nodup_keys : (Catalog.all.map Message.keys).Nodup := by decide +kernel

/-- No two messages of the catalogue take the same bytes. -/
theorem Catalog.eq_of_decode {m m' : Message} {options : Options} {data : List UInt8} (halloc : options.allocLimit ≤ 0)
    (hm : m ∈ Catalog.all) (hm' : m' ∈ Catalog.all) (h : (m.decode false options data).1 = none)
    (h' : (m'.decode false options data).1 = none) : m = m' := by
  have hkeys := Message.startsWithKeys_of_decode (.catalogue hm) (Message.Blank.catalogue hm).ofKind_self halloc h
  have hkeys' := Message.startsWithKeys_of_decode (.catalogue hm') (Message.Blank.catalogue hm').ofKind_self halloc h'
  exact List.inj_on_of_nodup_map nodup_keys hm hm' (hkeys.unique hkeys')

namespace Report

variable {m blank : Message} {data : List UInt8}

/-- The messages of the catalogue as which bytes decode strictly. -/
def takers (data : List UInt8) : List Message := Catalog.all.filter fun m => (m.decode false {} data).1.isNone

theorem mem_takers : m ∈ takers data ↔ m ∈ Catalog.all ∧ (m.decode false {} data).1 = none := by
  rw [takers, List.mem_filter, Option.isNone_iff_eq_none]

theorem takers_unique (hm : m ∈ takers data) (hblank : blank ∈ takers data) : m = blank :=
  Catalog.eq_of_decode (by decide) (mem_takers.1 hm).1 (mem_takers.1 hblank).1 (mem_takers.1 hm).2 (mem_takers.1 hblank).2

theorem nodup_takers (data : List UInt8) : (takers data).Nodup := (List.Nodup.of_map _ Catalog.nodup_keys).filter _

theorem takers_cases (data : List UInt8) : takers data = [] ∨ ∃ m, takers data = [m] := by
  have hnodup := nodup_takers data
  cases htakers : takers data with
  | nil => exact Or.inl rfl
  | cons m rest =>
    cases rest with
    | nil => exact Or.inr ⟨m, rfl⟩
    | cons m' rest =>
      have hm : m ∈ takers data := by simp [htakers]
      have hm' : m' ∈ takers data := by simp [htakers]
      have hsame : m = m' := takers_unique hm hm'
      rw [htakers, hsame] at hnodup
      exact absurd (List.mem_cons_self ..) (List.nodup_cons.1 hnodup).1

theorem identify_eq_map (data : List UInt8) : identify data = (takers data).map Message.name := rfl

/-- Bytes that a message of the catalogue takes are identified as that message. -/
theorem identify_of_decode (hblank : blank ∈ Catalog.all) (h : (blank.decode false {} data).1 = none) : identify data = [blank.name] := by
  have hmem : blank ∈ takers data := mem_takers.2 ⟨hblank, h⟩
  rcases takers_cases data with hnone | ⟨m, hone⟩
  · rw [hnone] at hmem
    cases hmem
  · rw [hone, List.mem_singleton] at hmem
    rw [identify_eq_map, hone, hmem]
    rfl

theorem nameFor_ne_ambiguous (name : Text) (data : List UInt8) (names : List Text) : nameFor name data ≠ .error (.ambiguous names) := by
  unfold nameFor
  split
  · exact nofun
  · rcases takers_cases data with hnone | ⟨m, hone⟩
    · rw [identify_eq_map, hnone]
      exact nofun
    · rw [identify_eq_map, hone]
      exact nofun

/-- Decoding puts the name of the message around its failures. -/
theorem decode_ne_ambiguous (lenient : Bool) (options : Options) (data : List UInt8) (m : Message) (names : List Text) :
    (m.decode lenient options data).1 ≠ some (.ambiguous names) := by
  rw [Message.decode_eq_checkPayload]
  unfold Message.checkPayload
  dsimp only
  split
  · exact nofun
  · split
    · exact nofun
    · cases (m.readMap lenient (m.labelled options) data).1 <;> exact nofun

theorem make_ne_ambiguous (f : Formatter) (options : Options) (name : Text) (data : List UInt8) (lenient : Bool) (names : List Text) :
    (make f options name data lenient).1 ≠ .error (.ambiguous names) := by
  unfold make
  split
  · rename_i failure hname
    rintro ⟨⟩
    exact nameFor_ne_ambiguous name data names hname
  · split
    · exact nofun
    · rename_i m _
      dsimp only
      split
      · rename_i x hx
        rintro ⟨⟩
        exact decode_ne_ambiguous lenient options data m names (Option.filter_eq_some_iff.1 hx).1
      · exact nofun

/-- A report on bytes that one message takes, without a name being given. -/
theorem make_of_identify {options : Options} (hblank : Catalog.find? blank.name = some blank) (hname : identify data = [blank.name])
    (h : (blank.decode false options data).1 = none) (f : Formatter) :
    ∃ r, (make f options "" data false).1 = .ok r ∧ r.decoded = (blank.decode false options data).2.1 ∧ r.size = data.length ∧
      r.warning = none := by
  have hfor : nameFor "" data = .ok blank.name := by
    rw [nameFor, hname]
    rfl
  have hresolve : Catalog.resolve? blank.name = some blank := by
    rw [Catalog.resolve?, hblank]
    rfl
  simp only [make, hfor, hresolve, h, Option.filter_none]
  exact ⟨_, rfl, rfl, rfl, rfl⟩

/-- Bytes are identified as one message of the catalogue at most, so that no report fails for having several to choose from. What
marshalling a message of the catalogue gives is identified as that message, and the report on it holds the normal form of the message,
without a warning. -/
theorem identification_is_exact :
    (∀ data, (identify data).length ≤ 1 ∧
      ∀ f options lenient names, (make f options "" data lenient).1 ≠ .error (.ambiguous names)) ∧
    ∀ (labels : Labels) (m blank : Message) (bytes : List UInt8), Catalog.find? m.name = some blank → m.OfKind blank →
      (m.marshal labels).1 = .ok bytes → m.Readable →
      identify bytes = [m.name] ∧
      ∀ f (options : Options), options.allocLimit ≤ 0 →
        ∃ r, (make f options "" bytes false).1 = .ok r ∧ r.decoded.name = m.name ∧ r.decoded = m.normal ∧ r.size = bytes.length ∧
          r.warning = none := by
  refine ⟨fun data => ⟨?_, fun f options lenient names => make_ne_ambiguous f options "" data lenient names⟩, ?_⟩
  · rw [identify_eq_map, List.length_map]
    rcases takers_cases data with hnone | ⟨m, hone⟩
    · rw [hnone]
      exact Nat.zero_le 1
    · rw [hone]
      exact Nat.le_refl 1
  · intro labels m blank bytes hblank hm hbytes hread
    have hb : blank ∈ Catalog.all := List.mem_of_find?_eq_some hblank
    have hsends : m.Sends := (Message.marshal_ok_iff_sends labels).1 ⟨bytes, hbytes⟩
    obtain rfl : m.item.encode = bytes := Except.ok.inj ((Message.marshal_of_sends hsends labels).symm.trans hbytes)
    have hname : identify m.item.encode = [blank.name] :=
      identify_of_decode hb (hm.decode_item hb (by decide) hsends hread).1
    rw [hm.name] at hblank ⊢
    refine ⟨hname, fun f options halloc => ?_⟩
    obtain ⟨hnone, hnormal⟩ := hm.decode_item hb halloc hsends hread
    obtain ⟨r, hr, hdecoded, hsize, hwarning⟩ := make_of_identify hblank hname hnone f
    exact ⟨r, hr, by rw [hdecoded, hnormal]; exact hm.name, hdecoded.trans hnormal, hsize, hwarning⟩

/-- The bytes of a message with one sample are identified. -/
theorem signal_is_identified :
    let blank := Catalog.sensor "RbrPressureDifferenceSignal"
      (Catalog.words ["sequence_num", "total_samples", "num_samples"] ++ Catalog.doubles ["residual_0", "residual_1"]) .samples
    let m : Message := { blank with
      table := blank.table.store Message.sampleCountKey (.uint32 1), samples := ⟨[0x3ff0000000000000], 1⟩ }
    ∃ bytes, (m.marshal {}).1 = .ok bytes ∧ identify bytes = ["RbrPressureDifferenceSignal"] ∧
      ∃ r, (make {} {} "" bytes false).1 = .ok r ∧ r.decoded.samples = ⟨[0x3ff0000000000000], 1⟩ ∧ r.warning = none := by
  intro blank m
  have hblank : Catalog.find? m.name = some blank := by decide +kernel
  have hlike : ∀ p ∈ blank.table.fields.zip m.table.fields,
      p.2.key = p.1.key ∧ p.2.type = p.1.type ∧ p.2.checked = p.1.checked ∧ p.2.isBound = true := by decide +kernel
  have hm : m.OfKind blank := by
    refine ⟨rfl, rfl, rfl, List.forall₂_iff_zip.2 ⟨by decide +kernel, fun hmem => ?_⟩⟩
    obtain ⟨hkey, htype, hchecked, hbound⟩ := hlike _ hmem
    exact ⟨hkey, htype, hchecked, hbound⟩
  have hnumbers : ∀ f ∈ m.table.fields, f.type ≠ .string ∧ f.type ≠ .bytes := by decide +kernel
  have hread : m.Readable :=
    ⟨fun f hf _ hv => absurd (Field.type_of_slot? hv) (hnumbers f hf).1, fun f hf _ hv => absurd (Field.type_of_slot? hv) (hnumbers f hf).2,
      fun _ => by decide +kernel⟩
  obtain ⟨bytes, hbytes⟩ : ∃ bytes, (m.marshal {}).1 = .ok bytes :=
    (Message.marshal_ok_iff_sends {}).2 ((hm.sends_iff_of_signal (List.mem_of_find?_eq_some hblank) rfl).2 (by decide +kernel))
  obtain ⟨hname, hmake⟩ := identification_is_exact.2 {} m blank bytes hblank hm hbytes hread
  obtain ⟨r, hr, -, hnormal, -, hwarning⟩ := hmake {} {} (by decide)
  refine ⟨bytes, hbytes, hname, r, hr, ?_, hwarning⟩
  rw [hnormal]
  decide +kernel

end Report

end SensorWire
