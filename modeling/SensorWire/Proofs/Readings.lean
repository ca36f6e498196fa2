import Mathlib
import SensorWire.Proofs.Allocation
import SensorWire.Proofs.Forgetting
import SensorWire.Proofs.MessageRoundTrip

/-!
# What a lenient decode makes of a map

A lenient decode takes the pairs of a map as they come. What it makes of a pair (`Message.reading?`) is a verdict of its table, or samples. It is
told by the pair, the kind of the message and the room for samples, and not by the pairs before it. A decode comes to the end of the map exactly
if every pair has a reading and the budget affords them, and if there are as many samples as the message then says (`Message.Finishes`). What
it leaves is then the message with the readings applied in turn (`Message.after`), and what it reports are the keys that the readings list
(`Message.reported`).

Main statements: `readMap_of_finishes` and `map_of_readMap`.
-/

namespace SensorWire

open Cbor Item Decoder

/-! ## The budget -/

namespace Decoder

/-- The budget affords costs one after the other. -/
def AffordsAll (limit : Int64) : Int64 → List Nat → Prop
  | _, [] => True
  | allocated, cost :: costs => Affords limit allocated cost ∧ AffordsAll limit (allocated + Int64.ofNat cost) costs

/-- The budget is not overdrawn. -/
def Solvent (limit allocated : Int64) : Prop := ¬(0 < limit ∧ limit < allocated)

section Budget

variable {limit allocated : Int64}

theorem Solvent.spend {cost : Nat} (h : Solvent limit allocated) (haffords : Affords limit allocated cost) :
    Solvent limit (allocated + Int64.ofNat cost) := by
  rcases haffords with rfl | hroom
  · rwa [show allocated + Int64.ofNat 0 = allocated from Int64.add_zero _]
  · exact hroom

/-- A budget that is not overdrawn affords what it can be charged. -/
theorem Solvent.charge {d : Decoder} {cost : Nat} (h : Solvent d.options.allocLimit d.allocated)
    (haffords : Affords d.options.allocLimit d.allocated cost) (op key : Text) :
    Gives (charge op key (Int64.ofNat cost)) d () { d with allocated := d.allocated + Int64.ofNat cost } := by
  refine (gives_get d).bind ?_
  have hroom : ¬(0 < d.options.allocLimit ∧ d.options.allocLimit < d.allocated + Int64.ofNat cost) := h.spend haffords
  simp only [hroom, if_false]
  rfl

theorem affordsAll_of_no_limit (h : ¬0 < limit) (allocated : Int64) (costs : List Nat) : AffordsAll limit allocated costs := by
  induction costs generalizing allocated with
  | nil => trivial
  | cons cost costs ih => exact ⟨Or.inr fun hroom => h hroom.1, ih _⟩

/-- Below 2^63 the sum of the costs decides, whatever their order. -/
theorem affordsAll_iff {a : Nat} {costs : List Nat} (hstart : 0 < limit → (a : Int) ≤ limit.toInt) (hbound : a + costs.sum < 2 ^ 63) :
    AffordsAll limit (Int64.ofNat a) costs ↔ (0 < limit → ((a + costs.sum : Nat) : Int) ≤ limit.toInt) := by
  by_cases hpos : 0 < limit
  · rw [forall_prop_of_true hpos]
    induction costs generalizing a with
    | nil => exact iff_of_true trivial (by simpa using hstart hpos)
    | cons cost costs ih =>
      have hle := hstart hpos
      rw [List.sum_cons] at hbound ⊢
      rw [AffordsAll, Table.affords_iff hpos (by omega), ← Int64.ofNat_add]
      constructor
      · rintro ⟨hcost, hrest⟩
        have := (ih (a := a + cost) (fun _ => by omega) (by omega)).1 hrest
        omega
      · intro htotal
        exact ⟨Or.inr (by omega), (ih (a := a + cost) (fun _ => by omega) (by omega)).2 (by omega)⟩
  · exact iff_of_true (affordsAll_of_no_limit hpos _ _) fun h => absurd h hpos

end Budget

end Decoder

/-! ## Arrays of samples -/

namespace Cbor.Item

/-- The numbers of an array, if all its elements are double-precision numbers. -/
def doublesOf? : List Item → Option (List UInt64)
  | [] => some []
  | .double bits :: items => (doublesOf? items).map (bits :: ·)
  | _ :: _ => none

/-- The samples that an item holds. -/
def samples? : Item → Option (List UInt64)
  | .array _ items => doublesOf? items
  | _ => none

theorem doublesOf?_map_double (values : List UInt64) : doublesOf? (values.map .double) = some values := by
  induction values with
  | nil => rfl
  | cons bits values ih => rw [List.map_cons, doublesOf?, ih, Option.map_some]

theorem eq_map_of_doublesOf? {items : List Item} {values : List UInt64} (h : doublesOf? items = some values) :
    items = values.map .double := by
  induction items generalizing values with
  | nil =>
    cases h
    rfl
  | cons i items ih =>
    cases i with
    | double bits =>
      obtain ⟨rest, hrest, rfl⟩ := Option.map_eq_some_iff.1 h
      rw [ih hrest, List.map_cons]
    | _ => cases h

theorem samples?_eq_some_iff {i : Item} {values : List UInt64} : i.samples? = some values ↔ ∃ w, i = .array w (values.map .double) := by
  constructor
  · intro h
    cases i with
    | array w items => exact ⟨w, by rw [eq_map_of_doublesOf? h]⟩
    | _ => cases h
  · rintro ⟨w, rfl⟩
    exact doublesOf?_map_double values

end Cbor.Item

namespace Message

/-- The bytes that an array of samples is charged: with room set aside, none. -/
def samplesCost (room n : Nat) : Nat := if room = 0 then 8 * n else 0

section Signal

variable {room : Nat} {d d' : Decoder} {rest : List UInt8}

/-- Items that are read as samples are double-precision numbers. -/
theorem eq_map_of_takeSamples {items : List Item} {values : List UInt64} (hin : ∀ i ∈ items, i.Within {} 0 false)
    (hunread : d.unread = items.flatMap Item.encode ++ rest) (h : takeSamples items.length d = (values, none, d')) :
    items = values.map .double := by
  induction items generalizing d values with
  | nil =>
    cases h
    rfl
  | cons i items ih =>
    rw [List.forall_mem_cons] at hin
    rw [List.flatMap_cons, List.append_assoc] at hunread
    have hfaces : Faces d i (items.flatMap Item.encode ++ rest) := ⟨hunread, hin.1⟩
    rw [List.length_cons, takeSamples] at h
    by_cases hdouble : ∃ bits, i = .double bits
    · obtain ⟨bits, rfl⟩ := hdouble
      rw [hfaces.takeFloat64 "NextFloat64" ""] at h
      rcases hmore : takeSamples items.length { d with unread := items.flatMap Item.encode ++ rest } with ⟨values', err, d₂⟩
      simp only [hmore] at h
      cases h
      rw [ih (d := { d with unread := items.flatMap Item.encode ++ rest }) hin.2 rfl hmore, List.map_cons]
    · obtain ⟨err, d₁, hrun, -⟩ := hfaces.takeFloat64_fails (fun bits hi => hdouble ⟨bits, hi⟩) "NextFloat64" ""
      rw [hrun] at h
      cases h

/-- An array for which there is room, and that the budget affords, is read. -/
theorem takeSignal_afforded {values : List UInt64} (hunread : d.unread = (values.map Item.double).flatMap Item.encode ++ rest)
    (hroom : room = 0 ∨ values.length ≤ room) (hsolvent : Solvent d.options.allocLimit d.allocated)
    (haffords : Affords d.options.allocLimit d.allocated (samplesCost room values.length)) (s : Sampling) :
    ∃ flag, takeSignal room values.length s d =
      (none, ⟨{ s.message with samples := ⟨values, if room = 0 then values.length else room⟩ }, flag⟩,
        { d with unread := rest, allocated := d.allocated + Int64.ofNat (samplesCost room values.length) }) := by
  rcases Nat.eq_zero_or_pos room with rfl | hpos
  · have hcharge := hsolvent.charge haffords "Charge" samplesKey
    rw [samplesCost, if_pos rfl] at hcharge ⊢
    have htake := takeSamples_doubles values (d := { d with allocated := d.allocated + Int64.ofNat (8 * values.length) }) hunread
    simp only [takeSignal, Nat.lt_irrefl, false_and, if_false]
    rw [hcharge]
    simp only [htake]
    exact ⟨true, rfl⟩
  · have hne : room ≠ 0 := Nat.ne_of_gt hpos
    have hfits : ¬(0 < room ∧ room < values.length) := by omega
    have htake := takeSamples_doubles values hunread
    have hfree : d.allocated + Int64.ofNat 0 = d.allocated := Int64.add_zero _
    unfold takeSignal
    dsimp only
    rw [if_neg hfits, if_pos hpos, htake, samplesCost, if_neg hne, if_neg hne, hfree]
    exact ⟨s.allocated, rfl⟩

/-- An array that is read holds samples for which there is room and that the budget affords. -/
theorem of_takeSignal {items : List Item} {s : Sampling} (hin : ∀ i ∈ items, i.Within {} 0 false)
    (hunread : d.unread = items.flatMap Item.encode ++ rest) (h : (takeSignal room items.length s d).1 = none) :
    ∃ values : List UInt64, items = values.map .double ∧ (room = 0 ∨ values.length ≤ room) ∧
      Affords d.options.allocLimit d.allocated (samplesCost room values.length) := by
  unfold takeSignal at h
  dsimp only at h
  split_ifs at h with hcrowded hpos
  · have hne : room ≠ 0 := Nat.ne_of_gt hpos
    rcases htake : takeSamples items.length d with ⟨new, _ | err, d₁⟩
    · obtain rfl := eq_map_of_takeSamples hin hunread htake
      rw [List.length_map] at hcrowded
      refine ⟨new, rfl, by omega, ?_⟩
      rw [samplesCost, if_neg hne]
      exact affords_zero _ _
    · rw [htake] at h
      cases h
  · obtain rfl : room = 0 := Nat.eq_zero_of_not_pos hpos
    by_cases haffords : Affords d.options.allocLimit d.allocated (8 * items.length)
    · rcases hcharge : (charge "Charge" samplesKey (Int64.ofNat (8 * items.length))).run.run d with ⟨err | _, d₁⟩
      · rw [hcharge] at h
        cases h
      · obtain rfl := Gives.of_charge hcharge
        rw [hcharge] at h
        dsimp only at h
        rcases htake : takeSamples items.length { d with allocated := d.allocated + Int64.ofNat (8 * items.length) } with ⟨new, _ | err, d₁⟩
        · obtain rfl := eq_map_of_takeSamples (d := { d with allocated := d.allocated + Int64.ofNat (8 * items.length) }) hin hunread htake
          rw [List.length_map] at haffords
          exact ⟨new, rfl, Or.inl rfl, haffords⟩
        · rw [htake] at h
          cases h
    · obtain ⟨err, d₁, hrun, -⟩ := charge_unaffordable haffords "Charge" samplesKey
      rw [hrun] at h
      cases h

end Signal

end Message

/-! ## Readings -/

namespace Verdict

/-- The fields after a pair. -/
def apply (fields : List Field) : Verdict → List Field
  | stored place s => fields.modify place (·.store s)
  | _ => fields

/-- The key of a pair whose number was refused. -/
def refused? : Verdict → Option Text
  | refused key => some key
  | _ => none

/-- The name of a pair that was skipped. -/
def skipped? : Verdict → Option Text
  | skipped name => some name
  | _ => none

end Verdict

/-- What a lenient decode makes of a pair. -/
inductive Reading where
  | field (v : Verdict)
  | samples (values : List UInt64)
  deriving DecidableEq, Repr

namespace Reading

/-- The bytes that a pair takes from the budget. -/
def cost (room : Nat) : Reading → Nat
  | field v => v.cost
  | samples values => Message.samplesCost room values.length

/-- The message after a pair. -/
def apply (room : Nat) (m : Message) : Reading → Message
  | field v => { m with table := { m.table with fields := v.apply m.table.fields } }
  | samples values => { m with samples := ⟨values, if room = 0 then values.length else room⟩ }

/-- The key of a pair whose number was refused. -/
def refused? : Reading → Option Text
  | field v => v.refused?
  | samples _ => none

/-- The name of a pair that was skipped. -/
def skipped? : Reading → Option Text
  | field v => v.skipped?
  | samples _ => none

end Reading

namespace Table

/-- The fields of a walk after one more pair. -/
theorem map_field_note (w : Walk) (v : Verdict) : (w.note v).entries.map Entry.field = v.apply (w.entries.map Entry.field) := by
  cases v with
  | stored place s =>
    refine List.ext_getElem? fun k => ?_
    simp only [Walk.note, Verdict.apply, List.getElem?_map, List.getElem?_modify]
    cases w.entries[k]? with
    | none => rfl
    | some e => by_cases hk : place = k <;> simp [hk, Entry.store]
  | _ => rfl

theorem map_field_start (t : Table) : t.start.entries.map Entry.field = t.fields := by
  rw [start, List.map_map]
  exact List.map_id _

end Table

/-- An item spells one text. -/
theorem Cbor.Item.Spells.unique {i : Item} {t t' : Text} (h : i.Spells t) (h' : i.Spells t') : t = t' :=
  Except.ok.inj ((spells_iff.1 h).2.symm.trans (spells_iff.1 h').2)

/-- An item that spells a short text is a key to look up. -/
theorem Cbor.Item.Spells.pairKey {i : Item} {t : Text} (h : i.Spells t) (ht : t.length ≤ maxKeyLength) : i.pairKey = .ok (.key t) := by
  cases hkey : i.pairKey with
  | error code => exact absurd h ((pairKey_eq_error hkey).2.1 t)
  | ok key =>
    cases key with
    | skipped name => exact absurd (h.shortKey ht) (pairKey_eq_skipped hkey).2.1
    | key t' => rw [h.unique (pairKey_eq_key hkey).2]

/-- A field that is not checked refuses nothing. -/
theorem Field.verdict?_ne_refused {f : Field} (h : f.checked = false) (k : Nat) (i : Item) (key : Text) :
    f.verdict? k i ≠ some (.refused key) := by
  intro hv
  obtain ⟨s, -, hover⟩ := of_verdict?_refused hv
  simp [overflows, h] at hover

theorem Table.verdict?_tolerant {t : Table} (hstrict : t.strict = false) (n : Nat) (p : Item × Item) :
    t.verdict? n p = match p.1.pairKey with
      | .error _ => none
      | .ok (.skipped name) => some (.skipped name)
      | .ok (.key key) => match t.fields[t.place key]? with
        | none => some (.skipped key)
        | some f => f.verdict? (t.place key) p.2 := by
  rw [verdict?, hstrict]
  exact if_neg Bool.false_ne_true

/-- What a table that is not strict makes of a pair, by its key. -/
theorem Table.verdict?_cases {t : Table} {n : Nat} {p : Item × Item} {v : Verdict} (hstrict : t.strict = false)
    (h : t.verdict? n p = some v) :
    (∃ name, p.1.pairKey = .ok (.skipped name) ∧ v = .skipped name) ∨
      (∃ key, p.1.pairKey = .ok (.key key) ∧ t.fields[t.place key]? = none ∧ v = .skipped key) ∨
      ∃ key f, p.1.pairKey = .ok (.key key) ∧ t.fields[t.place key]? = some f ∧ f.verdict? (t.place key) p.2 = some v := by
  rw [verdict?_tolerant hstrict] at h
  split at h
  · cases h
  · rename_i name hkey
    exact Or.inl ⟨name, hkey, (Option.some.inj h).symm⟩
  · rename_i key hkey
    split at h
    · rename_i hf
      exact Or.inr (Or.inl ⟨key, hkey, hf, (Option.some.inj h).symm⟩)
    · rename_i f hf
      exact Or.inr (Or.inr ⟨key, f, hkey, hf, h⟩)

theorem Table.updateFirst_eq_modify (key : Text) (g : Field → Field) (fields : List Field) :
    updateFirst key g fields = fields.modify (fields.findIdx fun f => f.key == key) g := by
  induction fields with
  | nil => rfl
  | cons f fields ih =>
    rw [updateFirst, List.findIdx_cons]
    cases f.key == key with
    | true => rfl
    | false =>
      rw [ih]
      rfl

namespace Message

/-- The table of a message as a lenient decode reads it. -/
def lenientTable (m : Message) : Table := { m.table with strict := false }

/-- What a lenient decode into a message makes of a pair, if it does not end there. -/
def reading? (m : Message) (p : Item × Item) : Option Reading :=
  if m.hasSamples = true ∧ p.1.Spells samplesKey then
    (p.2.samples?.filter fun values => m.samples.capacity = 0 ∨ values.length ≤ m.samples.capacity).map .samples
  else (m.lenientTable.verdict? 0 p).map .field

theorem length_samplesKey : samplesKey.length ≤ maxKeyLength := by decide +kernel

section Pair

variable {m : Message} {s : Sampling} {d d' : Decoder} {p : Item × Item} {rest : List UInt8} {r : Reading}

theorem reading?_samples (hsamples : m.hasSamples = true) (hkey : p.1.Spells samplesKey) :
    m.reading? p = some r ↔ ∃ values, r = .samples values ∧ p.2.samples? = some values ∧
      (m.samples.capacity = 0 ∨ values.length ≤ m.samples.capacity) := by
  rw [reading?, if_pos ⟨hsamples, hkey⟩, Option.map_eq_some_iff]
  simp only [Option.filter_eq_some_iff, decide_eq_true_eq]
  constructor
  · rintro ⟨values, ⟨hvalues, hroom⟩, rfl⟩
    exact ⟨values, rfl, hvalues, hroom⟩
  · rintro ⟨values, rfl, hvalues, hroom⟩
    exact ⟨values, ⟨hvalues, hroom⟩, rfl⟩

theorem reading?_field (h : ¬(m.hasSamples = true ∧ p.1.Spells samplesKey)) :
    m.reading? p = some r ↔ ∃ v, r = .field v ∧ m.lenientTable.verdict? 0 p = some v := by
  rw [reading?, if_neg h, Option.map_eq_some_iff]
  constructor
  · rintro ⟨v, hv, rfl⟩
    exact ⟨v, rfl, hv⟩
  · rintro ⟨v, rfl, hv⟩
    exact ⟨v, hv, rfl⟩

/-- A key of another text is not that of the samples. -/
theorem not_spells_of_pairKey {k : PairKey} (h : p.1.pairKey = .ok k) (hk : k ≠ .key samplesKey) :
    ¬(m.hasSamples = true ∧ p.1.Spells samplesKey) := by
  rintro ⟨-, hspells⟩
  rw [hspells.pairKey length_samplesKey] at h
  exact hk (Except.ok.inj h).symm

section Field

variable {f g : Field} {slot : Slot} {k : Nat} {i : Item} {op : Text}

/-- A value that a field which is not checked takes, told by the verdict of a field of the same shape. -/
theorem takeValue_of_verdict (hi : Faces d i rest) (hshape : g.shape = f.shape) (hv : f.verdict? k i = some (.stored k slot))
    (haffords : Affords d.options.allocLimit d.allocated slot.cost) (op : Text) :
    Gives (takeValue op g) d slot { d with unread := rest, allocated := d.allocated + Int64.ofNat slot.cost } := by
  rw [← Field.verdict?_congr hshape] at hv
  obtain ⟨s, hslot, hs, ho, -, rfl⟩ := Field.of_verdict?_stored hv
  exact hi.takeValue_afforded hslot hs ho haffords op

theorem verdict_of_takeValue (hi : Faces d i rest) (hshape : g.shape = f.shape) (hchecked : g.checked = false) {slot : Slot}
    (h : Gives (takeValue op g) d slot d') (k : Nat) :
    ∃ slot, f.verdict? k i = some (.stored k slot) ∧ Affords d.options.allocLimit d.allocated slot.cost := by
  rw [← Field.verdict?_congr hshape]
  rcases g.verdict?_eq_none_or k i with hv | hv | ⟨s, hv⟩
  · have hstops : Stops (takeValue op g) d := by
      rcases Field.of_verdict?_none hv with hslot | ⟨s, hslot, hs⟩
      · exact takeValue_unbound hslot op d
      · exact hi.takeValue_stops hslot hs op
    obtain ⟨err, d₁, hrun, -⟩ := hstops
    cases hrun.symm.trans h
  · exact absurd hv (g.verdict?_ne_refused hchecked k i g.key)
  · refine ⟨s, hv, ?_⟩
    by_contra haffords
    obtain ⟨s, hslot, hs, -, -, rfl⟩ := Field.of_verdict?_stored hv
    obtain ⟨err, d₁, hrun, -⟩ := hi.takeValue_unaffordable hslot hs haffords op
    cases hrun.symm.trans h

end Field

/-- Tables of the same shapes have their keys in the same places. -/
theorem place_of_shapes {t t' : Table} (h : t'.fields.map Field.shape = t.fields.map Field.shape) (key : Text) :
    t'.place key = t.place key := by
  have hkeys := congrArg (List.map Prod.fst) h
  rw [List.map_map, List.map_map] at hkeys
  have hplace : ∀ t : Table, t.place key = (t.fields.map (Prod.fst ∘ Field.shape)).findIdx (· == key) := by
    intro t
    rw [List.findIdx_map]
    rfl
  rw [hplace, hplace, hkeys]

/-- The field that a key leads to during a decode has the shape of the one that it led to before. -/
theorem lookup?_of_shapes {t t' : Table} (h : t'.fields.map Field.shape = t.fields.map Field.shape) (key : Text) :
    (∃ f g, t.fields[t.place key]? = some f ∧ t'.lookup? key = some g ∧ g.shape = f.shape) ∨
      t.fields[t.place key]? = none ∧ t'.lookup? key = none := by
  have hsame := congrArg (·[t.place key]?) h
  simp only [List.getElem?_map] at hsame
  rw [Table.lookup?_eq_getElem?, place_of_shapes h]
  cases hf : t.fields[t.place key]? with
  | none =>
    rw [hf, Option.map_none, Option.map_eq_none_iff] at hsame
    exact Or.inr ⟨rfl, hsame⟩
  | some f =>
    rw [hf, Option.map_some] at hsame
    obtain ⟨g, hg, hshape⟩ := Option.map_eq_some_iff.1 hsame
    exact Or.inl ⟨f, g, rfl, hg, hshape⟩

/-- Storing a value under a key is storing it in the place of the key. -/
theorem store_eq_modify {t t' : Table} (h : t'.fields.map Field.shape = t.fields.map Field.shape) (key : Text) (slot : Slot) :
    t'.store key slot = { t' with fields := t'.fields.modify (t.place key) (·.store slot) } := by
  rw [Table.store, Table.update, Table.updateFirst_eq_modify, ← place_of_shapes h]
  rfl

/-- A pair of samples that there is room for and that the budget affords. -/
theorem takeOne_samples {room : Nat} {values : List UInt64} (hp : AtPair d p rest) (hkey : p.1.Spells samplesKey)
    (hvalues : p.2.samples? = some values) (hroom : room = 0 ∨ values.length ≤ room)
    (hsolvent : Solvent d.options.allocLimit d.allocated) (haffords : Affords d.options.allocLimit d.allocated (samplesCost room values.length)) :
    ∃ flag, takeOne room s d =
      (none, none, ⟨(Reading.samples values).apply room s.message, flag⟩,
        d.onward none (d.allocated + Int64.ofNat (samplesCost room values.length)) rest) := by
  obtain ⟨w, hitem⟩ := samples?_eq_some_iff.1 hvalues
  have htake : Gives (takeTolerantKey "TolerantKey") d (.key samplesKey) (afterKey d p rest) :=
    hp.key.takeTolerantKey hp.more (hkey.shortKey length_samplesKey) hkey "TolerantKey"
  have hfaces : Faces (afterKey d p rest) (.array w (values.map .double)) rest := hitem ▸ hp.faces_value
  have harray := hfaces.takeArrayHead "ArrayValue" samplesKey
  rw [List.length_map] at harray
  obtain ⟨flag, hsignal⟩ := takeSignal_afforded
    (d := { afterKey d p rest with unread := (values.map Item.double).flatMap Item.encode ++ rest }) rfl hroom hsolvent haffords s
  refine ⟨flag, ?_⟩
  unfold takeOne
  rw [htake]
  simp only [if_true]
  rw [harray]
  simp only [hsignal]
  simp [Reading.apply, onward, afterKey]

/-- A pair with a verdict of the table that the budget affords. -/
theorem takeOne_field {room : Nat} {t : Table} {v : Verdict} (hshapes : s.message.table.fields.map Field.shape = t.fields.map Field.shape)
    (hchecked : ∀ f ∈ t.fields, f.checked = false) (hstrict : t.strict = false) (hp : AtPair d p rest) (hkey : ¬p.1.Spells samplesKey)
    (hv : t.verdict? 0 p = some v) (haffords : Affords d.options.allocLimit d.allocated v.cost) :
    takeOne room s d =
      (none, v.skipped?, ⟨(Reading.field v).apply room s.message, s.allocated⟩,
        d.onward v.skipped? (d.allocated + Int64.ofNat v.cost) rest) := by
  have hother : ∀ key, p.1.pairKey = .ok (.key key) → key ≠ samplesKey := by
    rintro key hpair rfl
    exact hkey (pairKey_eq_key hpair).2
  unfold takeOne
  rcases Table.verdict?_cases hstrict hv with ⟨name, hpair, rfl⟩ | ⟨key, hpair, hf, rfl⟩ | ⟨key, f, hpair, hf, hverdict⟩
  · obtain ⟨hmajor, hlong, rfl⟩ := pairKey_eq_skipped hpair
    rw [hp.gives_takeTolerantKey_long hmajor hlong "TolerantKey"]
    rfl
  · obtain ⟨hshort, ht⟩ := pairKey_eq_key hpair
    have htake : Gives (takeTolerantKey "TolerantKey") d (.key key) (afterKey d p rest) :=
      hp.key.takeTolerantKey hp.more hshort ht "TolerantKey"
    rw [htake]
    dsimp only
    rw [if_neg (hother key hpair)]
    rcases lookup?_of_shapes hshapes key with ⟨f, g, hf', -⟩ | ⟨-, hg⟩
    · cases hf.symm.trans hf'
    · rw [hg]
      dsimp only
      rw [hp.faces_value.gives_skipUnknown "SkipUnknown" key]
      simp [Reading.apply, Verdict.apply, Verdict.skipped?, Verdict.cost, onward, afterKey, skipEvent]
  · obtain ⟨hshort, ht⟩ := pairKey_eq_key hpair
    have htake : Gives (takeTolerantKey "TolerantKey") d (.key key) (afterKey d p rest) :=
      hp.key.takeTolerantKey hp.more hshort ht "TolerantKey"
    rw [htake]
    dsimp only
    rw [if_neg (hother key hpair)]
    rcases lookup?_of_shapes hshapes key with ⟨f', g, hf', hg, hshape⟩ | ⟨hf', -⟩
    · obtain rfl : f = f' := Option.some.inj (hf.symm.trans hf')
      have hunchecked := hchecked f (List.mem_of_getElem? hf)
      rcases f.verdict?_eq_none_or (t.place key) p.2 with hnone | hrefused | ⟨slot, hstored⟩
      · cases hnone.symm.trans hverdict
      · exact absurd hrefused (f.verdict?_ne_refused hunchecked _ _ _)
      · obtain rfl := Option.some.inj (hstored.symm.trans hverdict)
        have hvalue := takeValue_of_verdict (d := afterKey d p rest) hp.faces_value hshape hstored haffords "Value"
        rw [hg]
        dsimp only
        rw [hvalue]
        dsimp only
        rw [store_eq_modify hshapes]
        simp [Reading.apply, Verdict.apply, Verdict.skipped?, Verdict.cost, onward, afterKey]
    · cases hf.symm.trans hf'

/-- A pair with a reading that the budget affords is taken as the reading says. -/
theorem takeOne_of_reading (hsamples : m.hasSamples = true) (hchecked : ∀ f ∈ m.table.fields, f.checked = false)
    (hshapes : s.message.table.fields.map Field.shape = m.table.fields.map Field.shape) (hp : AtPair d p rest)
    (hsolvent : Solvent d.options.allocLimit d.allocated) (hr : m.reading? p = some r)
    (haffords : Affords d.options.allocLimit d.allocated (r.cost m.samples.capacity)) :
    ∃ flag, takeOne m.samples.capacity s d =
      (none, r.skipped?, ⟨r.apply m.samples.capacity s.message, flag⟩,
        d.onward r.skipped? (d.allocated + Int64.ofNat (r.cost m.samples.capacity)) rest) := by
  by_cases hkey : p.1.Spells samplesKey
  · obtain ⟨values, rfl, hvalues, hroom⟩ := (reading?_samples hsamples hkey).1 hr
    exact takeOne_samples hp hkey hvalues hroom hsolvent haffords
  · obtain ⟨v, rfl, hv⟩ := (reading?_field fun h => hkey h.2).1 hr
    exact ⟨_, takeOne_field (t := m.lenientTable) hshapes hchecked rfl hp hkey hv haffords⟩

/-- A pair that is taken has a reading that the budget affords. -/
theorem reading_of_takeOne (hsamples : m.hasSamples = true) (hchecked : ∀ f ∈ m.table.fields, f.checked = false)
    (hshapes : s.message.table.fields.map Field.shape = m.table.fields.map Field.shape) (hp : AtPair d p rest)
    (h : (takeOne m.samples.capacity s d).1 = none) :
    ∃ r, m.reading? p = some r ∧ Affords d.options.allocLimit d.allocated (r.cost m.samples.capacity) := by
  unfold takeOne at h
  cases hpair : p.1.pairKey with
  | error code =>
    obtain ⟨err, d', htake, -⟩ := fault_takeTolerantKey hp hpair
    rw [htake] at h
    cases h
  | ok pairKey =>
    cases pairKey with
    | skipped name =>
      have hother : ¬(m.hasSamples = true ∧ p.1.Spells samplesKey) := not_spells_of_pairKey hpair (by simp)
      refine ⟨.field (.skipped name), (reading?_field hother).2 ⟨_, rfl, ?_⟩, affords_zero _ _⟩
      rw [Table.verdict?_tolerant rfl, hpair]
    | key key =>
      obtain ⟨hshort, ht⟩ := pairKey_eq_key hpair
      have htake : Gives (takeTolerantKey "TolerantKey") d (.key key) (afterKey d p rest) :=
        hp.key.takeTolerantKey hp.more hshort ht "TolerantKey"
      rw [htake] at h
      dsimp only at h
      split_ifs at h with hsame
      · subst hsame
        rcases harray : (takeArrayHead "ArrayValue" samplesKey).run.run (afterKey d p rest) with ⟨err | n, d₁⟩
        · rw [harray] at h
          cases h
        · obtain ⟨w, items, hitem⟩ := hp.faces_value.exists_array harray
          have hfaces : Faces (afterKey d p rest) (.array w items) rest := hitem ▸ hp.faces_value
          have hin : AllWithin {} 1 items := hfaces.within.2.2.2.2
          cases harray.symm.trans (hfaces.takeArrayHead "ArrayValue" samplesKey)
          rw [harray] at h
          obtain ⟨values, rfl, hroom, haffords⟩ := of_takeSignal (allWithin_iff.1 (hin.shallower (Nat.zero_le 1))) rfl h
          have hvalues : p.2.samples? = some values := samples?_eq_some_iff.2 ⟨w, hitem⟩
          exact ⟨.samples values, (reading?_samples hsamples ht).2 ⟨values, rfl, hvalues, hroom⟩, haffords⟩
      · have hother : ¬(m.hasSamples = true ∧ p.1.Spells samplesKey) := not_spells_of_pairKey hpair (by simpa using hsame)
        have htolerant := Table.verdict?_tolerant (t := m.lenientTable) rfl 0 p
        rw [hpair] at htolerant
        rcases lookup?_of_shapes (t := m.lenientTable) hshapes key with ⟨f, g, hf, hg, hshape⟩ | ⟨hf, hg⟩
        · rw [hg] at h
          dsimp only at h
          rcases hvalue : (takeValue "Value" g).run.run (afterKey d p rest) with ⟨err | slot, d₁⟩
          · rw [hvalue] at h
            cases h
          · have hunchecked : g.checked = false :=
              (congrArg (fun shape => shape.2.1) hshape).trans (hchecked f (List.mem_of_getElem? hf))
            obtain ⟨slot', hv, haffords⟩ := verdict_of_takeValue hp.faces_value hshape hunchecked hvalue (m.lenientTable.place key)
            refine ⟨.field (.stored (m.lenientTable.place key) slot'), (reading?_field hother).2 ⟨_, rfl, ?_⟩, haffords⟩
            rw [htolerant]
            simp only [hf, hv]
        · refine ⟨.field (.skipped key), (reading?_field hother).2 ⟨_, rfl, ?_⟩, affords_zero _ _⟩
          rw [htolerant]
          simp only [hf]

end Pair

/-- What a lenient decode makes of pairs, one after the other. -/
def readings (m : Message) (pairs : List (Item × Item)) : List Reading := pairs.filterMap m.reading?

/-- The message after pairs, one after the other. -/
def applyAll (room : Nat) (m : Message) (rs : List Reading) : Message := rs.foldl (Reading.apply room) m

section Pairs

variable {m : Message} {s : Sampling} {d : Decoder} {p : Item × Item} {pairs : List (Item × Item)} {r : Reading}

/-- A reading keeps the shapes of the fields. -/
theorem shapes_apply (hr : m.reading? p = some r) {m' : Message} (hshapes : m'.table.fields.map Field.shape = m.table.fields.map Field.shape)
    (room : Nat) : (r.apply room m').table.fields.map Field.shape = m.table.fields.map Field.shape := by
  cases r with
  | samples values => exact hshapes
  | field v =>
    have hv : m.lenientTable.verdict? 0 p = some v := by
      by_cases hkey : m.hasSamples = true ∧ p.1.Spells samplesKey
      · obtain ⟨values, hfield, -⟩ := (reading?_samples hkey.1 hkey.2).1 hr
        cases hfield
      · obtain ⟨v', hfield, hv⟩ := (reading?_field hkey).1 hr
        cases hfield
        exact hv
    have hmap : ∀ entries : List Table.Entry, entries.map (fun e => e.field.shape) = (entries.map Table.Entry.field).map Field.shape := by
      intro entries
      rw [List.map_map]
      rfl
    have hstart : m'.table.start.entries.map (fun e => e.field.shape) = m.lenientTable.fields.map Field.shape := by
      rw [hmap, Table.map_field_start]
      exact hshapes
    have hnote := Table.map_shape_note hstart hv
    rw [hmap, Table.map_field_note, Table.map_field_start] at hnote
    exact hnote

theorem readings_cons (h : m.reading? p = some r) : m.readings (p :: pairs) = r :: m.readings pairs :=
  List.filterMap_cons_some h

/-- Pairs that all have readings which the budget affords are taken as the readings say. -/
theorem takeInAnyOrder_of_readings (hsamples : m.hasSamples = true) (hchecked : ∀ f ∈ m.table.fields, f.checked = false)
    (hstands : d.Stands pairs) (hshapes : s.message.table.fields.map Field.shape = m.table.fields.map Field.shape)
    (hsolvent : Solvent d.options.allocLimit d.allocated) (hreads : ∀ p ∈ pairs, ∃ r, m.reading? p = some r)
    (haffords : AffordsAll d.options.allocLimit d.allocated ((m.readings pairs).map (Reading.cost m.samples.capacity)))
    (unknown : List Text) :
    ∃ flag d', takeInAnyOrder m.samples.capacity pairs.length unknown s d =
        (none, unknown ++ (m.readings pairs).filterMap Reading.skipped?, ⟨applyAll m.samples.capacity s.message (m.readings pairs), flag⟩, d') ∧
      d'.Stands [] ∧ d'.trailing = d.trailing ∧
      d'.allocated = d.allocated + Int64.ofNat ((m.readings pairs).map (Reading.cost m.samples.capacity)).sum := by
  induction pairs generalizing d s unknown with
  | nil =>
    refine ⟨s.allocated, d, ?_, hstands, rfl, (Int64.add_zero _).symm⟩
    rw [List.length_nil, takeInAnyOrder]
    simp [readings, applyAll]
  | cons p pairs ih =>
    obtain ⟨⟨r, hr⟩, hrest⟩ := List.forall_mem_cons.1 hreads
    rw [readings_cons hr] at haffords ⊢
    obtain ⟨hcost, hcosts⟩ := haffords
    obtain ⟨flag, hone⟩ := takeOne_of_reading hsamples hchecked hshapes hstands.atPair hsolvent hr hcost
    obtain ⟨flag', d', hany, hstands', htrailing, hallocated⟩ := ih
      (d := d.onward r.skipped? (d.allocated + Int64.ofNat (r.cost m.samples.capacity)) (encodePairs pairs))
      (s := ⟨r.apply m.samples.capacity s.message, flag⟩) (hstands.tail rfl rfl rfl) (shapes_apply hr hshapes _) (hsolvent.spend hcost) hrest
      hcosts (unknown ++ r.skipped?.toList)
    refine ⟨flag', d', ?_, hstands', htrailing, ?_⟩
    · rw [List.length_cons, takeInAnyOrder_succ, hone]
      dsimp only
      rw [hany, List.append_assoc]
      cases hname : r.skipped? with
      | none => rw [List.filterMap_cons_none hname]; rfl
      | some name => rw [List.filterMap_cons_some hname]; rfl
    · rw [hallocated, List.map_cons, List.sum_cons, Int64.ofNat_add, ← Int64.add_assoc]
      rfl

/-- Pairs that are all taken have readings which the budget affords. -/
theorem readings_of_takeInAnyOrder (hsamples : m.hasSamples = true) (hchecked : ∀ f ∈ m.table.fields, f.checked = false)
    (hstands : d.Stands pairs) (hshapes : s.message.table.fields.map Field.shape = m.table.fields.map Field.shape)
    (hsolvent : Solvent d.options.allocLimit d.allocated) {unknown : List Text}
    (h : (takeInAnyOrder m.samples.capacity pairs.length unknown s d).1 = none) :
    (∀ p ∈ pairs, ∃ r, m.reading? p = some r) ∧
      AffordsAll d.options.allocLimit d.allocated ((m.readings pairs).map (Reading.cost m.samples.capacity)) := by
  induction pairs generalizing d s unknown with
  | nil => exact ⟨by simp, trivial⟩
  | cons p pairs ih =>
    rw [List.length_cons, takeInAnyOrder_succ] at h
    have hnone : (takeOne m.samples.capacity s d).1 = none := by
      generalize takeOne m.samples.capacity s d = q at h
      rcases q with ⟨_ | err, name?, s', d'⟩
      · rfl
      · cases h
    obtain ⟨r, hr, hcost⟩ := reading_of_takeOne hsamples hchecked hshapes hstands.atPair hnone
    obtain ⟨flag, hone⟩ := takeOne_of_reading hsamples hchecked hshapes hstands.atPair hsolvent hr hcost
    rw [hone] at h
    obtain ⟨hreads, hcosts⟩ := ih
      (d := d.onward r.skipped? (d.allocated + Int64.ofNat (r.cost m.samples.capacity)) (encodePairs pairs))
      (s := ⟨r.apply m.samples.capacity s.message, flag⟩) (hstands.tail rfl rfl rfl) (shapes_apply hr hshapes _) (hsolvent.spend hcost) h
    rw [readings_cons hr]
    exact ⟨List.forall_mem_cons.2 ⟨⟨r, hr⟩, hreads⟩, hcost, hcosts⟩

end Pairs

end Message

/-! ## Tables -/

namespace Table

variable {t : Table} {limit : Int64} {pairs : List (Item × Item)}

theorem verdict?_zero (hstrict : t.strict = false) (n : Nat) (p : Item × Item) : t.verdict? n p = t.verdict? 0 p := by
  rw [verdict?_tolerant hstrict, verdict?_tolerant hstrict]

/-- Pairs that all have verdicts which the budget affords are all in the journal. -/
theorem journalFrom_of_verdicts (hstrict : t.strict = false) {b : Int64} (hverdicts : ∀ p ∈ pairs, ∃ v, t.verdict? 0 p = some v)
    (haffords : AffordsAll limit b ((pairs.filterMap (t.verdict? 0)).map Verdict.cost)) (n : Nat) :
    t.journalFrom limit n b pairs = pairs.filterMap (t.verdict? 0) := by
  induction pairs generalizing n b with
  | nil => rfl
  | cons p pairs ih =>
    obtain ⟨⟨v, hv⟩, hrest⟩ := List.forall_mem_cons.1 hverdicts
    rw [List.filterMap_cons_some hv] at haffords ⊢
    obtain ⟨hcost, hcosts⟩ := haffords
    rw [journalFrom, verdict?_zero hstrict, hv]
    simp only [hcost, if_true, ih hrest hcosts]

/-- A journal of all pairs: they have verdicts which the budget affords. -/
theorem verdicts_of_journalFrom (hstrict : t.strict = false) {n : Nat} {b : Int64}
    (hall : (t.journalFrom limit n b pairs).length = pairs.length) :
    (∀ p ∈ pairs, ∃ v, t.verdict? 0 p = some v) ∧ AffordsAll limit b ((pairs.filterMap (t.verdict? 0)).map Verdict.cost) := by
  induction pairs generalizing n b with
  | nil => exact ⟨by simp, trivial⟩
  | cons p pairs ih =>
    rw [journalFrom, verdict?_zero hstrict] at hall
    cases hv : t.verdict? 0 p with
    | none =>
      rw [hv] at hall
      cases hall
    | some v =>
      simp only [hv] at hall
      split_ifs at hall with hcost
      obtain ⟨hverdicts, hcosts⟩ := ih (Nat.succ_inj.1 hall)
      rw [List.filterMap_cons_some hv]
      exact ⟨List.forall_mem_cons.2 ⟨⟨v, hv⟩, hverdicts⟩, hcost, hcosts⟩

/-- What a walk has noted. -/
theorem foldl_note (verdicts : List Verdict) (w : Walk) :
    (verdicts.foldl Walk.note w).entries.map Entry.field = verdicts.foldl Verdict.apply (w.entries.map Entry.field) ∧
      (verdicts.foldl Walk.note w).outOfRange = w.outOfRange ++ verdicts.filterMap Verdict.refused? ∧
      (verdicts.foldl Walk.note w).unknown = w.unknown ++ verdicts.filterMap Verdict.skipped? := by
  induction verdicts generalizing w with
  | nil => simp
  | cons v verdicts ih =>
    obtain ⟨hfields, hrange, hunknown⟩ := ih (w.note v)
    rw [List.foldl_cons, List.foldl_cons, hfields, hrange, hunknown, map_field_note]
    cases v <;> simp [Walk.note, List.filterMap_cons, Verdict.refused?, Verdict.skipped?]

theorem fields_record (t : Table) (verdicts : List Verdict) : (t.record verdicts).fields false = verdicts.foldl Verdict.apply t.fields := by
  have hfields := (foldl_note verdicts t.start).1
  rw [map_field_start] at hfields
  simp only [Walk.fields, Bool.false_eq_true, if_false]
  exact hfields

/-- The keys that a walk lists. -/
def listing (refused skipped : List Text) : Option Error := Walk.aggregate ⟨[], refused, skipped, none⟩ walkOp

theorem aggregate_record (t : Table) (verdicts : List Verdict) :
    (t.record verdicts).aggregate walkOp = listing (verdicts.filterMap Verdict.refused?) (verdicts.filterMap Verdict.skipped?) := by
  obtain ⟨-, hrange, hunknown⟩ := foldl_note verdicts t.start
  rw [listing, Walk.aggregate, Walk.aggregate, record, hrange, hunknown]
  rfl

variable {options : Options} {w : Width}

theorem enter_lenient (hstrict : t.strict = false) (hin : (Item.map w pairs).Within {} 0 false) (options : Options) :
    enter options t.expected (Item.map w pairs).encode = (.ok (), inside options w pairs 0) := by
  have hexpected : ∀ n, t.expected = some n → (pairs.length : Int) = n % 0x10000000000000000 := by
    intro n hn
    rw [expected, hstrict] at hn
    cases hn
  have henter := enter_map hin options hexpected []
  rwa [List.append_nil] at henter

/-- A table that is not strict takes a map of pairs that all have verdicts which the budget affords. -/
theorem decode_of_verdicts (hstrict : t.strict = false) (hin : (Item.map w pairs).Within {} 0 false)
    (hverdicts : ∀ p ∈ pairs, ∃ v, t.verdict? 0 p = some v)
    (haffords : AffordsAll options.allocLimit (Int64.ofNat 0) ((pairs.filterMap (t.verdict? 0)).map Verdict.cost)) :
    ∃ trace, t.decode options (Item.map w pairs).encode =
      (listing ((pairs.filterMap (t.verdict? 0)).filterMap Verdict.refused?) ((pairs.filterMap (t.verdict? 0)).filterMap Verdict.skipped?),
        { t with fields := (pairs.filterMap (t.verdict? 0)).foldl Verdict.apply t.fields }, trace) := by
  have hpairs : PairsWithin {} 0 pairs := PairsWithin.shallower (Nat.zero_le 1) hin.2.2.2.2
  have hjournal := journal_inside t options w hpairs
  rw [journalFrom_of_verdicts hstrict hverdicts haffords] at hjournal
  have hwanted : t.wanted (inside options w pairs 0) = pairs.length := by
    rw [wanted, hstrict]
    rfl
  have hlen : (pairs.filterMap (t.verdict? 0)).length = pairs.length := by
    rw [List.length_filterMap_eq_countP, List.countP_eq_length]
    intro p hp
    obtain ⟨v, hv⟩ := hverdicts p hp
    rw [hv, Option.isSome_some]
  rw [decode_of_journal (enter_lenient hstrict hin options) hpairs hwanted hjournal hlen, aggregate_record, fields_record]
  exact ⟨_, rfl⟩

/-- A map that a table takes has verdicts for all pairs, and the budget affords them. -/
theorem verdicts_of_decode (hstrict : t.strict = false) (hin : (Item.map w pairs).Within {} 0 false)
    (hlists : ((t.decode options (Item.map w pairs).encode).1.filter fun e => !e.isAggregate) = none) :
    (∀ p ∈ pairs, ∃ v, t.verdict? 0 p = some v) ∧
      AffordsAll options.allocLimit (Int64.ofNat 0) ((pairs.filterMap (t.verdict? 0)).map Verdict.cost) := by
  have hpairs : PairsWithin {} 0 pairs := PairsWithin.shallower (Nat.zero_le 1) hin.2.2.2.2
  have hok : ∀ err, (t.decode options (Item.map w pairs).encode).1 = some err → err.isAggregate = true := by
    intro err herr
    rw [herr] at hlists
    simpa using hlists
  obtain ⟨d, d₁, d', henter, -, hall, -, -⟩ := exists_finished hok
  cases henter.symm.trans (enter_lenient hstrict hin options)
  rw [journal_inside t options w hpairs, wanted, hstrict] at hall
  exact verdicts_of_journalFrom hstrict hall

end Table

/-! ## Messages -/

namespace Message

/-- The message after a map, if it is read to its end. -/
def after (m : Message) (pairs : List (Item × Item)) : Message := applyAll m.samples.capacity m (m.readings pairs)

/-- The keys that a lenient decode lists. -/
def reported (m : Message) (rs : List Reading) : Option Error :=
  if m.hasSamples then listing (rs.filterMap Reading.skipped?)
  else Table.listing (rs.filterMap Reading.refused?) (rs.filterMap Reading.skipped?)

/-- A lenient decode comes to the end of the map: every pair has a reading, the budget affords them, and there are as many samples as the
message then says. -/
structure Finishes (m : Message) (limit : Int64) (pairs : List (Item × Item)) : Prop where
  reads : ∀ p ∈ pairs, ∃ r, m.reading? p = some r
  affords : AffordsAll limit (Int64.ofNat 0) ((m.readings pairs).map (Reading.cost m.samples.capacity))
  counts : m.hasSamples = true → (m.after pairs).samples.values.length = (m.after pairs).sampleCount

section Map

variable {m blank : Message} {options : Options} {w : Width} {pairs : List (Item × Item)}

/-- A message without samples reads pairs as its table does. -/
theorem readings_of_table (h : ¬m.hasSamples = true) (pairs : List (Item × Item)) :
    m.readings pairs = (pairs.filterMap (m.lenientTable.verdict? 0)).map .field := by
  rw [readings, List.map_filterMap]
  congr 1
  funext p
  exact if_neg fun hkey => h hkey.1

/-- The table after verdicts. -/
theorem applyAll_fields (room : Nat) (m : Message) (verdicts : List Verdict) :
    applyAll room m (verdicts.map .field) = { m with table := { m.table with fields := verdicts.foldl Verdict.apply m.table.fields } } := by
  induction verdicts generalizing m with
  | nil => rfl
  | cons v verdicts ih => exact ih _

section Samples

variable (hsamples : m.hasSamples = true) (hchecked : ∀ f ∈ m.table.fields, f.checked = false)
  (hin : (Item.map w pairs).Within {} 0 false)

theorem solvent_zero (limit : Int64) : Solvent limit (Int64.ofNat 0) := by
  rintro ⟨hpos, hneg⟩
  exact Int64.lt_asymm hpos hneg

include hin in
theorem stands_inside (options : Options) (n : Nat) : (inside options w pairs n).Stands pairs :=
  ⟨rfl, PairsWithin.shallower (Nat.zero_le 1) hin.2.2.2.2, (Nat.zero_add _).symm⟩

/-- All pairs were taken, and there are as many samples as the message says. -/
theorem closePairs_whole {s : Sampling} (h : s.message.samples.values.length = s.message.sampleCount) (unknown : List Text) (d : Decoder) :
    closePairs (none, unknown, s, d) = (listing unknown, s.message, d) := by
  simp only [closePairs, Option.none_or, h, ne_eq, not_true_eq_false, if_false]

section Pairs

include hsamples hchecked hin

/-- The pairs of a map that a message with samples reads to its end. -/
theorem takePairs_of_finishes (h : m.Finishes options.allocLimit pairs) (n : Nat) :
    ∃ d', m.takePairs true (inside options w pairs n) = (listing ((m.readings pairs).filterMap Reading.skipped?), m.after pairs, d') ∧
      d'.Stands [] ∧ d'.trailing = n ∧ d'.allocated = Int64.ofNat ((m.readings pairs).map (Reading.cost m.samples.capacity)).sum := by
  obtain ⟨flag, d', hany, hstands, htrailing, hallocated⟩ :=
    takeInAnyOrder_of_readings (s := ⟨m, false⟩) hsamples hchecked (stands_inside hin options n) rfl (solvent_zero _) h.reads h.affords []
  have hwalk : m.walkPairs true (inside options w pairs n) =
      (none, (m.readings pairs).filterMap Reading.skipped?, ⟨m.after pairs, flag⟩, d') := hany
  refine ⟨d', ?_, hstands, htrailing, hallocated.trans (Int64.zero_add _)⟩
  rw [takePairs_eq, hwalk, closePairs_whole (h.counts hsamples)]

/-- Pairs that are read, if only with a list of keys, are read to their end. -/
theorem finishes_of_takePairs {n : Nat} (hlists : ((m.takePairs true (inside options w pairs n)).1.filter fun e => !e.isAggregate) = none) :
    m.Finishes options.allocLimit pairs := by
  have hstands := stands_inside hin options n
  have hends := takeInAnyOrder_ends (s := ⟨m, false⟩) hstands hchecked m.samples.capacity []
  have hwalk : m.walkPairs true (inside options w pairs n) =
    takeInAnyOrder m.samples.capacity pairs.length [] ⟨m, false⟩ (inside options w pairs n) := rfl
  rw [takePairs_eq, hwalk] at hlists
  have hnone : (takeInAnyOrder m.samples.capacity pairs.length [] ⟨m, false⟩ (inside options w pairs n)).1 = none := by
    generalize takeInAnyOrder m.samples.capacity pairs.length [] ⟨m, false⟩ (inside options w pairs n) = q at hends hlists
    rcases q with ⟨_ | err, unknown, s, d'⟩
    · rfl
    · cases hends with
      | fault _ fault => exact absurd hlists (Table.filter_of_keys fault.keys)
  obtain ⟨hreads, haffords⟩ := readings_of_takeInAnyOrder (s := ⟨m, false⟩) hsamples hchecked hstands rfl (solvent_zero _) hnone
  obtain ⟨flag, d', hany, -⟩ :=
    takeInAnyOrder_of_readings (s := ⟨m, false⟩) hsamples hchecked hstands rfl (solvent_zero _) hreads haffords []
  refine ⟨hreads, haffords, fun _ => ?_⟩
  by_contra hcount
  have hmismatch : (m.after pairs).samples.values.length ≠ (m.after pairs).sampleCount := hcount
  rw [hany, closePairs, Option.none_or] at hlists
  dsimp only at hlists
  rw [← after, if_pos hmismatch] at hlists
  exact Table.filter_of_keys rfl hlists

/-- A map that a message with samples reads to its end. -/
theorem decodeSamples_of_finishes (h : m.Finishes options.allocLimit pairs) :
    ∃ trace, m.decodeSamples true options (Item.map w pairs).encode =
      (listing ((m.readings pairs).filterMap Reading.skipped?), m.after pairs, trace) := by
  obtain ⟨d', hpairs, hstands, htrailing, -⟩ := takePairs_of_finishes hsamples hchecked hin h 0
  have henter : enter options none (Item.map w pairs).encode = (.ok (), inside options w pairs 0) :=
    Table.enter_lenient (t := ⟨[], false⟩) rfl hin options
  obtain ⟨hread, hunread⟩ := hstands.finished
  rw [decodeSamples, if_pos rfl, henter]
  simp only [hpairs, listing_filter]
  rw [leave_traces hread hunread htrailing]
  exact ⟨_, rfl⟩

end Pairs

/-- What is read, if only with a list of keys, is a map and no byte after it, and the map is read to its end. -/
theorem map_of_decodeSamples {data : List UInt8} (hsamples : m.hasSamples = true) (hchecked : ∀ f ∈ m.table.fields, f.checked = false)
    (hlists : ((m.decodeSamples true options data).1.filter fun e => !e.isAggregate) = none) :
    ∃ w pairs, data = (Item.map w pairs).encode ∧ (Item.map w pairs).Within {} 0 false ∧ m.Finishes options.allocLimit pairs := by
  rw [decodeSamples, if_pos rfl] at hlists
  rcases henter : enter options none data with ⟨err | _, d⟩
  · rw [henter] at hlists
    exact absurd hlists (Table.filter_of_keys (of_enter_error henter).2.1)
  · obtain ⟨w, pairs, rest, rfl, hin, rfl⟩ := eq_inside_of_enter henter
    rw [henter] at hlists
    dsimp only at hlists
    have hpairs : ((m.takePairs true (inside options w pairs rest.length)).1.filter fun e => !e.isAggregate) = none := by
      cases hfatal : (m.takePairs true (inside options w pairs rest.length)).1.filter fun e => !e.isAggregate with
      | none => rfl
      | some err =>
        rw [hfatal] at hlists
        have hnot := (Option.filter_eq_some_iff.1 hfatal).2
        simp only [Option.filter_some, hnot, if_true, reduceCtorEq] at hlists
    have hfinishes := finishes_of_takePairs hsamples hchecked hin hpairs
    obtain ⟨d', htake, -, htrailing, -⟩ := takePairs_of_finishes hsamples hchecked hin hfinishes rest.length
    simp only [htake, listing_filter] at hlists
    rcases leave_cases d' with ⟨err, d₁, hleave, hreported⟩ | ⟨-, -, hnone⟩
    · rw [hleave] at hlists
      exact absurd hlists (Table.filter_of_keys hreported.keys)
    · obtain rfl : rest = [] := List.length_eq_zero_iff.1 (htrailing.symm.trans hnone)
      exact ⟨w, pairs, List.append_nil _, hin, hfinishes⟩

end Samples

section Kinds

variable (hblank : blank.Blank) (hm : m.OfKind blank)

include hblank hm

theorem unchecked_of_samples (hsamples : m.hasSamples = true) : ∀ f ∈ m.table.fields, f.checked = false :=
  hm.unchecked_of_rule hblank (by simp [hasSamples_iff_rule.1 hsamples])

/-- A map that is read to its end: what is reported and what is left. -/
theorem readMap_of_finishes (hin : (Item.map w pairs).Within {} 0 false) (h : m.Finishes options.allocLimit pairs) :
    ∃ trace, m.readMap true options (Item.map w pairs).encode = (m.reported (m.readings pairs), m.after pairs, trace) := by
  rw [readMap, reported]
  split_ifs with hsamples
  · exact decodeSamples_of_finishes hsamples (unchecked_of_samples hblank hm hsamples) hin h
  · have hreadings := readings_of_table hsamples pairs
    have hverdicts : ∀ p ∈ pairs, ∃ v, m.lenientTable.verdict? 0 p = some v := by
      intro p hp
      obtain ⟨r, hr⟩ := h.reads p hp
      obtain ⟨v, -, hv⟩ := (reading?_field fun hkey => hsamples hkey.1).1 hr
      exact ⟨v, hv⟩
    have haffords := h.affords
    rw [hreadings, List.map_map] at haffords
    obtain ⟨trace, hdecode⟩ := Table.decode_of_verdicts (t := m.lenientTable) rfl hin hverdicts haffords
    refine ⟨trace, ?_⟩
    rw [hreadings, after, hreadings, applyAll_fields, List.filterMap_map, List.filterMap_map]
    rw [show Table.decode options (Item.map w pairs).encode { m.table with strict := !true } = _ from hdecode]
    rfl

/-- What is read, if only with a list of keys, is a map and no byte after it, and the map is read to its end. -/
theorem map_of_readMap {data : List UInt8} (hlists : ((m.readMap true options data).1.filter fun e => !e.isAggregate) = none) :
    ∃ w pairs, data = (Item.map w pairs).encode ∧ (Item.map w pairs).Within {} 0 false ∧ m.Finishes options.allocLimit pairs := by
  rw [readMap] at hlists
  split_ifs at hlists with hsamples
  · exact map_of_decodeSamples hsamples (unchecked_of_samples hblank hm hsamples) hlists
  · have hok : ∀ err, (m.lenientTable.decode options data).1 = some err → err.isAggregate = true := by
      intro err herr
      rw [show (Table.decode options data { m.table with strict := !true }).1 = some err from herr] at hlists
      simpa using hlists
    obtain ⟨w, pairs, rfl, hin, -⟩ := Table.exists_pairs_of_finished hok
    obtain ⟨hverdicts, haffords⟩ := Table.verdicts_of_decode (t := m.lenientTable) rfl hin hlists
    refine ⟨w, pairs, rfl, hin, fun p hp => ?_, ?_, fun hs => absurd hs hsamples⟩
    · obtain ⟨v, hv⟩ := hverdicts p hp
      exact ⟨.field v, (reading?_field fun hkey => hsamples hkey.1).2 ⟨v, rfl, hv⟩⟩
    · rw [readings_of_table hsamples, List.map_map]
      exact haffords

end Kinds

end Map

end Message

end SensorWire
