import Mathlib
import SensorWire.Proofs.Marshal
import SensorWire.Proofs.TolerantDecoding

/-!
# Tables written and read back

What marshalling a table gives is decoded into any table of the same shape, strict or not, exactly when its keys and its text are UTF-8:
writing does not ask for that and reading does. The values come back as they were, but for signalling NaNs of single precision, which
come back quiet (`Field.quieted`).

Main statement: `table_round_trip`.
-/

namespace SensorWire

open Cbor Item Decoder

/-! ## Valid tables -/

/-- The fields that a valid table has, given the keys before them. -/
theorem Table.valid_of_faultFrom {index : Nat} {seen : List Text} {fields : List Field}
    (h : Table.faultFrom index seen fields = none) :
    (∀ f ∈ fields, f.isBound = true ∧ f.key.length ≤ maxKeyLength ∧ f.key ∉ seen) ∧ (fields.map Field.key).Nodup := by
  induction fields generalizing index seen with
  | nil => exact ⟨by simp, List.nodup_nil⟩
  | cons f fields ih =>
    rw [Table.faultFrom] at h
    split_ifs at h with hbound hempty hlong hseen
    obtain ⟨hfields, hkeys⟩ := ih h
    simp only [Bool.not_eq_eq_eq_not, Bool.not_true, Bool.not_eq_false] at hbound
    have hnew : f.key ∉ seen := by simpa using hseen
    refine ⟨List.forall_mem_cons.2 ⟨⟨hbound, Nat.not_lt.1 hlong, hnew⟩, fun g hg => ?_⟩, ?_⟩
    · obtain ⟨hb, hl, hs⟩ := hfields g hg
      exact ⟨hb, hl, fun hmem => hs (List.mem_cons_of_mem _ hmem)⟩
    · rw [List.map_cons, List.nodup_cons]
      refine ⟨fun hmem => ?_, hkeys⟩
      obtain ⟨g, hg, hkey⟩ := List.mem_map.1 hmem
      exact (hfields g hg).2.2 (hkey ▸ List.mem_cons_self ..)

/-! ## What comes back -/

/-- A slot with a signalling NaN of single precision made quiet. -/
def Slot.quieted : Slot → Slot
  | float32 bits => float32 (Binary.quieted bits)
  | s => s

namespace Field

/-- A field with a signalling NaN of single precision made quiet. -/
def quieted (f : Field) : Field :=
  match f.slot? with
  | some s => f.store s.quieted
  | none => f

/-- Two fields of the same shape: the same key, the same type and the same check, whatever they hold. -/
structure Alike (f g : Field) : Prop where
  key : g.key = f.key
  type : g.type = f.type
  checked : g.checked = f.checked
  bound : g.isBound = true

/-- The key, and the text if the field holds text, are UTF-8. -/
def IsText (f : Field) : Prop := IsUtf8 f.key.bytes ∧ ∀ v, f.slot? = some (.string v) → IsUtf8 v.bytes

/-- The text or bytes that the field holds have a length of 63 bits. -/
def Addressable (f : Field) : Prop :=
  (∀ v, f.slot? = some (.string v) → v.length < 2 ^ 63) ∧ ∀ v, f.slot? = some (.bytes v) → v.length < 2 ^ 63

end Field

namespace Slot

variable {s s' : Slot}

theorem suits_congr (h : s'.type = s.type) (i : Item) : s'.Suits i ↔ s.Suits i := by
  cases s <;> cases s' <;> first | exact Iff.rfl | cases h

theorem capacity?_congr (h : s'.type = s.type) : s'.capacity? = s.capacity? := by
  cases s <;> cases s' <;> first | rfl | cases h

/-- A slot takes the item it is written as, unless it holds text that is not UTF-8. -/
theorem suits_item (s : Slot) : s.Suits s.item ↔ ∀ v, s = .string v → IsUtf8 v.bytes := by
  cases s with
  | string v =>
    constructor
    · rintro ⟨t, ht⟩ v' ⟨⟩
      exact ht.2
    · intro hv
      exact ⟨v, rfl, hv v rfl⟩
  | _ => simp [Suits, item, Item.ofNat, Item.ofBytes, Item.major, StringKind.major]

/-- The item that a slot is written as fills any slot of its type with the value it came from. -/
theorem filled_item (h : s'.type = s.type) : s'.filled s.item = s.quieted := by
  cases s with
  | bool v =>
    cases s' <;> first | cases v <;> rfl | cases h
  | _ =>
    cases s' <;> first | (simp [filled, item, quieted, Item.ofNat, Item.ofText, Item.ofBytes, Item.content]; done) | cases h

/-- A number that a slot is written as is one that the slot has room for. -/
theorem exists_le_capacity {limit : Nat} (h : s.capacity? = some limit) : ∃ n ≤ limit, s.item = .ofNat n := by
  cases s with
  | uint8 v =>
    cases h
    exact ⟨v.toNat, Nat.le_of_lt_succ v.toNat_lt, rfl⟩
  | uint16 v =>
    cases h
    exact ⟨v.toNat, Nat.le_of_lt_succ v.toNat_lt, rfl⟩
  | uint32 v =>
    cases h
    exact ⟨v.toNat, Nat.le_of_lt_succ v.toNat_lt, rfl⟩
  | uint64 v =>
    cases h
    exact ⟨v.toNat, Nat.le_of_lt_succ v.toNat_lt, rfl⟩
  | bool v =>
    cases h
    exact ⟨v.toNat, v.toNat_le, rfl⟩
  | _ => cases h

end Slot

/-! ## The pair of a field -/

namespace Field

variable {f g : Field}

/-- The pair of a field that can be written is read, key and value, wherever it stands. -/
theorem within_pair (hw : f.Writable) (ha : f.Addressable) (hk : f.key.length ≤ maxKeyLength) (depth : Nat) :
    f.pair.1.Within {} depth false ∧ f.pair.2.Within {} depth false := by
  have hlen : f.key.length < 2 ^ 63 := Nat.lt_of_le_of_lt hk (by decide)
  refine ⟨⟨Width.holds_shortest (Nat.lt_trans hlen (by norm_num)), hlen⟩, ?_⟩
  obtain ⟨hbound, hsimple⟩ := hw
  obtain ⟨key, binding, checked⟩ := f
  cases binding with
  | unbound t => cases hbound
  | bound s =>
    cases s with
    | uint8 v => exact Width.holds_shortest (Nat.lt_trans v.toNat_lt (by norm_num))
    | uint16 v => exact Width.holds_shortest (Nat.lt_trans v.toNat_lt (by norm_num))
    | uint32 v => exact Width.holds_shortest (Nat.lt_trans v.toNat_lt (by norm_num))
    | uint64 v => exact Width.holds_shortest v.toNat_lt
    | bool v => exact Width.holds_shortest (Nat.lt_of_le_of_lt v.toNat_le (by norm_num))
    | simple v => exact hsimple v rfl
    | string v => exact ⟨Width.holds_shortest (Nat.lt_trans (ha.1 v rfl) (by norm_num)), ha.1 v rfl⟩
    | bytes v => exact ⟨Width.holds_shortest (Nat.lt_trans (ha.2 v rfl) (by norm_num)), ha.2 v rfl⟩
    | float32 bits => trivial
    | float64 bits => trivial

theorem shortKey_pair (hk : f.key.length ≤ maxKeyLength) : f.pair.1.ShortKey := Or.inr hk

theorem eq_key_of_spells {text : Text} (h : f.pair.1.Spells text) : text = f.key := by
  obtain ⟨hbytes, -⟩ := h
  exact congrArg Text.mk hbytes.symm

/-- The slots of two fields of the same shape have one type. -/
theorem Alike.slots (h : f.Alike g) (hf : f.isBound = true) :
    ∃ s s', f.slot? = some s ∧ f.pair.2 = s.item ∧ g.slot? = some s' ∧ s'.type = s.type := by
  obtain ⟨key, binding, checked⟩ := f
  obtain ⟨key', binding', checked'⟩ := g
  cases binding with
  | unbound t => cases hf
  | bound s =>
    cases binding' with
    | unbound t => cases h.bound
    | bound s' => exact ⟨s, s', rfl, rfl, rfl, h.type⟩

/-- The pair of a field fits a field of the same shape exactly when its text is UTF-8. -/
theorem Alike.fits_pair (h : f.Alike g) (hf : f.isBound = true) (hin : f.pair.1.Within {} 0 false ∧ f.pair.2.Within {} 0 false) :
    g.Fits f.pair ↔ f.IsText := by
  obtain ⟨s, s', hs, hitem, hs', htype⟩ := h.slots hf
  have hsuits : s'.Suits f.pair.2 ↔ ∀ v, f.slot? = some (.string v) → IsUtf8 v.bytes := by
    rw [hitem, Slot.suits_congr htype, Slot.suits_item, hs]
    simp only [Option.some.injEq]
  constructor
  · rintro ⟨⟨-, -, hkey⟩, -, s'', hs'', hvalue⟩
    obtain rfl : s' = s'' := Option.some.inj (hs'.symm.trans hs'')
    exact ⟨hkey, hsuits.1 hvalue⟩
  · rintro ⟨hkey, hvalue⟩
    exact ⟨⟨⟨{}, hin.1⟩, congrArg Text.bytes h.key.symm, hkey⟩, ⟨{}, hin.2⟩, s', hs', hsuits.2 hvalue⟩

/-- A field of the same shape has room for what a field is written as. -/
theorem Alike.overflows_pair (h : f.Alike g) (hf : f.isBound = true) : g.overflows f.pair.2 = false := by
  obtain ⟨s, s', hs, hitem, hs', htype⟩ := h.slots hf
  unfold Field.overflows
  rw [hitem, hs', Option.bind_some, Slot.capacity?_congr htype]
  cases hc : s.capacity? with
  | none => cases g.checked <;> rfl
  | some limit =>
    obtain ⟨n, hn, hs⟩ := Slot.exists_le_capacity hc
    rw [hs]
    cases g.checked with
    | false => rfl
    | true => exact decide_eq_false (Nat.not_lt.2 hn)

/-- A field of the same shape receives what a field is written as. -/
theorem Alike.received_pair (h : f.Alike g) (hf : f.isBound = true) : g.received f.pair.2 = f.quieted := by
  obtain ⟨s, s', hs, hitem, hs', htype⟩ := h.slots hf
  rw [Field.received_of_not_overflows hs' (h.overflows_pair hf), hitem, Slot.filled_item htype]
  simp only [Field.quieted, hs, Field.store, h.key, h.checked]

end Field

/-! ## The pairs of a table -/

section Fields

variable {fields fresh : List Field}

theorem Field.Alike.map_key (h : List.Forall₂ Field.Alike fields fresh) : fresh.map Field.key = fields.map Field.key := by
  induction h with
  | nil => rfl
  | cons hf _ ih => rw [List.map_cons, List.map_cons, hf.key, ih]

theorem Field.Alike.forall_bound (h : List.Forall₂ Field.Alike fields fresh) : ∀ g ∈ fresh, g.isBound = true := by
  induction h with
  | nil => simp
  | cons hf _ ih => exact List.forall_mem_cons.2 ⟨hf.bound, ih⟩

/-- The keys of the pairs spell no other keys than those of the fields in the same places. -/
theorem Field.Alike.forall₂_key (h : List.Forall₂ Field.Alike fields fresh) :
    List.Forall₂ (fun g p => ∀ text, p.1.Spells text → text = g.key) fresh (fields.map Field.pair) := by
  induction h with
  | nil => exact .nil
  | cons hf _ ih => exact .cons (fun text ht => (Field.eq_key_of_spells ht).trans hf.key.symm) ih

theorem forall₂_fits_iff (h : List.Forall₂ Field.Alike fields fresh) (hbound : ∀ f ∈ fields, f.isBound = true)
    (hin : ∀ f ∈ fields, f.pair.1.Within {} 0 false ∧ f.pair.2.Within {} 0 false) :
    List.Forall₂ Field.Fits fresh (fields.map Field.pair) ↔ ∀ f ∈ fields, f.IsText := by
  induction h with
  | nil => simp
  | cons hf _ ih =>
    rw [List.forall_mem_cons] at hbound hin ⊢
    rw [List.map_cons, List.forall₂_cons, hf.fits_pair hbound.1 hin.1, ih hbound.2 hin.2]

theorem receivedFields_pairs (h : List.Forall₂ Field.Alike fields fresh) (hbound : ∀ f ∈ fields, f.isBound = true) :
    receivedFields fresh (fields.map Field.pair) = fields.map Field.quieted := by
  induction h with
  | nil => rfl
  | cons hf _ ih =>
    rw [List.forall_mem_cons] at hbound
    rw [List.map_cons, receivedFields_cons, hf.received_pair hbound.1, ih hbound.2, List.map_cons]

theorem overflowKeys_pairs (h : List.Forall₂ Field.Alike fields fresh) (hbound : ∀ f ∈ fields, f.isBound = true) :
    overflowKeys fresh (fields.map Field.pair) = [] := by
  induction h with
  | nil => rfl
  | cons hf _ ih =>
    rw [List.forall_mem_cons] at hbound
    rw [List.map_cons, overflowKeys_cons, hf.overflows_pair hbound.1, ih hbound.2]
    rfl

end Fields

/-! ## Tables written and read back -/

/-- A table that can be written as a map that is not too large to be read. -/
structure Table.Sendable (t : Table) : Prop where
  count : t.fields.length ≤ 131072
  writable : ∀ f ∈ t.fields, f.Writable
  addressable : ∀ f ∈ t.fields, f.Addressable
  shortKeys : ∀ f ∈ t.fields, f.key.length ≤ maxKeyLength
  keysDiffer : (t.fields.map Field.key).Nodup

namespace Table.Sendable

variable {t fresh : Table} {options : Options}

theorem bound (h : t.Sendable) : ∀ f ∈ t.fields, f.isBound = true := fun f hf => (h.writable f hf).1

theorem within_pairs (h : t.Sendable) (depth : Nat) :
    ∀ f ∈ t.fields, f.pair.1.Within {} depth false ∧ f.pair.2.Within {} depth false :=
  fun f hf => Field.within_pair (h.writable f hf) (h.addressable f hf) (h.shortKeys f hf) depth

theorem shortKey_pairs (h : t.Sendable) : ∀ p ∈ t.fields.map Field.pair, p.1.ShortKey :=
  List.forall_mem_map.2 fun f hf => Field.shortKey_pair (h.shortKeys f hf)

theorem within_message (h : t.Sendable) : t.message.Within {} 0 false := by
  have hlen : (t.fields.map Field.pair).length ≤ 131072 := (List.length_map Field.pair).trans_le h.count
  refine ⟨Width.holds_shortest (by omega), by decide, by omega, hlen, pairsWithin_iff.2 ?_⟩
  exact List.forall_mem_map.2 (h.within_pairs 1)

/-- What a table is written as spells the fields of a table of the same shape exactly when its text is UTF-8. -/
theorem spelled_iff (h : t.Sendable) (hlike : List.Forall₂ Field.Alike t.fields fresh.fields) {w : Width}
    {pairs : List (Item × Item)} :
    Spelled fresh.fields w pairs t.message.encode ↔ Item.map w pairs = t.message ∧ ∀ f ∈ t.fields, f.IsText := by
  have hlen : fresh.fields.length = t.fields.length := hlike.length_eq.symm
  constructor
  · intro hs
    have hsame := (hs.within (hlen ▸ h.count)).encode_append_inj h.within_message (congrArg (· ++ []) hs.bytes.symm)
    obtain ⟨rfl, rfl⟩ := Item.map.inj hsame.1
    exact ⟨rfl, (forall₂_fits_iff hlike h.bound (h.within_pairs 0)).1 hs.fits⟩
  · rintro ⟨hmap, htext⟩
    obtain ⟨rfl, rfl⟩ := Item.map.inj hmap
    refine ⟨?_, (forall₂_fits_iff hlike h.bound (h.within_pairs 0)).2 htext, rfl⟩
    rw [hlen, ← List.length_map Field.pair]
    exact h.within_message.1

/-- Text that is UTF-8 comes back, into a table that is strict or not. -/
theorem decode_of_isText (h : t.Sendable) (halloc : options.allocLimit ≤ 0)
    (hlike : List.Forall₂ Field.Alike t.fields fresh.fields) (htext : ∀ f ∈ t.fields, f.IsText) :
    (fresh.decode options t.message.encode).1 = none ∧
      (fresh.decode options t.message.encode).2.1 = { fresh with fields := t.fields.map Field.quieted } := by
  have hspelled := (h.spelled_iff hlike).2 ⟨rfl, htext⟩
  have hcount : fresh.fields.length ≤ 131072 := hlike.length_eq ▸ h.count
  have hdecode : (fresh.decode options t.message.encode).1 = rangeError (overflowKeys fresh.fields (t.fields.map Field.pair)) ∧
      (fresh.decode options t.message.encode).2.1 =
        { fresh with fields := receivedFields fresh.fields (t.fields.map Field.pair) } := by
    rcases Bool.eq_false_or_eq_true fresh.strict with hstrict | hstrict
    · exact decode_of_spelled halloc hstrict hcount hspelled
    · exact decode_tolerant_of_spelled halloc hstrict hcount (Field.Alike.map_key hlike ▸ h.keysDiffer) h.shortKey_pairs hspelled
  rw [overflowKeys_pairs hlike h.bound, receivedFields_pairs hlike h.bound] at hdecode
  exact hdecode

/-- Text that is not UTF-8 does not come back. -/
theorem decode_of_not_isText (h : t.Sendable) (halloc : options.allocLimit ≤ 0)
    (hlike : List.Forall₂ Field.Alike t.fields fresh.fields) (htext : ¬∀ f ∈ t.fields, f.IsText) :
    ∃ err, (fresh.decode options t.message.encode).1 = some err := by
  have hcount : fresh.fields.length ≤ 131072 := hlike.length_eq ▸ h.count
  have hbound := Field.Alike.forall_bound hlike
  rcases Bool.eq_false_or_eq_true fresh.strict with hstrict | hstrict
  · obtain ⟨err, herr, -⟩ := rejects_of_not_spelled halloc hstrict hbound hcount
      fun w pairs hs => htext ((h.spelled_iff hlike).1 hs).2
    exact ⟨err, herr⟩
  · exact decode_tolerant_of_not_fits halloc hstrict hbound (Field.Alike.map_key hlike ▸ h.keysDiffer) h.within_message
      (Field.Alike.forall₂_key hlike) h.shortKey_pairs
      fun hfits => htext ((forall₂_fits_iff hlike h.bound (h.within_pairs 0)).1 hfits)

end Table.Sendable

namespace Table

/-- A valid table can be written exactly when it holds no simple value that does not exist. -/
theorem writable_iff_of_valid {t : Table} (hvalid : t.fault? = none) :
    (∀ f ∈ t.fields, f.Writable) ↔ ∀ f ∈ t.fields, ∀ v, f.slot? = some (.simple v) → ¬(24 ≤ v ∧ v < 32) := by
  have hexists : ∀ v : UInt8, (v < 24 ∨ 32 ≤ v) ↔ ¬(24 ≤ v ∧ v < 32) := fun v => by
    rw [not_and_or, UInt8.not_le, UInt8.not_lt]
  refine forall₂_congr fun f hf => ?_
  simp only [Field.Writable, ((valid_of_faultFrom hvalid).1 f hf).1, true_and, hexists]

theorem marshal_ok_iff (labels : Labels) (t : Table) : (∃ bytes, (t.marshal labels).1 = .ok bytes) ↔ ∀ f ∈ t.fields, f.Writable := by
  refine ⟨fun ⟨bytes, hbytes⟩ => ?_, fun h => ⟨_, marshal_of_writable h labels⟩⟩
  by_contra h
  obtain ⟨err, herr⟩ := marshal_of_not_writable h labels
  cases hbytes.symm.trans herr

/-- Marshalling a valid table succeeds exactly when it holds no simple value that does not exist. The bytes decode into any table of the
same shape, strict or not, exactly when every key and all text is UTF-8, and every field then holds the value it was written with, a
signalling NaN of single precision made quiet. -/
theorem table_round_trip (labels : Labels) (options : Options) (halloc : options.allocLimit ≤ 0) (t : Table)
    (hvalid : t.fault? = none) (hcount : t.fields.length ≤ 131072) (hsize : ∀ f ∈ t.fields, f.Addressable) :
    ((∃ bytes, (t.marshal labels).1 = .ok bytes) ↔
        ∀ f ∈ t.fields, ∀ v, f.slot? = some (.simple v) → ¬(24 ≤ v ∧ v < 32)) ∧
      ∀ bytes, (t.marshal labels).1 = .ok bytes → ∀ fresh : Table, List.Forall₂ Field.Alike t.fields fresh.fields →
        ((fresh.decode options bytes).1 = none ↔ ∀ f ∈ t.fields, f.IsText) ∧
          ((fresh.decode options bytes).1 = none →
            (fresh.decode options bytes).2.1 = { fresh with fields := t.fields.map Field.quieted }) := by
  refine ⟨(marshal_ok_iff labels t).trans (writable_iff_of_valid hvalid), fun bytes hbytes fresh hlike => ?_⟩
  obtain ⟨hfields, hkeys⟩ := valid_of_faultFrom hvalid
  have hwritable := (marshal_ok_iff labels t).1 ⟨bytes, hbytes⟩
  have hsend : t.Sendable := ⟨hcount, hwritable, hsize, fun f hf => (hfields f hf).2.1, hkeys⟩
  obtain rfl : t.message.encode = bytes := Except.ok.inj ((marshal_of_writable hwritable labels).symm.trans hbytes)
  by_cases htext : ∀ f ∈ t.fields, f.IsText
  · obtain ⟨hnone, hafter⟩ := hsend.decode_of_isText halloc hlike htext
    exact ⟨iff_of_true hnone htext, fun _ => hafter⟩
  · obtain ⟨err, herr⟩ := hsend.decode_of_not_isText halloc hlike htext
    have hsome : (fresh.decode options t.message.encode).1 ≠ none := by simp [herr]
    exact ⟨iff_of_false hsome htext, fun hnone => absurd hnone hsome⟩

/-- A number, a signalling NaN and text, written by a strict table and read by one that is not. -/
theorem signalling_nan_comes_back_quiet :
    let row (n : UInt8) (x : UInt32) (v : Text) : List Field :=
      [(Field.holding ⟨[110]⟩ (.uint8 n)).strictly, .holding ⟨[120]⟩ (.float32 x), .holding ⟨[118]⟩ (.string v)]
    let sent : Table := ⟨row 200 0x7f800001 ⟨[0xc3, 0xa9]⟩, true⟩
    let fresh : Table := ⟨row 0 0 ⟨[]⟩, false⟩
    sent.fault? = none ∧ ∃ bytes, (sent.marshal {}).1 = .ok bytes ∧ (fresh.decode {} bytes).1 = none ∧
      (fresh.decode {} bytes).2.1 = ⟨row 200 0x7fc00001 ⟨[0xc3, 0xa9]⟩, false⟩ := by
  intro row sent fresh
  have hvalid : sent.fault? = none := by decide
  have hsize : ∀ f ∈ sent.fields, f.Addressable := by
    simp [sent, row, Field.Addressable, Field.slot?, Field.holding, Field.strictly, Text.length]
  obtain ⟨hok, hback⟩ := table_round_trip {} {} (by decide) sent hvalid (by decide) hsize
  obtain ⟨bytes, hbytes⟩ := hok.2 (by simp [sent, row, Field.slot?, Field.holding, Field.strictly])
  have hlike : List.Forall₂ Field.Alike sent.fields fresh.fields :=
    .cons ⟨rfl, rfl, rfl, rfl⟩ (.cons ⟨rfl, rfl, rfl, rfl⟩ (.cons ⟨rfl, rfl, rfl, rfl⟩ .nil))
  have htext : ∀ f ∈ sent.fields, f.IsText := by
    simp only [sent, row, List.forall_mem_cons, Field.IsText, Field.slot?, Field.holding, Field.strictly, Option.some.injEq,
      reduceCtorEq, false_imp_iff, implies_true, and_true, Slot.string.injEq, forall_eq', List.not_mem_nil]
    decide
  obtain ⟨hnone, hafter⟩ := hback bytes hbytes fresh hlike
  exact ⟨hvalid, bytes, hbytes, hnone.2 htext, hafter (hnone.2 htext)⟩

end Table

end SensorWire
