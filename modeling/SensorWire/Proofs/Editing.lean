import Mathlib
import SensorWire.Message.Apply
import SensorWire.Proofs.Cleanup
import SensorWire.Proofs.NormalForm
import SensorWire.Proofs.Normaliser
import SensorWire.Schema.Record

/-!
# Editing messages

A message is edited by setting fields and by decoding into it (`Message.Edit`), and an edit may fail half way. Whatever comes of it, the
fields keep their keys and types, and fields that could be written still can: no edit puts a simple value that does not exist into a
field. `Table.Revision` is what one edit keeps, and so what any number of them keep.

Main statement: a message that was made blank and then edited can be encoded.
-/

namespace SensorWire

open Cbor Item Decoder

/-! ## Slots -/

namespace Slot

/-- A slot that can be written: it holds no simple value that does not exist. -/
def Writable (s : Slot) : Prop := ∀ v, s = .simple v → v < 24 ∨ 32 ≤ v

variable {s s' : Slot}

theorem writable_of_type (h : s.type ≠ .simple) : s.Writable := by
  rintro v rfl
  exact absurd rfl h

theorem type_release (s : Slot) : s.release.type = s.type := by
  cases s <;> rfl

theorem Writable.release (h : s.Writable) : s.release.Writable := by
  cases s with
  | string v => exact writable_of_type nofun
  | bytes v => exact writable_of_type nofun
  | _ => exact h

end Slot

theorem Value.le_of_toUnsigned {v : Value} {key : Text} {limit n : Nat} (h : v.toUnsigned key limit = .ok n) : n ≤ limit := by
  unfold toUnsigned at h
  dsimp only at h
  split at h
  all_goals try split at h
  all_goals try split at h
  all_goals cases h
  all_goals omega

/-- A converted value has the type of its slot, and a simple value exists. -/
theorem Slot.of_set {key : Text} {s s' : Slot} {v : Value} (h : s.set key v = .ok s') : s'.type = s.type ∧ s'.Writable := by
  -- only a simple value could be one that cannot be written
  have hother : s.type ≠ .simple → s'.type = s.type → s'.type = s.type ∧ s'.Writable :=
    fun hs hs' => ⟨hs', writable_of_type (hs' ▸ hs)⟩
  cases s with
  | simple w =>
    obtain ⟨n, hn, hset⟩ := bind_eq_ok_iff.1 h
    split at hset
    · cases hset
    · rename_i hreserved
      cases hset
      refine ⟨rfl, fun v hv => (reservedSimple_eq_false_iff v).1 ?_⟩
      have hsmall : n < UInt8.size := Nat.lt_succ_of_le (Value.le_of_toUnsigned hn)
      cases hv
      rw [UInt8.toNat_ofNat_of_lt' hsmall]
      exact Bool.not_eq_true _ ▸ hreserved
  | uint8 w | uint16 w | uint32 w | uint64 w | float32 w | float64 w | bytes w =>
    obtain ⟨n, -, hset⟩ := bind_eq_ok_iff.1 h
    cases hset
    exact hother nofun rfl
  | bool w =>
    rw [set.eq_def] at h
    dsimp only at h
    split at h
    · cases h
      exact hother nofun rfl
    · obtain ⟨n, -, hset⟩ := bind_eq_ok_iff.1 h
      cases hset
      exact hother nofun rfl
  | string w =>
    rw [set.eq_def] at h
    dsimp only at h
    split at h
    · cases h
      exact hother nofun rfl
    · cases h

/-! ## Fields -/

namespace Field

variable {f g h : Field} {s : Slot}

theorem writable_iff : f.Writable ↔ ∃ s, f.slot? = some s ∧ s.Writable := by
  rw [Writable, isBound, Option.isSome_iff_exists]
  constructor
  · rintro ⟨⟨s, hs⟩, hsimple⟩
    refine ⟨s, hs, ?_⟩
    rintro v rfl
    exact hsimple v hs
  · rintro ⟨s, hs, hsimple⟩
    exact ⟨⟨s, hs⟩, fun v hv => hsimple v (Option.some.inj (hs.symm.trans hv))⟩

/-- A field with another slot of its type keeps its shape. -/
theorem shape_store (h : f.slot?.map Slot.type = some s.type) : (f.store s).shape = f.shape := by
  rw [shape, shape, h]
  rfl

theorem writable_store (h : s.Writable) : (f.store s).Writable := writable_iff.2 ⟨s, rfl, h⟩

/-- A field of a shape that is like another's. -/
theorem Alike.of_shape (hfg : f.Alike g) (hgh : h.shape = g.shape) : f.Alike h := by
  obtain ⟨hkey, hchecked, hslot⟩ : h.key = g.key ∧ h.checked = g.checked ∧ h.slot?.map Slot.type = g.slot?.map Slot.type := by
    simpa only [shape, Prod.mk.injEq] using hgh
  obtain ⟨s, hs⟩ := Option.isSome_iff_exists.1 hfg.bound
  rw [hs, Option.map_some, Option.map_eq_some_iff] at hslot
  obtain ⟨s', hs', htype⟩ := hslot
  refine ⟨hkey.trans hfg.key, ?_, hchecked.trans hfg.checked, ?_⟩
  · rw [type_of_slot? hs', htype, ← type_of_slot? hs, hfg.type]
  · rw [isBound, hs', Option.isSome_some]

theorem Alike.forall₂_of_shapes {blanks fields fields' : List Field} (hlike : List.Forall₂ Alike blanks fields)
    (hshapes : fields'.map shape = fields.map shape) : List.Forall₂ Alike blanks fields' := by
  induction hlike generalizing fields' with
  | nil =>
    obtain rfl := List.map_eq_nil_iff.1 hshapes
    exact .nil
  | cons hf _ ih =>
    obtain ⟨g, rest, rfl, hg, hrest⟩ := List.map_eq_cons_iff.1 hshapes
    exact .cons (hf.of_shape hg) (ih hrest)

/-- Setting a field keeps its shape, and leaves one that can be written. -/
theorem of_set {v : Value} (hset : f.set v = .ok g) : g.shape = f.shape ∧ g.Writable := by
  unfold set at hset
  split at hset
  · rename_i s hs
    obtain ⟨s', hs', hg⟩ := bind_eq_ok_iff.1 hset
    cases hg
    obtain ⟨htype, hwritable⟩ := Slot.of_set hs'
    refine ⟨shape_store ?_, writable_store hwritable⟩
    rw [slot?, hs, htype]
    rfl
  · cases hset

end Field

/-! ## Tables -/

namespace Table

/-- What editing keeps of a table: the keys and types of its fields, and that they can be written. -/
structure Revision (t t' : Table) : Prop where
  strict : t'.strict = t.strict
  shapes : t'.fields.map Field.shape = t.fields.map Field.shape
  writable : (∀ f ∈ t.fields, f.Writable) → ∀ f ∈ t'.fields, f.Writable

variable {t t' t'' : Table} {key : Text} {fields : List Field} {update : Field → Field} {d : Decoder}

theorem Revision.refl (t : Table) : t.Revision t := ⟨rfl, rfl, id⟩

theorem Revision.trans (h : t.Revision t') (h' : t'.Revision t'') : t.Revision t'' :=
  ⟨h'.strict.trans h.strict, h'.shapes.trans h.shapes, h'.writable ∘ h.writable⟩

theorem Revision.keys (h : t.Revision t') : t'.fields.map Field.key = t.fields.map Field.key := by
  have hshapes := congrArg (List.map Prod.fst) h.shapes
  rw [List.map_map, List.map_map] at hshapes
  exact hshapes

theorem map_updateFirst {α : Type} {g : Field → α} (h : ∀ f, fields.find? (fun f => f.key == key) = some f → g (update f) = g f) :
    (updateFirst key update fields).map g = fields.map g := by
  induction fields with
  | nil => rfl
  | cons f fields ih =>
    rw [updateFirst]
    split
    · rename_i hkey
      rw [List.map_cons, List.map_cons, h f (List.find?_cons_of_pos hkey)]
    · rename_i hkey
      rw [List.map_cons, List.map_cons, ih fun f' hf' => h f' ((List.find?_cons_of_neg (p := fun f => f.key == key) (a := f) hkey).trans hf')]

theorem mem_updateFirst {g : Field} (hg : g ∈ updateFirst key update fields) :
    g ∈ fields ∨ ∃ f, fields.find? (fun f => f.key == key) = some f ∧ g = update f := by
  induction fields with
  | nil => cases hg
  | cons f fields ih =>
    rw [updateFirst] at hg
    split at hg
    · rename_i hkey
      rcases List.mem_cons.1 hg with rfl | hmem
      · exact Or.inr ⟨f, List.find?_cons_of_pos hkey, rfl⟩
      · exact Or.inl (List.mem_cons_of_mem f hmem)
    · rename_i hkey
      rcases List.mem_cons.1 hg with rfl | hmem
      · exact Or.inl List.mem_cons_self
      · obtain hmem | ⟨f', hfind, rfl⟩ := ih hmem
        · exact Or.inl (List.mem_cons_of_mem f hmem)
        · exact Or.inr ⟨f', (List.find?_cons_of_neg (p := fun f => f.key == key) (a := f) hkey).trans hfind, rfl⟩

/-- A table with a field replaced by one of the same shape that can be written. -/
theorem revision_update (h : ∀ f, t.lookup? key = some f → (update f).shape = f.shape ∧ (update f).Writable) :
    t.Revision (t.update key update) := by
  refine ⟨rfl, map_updateFirst fun f hf => (h f hf).1, fun hwritable f hf => ?_⟩
  obtain hmem | ⟨g, hg, rfl⟩ := mem_updateFirst hf
  · exact hwritable f hmem
  · exact (h g hg).2

/-! ### Decoding into a table -/

theorem within_of_mem_pairsOf {n : Nat} {bytes : List UInt8} {p : Item × Item} (h : p ∈ pairsOf n bytes) : p.2.Within {} 0 false := by
  induction n generalizing bytes with
  | zero => cases h
  | succ n ih =>
    rw [pairsOf] at h
    split at h
    · cases h
    · split at h
      · cases h
      · rename_i value rest hvalue
        rcases List.mem_cons.1 h with rfl | hmem
        · exact (read_eq_ok_iff.1 hvalue).2
        · exact ih hmem

/-- A decode stores only slots that can be written. -/
theorem writable_of_mem_storedAt {k : Nat} {f : Field} {s : Slot} (hf : t.fields[k]? = some f)
    (hs : s ∈ storedAt k (t.journal d)) : s.Writable := by
  obtain ⟨p, hp, s₀, -, hsuits, rfl⟩ := exists_of_mem_storedAt hf hs
  intro v hv
  have hin := within_of_mem_pairsOf hp
  rw [Slot.eq_simple_of_filled hsuits hv] at hin
  exact hin

theorem getElem?_fields_record (t : Table) (verdicts : List Verdict) (failed : Bool) (k : Nat) :
    ((t.record verdicts).fields failed)[k]? = t.fields[k]?.map fun f => match (storedAt k verdicts).getLast? with
      | none => f
      | some s => f.store (if failed then s.release else s) := by
  cases failed with
  | true => exact getElem?_released t verdicts k
  | false =>
    rw [Walk.fields, List.getElem?_map, getElem?_record, Option.map_map]
    refine congrArg (Option.map · _) (funext fun f => ?_)
    exact Entry.field_foldl_store (storedAt k verdicts) ⟨f, false⟩

/-- What a walk makes of a field, cleared or not: it has the same shape, and can be written if it could be before. -/
theorem field_of_record {failed : Bool} {k : Nat} {f g : Field} (hf : t.fields[k]? = some f)
    (hg : ((t.record (t.journal d)).fields failed)[k]? = some g) : g.shape = f.shape ∧ (f.Writable → g.Writable) := by
  rw [getElem?_fields_record, hf, Option.map_some, Option.some.injEq] at hg
  subst hg
  cases hlast : (storedAt k (t.journal d)).getLast? with
  | none => exact ⟨rfl, id⟩
  | some s =>
    have hmem := List.mem_of_getLast? hlast
    have htype := type_of_mem_storedAt hf hmem
    have hwritable := writable_of_mem_storedAt hf hmem
    cases failed with
    | false => exact ⟨Field.shape_store htype, fun _ => Field.writable_store hwritable⟩
    | true => exact ⟨Field.shape_store (htype.trans (congrArg some s.type_release.symm)), fun _ => Field.writable_store hwritable.release⟩

theorem revision_record (t : Table) (d : Decoder) (failed : Bool) :
    t.Revision { t with fields := (t.record (t.journal d)).fields failed } := by
  refine ⟨rfl, List.ext_getElem? fun k => ?_, fun hwritable g hg => ?_⟩
  · rw [List.getElem?_map, List.getElem?_map]
    cases hf : t.fields[k]? with
    | none => rw [getElem?_fields_record, hf]; rfl
    | some f =>
      have hg := getElem?_fields_record t (t.journal d) failed k
      rw [hf, Option.map_some] at hg
      rw [hg, Option.map_some, Option.map_some, (field_of_record hf hg).1]
  · obtain ⟨k, hk⟩ := List.mem_iff_getElem?.1 hg
    have hsome := hk
    rw [getElem?_fields_record, Option.map_eq_some_iff] at hsome
    obtain ⟨f, hf, -⟩ := hsome
    exact (field_of_record hf hk).2 (hwritable f (List.mem_of_getElem? hf))

/-- Decoding keeps the shapes of the fields and that they can be written, however it ends. -/
theorem revision_decode (t : Table) (options : Options) (data : List UInt8) : t.Revision (t.decode options data).2.1 := by
  have hdecoded := t.decoded options data
  generalize t.decode options data = r at hdecoded
  cases hdecoded with
  | barred _ => exact .refl t
  | stuck _ _ _ _ _ => exact revision_record t _ true
  | unfinished _ _ _ _ => exact revision_record t _ true
  | finished _ _ _ _ => exact revision_record t _ false

end Table

/-! ## Messages -/

/-- The key of the payload, if messages with a rule carry one. -/
def Rule.data? : Rule → Option Text
  | payload _ data => some data
  | _ => none

theorem Catalog.data_of_mem : ∀ b ∈ Catalog.all, ∀ key ∈ b.rule.data?, ∀ f ∈ b.table.fields, f.key = key → f.type = .bytes := by
  decide +kernel

theorem Catalog.simple_of_mem : ∀ b ∈ Catalog.all, ∀ f ∈ b.table.fields, f.slot? = some (.simple 0) ∨ f.type ≠ .simple := by
  decide +kernel

/-- A field that a definition describes: it has its key, and the empty slot of its type. -/
structure Schema.Describes (d : FieldDefinition) (f : Field) : Prop where
  key : f.key = d.key
  type : FieldType.ofName? d.type = some f.type
  slot : f.slot? = Slot.ofType? f.type

theorem Schema.describes_of_field {name : Text} {index : Nat} {d : FieldDefinition} {f : Field} (h : field name index d = .ok f) :
    Describes d f := by
  unfold field at h
  split at h
  · cases h
  · rename_i type htype
    split_ifs at h
    · cases h
    obtain rfl := Except.ok.inj h
    have hslot : Field.type ⟨d.key, (Slot.ofType? type).elim (.unbound type) .bound, d.checked⟩ = type := by cases type <;> rfl
    refine ⟨rfl, hslot.symm ▸ htype, ?_⟩
    rw [hslot]
    cases type <;> rfl

theorem Schema.describes_of_fieldsFrom {name : Text} {index : Nat} {definitions : List FieldDefinition} {fields : List Field}
    (h : fieldsFrom name index definitions = .ok fields) : List.Forall₂ Describes definitions fields := by
  induction definitions generalizing index fields with
  | nil =>
    cases h
    exact .nil
  | cons d definitions ih =>
    obtain ⟨f, hf, hmore⟩ := bind_eq_ok_iff.1 h
    obtain ⟨rest, hrest, hfields⟩ := bind_eq_ok_iff.1 hmore
    cases hfields
    exact .cons (describes_of_field hf) (ih hrest)

/-- The fields of a schema are those of its definition. -/
theorem Schema.describes_of_compile {definition : Definition} {s : Schema} (h : compile definition = .ok s) :
    List.Forall₂ Describes s.definition.fields s.fields := by
  obtain ⟨rfl, hfields, -⟩ := of_compile h
  exact describes_of_fieldsFrom hfields

theorem Schema.simple_of_compile {definition : Definition} {s : Schema} (h : compile definition = .ok s) :
    ∀ f ∈ s.table.fields, f.slot? = some (.simple 0) ∨ f.type ≠ .simple := by
  intro f hf
  rcases List.mem_append.1 hf with hheader | hfield
  · have htypes : ∀ version, ∀ g ∈ Message.headerFields version, g.type ≠ .simple := by simp [Message.headerFields, Field.holding, Field.type, Slot.type]
    rw [headerFields] at hheader
    split at hheader
    · exact Or.inr (htypes _ f hheader)
    · cases hheader
  · obtain ⟨d, -, hdescribes⟩ := exists_left_of_forall₂ (describes_of_compile h) hfield
    by_cases htype : f.type = .simple
    · rw [hdescribes.slot, htype]
      exact Or.inl rfl
    · exact Or.inr htype

namespace Message

variable {m m' m'' blank : Message} {key : Text} {v : Value}

/-- What editing keeps of a message. -/
structure Revision (m m' : Message) : Prop where
  name : m'.name = m.name
  rule : m'.rule = m.rule
  table : m.table.Revision m'.table

theorem Revision.refl (m : Message) : m.Revision m := ⟨rfl, rfl, .refl m.table⟩

theorem Revision.trans (h : m.Revision m') (h' : m'.Revision m'') : m.Revision m'' :=
  ⟨h'.name.trans h.name, h'.rule.trans h.rule, h.table.trans h'.table⟩

theorem OfKind.of_revision (hm : m.OfKind blank) (h : m.Revision m') : m'.OfKind blank :=
  ⟨h.name.trans hm.name, h.rule.trans hm.rule, h.table.strict.trans hm.strict, Field.Alike.forall₂_of_shapes hm.fields h.table.shapes⟩

/-! ### Setting fields -/

/-- Setting the field with a key, which was found. -/
theorem revision_update {f g : Field} (hf : m.table.lookup? key = some f) (hg : f.set v = .ok g) :
    m.Revision { m with table := m.table.update key fun _ => g } := by
  refine ⟨rfl, rfl, Table.revision_update fun f' hf' => ?_⟩
  obtain rfl := Option.some.inj (hf.symm.trans hf')
  exact Field.of_set hg

theorem revision_set (h : m.set key v = .ok m') : m.Revision m' := by
  unfold set at h
  split at h
  · cases h
  · rename_i f hf
    obtain ⟨g, hg, hm⟩ := bind_eq_ok_iff.1 h
    cases hm
    exact revision_update hf hg

theorem revision_setValue (h : m.setValue key v = .ok (some m')) : m.Revision m' := by
  unfold setValue at h
  split_ifs at h
  · split at h
    · obtain ⟨values, -, hm⟩ := bind_eq_ok_iff.1 h
      cases hm
      exact ⟨rfl, rfl, .refl m.table⟩
    · cases h
  · split at h
    · cases h
    · rename_i f hf
      obtain ⟨g, hg, hm⟩ := bind_eq_ok_iff.1 h
      cases hm
      exact revision_update hf hg

/-- Setting values one after the other, up to the first that is refused. -/
theorem revision_setValues (values : List (Text × Value)) (m : Message) : m.Revision (setValues values m).2.2 := by
  induction values generalizing m with
  | nil => exact .refl m
  | cons p values ih =>
    obtain ⟨key, v⟩ := p
    rw [setValues]
    split
    · exact .refl m
    · rename_i m' hset
      exact (revision_setValue hset).trans (ih m')
    · exact ih m

theorem revision_apply (values : List (Text × Value)) (m : Message) : m.Revision (m.apply values).2 := by
  have hset := revision_setValues (values.mergeSort fun a b => a.1.le b.1) m
  unfold apply
  dsimp only
  split
  · rename_i hrun
    rwa [hrun] at hset
  · rename_i hrun
    rwa [hrun] at hset
  · rename_i hrun
    rwa [hrun] at hset

/-! ### Decoding -/

theorem OfKind.revision_clearPayload (hblank : blank.Blank) (hm : m.OfKind blank) : m.Revision m.clearPayload := by
  unfold clearPayload
  split
  · rename_i length data hrule
    refine ⟨rfl, rfl, Table.revision_update fun f hf => ?_⟩
    have hmem : f ∈ m.table.fields := List.mem_of_find?_eq_some hf
    have hkey : f.key = data := by simpa using List.find?_some hf
    obtain ⟨g, hg, hlike⟩ := hm.exists_blank hmem
    have htype : f.type = .bytes := by
      rw [hm.rule] at hrule
      cases hblank with
      | catalogue h => exact hlike.type.trans (Catalog.data_of_mem _ h data (by rw [hrule]; rfl) g hg (hlike.key.symm.trans hkey))
      | schema h => cases hrule
    obtain ⟨s, hs⟩ := Option.isSome_iff_exists.1 ((hm.shape hblank).bound f hmem)
    refine ⟨Field.shape_store ?_, Field.writable_store (Slot.writable_of_type nofun)⟩
    rw [hs, Option.map_some, ← Field.type_of_slot? hs, htype]
    rfl
  · exact .refl m

/-- Decoding into a message without samples keeps the shapes of its fields and that they can be written, however it ends. -/
theorem OfKind.revision_decode (hblank : blank.Blank) (hm : m.OfKind blank) (hsamples : m.hasSamples = false) (lenient : Bool)
    (options : Options) (data : List UInt8) : m.Revision (m.decode lenient options data).2.1 := by
  have hread : m.Revision (m.readMap lenient (m.labelled options) data).2.1 := by
    have htable := Table.revision_decode { m.table with strict := !lenient } (m.labelled options) data
    rw [readMap, hsamples]
    exact ⟨rfl, rfl, rfl, htable.shapes, htable.writable⟩
  rw [decode_eq_checkPayload]
  unfold checkPayload
  dsimp only
  split
  · exact hread
  · split
    · exact hread.trans ((hm.of_revision hread).revision_clearPayload hblank)
    · exact hread

/-! ### Edits -/

/-- A change to a message. -/
inductive Edit where
  | apply (values : List (Text × Value))
  | set (key : Text) (v : Value)
  | decode (lenient : Bool) (options : Options) (data : List UInt8)

/-- The message that a change leaves, whether it succeeds or not. -/
def edit (m : Message) : Edit → Message
  | .apply values => (m.apply values).2
  | .set key v => (m.set key v).toOption.getD m
  | .decode lenient options data => (m.decode lenient options data).2.1

/-- The message that changes leave, one after the other. -/
def editAll (edits : List Edit) (m : Message) : Message := edits.foldl edit m

/-- What every change of a message without samples keeps. -/
theorem OfKind.revision_edit (hblank : blank.Blank) (hm : m.OfKind blank) (hsamples : m.hasSamples = false) (e : Edit) :
    m.Revision (m.edit e) := by
  cases e with
  | apply values => exact revision_apply values m
  | set key v =>
    rw [edit]
    cases hset : m.set key v with
    | error err => exact .refl m
    | ok m' => exact revision_set hset
  | decode lenient options data => exact hm.revision_decode hblank hsamples lenient options data

theorem OfKind.revision_editAll (hblank : blank.Blank) (edits : List Edit) (hm : m.OfKind blank) (hsamples : m.hasSamples = false) :
    m.Revision (m.editAll edits) := by
  induction edits generalizing m with
  | nil => exact .refl m
  | cons e edits ih =>
    have hstep := hm.revision_edit hblank hsamples e
    have hsamples' : (m.edit e).hasSamples = false := by rwa [hasSamples, hstep.rule]
    exact hstep.trans (ih (hm.of_revision hstep) hsamples')

/-! ## Encoding what was edited -/

/-- The fields of a blank message can be written. -/
theorem Blank.writable (h : m.Blank) : ∀ f ∈ m.table.fields, f.Writable := by
  intro f hf
  refine ⟨((Table.valid_of_faultFrom h.valid).1 f hf).1, fun v hv => ?_⟩
  have hsimple : f.slot? = some (.simple 0) ∨ f.type ≠ .simple := by
    cases h with
    | catalogue h => exact Catalog.simple_of_mem m h f hf
    | schema h => exact Schema.simple_of_compile h f hf
  rcases hsimple with hzero | htype
  · cases hv.symm.trans hzero
    exact Or.inl (by decide)
  · exact absurd (Field.type_of_slot? hv) htype

/-- What a message sends can be written if what it holds can. -/
theorem OfKind.writable_outgoing (hblank : blank.Blank) (hm : m.OfKind blank) (h : ∀ f ∈ m.table.fields, f.Writable) :
    ∀ f ∈ m.outgoing.fields, f.Writable := by
  cases hblank with
  | catalogue hb =>
    rw [hm.fields_outgoing hb]
    rintro _ hf
    obtain ⟨f, hmem, rfl⟩ := List.mem_map.1 hf
    rcases m.sent_cases f with hsame | ⟨s, -, hstore, htype⟩
    · rw [hsame]
      exact h f hmem
    · rw [hstore]
      refine Field.writable_store (Slot.writable_of_type ?_)
      rcases htype with htype | htype <;> rw [htype] <;> exact nofun
  | schema hs =>
    rw [outgoing, hm.rule]
    exact h

/-- A message without samples that was edited can be written. -/
theorem Blank.sends_editAll (hblank : m.Blank) (hsamples : m.hasSamples = false) (edits : List Edit) : (m.editAll edits).Sends := by
  have hrevision := hblank.ofKind_self.revision_editAll hblank edits hsamples
  refine ⟨(hblank.ofKind_self.of_revision hrevision).writable_outgoing hblank (hrevision.table.writable hblank.writable), fun h => ?_⟩
  rw [hasSamples, hrevision.rule] at h
  cases hsamples.symm.trans h

/-- A message of the catalogue other than the one with samples, or of a schema, can be encoded after any changes, whether they succeeded or
not, and its size is that of its encoding. -/
theorem edited_message_marshals {blank : Message}
    (hblank : (blank ∈ Catalog.all ∧ blank.name ≠ "RbrPressureDifferenceSignal") ∨
      ∃ definition s, Schema.compile definition = .ok s ∧ blank = s.new)
    (edits : List Edit) (labels : Labels) :
    ∃ bytes, ((blank.editAll edits).marshal labels).1 = .ok bytes ∧ (blank.editAll edits).size = .ok bytes.length := by
  have hsends : (blank.editAll edits).Sends := by
    rcases hblank with ⟨hb, hname⟩ | ⟨definition, s, hs, rfl⟩
    · have hb' : blank.Blank := .catalogue hb
      refine hb'.sends_editAll (Bool.eq_false_iff.2 fun hsamples => hname ?_) edits
      exact (hb'.ofKind_self.hasSamples_iff hb).1 hsamples
    · exact (Blank.schema hs).sends_editAll rfl edits
  exact ⟨_, marshal_of_sends hsends labels, size_of_sends hsends⟩

/-- A status after changes of which three failed: a simple value that does not exist was set, then decoded, and in the last
input the second pair does not suit. -/
theorem edited_status_marshals :
    let blank := Catalog.sensor "BorealisRecordingStatus"
      ([.holding "flags" (.simple 0), .holding "filename" (.string "")] ++ Catalog.singles ["seconds_written", "seconds_free"])
    let edits : List Edit := [.set "flags" (.integer .int 7), .set "flags" (.integer .int 24),
      .decode true {} [0xa1, 0x65, 0x66, 0x6c, 0x61, 0x67, 0x73, 0xf8, 0x18],
      .decode true {} [0xa2, 0x65, 0x66, 0x6c, 0x61, 0x67, 0x73, 0xf8, 0xff,
        0x68, 0x66, 0x69, 0x6c, 0x65, 0x6e, 0x61, 0x6d, 0x65, 0x05]]
    blank ∈ Catalog.all ∧ ((blank.editAll edits).table.lookup? "flags").bind Field.slot? = some (.simple 255) ∧
      ∃ bytes, ((blank.editAll edits).marshal {}).1 = .ok bytes ∧ (blank.editAll edits).size = .ok bytes.length :=
  ⟨by decide, by decide +kernel, edited_message_marshals (Or.inl ⟨by decide, by decide⟩) _ _⟩

end Message

end SensorWire
