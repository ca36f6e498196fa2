import Mathlib
import SensorWire.Proofs.Editing
import SensorWire.Proofs.EventCodec

/-!
# What a fingerprint says

The bytes that a fingerprint is made of are an item that holds the name of a schema, whether it has a header, and the keys and the names
of the types of its fields (`Definition.shapeItem`). Items can be told apart by their encodings, so the bytes determine all of these. They
are also all that the encoding of a message depends on besides its values: `Message.bare` is a message without the rest.

Main statement: equal fingerprints mean the same shape, and the same shape means the same encodings.
-/

namespace SensorWire

open Cbor Item

/-! ## Items that are told apart -/

namespace Cbor.Item

theorem ofText_inj {t u : Text} : ofText t = ofText u ↔ t = u := by
  constructor
  · intro h
    injection h with _ _ hbytes
    exact congrArg Text.mk hbytes
  · exact congrArg ofText

theorem ofBool_inj {b c : Bool} : ofBool b = ofBool c ↔ b = c := by
  cases b <;> cases c <;> simp [ofBool]

theorem ofList_inj {items items' : List Item} : ofList items = ofList items' ↔ items = items' := by
  constructor
  · intro h
    injection h
  · exact congrArg ofList

/-- An array of items that are well formed one level deeper. -/
theorem within_ofList {lim : Limits} {depth : Nat} {items : List Item} (hdepth : depth < lim.depth) (hlen : items.length < 2 ^ 63)
    (hlim : items.length ≤ lim.elements) (h : ∀ i ∈ items, i.Within lim (depth + 1) false) :
    (ofList items).Within lim depth false :=
  ⟨Width.holds_shortest (Nat.lt_trans hlen (by decide)), hdepth, hlen, hlim, allWithin_iff.2 h⟩

end Cbor.Item

/-! ## The shape of a definition -/

namespace Definition

/-- The keys of the fields with the names of their types. -/
def typedKeys (d : Definition) : List (Text × Text) := d.fields.map fun f => (f.key, f.type)

/-- A key with the name of a type, as an item. -/
def typedKeyItem (p : Text × Text) : Item := .ofList [.ofText p.1, .ofText p.2]

/-- The item that a fingerprint is made of. -/
def shapeItem (d : Definition) : Item := .ofList [.ofText d.name, .ofBool d.header, .ofList (d.typedKeys.map typedKeyItem)]

/-- A definition whose name and fields have lengths that can be counted. -/
def Addressable (d : Definition) : Prop := d.name.length < 2 ^ 63 ∧ d.fields.length < 2 ^ 63

theorem typedKeyItem_injective : Function.Injective typedKeyItem := by
  rintro ⟨key, type⟩ ⟨key', type'⟩ h
  simpa only [typedKeyItem, ofList_inj, List.cons.injEq, ofText_inj, and_true, Prod.mk.injEq] using h

theorem shapeItem_inj {d d' : Definition} :
    d.shapeItem = d'.shapeItem ↔ d.name = d'.name ∧ d.header = d'.header ∧ d.typedKeys = d'.typedKeys := by
  simp only [shapeItem, ofList_inj, List.cons.injEq, ofText_inj, ofBool_inj, and_true,
    (List.map_injective_iff.2 typedKeyItem_injective).eq_iff]

end Definition

namespace Schema

open Definition

variable {d d₁ d₂ : Definition} {s s₁ s₂ : Schema} {f : Field}

/-- A type is found by its name. -/
theorem eq_name_of_ofName? {name : Text} {type : FieldType} (h : FieldType.ofName? name = some type) : name = Text.ofString type.name := by
  simpa using List.find?_some h

theorem map_typedKey_of_describes {definitions : List FieldDefinition} {fields : List Field}
    (h : List.Forall₂ Describes definitions fields) :
    (fields.map fun f => (f.key, Text.ofString f.type.name)) = definitions.map fun f => (f.key, f.type) := by
  induction h with
  | nil => rfl
  | cons hf _ ih => rw [List.map_cons, List.map_cons, ih, hf.key, eq_name_of_ofName? hf.type]

/-- The bytes of a fingerprint are those of the definition's shape. -/
theorem shapeBytes_of_compile (h : compile d = .ok s) : s.shapeBytes = d.shapeItem.encode := by
  have hkeys := map_typedKey_of_describes (describes_of_compile h)
  obtain ⟨rfl, -, -⟩ := of_compile h
  rw [shapeItem, typedKeys, ← hkeys, List.map_map]
  rfl

theorem length_name_of_known : ∀ type ∈ FieldType.known, (Text.ofString type.name).length < 2 ^ 63 := by decide

/-- The shape of a definition that makes a schema is a well-formed item. -/
theorem within_shapeItem (h : compile d = .ok s) (hd : d.Addressable) : d.shapeItem.Within { elements := 2 ^ 63 } 0 false := by
  have hpairs : ∀ i ∈ d.typedKeys.map typedKeyItem, i.Within { elements := 2 ^ 63 } 2 false := by
    intro i hi
    rw [typedKeys, ← (of_compile h).1, ← map_typedKey_of_describes (describes_of_compile h), List.map_map] at hi
    obtain ⟨f, hf, rfl⟩ := List.mem_map.1 hi
    obtain ⟨g, -, hdescribes⟩ := exists_left_of_forall₂ (describes_of_compile h) hf
    have hkey : f.key.length ≤ Decoder.maxKeyLength :=
      ((Table.valid_of_faultFrom (valid_of_compile h)).1 f (List.mem_append_right _ hf)).2.1
    have htype := length_name_of_known f.type (List.mem_of_find?_eq_some hdescribes.type)
    refine within_ofList (by decide) (by simp) (by simp) ?_
    simp only [List.forall_mem_cons]
    exact ⟨Event.within_ofText (Nat.lt_of_le_of_lt hkey (by decide)) _ _, Event.within_ofText htype _ _, nofun⟩
  have hcount : (d.typedKeys.map typedKeyItem).length < 2 ^ 63 := by
    rw [List.length_map, typedKeys, List.length_map]
    exact hd.2
  refine within_ofList (by decide) (by simp) (by simp) ?_
  simp only [List.forall_mem_cons]
  refine ⟨Event.within_ofText hd.1 _ _, ?_, within_ofList (by decide) hcount hcount.le hpairs, nofun⟩
  cases d.header
  · exact Or.inl (by decide)
  · exact Or.inl (by decide)

/-- The bytes of a fingerprint determine the shape of the schema. -/
theorem shapeBytes_eq_iff (h₁ : compile d₁ = .ok s₁) (h₂ : compile d₂ = .ok s₂) (hd₁ : d₁.Addressable) (hd₂ : d₂.Addressable) :
    s₁.shapeBytes = s₂.shapeBytes ↔ d₁.name = d₂.name ∧ d₁.header = d₂.header ∧ d₁.typedKeys = d₂.typedKeys := by
  rw [shapeBytes_of_compile h₁, shapeBytes_of_compile h₂, ← shapeItem_inj]
  constructor
  · intro hbytes
    have hwhole : d₁.shapeItem.encode ++ [] = d₂.shapeItem.encode ++ [] := by rw [hbytes]
    exact ((within_shapeItem h₁ hd₁).encode_append_inj (within_shapeItem h₂ hd₂) hwhole).1
  · exact congrArg encode

end Schema

/-! ## What an encoding depends on -/

/-- A slot is told by its type and its value. -/
theorem Slot.eq_of_value {s s' : Slot} (htype : s.type = s'.type) (hvalue : s.value = s'.value) : s = s' := by
  cases s <;> cases s' <;> cases htype
  all_goals simp_all [value, UInt8.toNat_inj, UInt16.toNat_inj, UInt32.toNat_inj, UInt64.toNat_inj]

namespace Field

/-- The key and the type of a field. -/
def typedKey (f : Field) : Text × FieldType := (f.key, f.type)

/-- The field without its check. -/
def unchecked (f : Field) : Field := { f with checked := false }

theorem unchecked_eq_of_value {f g : Field} (hf : f.isBound = true) (hg : g.isBound = true) (htyped : f.typedKey = g.typedKey)
    (hvalue : f.value = g.value) : f.unchecked = g.unchecked := by
  obtain ⟨s, hs⟩ := Option.isSome_iff_exists.1 hf
  obtain ⟨s', hs'⟩ := Option.isSome_iff_exists.1 hg
  obtain ⟨key, checked, rfl⟩ := exists_of_slot? hs
  obtain ⟨key', checked', rfl⟩ := exists_of_slot? hs'
  obtain ⟨rfl, htype⟩ := Prod.mk.inj htyped
  obtain rfl := Slot.eq_of_value htype hvalue
  rfl

theorem map_unchecked_eq {fields fields' : List Field} (hbound : ∀ f ∈ fields, f.isBound = true)
    (hbound' : ∀ f ∈ fields', f.isBound = true) (htyped : fields.map typedKey = fields'.map typedKey)
    (hvalues : (fields.map fun f => (f.key, f.value)) = fields'.map fun f => (f.key, f.value)) :
    fields.map unchecked = fields'.map unchecked := by
  induction fields generalizing fields' with
  | nil => rw [List.map_eq_nil_iff.1 htyped.symm]
  | cons f fields ih =>
    obtain ⟨g, rest, rfl, hg, hrest⟩ := List.map_eq_cons_iff.1 htyped.symm
    obtain ⟨hvalue, hvalues⟩ := List.cons.inj hvalues
    rw [List.forall_mem_cons] at hbound hbound'
    rw [List.map_cons, List.map_cons, ih hbound.2 hbound'.2 hrest.symm hvalues,
      unchecked_eq_of_value hbound.1 hbound'.1 hg.symm (Prod.mk.inj hvalue).2]

end Field

theorem Encoder.putField_unchecked (e : Encoder) (f : Field) : e.putField f.unchecked = e.putField f := rfl

theorem Table.putFields_unchecked (fields : List Field) (e : Encoder) : putFields (fields.map Field.unchecked) e = putFields fields e := by
  have h : ∀ last e, putFields.go last (fields.map Field.unchecked) e = putFields.go last fields e := by
    induction fields with
    | nil => exact fun _ _ => rfl
    | cons f fields ih =>
      intro last e
      simp only [List.map_cons, putFields.go, Encoder.putField_unchecked, ih]
  exact h none e

namespace Message

variable {m r r₁ r₂ : Message}

/-- A message without what its encoding does not depend on: the checks of its fields and their order when it is read. -/
def bare (m : Message) : Message := { name := m.name, table := ⟨m.table.fields.map Field.unchecked, false⟩ }

theorem encode_bare (hrule : m.rule = .plain) (labels : Labels) (capacity : Nat) :
    m.bare.encode labels capacity = m.encode labels capacity := by
  have hsamples : m.hasSamples = false := by rw [hasSamples, hrule]; rfl
  have hpairs : m.bare.pairs = m.pairs := by
    rw [pairs, pairs, hsamples, bare, List.length_map]
    rfl
  have hput : m.bare.putPairs = m.putPairs := by
    funext e
    rw [putPairs, putPairs, hsamples, outgoing, outgoing, hrule]
    exact Table.putFields_unchecked m.table.fields e
  rw [encode, encode, encodeIn, encodeIn, hpairs, hput]
  rfl

theorem marshal_bare (hrule : m.rule = .plain) (labels : Labels) : m.bare.marshal labels = m.marshal labels := by
  have hsize : m.bare.size = m.size := by rw [size, size, encode_bare hrule]
  rw [marshal, marshal, hsize]
  simp only [encode_bare hrule]

theorem OfKind.map_typedKey {blank : Message} (h : m.OfKind blank) :
    m.table.fields.map Field.typedKey = blank.table.fields.map Field.typedKey := by
  have hlike : ∀ {fields fields' : List Field}, List.Forall₂ Field.Alike fields fields' →
      fields'.map Field.typedKey = fields.map Field.typedKey := by
    intro fields fields' h
    induction h with
    | nil => rfl
    | cons hf _ ih => rw [List.map_cons, List.map_cons, ih, Field.typedKey, Field.typedKey, hf.key, hf.type]
  exact hlike h.fields

end Message

/-- Lists of the same pairs in any order are the same if the first components are, in order, and all differ. -/
theorem eq_of_perm_of_map_fst {α β : Type} {as bs : List (α × β)} (hperm : as.Perm bs) (hfst : as.map Prod.fst = bs.map Prod.fst)
    (hnodup : (bs.map Prod.fst).Nodup) : as = bs := by
  refine List.ext_getElem hperm.length_eq fun n hn hn' => ?_
  refine List.inj_on_of_nodup_map hnodup (hperm.subset (List.getElem_mem hn)) (List.getElem_mem hn') ?_
  have h := congrArg (·[n]?) hfst
  simpa [hn, hn'] using h

/-! ## Schemas of the same shape -/

namespace Schema

open Definition Message

variable {d₁ d₂ : Definition} {s₁ s₂ : Schema} {r₁ r₂ : Message}

theorem map_typedKey_headerFields (version version' : UInt32) :
    (Message.headerFields version).map Field.typedKey = (Message.headerFields version').map Field.typedKey := rfl

theorem map_typedKey_of_typedKeys {definitions definitions' : List FieldDefinition} {fields fields' : List Field}
    (h : List.Forall₂ Describes definitions fields) (h' : List.Forall₂ Describes definitions' fields')
    (hkeys : (definitions.map fun f => (f.key, f.type)) = definitions'.map fun f => (f.key, f.type)) :
    fields.map Field.typedKey = fields'.map Field.typedKey := by
  induction h generalizing definitions' fields' with
  | nil =>
    obtain rfl := List.map_eq_nil_iff.1 hkeys.symm
    cases h'
    rfl
  | cons hf _ ih =>
    cases h' with
    | nil => cases hkeys
    | cons hf' hrest' =>
      obtain ⟨hhead, htail⟩ := List.cons.inj hkeys
      obtain ⟨hkey, htype⟩ := Prod.mk.inj hhead
      have hsame := hf.type.symm.trans ((congrArg FieldType.ofName? htype).trans hf'.type)
      rw [List.map_cons, List.map_cons, ih hrest' htail, Field.typedKey, Field.typedKey, hf.key, hf'.key, hkey, Option.some.inj hsame]

/-- New messages of schemas of the same shape have the same keys with the same types. -/
theorem map_typedKey_table (h₁ : compile d₁ = .ok s₁) (h₂ : compile d₂ = .ok s₂) (hheader : d₁.header = d₂.header)
    (hkeys : d₁.typedKeys = d₂.typedKeys) : s₁.table.fields.map Field.typedKey = s₂.table.fields.map Field.typedKey := by
  have hfields₁ := describes_of_compile h₁
  have hfields₂ := describes_of_compile h₂
  obtain ⟨rfl, -, -⟩ := of_compile h₁
  obtain ⟨rfl, -, -⟩ := of_compile h₂
  have hheaders : s₁.headerFields.map Field.typedKey = s₂.headerFields.map Field.typedKey := by
    rw [headerFields, headerFields, hheader]
    split
    · exact map_typedKey_headerFields _ _
    · rfl
  rw [table, table, List.map_append, List.map_append, hheaders, map_typedKey_of_typedKeys hfields₁ hfields₂ hkeys]

/-- Messages of the same shape that hold the same values are the same, but for what their encoding does not depend on. -/
theorem bare_eq_of_entries (h₁ : compile d₁ = .ok s₁) (h₂ : compile d₂ = .ok s₂) (hname : d₁.name = d₂.name)
    (hheader : d₁.header = d₂.header) (hkeys : d₁.typedKeys = d₂.typedKeys) (hr₁ : r₁.OfKind s₁.new) (hr₂ : r₂.OfKind s₂.new)
    (hentries : r₁.entries = r₂.entries) : r₁.bare = r₂.bare := by
  have htyped : r₁.table.fields.map Field.typedKey = r₂.table.fields.map Field.typedKey :=
    hr₁.map_typedKey.trans ((map_typedKey_table h₁ h₂ hheader hkeys).trans hr₂.map_typedKey.symm)
  have hfst : r₁.table.values.map Prod.fst = r₂.table.values.map Prod.fst := by
    have h := congrArg (List.map Prod.fst) htyped
    rw [List.map_map, List.map_map] at h
    rw [Table.values, Table.values, List.map_map, List.map_map]
    exact h
  have hvalues : r₁.table.values = r₂.table.values := by
    refine eq_of_perm_of_map_fst ?_ hfst ?_
    · have hperm₁ : r₁.entries.Perm r₁.table.values := List.mergeSort_perm ..
      have hperm₂ : r₂.entries.Perm r₂.table.values := List.mergeSort_perm ..
      exact hperm₁.symm.trans (hentries ▸ hperm₂)
    · rw [Table.values, List.map_map]
      exact (hr₂.shape (.schema h₂)).keysDiffer
  have hfields := Field.map_unchecked_eq (hr₁.shape (.schema h₁)).bound (hr₂.shape (.schema h₂)).bound htyped hvalues
  have hnames : r₁.name = r₂.name := by
    rw [hr₁.name, hr₂.name]
    obtain ⟨rfl, -, -⟩ := of_compile h₁
    obtain ⟨rfl, -, -⟩ := of_compile h₂
    exact hname
  rw [bare, bare, hfields, hnames]

/-- Schemas have the same bytes for their fingerprints exactly when they have the same name, header, keys and types, and then messages
that hold the same values are encoded alike. Unless these bytes collide, the same goes for the fingerprints. -/
theorem fingerprint_determines_encoding (h₁ : compile d₁ = .ok s₁) (h₂ : compile d₂ = .ok s₂) (hd₁ : d₁.Addressable)
    (hd₂ : d₂.Addressable) :
    (s₁.shapeBytes = s₂.shapeBytes ↔ d₁.name = d₂.name ∧ d₁.header = d₂.header ∧ d₁.typedKeys = d₂.typedKeys) ∧
      (s₁.shapeBytes = s₂.shapeBytes → ∀ r₁ r₂ : Message, r₁.OfKind s₁.new → r₂.OfKind s₂.new → r₁.entries = r₂.entries →
        ∀ labels, r₁.marshal labels = r₂.marshal labels ∧
          ((∀ f ∈ r₁.table.fields, f.Writable) → ∃ bytes, (r₁.marshal labels).1 = .ok bytes ∧ (r₂.marshal labels).1 = .ok bytes)) ∧
      ((Blake3.keyedHash fingerprintKey s₁.shapeBytes = Blake3.keyedHash fingerprintKey s₂.shapeBytes →
          s₁.shapeBytes = s₂.shapeBytes) →
        (s₁.fingerprint = s₂.fingerprint ↔ d₁.name = d₂.name ∧ d₁.header = d₂.header ∧ d₁.typedKeys = d₂.typedKeys)) := by
  have hshape := shapeBytes_eq_iff h₁ h₂ hd₁ hd₂
  refine ⟨hshape, fun hbytes r₁ r₂ hr₁ hr₂ hentries labels => ?_, fun hcollision => ?_⟩
  · obtain ⟨hname, hheader, hkeys⟩ := hshape.1 hbytes
    have hsame : r₁.marshal labels = r₂.marshal labels := by
      rw [← marshal_bare hr₁.rule, ← marshal_bare hr₂.rule, bare_eq_of_entries h₁ h₂ hname hheader hkeys hr₁ hr₂ hentries]
    refine ⟨hsame, fun hwritable => ?_⟩
    have hsends : r₁.Sends := ⟨hr₁.writable_outgoing (.schema h₁) hwritable, fun hsamples => ?_⟩
    · have hok := marshal_of_sends hsends labels
      exact ⟨_, hok, hsame ▸ hok⟩
    · rw [hasSamples, hr₁.rule] at hsamples
      cases hsamples
  · rw [← hshape]
    exact ⟨hcollision, fun hbytes => congrArg (Blake3.keyedHash fingerprintKey) hbytes⟩

/-- Two schemas for probes that differ in all that a fingerprint leaves out, with a message of the one and an edited message of the other
that hold the same values. -/
theorem probes_are_encoded_alike :
    let d₁ : Definition := { name := "Probe", header := true, fields := [⟨"a", "uint8", true⟩] }
    let d₂ : Definition :=
      { name := "Probe", description := "as before", version := 7, header := true, strict := true, fields := [⟨"a", "uint8", false⟩] }
    let s₁ : Schema := ⟨d₁, [⟨"a", .bound (.uint8 0), true⟩]⟩
    let s₂ : Schema := ⟨d₂, [⟨"a", .bound (.uint8 0), false⟩]⟩
    let r₂ := s₂.new.editAll [.set "version" (.integer .int 1)]
    compile d₁ = .ok s₁ ∧ compile d₂ = .ok s₂ ∧ s₁.shapeBytes = s₂.shapeBytes ∧ s₁.new.entries = r₂.entries ∧
      s₁.new.marshal {} = r₂.marshal {} := by
  intro d₁ d₂ s₁ s₂ r₂
  have h₁ : compile d₁ = .ok s₁ := by rfl
  have h₂ : compile d₂ = .ok s₂ := by rfl
  have hentries : s₁.new.entries = r₂.entries := by rfl
  have hshape := fingerprint_determines_encoding h₁ h₂ ⟨by decide, by decide⟩ ⟨by decide, by decide⟩
  have hbytes : s₁.shapeBytes = s₂.shapeBytes := hshape.1.2 ⟨rfl, rfl, rfl⟩
  have hblank : s₂.new.Blank := .schema h₂
  have hr₂ : r₂.OfKind s₂.new := hblank.ofKind_self.of_revision (hblank.ofKind_self.revision_editAll hblank _ rfl)
  exact ⟨h₁, h₂, hbytes, hentries, (hshape.2.1 hbytes _ _ (Blank.schema h₁).ofKind_self hr₂ hentries {}).1⟩

end Schema

end SensorWire
