import Mathlib
import SensorWire.Message.Catalog
import SensorWire.Proofs.RoundTrip
import SensorWire.Schema.Basic

/-!
# Kinds of messages

A message is of the kind of a blank one (`Message.OfKind`) when it has the same name, rule and fields, whatever the fields hold. The blank
messages (`Message.Blank`) are those of the catalogue and those that a schema makes. The table of each is valid, and so is the table of
every message of its kind.

Main statements: `Blank.valid` and `OfKind.shape`.
-/

namespace SensorWire

open Decoder

/-- What stands on the right of a relation between lists has something on the left. -/
theorem exists_left_of_forall₂ {α β : Type} {R : α → β → Prop} {as : List α} {bs : List β} (h : List.Forall₂ R as bs) {b : β}
    (hb : b ∈ bs) : ∃ a ∈ as, R a b := by
  obtain ⟨n, hn, rfl⟩ := List.mem_iff_getElem.1 hb
  have hlen : n < as.length := h.length_eq ▸ hn
  exact ⟨as[n], List.getElem_mem hlen, h.get hlen hn⟩

/-- Where keys differ, what has a key is found by it. -/
theorem find?_key_of_mem {α β : Type} [BEq β] [LawfulBEq β] {key : α → β} {as : List α} (h : (as.map key).Nodup) {a : α} (ha : a ∈ as) :
    as.find? (fun x => key x == key a) = some a := by
  obtain ⟨b, hb⟩ := Option.isSome_iff_exists.1 (List.find?_isSome (p := fun x => key x == key a).2 ⟨a, ha, beq_self_eq_true _⟩)
  have hkey : key b = key a := by simpa using List.find?_some hb
  rw [hb, List.inj_on_of_nodup_map h (List.mem_of_find?_eq_some hb) ha hkey]

theorem Catalog.valid_of_mem : ∀ m ∈ Catalog.all, m.table.fault? = none := by decide +kernel

/-- The message with samples has its fields in order, and the key of the samples is none of theirs. -/
theorem Catalog.samples_of_mem : ∀ m ∈ Catalog.all, m.rule = .samples →
    m.table.strict = true ∧ ∀ f ∈ m.table.fields, f.key ≠ Message.samplesKey := by decide +kernel

/-- What a schema is made of: its definition, the fields that the definition describes, and a valid table. -/
theorem Schema.of_compile {definition : Definition} {s : Schema} (h : Schema.compile definition = .ok s) :
    s.definition = definition ∧ fieldsFrom definition.name 0 definition.fields = .ok s.fields ∧ s.table.fault? = none := by
  unfold compile at h
  split_ifs at h
  · cases h
  · cases h
  · obtain ⟨fields, hfields, hs⟩ := Cbor.bind_eq_ok_iff.1 h
    dsimp only at hs
    split at hs
    · cases hs
    · rename_i hvalid
      cases hs
      exact ⟨rfl, hfields, hvalid⟩

/-- Only definitions with a valid table are made into schemas. -/
theorem Schema.valid_of_compile {definition : Definition} {s : Schema} (h : Schema.compile definition = .ok s) :
    s.table.fault? = none := (of_compile h).2.2

namespace Message

/-- The messages that all others of their kind are made from. -/
inductive Blank : Message → Prop
  | catalogue {m : Message} (h : m ∈ Catalog.all) : Blank m
  | schema {definition : Definition} {s : Schema} (h : Schema.compile definition = .ok s) : Blank s.new

/-- A message of the kind of another, whatever they hold. -/
structure OfKind (m blank : Message) : Prop where
  name : m.name = blank.name
  rule : m.rule = blank.rule
  strict : m.table.strict = blank.table.strict
  fields : List.Forall₂ Field.Alike blank.table.fields m.table.fields

theorem Blank.valid {m : Message} (h : m.Blank) : m.table.fault? = none := by
  cases h with
  | catalogue h => exact Catalog.valid_of_mem m h
  | schema h => exact Schema.valid_of_compile h

/-- A blank message is of its own kind. -/
theorem Blank.ofKind_self {m : Message} (h : m.Blank) : m.OfKind m := by
  refine ⟨rfl, rfl, rfl, List.forall₂_same.2 fun f hf => ⟨rfl, rfl, rfl, ?_⟩⟩
  exact ((Table.valid_of_faultFrom h.valid).1 f hf).1

theorem Blank.samples {m : Message} (h : m.Blank) (hrule : m.rule = .samples) :
    m.table.strict = true ∧ ∀ f ∈ m.table.fields, f.key ≠ samplesKey := by
  cases h with
  | catalogue h => exact Catalog.samples_of_mem m h hrule
  | schema h => cases hrule

/-- What the fields of a kind of messages are like: they have slots, and keys that differ and are short enough to be looked up. -/
structure Shape (fields : List Field) : Prop where
  bound : ∀ f ∈ fields, f.isBound = true
  shortKeys : ∀ f ∈ fields, f.key.length ≤ maxKeyLength
  keysDiffer : (fields.map Field.key).Nodup

/-- A field of a message has its shape from a field of the blank one. -/
theorem OfKind.exists_blank {m blank : Message} (h : m.OfKind blank) {f : Field} (hf : f ∈ m.table.fields) :
    ∃ g ∈ blank.table.fields, g.Alike f := exists_left_of_forall₂ h.fields hf

theorem OfKind.shape {m blank : Message} (h : m.OfKind blank) (hblank : blank.Blank) : Shape m.table.fields := by
  obtain ⟨hfields, hkeys⟩ := Table.valid_of_faultFrom hblank.valid
  refine ⟨Field.Alike.forall_bound h.fields, fun f hf => ?_, Field.Alike.map_key h.fields ▸ hkeys⟩
  obtain ⟨g, hg, hlike⟩ := h.exists_blank hf
  rw [hlike.key]
  exact (hfields g hg).2.1

/-- The fields of the blank message are like those of a message of its kind. -/
theorem OfKind.blank_alike {m blank : Message} (h : m.OfKind blank) (hblank : blank.Blank) :
    List.Forall₂ Field.Alike m.table.fields blank.table.fields := by
  have hflip : List.Forall₂ (fun f g => g.Alike f) m.table.fields blank.table.fields := h.fields.flip
  obtain ⟨hlen, hlike⟩ := List.forall₂_iff_zip.1 hflip
  refine List.forall₂_iff_zip.2 ⟨hlen, fun {f g} hmem => ?_⟩
  have hbound := ((Table.valid_of_faultFrom hblank.valid).1 g (List.of_mem_zip hmem).2).1
  exact ⟨(hlike hmem).key.symm, (hlike hmem).type.symm, (hlike hmem).checked.symm, hbound⟩

theorem OfKind.samples {m blank : Message} (h : m.OfKind blank) (hblank : blank.Blank) (hrule : m.rule = .samples) :
    m.table.strict = true ∧ ∀ f ∈ m.table.fields, f.key ≠ samplesKey := by
  obtain ⟨hstrict, hkeys⟩ := hblank.samples (h.rule ▸ hrule)
  refine ⟨h.strict.trans hstrict, fun f hf => ?_⟩
  obtain ⟨g, hg, hlike⟩ := h.exists_blank hf
  rw [hlike.key]
  exact hkeys g hg

end Message

end SensorWire
