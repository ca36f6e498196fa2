import Mathlib
import SensorWire.Proofs.Conversions

/-!
# Messages as stores

A message holds a value under each of its keys. Setting a key changes what is found under it and nothing else
(`Table.lookup?_update_self`, `Table.lookup?_update_other`), and what is found is what the value converts to. The messages of a schema that
can be reached (`Schema.Reaches`) are all of one kind, so that the keys and the types of their fields are those of the schema.

Main statement: `Schema.record_is_faithful_store`.
-/

namespace SensorWire

/-! ## Tables -/

namespace Table

variable {t : Table} {key other : Text} {f : Field} {update : Field → Field}

/-- What is found under a key whose field was replaced. -/
theorem lookup?_update_self (h : t.lookup? key = some f) (hkey : (update f).key = key) :
    (t.update key update).lookup? key = some (update f) := by
  obtain ⟨fields, strict⟩ := t
  simp only [lookup?, Table.update] at h ⊢
  induction fields with
  | nil => cases h
  | cons g fields ih =>
    rw [updateFirst]
    by_cases hg : g.key = key
    · rw [List.find?_cons_of_pos (by simpa using hg)] at h
      cases h
      rw [if_pos (by simpa using hg), List.find?_cons_of_pos (by simpa using hkey)]
    · rw [List.find?_cons_of_neg (by simpa using hg)] at h
      rw [if_neg (by simpa using hg), List.find?_cons_of_neg (by simpa using hg)]
      exact ih h

/-- What is found under another key than that of the replaced field. -/
theorem lookup?_update_other (hne : other ≠ key) (hkey : ∀ f, t.lookup? key = some f → (update f).key = key) :
    (t.update key update).lookup? other = t.lookup? other := by
  obtain ⟨fields, strict⟩ := t
  simp only [lookup?, Table.update] at hkey ⊢
  induction fields with
  | nil => rfl
  | cons g fields ih =>
    rw [updateFirst]
    by_cases hg : g.key = key
    · rw [List.find?_cons_of_pos (by simpa using hg)] at hkey
      have hnew : (update g).key ≠ other := by rw [hkey g rfl]; exact hne.symm
      have hold : g.key ≠ other := by rw [hg]; exact hne.symm
      rw [if_pos (by simpa using hg), List.find?_cons_of_neg (by simpa using hnew), List.find?_cons_of_neg (by simpa using hold)]
    · rw [List.find?_cons_of_neg (by simpa using hg)] at hkey
      rw [if_neg (by simpa using hg)]
      by_cases hother : g.key = other
      · rw [List.find?_cons_of_pos (by simpa using hother), List.find?_cons_of_pos (by simpa using hother)]
      · rw [List.find?_cons_of_neg (by simpa using hother), List.find?_cons_of_neg (by simpa using hother)]
        exact ih hkey

theorem key_of_lookup? (h : t.lookup? key = some f) : f.key = key := by
  simpa using List.find?_some h

end Table

/-! ## Setting a key of a message -/

namespace Message

variable {m m' blank : Message} {key other : Text} {v c : Value} {f g : Field} {err : Error}

/-- The message with a field in the place of the one with a key. -/
def withField (m : Message) (key : Text) (f : Field) : Message := { m with table := m.table.update key fun _ => f }

theorem set_of_lookup? (h : m.table.lookup? key = some f) (v : Value) : m.set key v = (f.set v).map (m.withField key) := by
  simp only [set, h]
  exact (map_eq_pure_bind _ _).symm

theorem set_of_absent (h : m.table.lookup? key = none) (v : Value) :
    m.set key v = .error { code := .unrecognizedKey, op := "Set", key, detail := .notIn m.name } := by
  simp only [set, h]

/-- What is found in a message in which the field with a key was set. -/
theorem lookup?_withField (hf : m.table.lookup? key = some f) (hg : f.set v = .ok g) :
    (m.withField key g).table.lookup? key = some g ∧ ∀ other ≠ key, (m.withField key g).table.lookup? other = m.table.lookup? other := by
  have hkey : g.key = key := by
    have hshape := (Field.of_set hg).1
    rw [Field.shape, Field.shape, Prod.mk.injEq] at hshape
    exact hshape.1.trans (Table.key_of_lookup? hf)
  exact ⟨Table.lookup?_update_self hf hkey, fun other hne => Table.lookup?_update_other hne fun _ _ => hkey⟩

/-- Under the key of a field of the blank message there is a field of the same type. -/
theorem OfKind.exists_lookup? (hm : m.OfKind blank) (hblank : blank.Blank) (hf : f ∈ blank.table.fields) :
    ∃ g, m.table.lookup? f.key = some g ∧ g.type = f.type ∧ g.isBound = true := by
  obtain ⟨g, hg, hlike⟩ := exists_left_of_forall₂ (hm.blank_alike hblank) hf
  have hshape := hm.shape hblank
  exact ⟨g, (Table.lookup?_eq_some_iff hshape.keysDiffer).2 ⟨hg, hlike.key.symm⟩, hlike.type.symm, hshape.bound g hg⟩

/-- Under a key that the blank message has not there is no field. -/
theorem OfKind.lookup?_eq_none (hm : m.OfKind blank) (hkey : key ∉ blank.table.fields.map Field.key) : m.table.lookup? key = none := by
  rw [← Field.Alike.map_key hm.fields] at hkey
  rw [Table.lookup?, List.find?_eq_none]
  intro f hf hfound
  exact hkey (List.mem_map.2 ⟨f, hf, by simpa using hfound⟩)

/-- A field with a slot that was set shows what the value converts to, and no other field changes. -/
theorem get?_of_set (hf : m.table.lookup? key = some f) (hbound : f.isBound = true) (h : m.set key v = .ok m') :
    ∃ c, v.Converts f.type c ∧ m'.get? key = some c ∧ ∀ other ≠ key, m'.get? other = m.get? other := by
  rw [set_of_lookup? hf, map_eq_ok_iff] at h
  obtain ⟨g, hset, rfl⟩ := h
  obtain ⟨hself, hother⟩ := lookup?_withField hf hset
  refine ⟨g.value, (Field.converts_iff_of_set hbound hset).2 rfl, ?_, fun other hne => ?_⟩
  · rw [get?, hself]
    rfl
  · rw [get?, get?, hother other hne]

/-- A field with a slot can be set to the values that convert to its type. -/
theorem exists_set (hf : m.table.lookup? key = some f) (hbound : f.isBound = true) (h : v.Converts f.type c) :
    ∃ m', m.set key v = .ok m' := by
  obtain ⟨g, hset, -⟩ := Field.exists_set hbound h
  exact ⟨m.withField key g, (set_of_lookup? hf v).trans (map_eq_ok_iff.2 ⟨g, hset, rfl⟩)⟩

/-- An error of setting a key names it. -/
theorem key_of_set (h : m.set key v = .error err) : err.key = key := by
  cases hf : m.table.lookup? key with
  | none =>
    rw [set_of_absent hf] at h
    cases h
    rfl
  | some f =>
    rw [set_of_lookup? hf, map_eq_error_iff] at h
    rw [Field.key_of_set h, Table.key_of_lookup? hf]

/-- Setting a field for whole numbers to an integer fails as setting its slot does. -/
theorem set_integer {w : Nat} {kind : IntKind} {n : Int} (hf : m.table.lookup? key = some f) (hbound : f.isBound = true)
    (hw : f.type.width? = some w) (hkind : kind ∈ IntKind.counted) (hn : kind.Holds n) :
    ((∃ m', m.set key (.integer kind n) = .ok m') ↔ 0 ≤ n ∧ n < 2 ^ w ∧ (f.type = .simple → n < 24 ∨ 31 < n)) ∧
    (n < 0 → ∃ err, m.set key (.integer kind n) = .error err ∧ err.code = .improperValue) ∧
    (2 ^ w ≤ n → ∃ err, m.set key (.integer kind n) = .error err ∧ err.code = .outOfRange) := by
  obtain ⟨s, hs⟩ := Option.isSome_iff_exists.1 hbound
  rw [Field.type_of_slot? hs] at hw ⊢
  have hpos : (0 : Int) < 2 ^ w := by positivity
  rw [set_of_lookup? hf, Field.set_of_slot? hs, Slot.set_integer hw hkind hn]
  split_ifs with hneg hlarge hsimple
  · refine ⟨⟨fun ⟨m', hset⟩ => ?_, fun h => ?_⟩, fun _ => ⟨_, rfl, rfl⟩, fun h => ?_⟩
    · cases hset
    · omega
    · omega
  · refine ⟨⟨fun ⟨m', hset⟩ => ?_, fun h => ?_⟩, fun h => ?_, fun _ => ⟨_, rfl, rfl⟩⟩
    · cases hset
    · omega
    · omega
  · refine ⟨⟨fun ⟨m', hset⟩ => ?_, fun h => ?_⟩, fun h => ?_, fun h => ?_⟩
    · cases hset
    · have := h.2.2 hsimple.1
      omega
    · omega
    · omega
  · refine ⟨⟨fun _ => ⟨by omega, by omega, fun htype => ?_⟩, fun _ => ⟨_, rfl⟩⟩, fun h => ?_, fun h => ?_⟩
    · by_contra hnot
      exact hsimple ⟨htype, by omega⟩
    · omega
    · omega

end Message

/-! ## Messages of a schema -/

namespace Schema

/-- The messages of a schema that can be reached: a new one, what changes leave of one, and one with another value in its header. -/
inductive Reaches (s : Schema) : Message → Prop
  | new : Reaches s s.new
  | edit {m : Message} (h : Reaches s m) (e : Message.Edit) : Reaches s (m.edit e)
  | header {m : Message} (h : Reaches s m) {f : Field} (hf : f ∈ s.headerFields) {slot : Slot} (htype : slot.type = f.type) :
    Reaches s { m with table := m.table.store f.key slot }

variable {definition : Definition} {s : Schema} {r : Message}

/-- What can be reached is of one kind. -/
theorem Reaches.ofKind (h : s.Reaches r) (hcompile : compile definition = .ok s) : r.OfKind s.new := by
  have hblank : s.new.Blank := .schema hcompile
  induction h with
  | new => exact hblank.ofKind_self
  | @edit m _ e ih =>
    have hsamples : m.hasSamples = false := by rw [Message.hasSamples, ih.rule]; rfl
    exact ih.of_revision (ih.revision_edit hblank hsamples e)
  | @header m _ f hf slot htype ih =>
    have hmem : f ∈ s.new.table.fields := List.mem_append_left _ hf
    obtain ⟨g, hg, hgtype, hbound⟩ := ih.exists_lookup? hblank hmem
    obtain ⟨old, hold⟩ := Option.isSome_iff_exists.1 hbound
    refine ⟨ih.name, ih.rule, ih.strict, Field.Alike.forall₂_of_shapes ih.fields (Table.map_updateFirst fun g' hg' => ?_)⟩
    cases hg.symm.trans hg'
    refine Field.shape_store ?_
    rw [hold, Option.map_some, ← Field.type_of_slot? hold, hgtype, htype]

/-- The messages of a schema are faithful stores. Whatever was done to one before: setting a key of the schema succeeds exactly for the
values that convert to the type of the field, and then the key holds what the value converts to and every other key what it held before.
Where setting fails, as it does for every other key, each key holds what it held before. A field of so many bits takes, of the integers
whose types it counts, those from zero that fit its bits and are no simple value that does not exist; a negative one is improper, and one
that does not fit is out of range. -/
theorem record_is_faithful_store (hcompile : compile definition = .ok s) (hr : s.Reaches r) :
    (∀ f ∈ s.table.fields, ∀ v,
      (∀ r', r.set f.key v = .ok r' →
        ∃ c, v.Converts f.type c ∧ r'.get? f.key = some c ∧ ∀ other ≠ f.key, r'.get? other = r.get? other) ∧
      ((∃ r', r.set f.key v = .ok r') ↔ ∃ c, v.Converts f.type c)) ∧
    (∀ key v err, r.set key v = .error err → err.key = key ∧ ∀ other, (r.edit (.set key v)).get? other = r.get? other) ∧
    (∀ key ∉ s.keys, r.get? key = none ∧ ∀ v, ∃ err, r.set key v = .error err ∧ err.code = .unrecognizedKey) ∧
    (∀ f ∈ s.table.fields, ∀ w, f.type.width? = some w → ∀ kind ∈ IntKind.counted, ∀ n : Int, kind.Holds n →
      ((∃ r', r.set f.key (.integer kind n) = .ok r') ↔ 0 ≤ n ∧ n < 2 ^ w ∧ (f.type = .simple → n < 24 ∨ 31 < n)) ∧
      (n < 0 → ∃ err, r.set f.key (.integer kind n) = .error err ∧ err.code = .improperValue) ∧
      (2 ^ w ≤ n → ∃ err, r.set f.key (.integer kind n) = .error err ∧ err.code = .outOfRange)) := by
  have hblank : s.new.Blank := .schema hcompile
  have hkind := hr.ofKind hcompile
  refine ⟨fun f hf v => ?_, fun key v err herr => ⟨Message.key_of_set herr, fun other => ?_⟩, fun key hkey => ?_,
    fun f hf w hw kind hcounted n hn => ?_⟩
  · obtain ⟨g, hg, htype, hbound⟩ := hkind.exists_lookup? hblank hf
    rw [← htype]
    refine ⟨fun r' hset => Message.get?_of_set hg hbound hset, ?_, ?_⟩
    · rintro ⟨r', hset⟩
      obtain ⟨c, hconverts, -⟩ := Message.get?_of_set hg hbound hset
      exact ⟨c, hconverts⟩
    · rintro ⟨c, hconverts⟩
      exact Message.exists_set hg hbound hconverts
  · rw [Message.edit, herr]
    rfl
  · have habsent := hkind.lookup?_eq_none hkey
    exact ⟨by rw [Message.get?, habsent]; rfl, fun v => ⟨_, Message.set_of_absent habsent v, rfl⟩⟩
  · obtain ⟨g, hg, htype, hbound⟩ := hkind.exists_lookup? hblank hf
    rw [← htype] at hw ⊢
    exact Message.set_integer hg hbound hw hcounted hn

/-- A message with another version in its header, after a simple value that does not exist was refused: one bit is taken for a truth value
and leaves the rest, and nine bits do not fit into eight. -/
theorem probe_record_stores :
    let d : Definition := { name := "Probe", header := true, fields := [⟨"flags", "simple", false⟩, ⟨"open", "bool", false⟩] }
    let s : Schema := ⟨d, [⟨"flags", .bound (.simple 0), false⟩, ⟨"open", .bound (.bool false), false⟩]⟩
    let r : Message := { s.new with table := s.new.table.store "version" (.uint32 9) }.edit (.set "flags" (.integer .int 24))
    compile d = .ok s ∧ s.Reaches r ∧
      (∃ r', r.set "open" (.integer .uint32 1) = .ok r' ∧ r'.get? "open" = some (.bool true) ∧ r'.get? "flags" = r.get? "flags") ∧
      ∃ err, r.set "flags" (.integer .int64 256) = .error err ∧ err.code = .outOfRange := by
  intro d s r
  have hcompile : compile d = .ok s := by rfl
  have hreaches : s.Reaches r :=
    .edit (.header .new (f := .holding "version" (.uint32 1)) List.mem_cons_self rfl) (.set "flags" (.integer .int 24))
  obtain ⟨hstore, -, -, hnumbers⟩ := record_is_faithful_store hcompile hreaches
  have hopen : (⟨"open", .bound (.bool false), false⟩ : Field) ∈ s.table.fields := by decide
  have hflags : (⟨"flags", .bound (.simple 0), false⟩ : Field) ∈ s.table.fields := by decide
  obtain ⟨hset, -, -⟩ := hnumbers _ hopen 1 rfl .uint32 (by decide) 1 (by decide)
  obtain ⟨r', hr'⟩ := hset.2 (by decide)
  obtain ⟨c, hconverts, hself, hother⟩ := (hstore _ hopen _).1 r' hr'
  obtain ⟨-, -, hlarge⟩ := hnumbers _ hflags 8 rfl .int64 (by decide) 256 (by decide)
  refine ⟨hcompile, hreaches, ⟨r', hr', ?_, hother _ (by decide)⟩, hlarge (by decide)⟩
  obtain ⟨n, hcounts, -, -, rfl⟩ := (Value.converts_number_iff rfl (fun b h => by cases h)).1 hconverts
  obtain ⟨-, rfl⟩ := (Value.counts_integer_iff (by decide)).1 hcounts
  exact hself

end Schema

end SensorWire
