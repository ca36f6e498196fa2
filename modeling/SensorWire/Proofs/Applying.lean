import Mathlib
import SensorWire.Proofs.Records

/-!
# Applying values to a message

Values are applied in the order of their keys. Setting one of them is told by `Message.Setting`: the message has no such key, or the
value is refused and nothing changes, or the key takes what the value converts to (`Message.Takes`) and every other key is as it was
(`Message.SameAt`). Whether a key takes a value does not depend on what the message holds, so that applying values to one key leaves the
outcome for the others as it was. So a run takes all values up to the first that is refused (`OfKind.setValues_of_takes`,
`setValues_append`).

Main statement: `apply_is_ordered_and_exact`.
-/

namespace SensorWire

open Cbor

/-! ## The order of keys -/

namespace Text

theorem bytesLe_iff (as bs : List UInt8) : bytesLe as bs = true ↔ as ≤ bs := by
  induction as generalizing bs with
  | nil => simp [bytesLe]
  | cons a as ih =>
    cases bs with
    | nil => simp [bytesLe]
    | cons b bs => simp [bytesLe, ih, List.cons_le_cons_iff]

theorem le_iff (a b : Text) : a.le b = true ↔ a.bytes ≤ b.bytes := bytesLe_iff _ _

theorem le_trans {a b c : Text} (hab : a.le b = true) (hbc : b.le c = true) : a.le c = true := by
  rw [le_iff] at *
  exact List.le_trans hab hbc

theorem le_total (a b : Text) : (a.le b || b.le a) = true := by
  rw [Bool.or_eq_true, le_iff, le_iff]
  exact List.le_total _ _

theorem le_antisymm {a b : Text} (hab : a.le b = true) (hba : b.le a = true) : a = b := by
  obtain ⟨as⟩ := a
  obtain ⟨bs⟩ := b
  rw [le_iff] at *
  exact congrArg Text.mk (List.le_antisymm hab hba)

/-- A text that comes before another. -/
def Precedes (a b : Text) : Prop := a.le b = true ∧ a ≠ b

end Text

/-! ## What a message holds -/

namespace Message

variable {m m' m'' blank : Message} {key other : Text} {v c : Value} {f g : Field} {err : Error} {values : List (Text × Value)}

/-- What a message holds under a key, which may be that of its samples. -/
def value? (m : Message) (key : Text) : Option Value := m.values.lookup key

/-- A key under which two messages hold the same: the same field, and the same samples with the same room. -/
structure SameAt (m m' : Message) (key : Text) : Prop where
  field : m'.table.lookup? key = m.table.lookup? key
  samples : key = samplesKey → m'.samples = m.samples

theorem SameAt.refl (m : Message) (key : Text) : m.SameAt m key := ⟨rfl, fun _ => rfl⟩

theorem SameAt.trans (h : m.SameAt m' key) (h' : m'.SameAt m'' key) : m.SameAt m'' key :=
  ⟨h'.field.trans h.field, fun hkey => (h'.samples hkey).trans (h.samples hkey)⟩

theorem lookup_values_table (t : Table) (key : Text) : t.values.lookup key = (t.lookup? key).map Field.value := by
  obtain ⟨fields, strict⟩ := t
  simp only [Table.values, Table.lookup?]
  induction fields with
  | nil => rfl
  | cons f fields ih =>
    rw [List.map_cons, List.lookup_cons, List.find?_cons]
    by_cases hkey : f.key = key
    · simp [hkey]
    · have hleft : (key == f.key) = false := beq_false_of_ne (Ne.symm hkey)
      have hright : (f.key == key) = false := beq_false_of_ne hkey
      rw [hleft, hright]
      exact ih

/-- What a message holds is in its table, or its samples. -/
theorem value?_eq (m : Message) (key : Text) :
    m.value? key = ((m.table.lookup? key).map Field.value).or
      (if m.hasSamples = true ∧ key = samplesKey then some (.floats m.samples.values) else none) := by
  rw [value?, Message.values, List.lookup_append, lookup_values_table]
  by_cases hsamples : m.hasSamples = true
  · by_cases hkey : key = samplesKey
    · simp [hsamples, hkey]
    · simp [hsamples, hkey, List.lookup_cons, beq_false_of_ne hkey]
  · simp [hsamples]

theorem SameAt.value? (h : m.SameAt m' key) (hrule : m'.rule = m.rule) : m'.value? key = m.value? key := by
  rw [value?_eq, value?_eq, h.field, hasSamples, hasSamples, hrule]
  by_cases hkey : key = samplesKey
  · rw [h.samples hkey]
  · simp [hkey]

/-- A value that a message takes under a key, and what it then holds there. -/
inductive Takes (m : Message) : Text → Value → Value → Prop
  | field {f : Field} {v c : Value} (mem : f ∈ m.table.fields) (converts : v.Converts f.type c) : Takes m f.key v c
  | samples {vs : List Value} {bits : List UInt64} (has : m.hasSamples = true) (denotes : List.Forall₂ Value.Denotes vs bits) :
    Takes m samplesKey (.list vs) (.floats bits)

theorem Takes.mem_keys (h : m.Takes key v c) : key ∈ m.keys := by
  cases h with
  | field mem _ => exact List.mem_append_left _ (List.mem_map_of_mem mem)
  | samples has _ =>
    rw [keys, if_pos has]
    exact List.mem_append_right _ (List.mem_singleton_self _)

/-! ## Setting one key -/

theorem toSamples_eq_mapM (vs : List Value) : toSamples vs = vs.mapM (Value.toDouble samplesKey) := by
  induction vs with
  | nil => rfl
  | cons v vs ih => rw [toSamples, List.mapM_cons, ih]

theorem toSamples_eq_ok_iff {vs : List Value} {bits : List UInt64} : toSamples vs = .ok bits ↔ List.Forall₂ Value.Denotes vs bits := by
  rw [toSamples_eq_mapM, mapM_eq_ok_iff]
  simp only [Value.toDouble_eq_ok_iff]

theorem key_of_toSamples {vs : List Value} (h : toSamples vs = .error err) : err.key = samplesKey := by
  rw [toSamples_eq_mapM] at h
  obtain ⟨v, -, hv⟩ := exists_of_mapM_eq_error h
  exact Value.key_of_toDouble hv

/-- What can come of setting a key. -/
inductive Setting (m : Message) (key : Text) (v : Value) : Except Error (Option Message) → Prop
  | unknown (absent : key ∉ m.keys) : Setting m key v (.ok none)
  | refused {err : Error} (known : key ∈ m.keys) (untaken : ∀ c, ¬m.Takes key v c) (named : err.key = key) : Setting m key v (.error err)
  | stored {m' : Message} {c : Value} (taken : ∀ c', m.Takes key v c' ↔ c = c') (held : m'.value? key = some c)
    (others : ∀ other ≠ key, m.SameAt m' other) (revision : m.Revision m') : Setting m key v (.ok (some m'))

theorem takes_samples_iff (has : m.hasSamples = true) (hfields : ∀ f ∈ m.table.fields, f.key ≠ samplesKey) :
    m.Takes samplesKey v c ↔ ∃ vs bits, v = .list vs ∧ List.Forall₂ Value.Denotes vs bits ∧ c = .floats bits := by
  constructor
  · intro h
    generalize hkey : samplesKey = key at h
    cases h with
    | field mem _ => exact absurd hkey.symm (hfields _ mem)
    | @samples vs bits _ denotes => exact ⟨vs, bits, rfl, denotes, rfl⟩
  · rintro ⟨vs, bits, rfl, denotes, rfl⟩
    exact .samples has denotes

theorem takes_field_iff (hnodup : (m.table.fields.map Field.key).Nodup) (hf : m.table.lookup? key = some f)
    (hkey : ¬(m.hasSamples = true ∧ key = samplesKey)) : m.Takes key v c ↔ v.Converts f.type c := by
  obtain ⟨hmem, rfl⟩ := (Table.lookup?_eq_some_iff hnodup).1 hf
  constructor
  · intro h
    generalize hother : f.key = other at h
    cases h with
    | @field g v c mem converts =>
      rwa [List.inj_on_of_nodup_map hnodup hmem mem hother]
    | samples has _ => exact absurd ⟨has, hother⟩ hkey
  · exact .field hmem

theorem mem_keys_iff (m : Message) (key : Text) :
    key ∈ m.keys ↔ (∃ f, m.table.lookup? key = some f) ∨ m.hasSamples = true ∧ key = samplesKey := by
  have hfound : (∃ f, m.table.lookup? key = some f) ↔ key ∈ m.table.fields.map Field.key := by
    rw [← Option.isSome_iff_exists, Table.lookup?, List.find?_isSome]
    simp
  rw [hfound, keys, List.mem_append]
  by_cases has : m.hasSamples = true <;> simp [has]

/-! ### The cases of setting a key -/

/-- The message with other samples, in as much room as they take. -/
def withSamples (m : Message) (bits : List UInt64) : Message := { m with samples := ⟨bits, bits.length⟩ }

theorem setValue_list (has : m.hasSamples = true) (vs : List Value) :
    m.setValue samplesKey (.list vs) = (toSamples vs).map fun bits => some (m.withSamples bits) := by
  rw [setValue, if_pos ⟨has, rfl⟩]
  exact (map_eq_pure_bind _ _).symm

theorem setValue_not_list (has : m.hasSamples = true) (hv : ∀ vs, v ≠ .list vs) :
    m.setValue samplesKey v = .error { code := .improperValue, op := "Apply", key := samplesKey, detail := .notA v.typeName "list" } := by
  rw [setValue.eq_def, if_pos ⟨has, rfl⟩]
  cases v with
  | list vs => exact absurd rfl (hv vs)
  | _ => rfl

theorem setValue_of_absent (hkey : ¬(m.hasSamples = true ∧ key = samplesKey)) (hf : m.table.lookup? key = none) (v : Value) :
    m.setValue key v = .ok none := by
  rw [setValue.eq_def, if_neg hkey, hf]
  rfl

theorem setValue_of_lookup? (hkey : ¬(m.hasSamples = true ∧ key = samplesKey)) (hf : m.table.lookup? key = some f) (v : Value) :
    m.setValue key v = (f.set v).map fun g => some (m.withField key g) := by
  rw [setValue.eq_def, if_neg hkey, hf]
  exact (map_eq_pure_bind _ _).symm

theorem OfKind.setting_samples (hm : m.OfKind blank) (hblank : blank.Blank) (has : m.hasSamples = true) (v : Value) :
    m.Setting samplesKey v (m.setValue samplesKey v) := by
  have hknown : samplesKey ∈ m.keys := (m.mem_keys_iff _).2 (Or.inr ⟨has, rfl⟩)
  have hfields := (hm.samples hblank (hasSamples_iff_rule.1 has)).2
  by_cases hv : ∃ vs, v = .list vs
  · obtain ⟨vs, rfl⟩ := hv
    rw [setValue_list has]
    cases hsamples : toSamples vs with
    | error err =>
      refine .refused hknown (fun c hc => ?_) (key_of_toSamples hsamples)
      obtain ⟨vs', bits, hvs, hdenotes, -⟩ := (takes_samples_iff has hfields).1 hc
      cases hvs
      cases (toSamples_eq_ok_iff.2 hdenotes).symm.trans hsamples
    | ok bits =>
      have hnone : (m.withSamples bits).table.lookup? samplesKey = none := List.find?_eq_none.2 fun f hf => by simpa using hfields f hf
      have hheld : (m.withSamples bits).value? samplesKey = some (.floats bits) := by
        rw [value?_eq, hnone]
        exact if_pos ⟨has, rfl⟩
      refine .stored (fun c => ?_) hheld (fun other hne => ⟨rfl, fun hother => absurd hother hne⟩) ⟨rfl, rfl, .refl m.table⟩
      rw [takes_samples_iff has hfields]
      constructor
      · rintro ⟨vs', bits', hvs, hdenotes, rfl⟩
        cases hvs
        cases (toSamples_eq_ok_iff.2 hdenotes).symm.trans hsamples
        rfl
      · rintro rfl
        exact ⟨vs, bits, rfl, toSamples_eq_ok_iff.1 hsamples, rfl⟩
  · rw [not_exists] at hv
    rw [setValue_not_list has hv]
    refine .refused hknown (fun c hc => ?_) rfl
    obtain ⟨vs, -, hvs, -⟩ := (takes_samples_iff has hfields).1 hc
    exact hv vs hvs

/-- Setting a key of a message of a known kind. -/
theorem OfKind.setting (hm : m.OfKind blank) (hblank : blank.Blank) (key : Text) (v : Value) : m.Setting key v (m.setValue key v) := by
  by_cases hkey : m.hasSamples = true ∧ key = samplesKey
  · obtain ⟨has, rfl⟩ := hkey
    exact hm.setting_samples hblank has v
  have hshape := hm.shape hblank
  cases hf : m.table.lookup? key with
  | none =>
    rw [setValue_of_absent hkey hf]
    refine .unknown fun hmem => ?_
    rcases (m.mem_keys_iff key).1 hmem with ⟨f, hfound⟩ | hsamples
    · cases hf.symm.trans hfound
    · exact hkey hsamples
  | some f =>
    have hknown : key ∈ m.keys := (m.mem_keys_iff key).2 (Or.inl ⟨f, hf⟩)
    have hbound := hshape.bound f (List.mem_of_find?_eq_some hf)
    rw [setValue_of_lookup? hkey hf]
    cases hset : f.set v with
    | error err =>
      refine .refused hknown (fun c hc => ?_) ((Field.key_of_set hset).trans (Table.key_of_lookup? hf))
      obtain ⟨g, hg, -⟩ := Field.exists_set hbound ((takes_field_iff hshape.keysDiffer hf hkey).1 hc)
      cases hset.symm.trans hg
    | ok g =>
      obtain ⟨hself, hother⟩ := lookup?_withField hf hset
      refine .stored (c := g.value) (fun c => ?_) ?_ (fun other hne => ⟨hother other hne, fun _ => rfl⟩) (revision_update hf hset)
      · rw [takes_field_iff hshape.keysDiffer hf hkey, Field.converts_iff_of_set hbound hset]
      · rw [value?_eq, hself]
        rfl

/-! ## What changes nothing for a key -/

theorem keys_of_revision (h : m.Revision m') : m'.keys = m.keys := by
  rw [keys, keys, h.table.keys, hasSamples, hasSamples, h.rule]

/-- Messages of one kind take the same values. -/
theorem OfKind.takes (hm : m.OfKind blank) (hm' : m'.OfKind blank) (hblank : blank.Blank) (h : m.Takes key v c) : m'.Takes key v c := by
  cases h with
  | @field f v c mem converts =>
    obtain ⟨b, hb, hlike⟩ := hm.exists_blank mem
    obtain ⟨g, hg, htype, -⟩ := hm'.exists_lookup? hblank hb
    rw [← hlike.key] at hg
    rw [← Table.key_of_lookup? hg]
    refine .field (List.mem_of_find?_eq_some hg) ?_
    rwa [htype, ← hlike.type]
  | samples has denotes =>
    refine .samples ?_ denotes
    rwa [hasSamples, hm'.rule, ← hm.rule]

/-- A value that is refused is refused with the same error wherever the key holds the same. -/
theorem SameAt.refusal (h : m.SameAt m' key) (hrule : m'.rule = m.rule) (herr : m.setValue key v = .error err) :
    m'.setValue key v = .error err := by
  have has : m'.hasSamples = m.hasSamples := by rw [hasSamples, hasSamples, hrule]
  by_cases hkey : m.hasSamples = true ∧ key = samplesKey
  · obtain ⟨hm, rfl⟩ := hkey
    by_cases hv : ∃ vs, v = .list vs
    · obtain ⟨vs, rfl⟩ := hv
      rw [setValue_list hm, map_eq_error_iff] at herr
      rw [setValue_list (has.trans hm), herr]
      rfl
    · rw [not_exists] at hv
      rw [setValue_not_list (has.trans hm) hv, ← setValue_not_list hm hv, herr]
  · have hkey' : ¬(m'.hasSamples = true ∧ key = samplesKey) := by rwa [has]
    cases hf : m.table.lookup? key with
    | none =>
      rw [setValue_of_absent hkey hf] at herr
      cases herr
    | some f =>
      rw [setValue_of_lookup? hkey hf, map_eq_error_iff] at herr
      rw [setValue_of_lookup? hkey' (h.field.trans hf), herr]
      rfl

/-! ## Runs -/

/-- Values that are all taken, but for those under unknown keys. -/
theorem OfKind.setValues_of_takes (hblank : blank.Blank) (hm : m.OfKind blank) (hnodup : (values.map Prod.fst).Nodup)
    (h : ∀ p ∈ values, p.1 ∈ m.keys → ∃ c, m.Takes p.1 p.2 c) :
    ∃ m', setValues values m = (none, (values.map Prod.fst).filter (· ∉ m.keys), m') ∧ m.Revision m' ∧
      (∀ p ∈ values, ∀ c, m.Takes p.1 p.2 c → m'.value? p.1 = some c) ∧ ∀ key ∉ values.map Prod.fst, m.SameAt m' key := by
  induction values generalizing m with
  | nil => exact ⟨m, rfl, .refl m, fun p hp => (by cases hp), fun key _ => .refl m key⟩
  | cons p values ih =>
    obtain ⟨key, v⟩ := p
    rw [List.map_cons, List.nodup_cons] at hnodup
    rw [List.forall_mem_cons] at h
    have hsetting := hm.setting hblank key v
    rw [setValues]
    generalize m.setValue key v = r at hsetting
    cases hsetting with
    | unknown absent =>
      obtain ⟨m', hrun, hrevision, htaken, hsame⟩ := ih hm hnodup.2 h.2
      refine ⟨m', ?_, hrevision, List.forall_mem_cons.2 ⟨fun c hc => absurd hc.mem_keys absent, htaken⟩, fun other hother => ?_⟩
      · simp only [hrun, List.map_cons, List.filter_cons, absent, not_false_eq_true, decide_true, if_true]
      · exact hsame other fun hmem => hother (List.mem_cons_of_mem key hmem)
    | refused known untaken _ =>
      obtain ⟨c, hc⟩ := h.1 known
      exact absurd hc (untaken c)
    | @stored m₁ held taken hheld others revision =>
      have known : key ∈ m.keys := ((taken held).2 rfl).mem_keys
      have hm₁ := hm.of_revision revision
      have hkeys := keys_of_revision revision
      obtain ⟨m', hrun, hrevision, htaken, hsame⟩ := ih hm₁ hnodup.2 fun p hp hp₁ => by
        obtain ⟨c, hc⟩ := h.2 p hp (hkeys ▸ hp₁)
        exact ⟨c, hm.takes hm₁ hblank hc⟩
      refine ⟨m', ?_, revision.trans hrevision, List.forall_mem_cons.2 ⟨fun c hc => ?_, fun p hp c hc => ?_⟩, fun other hother => ?_⟩
      · simp only [hrun, hkeys, List.map_cons, List.filter_cons, known, not_true_eq_false, decide_false, Bool.false_eq_true, if_false]
      · -- the rest of the values has other keys
        rw [(hsame key hnodup.1).value? hrevision.rule, hheld, (taken c).1 hc]
      · exact htaken p hp c (hm.takes hm₁ hblank hc)
      · rw [List.map_cons, List.mem_cons, not_or] at hother
        exact (others other hother.1).trans (hsame other hother.2)

/-- A run of values goes on where none of them was refused. -/
theorem setValues_append {rest : List (Text × Value)} {unknown : List Text} (h : setValues values m = (none, unknown, m')) :
    setValues (values ++ rest) m = ((setValues rest m').1, unknown ++ (setValues rest m').2.1, (setValues rest m').2.2) := by
  induction values generalizing m unknown with
  | nil =>
    cases h
    rfl
  | cons p values ih =>
    obtain ⟨key, v⟩ := p
    rw [List.cons_append, setValues]
    rw [setValues] at h
    split at h
    · cases h
    · exact ih h
    · rcases hrun : setValues values m with ⟨err, more, m₁⟩
      rw [hrun] at h
      cases h
      rw [ih hrun]
      rfl

/-! ## All values in the order of their keys -/

/-- The values in the order of their keys. -/
def inOrder (values : List (Text × Value)) : List (Text × Value) := values.mergeSort fun a b => a.1.le b.1

theorem inOrder_perm (values : List (Text × Value)) : (inOrder values).Perm values := List.mergeSort_perm ..

theorem nodup_inOrder (hnodup : (values.map Prod.fst).Nodup) : ((inOrder values).map Prod.fst).Nodup :=
  ((inOrder_perm values).map Prod.fst).nodup_iff.2 hnodup

/-- Keys that differ are put in strict order. -/
theorem pairwise_inOrder (hnodup : (values.map Prod.fst).Nodup) : (inOrder values).Pairwise fun a b => a.1.Precedes b.1 := by
  have hle : (inOrder values).Pairwise fun a b => a.1.le b.1 = true :=
    List.pairwise_mergeSort (fun a b c => Text.le_trans (a := a.1) (b := b.1) (c := c.1)) (fun a b => Text.le_total a.1 b.1) values
  have hne : (inOrder values).Pairwise fun a b => a.1 ≠ b.1 := List.pairwise_map.1 (nodup_inOrder hnodup)
  exact hle.and hne

theorem apply_of_refused {unknown : List Text} (h : setValues (inOrder values) m = (some err, unknown, m')) :
    m.apply values = (some (.within m.name (.codec err)), m') := by
  unfold inOrder at h
  simp only [apply, h]

theorem apply_of_done {unknown : List Text} (h : setValues (inOrder values) m = (none, unknown, m')) :
    m.apply values = (if unknown = [] then none
      else some (.within m.name (.codec { code := .unrecognizedKey, op := "Apply", keys := unknown })), m') := by
  unfold inOrder at h
  cases unknown with
  | nil => simp only [apply, h, if_true]
  | cons key unknown => simp only [apply, h, reduceCtorEq, if_false]

/-- A known key refuses a value exactly if it does not take it. -/
theorem OfKind.refuses_iff (hm : m.OfKind blank) (hblank : blank.Blank) (hkey : key ∈ m.keys) (v : Value) :
    (∃ err, m.setValue key v = .error err ∧ err.key = key) ↔ ∀ c, ¬m.Takes key v c := by
  have hsetting := hm.setting hblank key v
  generalize m.setValue key v = r at hsetting
  cases hsetting with
  | unknown absent => exact absurd hkey absent
  | refused _ untaken named => exact ⟨fun _ => untaken, fun _ => ⟨_, rfl, named⟩⟩
  | @stored m' c taken _ _ _ =>
    constructor
    · rintro ⟨err, hset, -⟩
      cases hset
    · intro untaken
      exact absurd ((taken c).2 rfl) (untaken c)

/-- Values that a message takes, all of them. -/
theorem OfKind.apply_of_takes (hm : m.OfKind blank) (hblank : blank.Blank) (hnodup : (values.map Prod.fst).Nodup)
    (h : ∀ p ∈ values, p.1 ∈ m.keys → ∃ c, m.Takes p.1 p.2 c) :
    (∀ p ∈ values, ∀ c, m.Takes p.1 p.2 c → (m.apply values).2.value? p.1 = some c) ∧
    (∀ key ∉ values.map Prod.fst, m.SameAt (m.apply values).2 key) ∧
    ∃ unknown : List Text, unknown.Pairwise Text.Precedes ∧ (∀ key, key ∈ unknown ↔ key ∈ values.map Prod.fst ∧ key ∉ m.keys) ∧
      (m.apply values).1 = if unknown = [] then none
        else some (.within m.name (.codec { code := .unrecognizedKey, op := "Apply", keys := unknown })) := by
  have hmem {p : Text × Value} : p ∈ inOrder values ↔ p ∈ values := (inOrder_perm values).mem_iff
  have hkeys {key : Text} : key ∈ (inOrder values).map Prod.fst ↔ key ∈ values.map Prod.fst := ((inOrder_perm values).map Prod.fst).mem_iff
  obtain ⟨m', hrun, -, htaken, hsame⟩ := hm.setValues_of_takes hblank (nodup_inOrder hnodup) fun p hp => h p (hmem.1 hp)
  rw [apply_of_done hrun]
  refine ⟨fun p hp => htaken p (hmem.2 hp), fun key hkey => hsame key (mt hkeys.1 hkey), _, ?_, fun key => ?_, rfl⟩
  · exact (List.pairwise_map.2 (pairwise_inOrder hnodup)).filter _
  · rw [List.mem_filter, hkeys, decide_eq_true_eq]

/-- Values of which the message refuses one, and takes those before it. -/
theorem OfKind.apply_of_refused (hm : m.OfKind blank) (hblank : blank.Blank) (hnodup : (values.map Prod.fst).Nodup)
    (hmem : (key, v) ∈ values) (herr : m.setValue key v = .error err)
    (h : ∀ p ∈ values, p.1 ∈ m.keys → p.1.Precedes key → ∃ c, m.Takes p.1 p.2 c) :
    (m.apply values).1 = some (.within m.name (.codec err)) ∧
    (∀ p ∈ values, p.1.Precedes key → ∀ c, m.Takes p.1 p.2 c → (m.apply values).2.value? p.1 = some c) ∧
    ∀ other, (other ∈ values.map Prod.fst → key.le other = true) → m.SameAt (m.apply values).2 other := by
  have hvalues {p : Text × Value} : p ∈ inOrder values ↔ p ∈ values := (inOrder_perm values).mem_iff
  obtain ⟨before, rest, hsplit⟩ := List.append_of_mem (hvalues.2 hmem)
  have hfront {p : Text × Value} (hp : p ∈ before) : p ∈ values := by
    rw [← hvalues, hsplit]
    exact List.mem_append_left _ hp
  -- the keys before the refused one come before it in the order, and the others after it
  have hpairwise := pairwise_inOrder hnodup
  rw [hsplit, List.pairwise_append, List.pairwise_cons] at hpairwise
  obtain ⟨-, ⟨hrest, -⟩, hbefore⟩ := hpairwise
  replace hbefore : ∀ p ∈ before, p.1.Precedes key := fun p hp => hbefore p hp _ List.mem_cons_self
  have hsmaller {p : Text × Value} (hp : p ∈ values) (hprecedes : p.1.Precedes key) : p ∈ before := by
    rw [← hvalues, hsplit, List.mem_append, List.mem_cons] at hp
    rcases hp with hp | rfl | hp
    · exact hp
    · exact absurd rfl hprecedes.2
    · exact absurd (Text.le_antisymm hprecedes.1 (hrest p hp).1) hprecedes.2
  have hnodup' := nodup_inOrder hnodup
  rw [hsplit, List.map_append] at hnodup'
  obtain ⟨m', hrun, hrevision, htaken, hsame⟩ := hm.setValues_of_takes hblank hnodup'.of_append_left
    fun p hp hknown => h p (hfront hp) hknown (hbefore p hp)
  have hunset {other : Text} (hother : ∀ p ∈ before, p.1 ≠ other) : m.SameAt m' other := by
    refine hsame other fun hmem => ?_
    obtain ⟨p, hp, hkey⟩ := List.mem_map.1 hmem
    exact hother p hp hkey
  have hrefused : m'.setValue key v = .error err := (hunset fun p hp => (hbefore p hp).2).refusal hrevision.rule herr
  have hstop : setValues (inOrder values) m = (some err, (before.map Prod.fst).filter (· ∉ m.keys) ++ [], m') := by
    rw [hsplit, setValues_append hrun, setValues, hrefused]
  rw [Message.apply_of_refused hstop]
  refine ⟨rfl, fun p hp hprecedes => htaken p (hsmaller hp hprecedes), fun other hother => hunset ?_⟩
  rintro p hp rfl
  exact (hbefore p hp).2 (Text.le_antisymm (hbefore p hp).1 (hother (List.mem_map_of_mem (hfront hp))))

/-- Applying values with different keys to a message of a catalogue or a schema. A key that the message has refuses a value exactly if it
does not take it, and the error names the key. If no key of the message refuses its value, all values are taken, what has no value is as
it was, and the keys that the message has not are reported in their order, or nothing if there are none. Otherwise the first key in the
order that refuses its value is reported, the values before it are taken, and everything else is as it was. -/
theorem apply_is_ordered_and_exact (hblank : blank.Blank) (hm : m.OfKind blank) (values : List (Text × Value))
    (hnodup : (values.map Prod.fst).Nodup) :
    (∀ key ∈ m.keys, ∀ v, (∃ err, m.setValue key v = .error err ∧ err.key = key) ↔ ∀ c, ¬m.Takes key v c) ∧
    ((∀ p ∈ values, p.1 ∈ m.keys → ∃ c, m.Takes p.1 p.2 c) →
      (∀ p ∈ values, ∀ c, m.Takes p.1 p.2 c → (m.apply values).2.value? p.1 = some c) ∧
      (∀ key ∉ values.map Prod.fst, m.SameAt (m.apply values).2 key) ∧
      ∃ unknown : List Text, unknown.Pairwise Text.Precedes ∧ (∀ key, key ∈ unknown ↔ key ∈ values.map Prod.fst ∧ key ∉ m.keys) ∧
        (m.apply values).1 = if unknown = [] then none
          else some (.within m.name (.codec { code := .unrecognizedKey, op := "Apply", keys := unknown }))) ∧
    (∀ key v err, (key, v) ∈ values → m.setValue key v = .error err →
      (∀ p ∈ values, p.1 ∈ m.keys → p.1.Precedes key → ∃ c, m.Takes p.1 p.2 c) →
      (m.apply values).1 = some (.within m.name (.codec err)) ∧
      (∀ p ∈ values, p.1.Precedes key → ∀ c, m.Takes p.1 p.2 c → (m.apply values).2.value? p.1 = some c) ∧
      ∀ other, (other ∈ values.map Prod.fst → key.le other = true) → m.SameAt (m.apply values).2 other) :=
  ⟨fun _ hkey v => hm.refuses_iff hblank hkey v, hm.apply_of_takes hblank hnodup,
    fun _ _ _ hmem herr h => hm.apply_of_refused hblank hnodup hmem herr h⟩

/-- Samples are taken and a negative number is refused, so that neither the larger number of samples nor the unknown key after it has an
effect. -/
theorem negative_number_ends_application :
    let blank := Catalog.sensor "RbrPressureDifferenceSignal"
      (Catalog.words ["sequence_num", "total_samples", "num_samples"] ++ Catalog.doubles ["residual_0", "residual_1"]) .samples
    let values : List (Text × Value) := [("unit", .null), ("total_samples", .integer .int 5), ("sequence_num", .integer .int (-1)),
      ("difference_signal", .list [.float64 0x3ff0000000000000])]
    blank.Blank ∧ ∃ err, blank.setValue "sequence_num" (.integer .int (-1)) = .error err ∧ err.code = .improperValue ∧
      (blank.apply values).1 = some (.within blank.name (.codec err)) ∧
      (blank.apply values).2.value? "difference_signal" = some (.floats [0x3ff0000000000000]) ∧
      blank.SameAt (blank.apply values).2 "total_samples" := by
  intro blank values
  have hblank : blank.Blank := .catalogue (by decide +kernel)
  obtain ⟨-, -, hrefused⟩ := apply_is_ordered_and_exact hblank hblank.ofKind_self values (by decide)
  have hsamples : blank.Takes "difference_signal" (.list [.float64 0x3ff0000000000000]) (.floats [0x3ff0000000000000]) :=
    .samples rfl (.cons (.float64 _) .nil)
  obtain ⟨herror, htaken, hsame⟩ := hrefused "sequence_num" (.integer .int (-1)) _ (by simp [values]) rfl fun p hp _ hprecedes => by
    simp only [values, List.mem_cons, List.not_mem_nil, or_false] at hp
    rcases hp with rfl | rfl | rfl | rfl
    · exact absurd hprecedes.1 (by decide)
    · exact absurd hprecedes.1 (by decide)
    · exact absurd rfl hprecedes.2
    · exact ⟨_, hsamples⟩
  refine ⟨hblank, _, rfl, rfl, herror, htaken ("difference_signal", _) ?_ ⟨by decide, by decide⟩ _ hsamples, hsame _ fun _ => by decide⟩
  simp [values]

end Message

end SensorWire
