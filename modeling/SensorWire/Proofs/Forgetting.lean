import Mathlib
import SensorWire.Proofs.Sampling

/-!
# Decoding into a message that was used before

Two messages of one kind may hold different values, and a strict decode into one and into the other goes the same way: what a field holds
is not read, and every field is assigned before anything is checked that depends on it. Two fields of the same shape take the same pair
(`Alike.strictPair_eq`), so two strict walks meet the same errors and stand at the same place of the input (`walkStrict_alike`). Only a
field whose number was refused keeps what it held, and its key is listed (`Agree`).

Main statement: `strict_decode_forgets`.
-/

namespace SensorWire

open Decoder

/-! ## Fields of the same shape -/

namespace Field

variable {f g h : Field}

theorem Alike.trans (hfg : f.Alike g) (hgh : g.Alike h) : f.Alike h :=
  ⟨hgh.key.trans hfg.key, hgh.type.trans hfg.type, hgh.checked.trans hfg.checked, hgh.bound⟩

theorem Alike.forall₂_trans {fields fields' fields'' : List Field} (h : List.Forall₂ Alike fields fields')
    (h' : List.Forall₂ Alike fields' fields'') : List.Forall₂ Alike fields fields'' := by
  induction h generalizing fields'' with
  | nil => exact h'
  | cons hf _ ih =>
    cases h' with
    | cons hf' h' => exact .cons (hf.trans hf') (ih h')

/-- A field takes a value without looking at what it holds. -/
theorem Alike.takeValue_eq (h : f.Alike g) (hf : f.isBound = true) (op : Text) : takeValue op g = takeValue op f := by
  obtain ⟨key, binding, checked⟩ := f
  obtain ⟨key', binding', checked'⟩ := g
  obtain ⟨rfl, htype, rfl, hbound⟩ := h
  cases binding with
  | unbound t => cases hf
  | bound s =>
    cases binding' with
    | unbound t => cases hbound
    | bound s' =>
      change s'.type = s.type at htype
      cases s <;> cases s' <;> simp only [Slot.type, reduceCtorEq] at htype <;> rfl

theorem Alike.strictPair_eq (h : f.Alike g) (hf : f.isBound = true) : Table.strictPair g = Table.strictPair f := by
  unfold Table.strictPair
  rw [h.key, h.takeValue_eq hf]

theorem Alike.store_eq (h : f.Alike g) (s : Slot) : g.store s = f.store s := by
  simp only [store, h.key, h.checked]

end Field

/-! ## Two walks -/

namespace Table

/-- Fields that are the same, but for those whose key is listed. -/
def Agree (keys : List Text) (fields fields' : List Field) : Prop :=
  List.Forall₂ (fun f g => g.key = f.key ∧ (f.key ∉ keys → g = f)) fields fields'

section Agree

variable {keys keys' : List Text} {fields fields' : List Field}

theorem Agree.eq (h : Agree [] fields fields') : fields' = fields := by
  induction h with
  | nil => rfl
  | cons hf _ ih => rw [hf.2 List.not_mem_nil, ih]

theorem Agree.mono (h : Agree keys fields fields') (hkeys : keys ⊆ keys') : Agree keys' fields fields' :=
  h.imp fun _ _ hf => ⟨hf.1, fun hnot => hf.2 fun hmem => hnot (hkeys hmem)⟩

/-- What is not listed is the same. -/
theorem Agree.filter_values (h : Agree keys fields fields') (strict strict' : Bool) :
    (values ⟨fields', strict'⟩).filter (fun v => v.1 ∉ keys) = (values ⟨fields, strict⟩).filter fun v => v.1 ∉ keys := by
  induction h with
  | nil => rfl
  | @cons f g _ _ hf _ ih =>
    simp only [values, List.map_cons] at ih ⊢
    by_cases hkey : f.key ∈ keys
    · have hkey' : g.key ∈ keys := hf.1 ▸ hkey
      rw [List.filter_cons_of_neg (by simpa using hkey'), List.filter_cons_of_neg (by simpa using hkey), ih]
    · obtain rfl := hf.2 hkey
      rw [List.filter_cons_of_pos (by simpa using hkey), List.filter_cons_of_pos (by simpa using hkey), ih]

end Agree

/-- Two walks that went the same way. -/
structure Walk.Same (w w' : Walk) : Prop where
  outOfRange : w'.outOfRange = w.outOfRange
  unknown : w'.unknown = w.unknown
  error : w'.error = w.error
  fields : w.error = none → Agree w.outOfRange (w.fields false) (w'.fields false)

/-- Strict walks over fields of the same shapes. -/
theorem walkStrict_alike {fields fields' : List Field} (h : List.Forall₂ Field.Alike fields fields')
    (hbound : ∀ f ∈ fields, f.isBound = true) (d : Decoder) :
    (walkStrict fields' d).2 = (walkStrict fields d).2 ∧ (walkStrict fields d).1.Same (walkStrict fields' d).1 := by
  induction h generalizing d with
  | nil => exact ⟨rfl, rfl, rfl, rfl, fun _ => .nil⟩
  | @cons f g fields fields' hf _ ih =>
    obtain ⟨hbound', hrest⟩ := List.forall_mem_cons.1 hbound
    rw [walkStrict, walkStrict, hf.strictPair_eq hbound']
    rcases (strictPair f).run.run d with ⟨err | s, d₁⟩
    · dsimp only
      split_ifs
      · -- the number is refused: the field keeps what it holds, and its key is listed
        obtain ⟨hd, hsame⟩ := ih hrest d₁
        refine ⟨hd, ?_, hsame.unknown, hsame.error, fun herror => ?_⟩
        · rw [hsame.outOfRange, hf.key]
        · refine .cons ⟨hf.key, fun hnot => absurd List.mem_cons_self hnot⟩ ?_
          exact (hsame.fields herror).mono (List.subset_cons_self _ _)
      · exact ⟨rfl, rfl, rfl, rfl, fun herror => by cases herror⟩
    · obtain ⟨hd, hsame⟩ := ih hrest d₁
      refine ⟨hd, hsame.outOfRange, hsame.unknown, hsame.error, fun herror => .cons ⟨hf.key, fun _ => ?_⟩ (hsame.fields herror)⟩
      exact hf.store_eq s

theorem Walk.Same.aggregate {w w' : Walk} (h : w.Same w') (op : Text) : w'.aggregate op = w.aggregate op := by
  rw [Walk.aggregate, Walk.aggregate, h.outOfRange, h.unknown]

/-- The error that ends a strict walk lists no keys. -/
theorem keys_of_walkStrict {fields : List Field} {d : Decoder} {err : Error} (h : (walkStrict fields d).1.error = some err) :
    err.keys = [] := by
  induction fields generalizing d with
  | nil => cases h
  | cons f fields ih =>
    have htells := tells_strictPair f d
    rw [walkStrict] at h
    generalize (strictPair f).run.run d = r at h htells
    rcases r with ⟨err' | s, d₁⟩
    · dsimp only at h htells
      split_ifs at h htells
      · exact ih h
      · cases h
        exact htells.keys
    · exact ih h

/-- The keys that an error lists. -/
def listedKeys (err? : Option Error) : List Text := (err?.map Error.keys).getD []

theorem outOfRange_subset_listedKeys (w : Walk) (op : Text) : w.outOfRange ⊆ listedKeys (w.aggregate op) := by
  unfold Walk.aggregate
  cases hrange : w.outOfRange with
  | nil => exact List.nil_subset _
  | cons key keys => exact List.Subset.refl _

/-- An error that lists no keys ends a decode. -/
theorem filter_of_keys {err : Error} (h : err.keys = []) : ((some err).filter fun e => !e.isAggregate) ≠ none := by
  simp [Error.isAggregate, h]

/-- A strict decode that fails for no more than the keys that it lists has read a pair for each field, and left the map. -/
theorem walkStrict_of_decode {t : Table} {options : Options} {data : List UInt8} (hstrict : t.strict = true)
    (h : ((t.decode options data).1.filter fun e => !e.isAggregate) = none) :
    ∃ d w d₁ d', enter options t.expected data = (.ok (), d) ∧ walkStrict t.fields d = (w, d₁) ∧ w.error = none ∧ Gives leave d₁ () d' := by
  rw [decode, ← expected] at h
  rcases henter : enter options t.expected data with ⟨err | _, d⟩
  · rw [henter] at h
    exact absurd h (filter_of_keys (of_enter_error henter).2.1)
  rcases hwalk : walkStrict t.fields d with ⟨w, d₁⟩
  simp only [henter, walk, hstrict, if_true, hwalk] at h
  cases herror : w.error with
  | some err =>
    have herr : (walkStrict t.fields d).1.error = some err := by rw [hwalk, herror]
    have hkeys := keys_of_walkStrict herr
    simp only [herror] at h
    exact absurd h (filter_of_keys hkeys)
  | none =>
    rcases leave_cases d₁ with ⟨err, d', hleave, hreported⟩ | ⟨hread, hunread, htrailing⟩
    · simp only [herror, hleave] at h
      exact absurd h (filter_of_keys hreported.keys)
    · exact ⟨d, w, d₁, _, rfl, hwalk, herror, leave_traces hread hunread htrailing⟩

/-- Fields that are not checked refuse no number. -/
theorem eq_none_of_unchecked {t : Table} {options : Options} {data : List UInt8} (hstrict : t.strict = true)
    (hchecked : ∀ f ∈ t.fields, f.checked = false) (h : ((t.decode options data).1.filter fun e => !e.isAggregate) = none) :
    (t.decode options data).1 = none := by
  obtain ⟨d, w, d₁, d', henter, hwalk, herror, hleave⟩ := walkStrict_of_decode hstrict h
  have haggregate := (walkStrict_ends hchecked d).1
  rw [hwalk] at haggregate
  rw [decode_of_walk henter (by rw [walk, if_pos hstrict, hwalk]) herror hleave, haggregate]

section Decode

variable {t t' : Table} (hstrict : t.strict = true) (hstrict' : t'.strict = true) (h : List.Forall₂ Field.Alike t.fields t'.fields)
  (hbound : ∀ f ∈ t.fields, f.isBound = true)

include hstrict hstrict' h hbound

/-- The fields of two strict tables, read by the same decoder. -/
theorem decodeFields_alike (d : Decoder) :
    (t'.decodeFields d).1 = (t.decodeFields d).1 ∧ (t'.decodeFields d).2.2 = (t.decodeFields d).2.2 ∧
      ((t.decodeFields d).1 = none → (t'.decodeFields d).2.1 = (t.decodeFields d).2.1) := by
  obtain ⟨hd, hsame⟩ := walkStrict_alike h hbound d
  simp only [decodeFields, walk, hstrict, hstrict', if_true]
  generalize walkStrict t.fields d = r at hd hsame ⊢
  generalize walkStrict t'.fields d = r' at hd hsame ⊢
  obtain ⟨w, d₁⟩ := r
  obtain ⟨w', d₁'⟩ := r'
  obtain rfl : d₁' = d₁ := hd
  dsimp only at hsame ⊢
  rw [hsame.error]
  cases herror : w.error with
  | some err => exact ⟨rfl, rfl, fun hnone => by cases hnone⟩
  | none =>
    refine ⟨hsame.aggregate walkOp, rfl, fun hnone => ?_⟩
    have hagree := (hsame.fields herror).mono (outOfRange_subset_listedKeys w walkOp)
    dsimp only at hnone ⊢
    rw [hnone] at hagree
    rw [hagree.eq]

omit hbound in
theorem expected_alike : t'.expected = t.expected := by
  rw [expected, expected, hstrict, hstrict', h.length_eq]

/-- Two strict tables fail in the same way on the same input, or both do not, and the trace is the same. -/
theorem decode_told_alike (options : Options) (data : List UInt8) :
    (t'.decode options data).1 = (t.decode options data).1 ∧ (t'.decode options data).2.2 = (t.decode options data).2.2 := by
  rw [decode, decode, ← expected, ← expected, expected_alike hstrict hstrict' h]
  rcases enter options t.expected data with ⟨err | _, d⟩
  · exact ⟨rfl, rfl⟩
  · obtain ⟨hd, hsame⟩ := walkStrict_alike h hbound d
    simp only [walk, hstrict, hstrict', if_true]
    generalize walkStrict t.fields d = r at hd hsame ⊢
    generalize walkStrict t'.fields d = r' at hd hsame ⊢
    obtain ⟨w, _⟩ := r
    obtain ⟨w', d₁⟩ := r'
    dsimp only at hd hsame ⊢
    subst hd
    rw [hsame.error]
    cases w.error with
    | some err => exact ⟨rfl, rfl⟩
    | none =>
      dsimp only
      rcases leave.run.run d₁ with ⟨err | _, d₂⟩
      · exact ⟨rfl, rfl⟩
      · exact ⟨hsame.aggregate walkOp, rfl⟩

/-- Where two strict tables do not fail, the fields that are not listed are the same. -/
theorem decode_agree {options : Options} {data : List UInt8} (hlists : ((t.decode options data).1.filter fun e => !e.isAggregate) = none) :
    Agree (listedKeys (t.decode options data).1) (t.decode options data).2.1.fields (t'.decode options data).2.1.fields := by
  obtain ⟨d, w, d₁, d', henter, hwalk, herror, hleave⟩ := walkStrict_of_decode hstrict hlists
  obtain ⟨hd, hsame⟩ := walkStrict_alike h hbound d
  rcases hwalk' : walkStrict t'.fields d with ⟨w', d₁'⟩
  rw [hwalk, hwalk'] at hd hsame
  obtain rfl : d₁' = d₁ := hd
  have henter' : enter options t'.expected data = (.ok (), d) := by rw [expected_alike hstrict hstrict' h, henter]
  rw [decode_of_walk henter (by rw [walk, if_pos hstrict, hwalk]) herror hleave,
    decode_of_walk henter' (by rw [walk, if_pos hstrict', hwalk']) (hsame.error.trans herror) hleave]
  exact (hsame.fields herror).mono (outOfRange_subset_listedKeys w walkOp)

end Decode

end Table

/-! ## Messages -/

namespace Message

/-- Two messages of one kind, whatever they hold. -/
structure Alike (m m' : Message) : Prop where
  name : m'.name = m.name
  rule : m'.rule = m.rule
  strict : m'.table.strict = m.table.strict
  fields : List.Forall₂ Field.Alike m.table.fields m'.table.fields
  bound : ∀ f ∈ m.table.fields, f.isBound = true

theorem OfKind.alike {blank m m' : Message} (hm : m.OfKind blank) (hm' : m'.OfKind blank) (hblank : blank.Blank) : m.Alike m' :=
  ⟨hm'.name.trans hm.name.symm, hm'.rule.trans hm.rule.symm, hm'.strict.trans hm.strict.symm,
    Field.Alike.forall₂_trans (hm.blank_alike hblank) hm'.fields, (hm.shape hblank).bound⟩

section Samples

variable {room : Nat} {d : Decoder} {m m' : Message}

/-- Samples are read without looking at those that were there. -/
theorem takeSignal_samples (n : Nat) (samples : Samples) (flag : Bool) (d : Decoder) :
    (takeSignal room n ⟨{ m with samples }, flag⟩ d).1 = (takeSignal room n ⟨m, flag⟩ d).1 ∧
      (takeSignal room n ⟨{ m with samples }, flag⟩ d).2.2 = (takeSignal room n ⟨m, flag⟩ d).2.2 ∧
      ((takeSignal room n ⟨m, flag⟩ d).1 = none →
        (takeSignal room n ⟨{ m with samples }, flag⟩ d).2.1 = (takeSignal room n ⟨m, flag⟩ d).2.1) := by
  unfold takeSignal
  dsimp only
  split_ifs
  · exact ⟨rfl, rfl, fun hnone => by cases hnone⟩
  · rcases takeSamples n d with ⟨new, _ | err, d₁⟩
    · exact ⟨rfl, rfl, fun _ => rfl⟩
    · exact ⟨rfl, rfl, fun hnone => by cases hnone⟩
  · rcases (charge "Charge" samplesKey (Int64.ofNat (8 * n))).run.run d with ⟨err | _, d₁⟩
    · exact ⟨rfl, rfl, fun hnone => by cases hnone⟩
    · dsimp only
      rcases takeSamples n d₁ with ⟨new, _ | err, d₂⟩
      · exact ⟨rfl, rfl, fun _ => rfl⟩
      · exact ⟨rfl, rfl, fun hnone => by cases hnone⟩

/-- The fields in order and the array: the number of samples is read before the array is compared with it. -/
theorem takeInOrder_alike (h : m.Alike m') (hstrict : m.table.strict = true) (room : Nat) (d : Decoder) :
    (takeInOrder room ⟨m', false⟩ d).1 = (takeInOrder room ⟨m, false⟩ d).1 ∧
      (takeInOrder room ⟨m', false⟩ d).2.2 = (takeInOrder room ⟨m, false⟩ d).2.2 ∧
      ((takeInOrder room ⟨m, false⟩ d).1 = none → (takeInOrder room ⟨m', false⟩ d).2.1 = (takeInOrder room ⟨m, false⟩ d).2.1) := by
  obtain ⟨name, table, rule, samples⟩ := m
  obtain ⟨name', table', rule', samples'⟩ := m'
  obtain ⟨rfl, rfl, hstrict', hfields, hbound⟩ := h
  have halike := Table.decodeFields_alike hstrict (hstrict'.trans hstrict) hfields hbound d
  unfold takeInOrder
  dsimp only at halike ⊢
  generalize table.decodeFields d = r at halike ⊢
  generalize table'.decodeFields d = r' at halike ⊢
  obtain ⟨_, t, _⟩ := r
  obtain ⟨err?, t', d₁⟩ := r'
  obtain ⟨herr, hd, ht⟩ := halike
  dsimp only at herr hd ht
  subst herr hd
  cases err? with
  | some err => exact ⟨rfl, rfl, fun hnone => by cases hnone⟩
  | none =>
    obtain rfl : t' = t := ht rfl
    have hcount : sampleCount ⟨name', t', rule', samples'⟩ = sampleCount ⟨name', t', rule', samples⟩ := rfl
    dsimp only
    rw [hcount]
    split_ifs
    · exact ⟨rfl, rfl, fun hnone => by cases hnone⟩
    · rcases (takeKey "Key" "").run.run d₁ with ⟨err | key, d₂⟩
      · exact ⟨rfl, rfl, fun hnone => by cases hnone⟩
      · dsimp only
        split_ifs
        · exact ⟨rfl, rfl, fun hnone => by cases hnone⟩
        · rcases (takeArrayHead "ArrayValue" key).run.run d₂ with ⟨err | n, d₃⟩
          · exact ⟨rfl, rfl, fun hnone => by cases hnone⟩
          · dsimp only
            split_ifs
            · exact ⟨rfl, rfl, fun hnone => by cases hnone⟩
            · exact takeSignal_samples (m := ⟨name', t', rule', samples⟩) n samples' false d₃

/-- The error that ends the walk in order, or that follows it, lists no keys. -/
theorem keys_of_takePairs (hstrict : m.table.strict = true) (hchecked : ∀ f ∈ m.table.fields, f.checked = false) {err : Error}
    (h : (m.takePairs false d).1 = some err) : err.keys = [] := by
  have hends := ends_takeInOrder (s := ⟨m, false⟩) hstrict hchecked m.samples.capacity d
  simp only [takePairs_eq, walkPairs, Bool.false_eq_true, if_false] at h
  generalize takeInOrder m.samples.capacity ⟨m, false⟩ d = r at h hends
  rcases r with ⟨_ | err', s, d'⟩
  · rw [closePairs, Option.none_or] at h
    split_ifs at h with hcount
    · cases h
      rfl
    · cases h
  · cases h
    exact Fault.keys hends

variable (h : m.Alike m') (hstrict : m.table.strict = true) (hroom : m'.samples.capacity = m.samples.capacity)

include h hstrict hroom

/-- The pairs of two messages of one kind, with the same room for samples. -/
theorem takePairs_alike (d : Decoder) :
    (m'.takePairs false d).1 = (m.takePairs false d).1 ∧ (m'.takePairs false d).2.2 = (m.takePairs false d).2.2 ∧
      ((m.takePairs false d).1 = none → (m'.takePairs false d).2.1 = (m.takePairs false d).2.1) := by
  obtain ⟨herr, hd, hs⟩ := takeInOrder_alike h hstrict m.samples.capacity d
  simp only [takePairs_eq, walkPairs, Bool.false_eq_true, if_false, hroom]
  generalize takeInOrder m.samples.capacity ⟨m, false⟩ d = r at herr hd hs ⊢
  generalize takeInOrder m.samples.capacity ⟨m', false⟩ d = r' at herr hd hs ⊢
  obtain ⟨_, s, _⟩ := r
  obtain ⟨err?, s', d'⟩ := r'
  dsimp only at herr hd hs ⊢
  subst herr hd
  cases err? with
  | none =>
    obtain rfl := hs rfl
    exact ⟨rfl, rfl, fun _ => rfl⟩
  | some err => exact ⟨rfl, rfl, fun hnone => by cases hnone⟩

theorem decodeSamples_alike (hchecked : ∀ f ∈ m.table.fields, f.checked = false) (options : Options) (data : List UInt8) :
    (m'.decodeSamples false options data).1 = (m.decodeSamples false options data).1 ∧
      (m'.decodeSamples false options data).2.2 = (m.decodeSamples false options data).2.2 ∧
      (((m.decodeSamples false options data).1.filter fun e => !e.isAggregate) = none →
        (m'.decodeSamples false options data).2.1 = (m.decodeSamples false options data).2.1) := by
  have hpairs : m'.pairs = m.pairs := by rw [pairs, pairs, hasSamples, hasSamples, h.rule, h.fields.length_eq]
  rw [decodeSamples, decodeSamples, if_neg Bool.false_ne_true, if_neg Bool.false_ne_true, hpairs]
  rcases henter : enter options (some (m.pairs : Int)) data with ⟨err | _, d⟩
  · exact ⟨rfl, rfl, fun hlists => absurd hlists (Table.filter_of_keys (of_enter_error henter).2.1)⟩
  · obtain ⟨herr, hd, hmessage⟩ := takePairs_alike h hstrict hroom d
    have hkeys : ∀ err, (m.takePairs false d).1 = some err → err.keys = [] := fun err => keys_of_takePairs hstrict hchecked
    dsimp only
    generalize m.takePairs false d = r at herr hd hmessage hkeys ⊢
    generalize m'.takePairs false d = r' at herr hd hmessage ⊢
    obtain ⟨_, m₁, _⟩ := r
    obtain ⟨err?, m₁', d'⟩ := r'
    dsimp only at herr hd hmessage hkeys ⊢
    subst herr hd
    cases err? with
    | some err =>
      have hfatal : ((some err).filter fun e => !e.isAggregate) = some err := Option.filter_some_pos (by simp [Error.isAggregate, hkeys])
      rw [hfatal]
      exact ⟨rfl, rfl, fun hlists => absurd hlists (Table.filter_of_keys (hkeys err rfl))⟩
    | none =>
      obtain rfl := hmessage rfl
      exact ⟨rfl, rfl, fun _ => rfl⟩

end Samples

/-- Messages that are the same, but for the fields whose key is listed. -/
structure Agree (keys : List Text) (m m' : Message) : Prop where
  rule : m'.rule = m.rule
  fields : Table.Agree keys m.table.fields m'.table.fields
  samples : m.hasSamples = true → m'.samples.values = m.samples.values

theorem Agree.filter_values {keys : List Text} {m m' : Message} (h : Agree keys m m') :
    m'.values.filter (fun v => v.1 ∉ keys) = m.values.filter fun v => v.1 ∉ keys := by
  have hsamples : (if m'.hasSamples then [(samplesKey, Value.floats m'.samples.values)] else []) =
      if m.hasSamples then [(samplesKey, Value.floats m.samples.values)] else [] := by
    have hhas : m'.hasSamples = m.hasSamples := by rw [hasSamples, hasSamples, h.rule]
    rw [hhas]
    split_ifs with hs
    · rw [h.samples hs]
    · rfl
  rw [values, values, List.filter_append, List.filter_append, hsamples]
  congr 1
  exact h.fields.filter_values m.table.strict m'.table.strict

theorem Agree.values {m m' : Message} (h : Agree [] m m') : m'.values = m.values := by
  have hall : ∀ vs : List (Text × Value), vs.filter (fun v => v.1 ∉ ([] : List Text)) = vs := by simp
  have hvalues := h.filter_values
  rwa [hall, hall] at hvalues

/-- Only messages without a rule of their own check numbers. -/
theorem Blank.unchecked_of_rule {m : Message} (h : m.Blank) (hrule : m.rule ≠ .plain) : ∀ f ∈ m.table.fields, f.checked = false := by
  have hcatalogue : ∀ m ∈ Catalog.all, m.rule ≠ .plain → ∀ f ∈ m.table.fields, f.checked = false := by decide +kernel
  cases h with
  | catalogue hmem => exact hcatalogue m hmem hrule
  | schema => exact absurd rfl hrule

theorem OfKind.unchecked_of_rule {m blank : Message} (h : m.OfKind blank) (hblank : blank.Blank) (hrule : m.rule ≠ .plain) :
    ∀ f ∈ m.table.fields, f.checked = false := by
  intro f hf
  obtain ⟨g, hg, hlike⟩ := h.exists_blank hf
  exact hlike.checked.trans (hblank.unchecked_of_rule (h.rule ▸ hrule) g hg)

section Decode

variable {m m' : Message} (h : m.Alike m')

include h

theorem Alike.hasSamples_eq : m'.hasSamples = m.hasSamples := by rw [hasSamples, hasSamples, h.rule]

/-- The map is read in the same way into both messages. -/
theorem readMap_alike (hsamples : m.hasSamples = true →
      m.table.strict = true ∧ m'.samples.capacity = m.samples.capacity ∧ ∀ f ∈ m.table.fields, f.checked = false)
    (options : Options) (data : List UInt8) :
    (m'.readMap false options data).1 = (m.readMap false options data).1 ∧
      (m'.readMap false options data).2.2 = (m.readMap false options data).2.2 ∧
      (((m.readMap false options data).1.filter fun e => !e.isAggregate) = none →
        Agree (Table.listedKeys (m.readMap false options data).1) (m.readMap false options data).2.1 (m'.readMap false options data).2.1) := by
  rw [readMap, readMap, h.hasSamples_eq]
  split_ifs with hs
  · obtain ⟨hstrict, hroom, hchecked⟩ := hsamples hs
    obtain ⟨herr, htrace, hmessage⟩ := decodeSamples_alike h hstrict hroom hchecked options data
    refine ⟨herr, htrace, fun hlists => ?_⟩
    rw [hmessage hlists]
    exact ⟨rfl, List.forall₂_same.2 fun f _ => ⟨rfl, fun _ => rfl⟩, fun _ => rfl⟩
  · have hfields : List.Forall₂ Field.Alike (Table.mk m.table.fields true).fields (Table.mk m'.table.fields true).fields := h.fields
    obtain ⟨herr, htrace⟩ := Table.decode_told_alike rfl rfl hfields h.bound options data
    refine ⟨herr, htrace, fun hlists => ⟨h.rule, ?_, fun hs' => absurd hs' hs⟩⟩
    exact Table.decode_agree rfl rfl hfields h.bound hlists

end Decode

theorem payloadFault?_congr {m m' : Message} (h : Agree [] m m') : m'.payloadFault? = m.payloadFault? := by
  have hlookup : ∀ key, m'.table.lookup? key = m.table.lookup? key := by
    intro key
    rw [Table.lookup?, Table.lookup?, h.fields.eq]
  have hnumber : m'.number = m.number := funext fun key => by rw [number, number, hlookup]
  have hpayload : m'.payload = m.payload := funext fun key => by rw [payload, payload, hlookup]
  simp only [payloadFault?, h.rule, hnumber, hpayload]

/-- A message keeps its rule. -/
theorem OfKind.rule_readMap {m blank : Message} (hm : m.OfKind blank) (hblank : blank.Blank) (lenient : Bool) (options : Options)
    (data : List UInt8) : (m.readMap lenient options data).2.1.rule = m.rule := by
  rw [readMap]
  split_ifs with hs
  · have hrule := hasSamples_iff_rule.1 hs
    have hchecked := hm.unchecked_of_rule hblank (by simp [hrule])
    exact (Message.samplesDecoded hs (hm.samples hblank hrule).1 hchecked lenient options data).rule
  · rfl

/-- The payload is checked after a strict decode with the same outcome for both messages. -/
theorem payloadFault?_alike {blank m m' : Message} (hblank : blank.Blank) (hm : m.OfKind blank) {options : Options} {data : List UInt8}
    (hlists : ((m.readMap false options data).1.filter fun e => !e.isAggregate) = none)
    (h : Agree (Table.listedKeys (m.readMap false options data).1) (m.readMap false options data).2.1 m') :
    m'.payloadFault? = (m.readMap false options data).2.1.payloadFault? := by
  cases hrule : m.rule with
  | payload length payload =>
    -- no field of such a message is checked, so no key is listed
    have hchecked := hm.unchecked_of_rule hblank (by simp [hrule])
    have hnone : (m.readMap false options data).1 = none := by
      have hs : ¬m.hasSamples = true := by simp [hasSamples, hrule]
      rw [readMap, if_neg hs] at hlists ⊢
      exact Table.eq_none_of_unchecked rfl hchecked hlists
    rw [hnone] at h
    exact payloadFault?_congr h
  | _ =>
    have hread := (hm.rule_readMap hblank false options data).trans hrule
    rw [payloadFault?, payloadFault?, h.rule, hread]

theorem not_isAggregate_of_payloadFault {m : Message} {err : Error} (h : m.payloadFault? = some err) : err.isAggregate = false := by
  unfold payloadFault? at h
  split at h
  · dsimp only at h
    split_ifs at h
    cases h
    rfl
  · cases h

/-- The check of the payload does not tell apart what was read into two messages. -/
theorem checkPayload_agree {m m' : Message} {err? : Option Error} (name : Text) (trace : List Event)
    (hagree : (err?.filter fun e => !e.isAggregate) = none → Agree (Table.listedKeys err?) m m' ∧ m'.payloadFault? = m.payloadFault?) :
    let r := checkPayload name (err?, m, trace)
    let r' := checkPayload name (err?, m', trace)
    r'.1 = r.1 ∧ r'.2.2 = r.2.2 ∧ (r.1 = none → r'.2.1.values = r.2.1.values) ∧
      ∀ failure err, r.1 = some failure → failure.codec? = some err → err.isAggregate = true →
        r'.2.1.values.filter (fun v => v.1 ∉ err.keys) = r.2.1.values.filter fun v => v.1 ∉ err.keys := by
  unfold checkPayload
  dsimp only
  cases hfatal : err?.filter fun e => !e.isAggregate with
  | some err =>
    refine ⟨rfl, rfl, fun hnone => (by cases hnone), fun failure err' hfailure herr haggregate => ?_⟩
    cases hfailure
    cases herr
    have hnot := (Option.filter_eq_some_iff.1 hfatal).2
    rw [haggregate] at hnot
    cases hnot
  | none =>
    obtain ⟨hvalues, hfault⟩ := hagree hfatal
    rw [hfault]
    cases hpayload : m.payloadFault? with
    | some err =>
      refine ⟨rfl, rfl, fun hnone => (by cases hnone), fun failure err' hfailure herr haggregate => ?_⟩
      cases hfailure
      cases herr
      rw [not_isAggregate_of_payloadFault hpayload] at haggregate
      cases haggregate
    | none =>
      refine ⟨rfl, rfl, fun hnone => ?_, fun failure err' hfailure herr _ => ?_⟩
      · obtain rfl := Option.map_eq_none_iff.1 hnone
        exact hvalues.values
      · obtain ⟨err, rfl, rfl⟩ := Option.map_eq_some_iff.1 hfailure
        cases herr
        exact hvalues.filter_values

/-- A strict decode into a message of a known kind does not depend on what the message holds, but for the room for samples: the failure
and the trace are the same for two messages of the kind, and so is every value if there is no failure. If the failure lists keys, the
values of all other keys are the same. -/
theorem strict_decode_forgets {blank m m' : Message} (hblank : blank.Blank) (hm : m.OfKind blank) (hm' : m'.OfKind blank)
    (hroom : m.hasSamples = true → m'.samples.capacity = m.samples.capacity) (options : Options) (data : List UInt8) :
    let r := m.decode false options data
    let r' := m'.decode false options data
    r'.1 = r.1 ∧ r'.2.2 = r.2.2 ∧ (r.1 = none → r'.2.1.values = r.2.1.values) ∧
      ∀ failure err, r.1 = some failure → failure.codec? = some err → err.isAggregate = true →
        r'.2.1.values.filter (fun v => v.1 ∉ err.keys) = r.2.1.values.filter fun v => v.1 ∉ err.keys := by
  intro r r'
  have halike := hm.alike hm' hblank
  have hsamples : m.hasSamples = true →
      m.table.strict = true ∧ m'.samples.capacity = m.samples.capacity ∧ ∀ f ∈ m.table.fields, f.checked = false := by
    intro hs
    have hrule := hasSamples_iff_rule.1 hs
    exact ⟨(hm.samples hblank hrule).1, hroom hs, hm.unchecked_of_rule hblank (by simp [hrule])⟩
  have hlabelled : m'.labelled options = m.labelled options := by rw [labelled, labelled, label, label, halike.name]
  obtain ⟨herr, htrace, hagree⟩ := readMap_alike halike hsamples (m.labelled options) data
  have hr' : r' = checkPayload m.name (m'.readMap false (m.labelled options) data) := by
    rw [← hlabelled, ← halike.name]
    rfl
  have hr : r = checkPayload m.name (m.readMap false (m.labelled options) data) := rfl
  have hq' : m'.readMap false (m.labelled options) data =
      ((m.readMap false (m.labelled options) data).1, (m'.readMap false (m.labelled options) data).2.1,
        (m.readMap false (m.labelled options) data).2.2) := by
    rw [← herr, ← htrace]
  rw [hr, hr', hq']
  exact checkPayload_agree m.name _ fun hlists => ⟨hagree hlists, payloadFault?_alike hblank hm hlists (hagree hlists)⟩

/-- One sample, read into a message with room for two that is empty, and into one that held two. -/
theorem strict_decode_forgets_signal :
    let blank := Catalog.sensor "RbrPressureDifferenceSignal"
      (Catalog.words ["sequence_num", "total_samples", "num_samples"] ++ Catalog.doubles ["residual_0", "residual_1"]) .samples
    let sent : Message := { blank with table := blank.table.store sampleCountKey (.uint32 1), samples := ⟨[0x3ff0000000000000], 1⟩ }
    let data := (sent.marshal {}).1.toOption.getD []
    let fresh : Message := { blank with samples := ⟨[], 2⟩ }
    let used : Message := { blank with table := blank.table.store sampleCountKey (.uint32 2), samples := ⟨[1, 2], 2⟩ }
    blank.Blank ∧ (used.decode false {} data).1 = none ∧
      (used.decode false {} data).2.1.values = (fresh.decode false {} data).2.1.values ∧
      (used.decode false {} data).2.1.samples.values = [0x3ff0000000000000] := by
  intro blank sent data fresh used
  have hblank : blank.Blank := .catalogue (by decide +kernel)
  have hfresh : fresh.OfKind blank := ⟨rfl, rfl, rfl, List.forall₂_same.2 fun f hf => ⟨rfl, rfl, rfl, by revert f; decide +kernel⟩⟩
  have hlike : ∀ p ∈ blank.table.fields.zip used.table.fields,
      p.2.key = p.1.key ∧ p.2.type = p.1.type ∧ p.2.checked = p.1.checked ∧ p.2.isBound = true := by decide +kernel
  have hused : used.OfKind blank := by
    refine ⟨rfl, rfl, rfl, List.forall₂_iff_zip.2 ⟨by decide +kernel, fun hmem => ?_⟩⟩
    obtain ⟨hkey, htype, hchecked, hbound⟩ := hlike _ hmem
    exact ⟨hkey, htype, hchecked, hbound⟩
  obtain ⟨hsame, -, hvalues, -⟩ := strict_decode_forgets hblank hfresh hused (fun _ => rfl) {} data
  have hnone : (fresh.decode false {} data).1 = none := by decide +kernel
  exact ⟨hblank, hsame.trans hnone, hvalues hnone, by decide +kernel⟩

end Message

end SensorWire
