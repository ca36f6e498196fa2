import Mathlib
import SensorWire.Codec.Table
import SensorWire.Proofs.Encoder

/-!
# What a table is written as

A table is written as the map of its keys to the items of its slots (`Table.message`), whatever the values, unless a field has no slot or
holds a simple value that does not exist. `putFields` is a run of the encoder: writing a field that can be written adds its pair to the
draft, and writing any other ends the run.

Main statements: `marshal_of_writable` and `marshal_of_not_writable`.
-/

namespace SensorWire

open Cbor Item

/-! ## Fields as pairs -/

/-- The item that a slot is written as. -/
def Slot.item : Slot → Item
  | uint8 v => .ofNat v.toNat
  | uint16 v => .ofNat v.toNat
  | uint32 v => .ofNat v.toNat
  | uint64 v => .ofNat v.toNat
  | bool v => .ofNat v.toNat
  | simple v => .simple v
  | float32 bits => .single bits
  | float64 bits => .double bits
  | string v => .ofText v
  | bytes v => .ofBytes v

namespace Field

/-- A field that can be written: it has a slot, and not one with a simple value that does not exist. -/
def Writable (f : Field) : Prop := f.isBound = true ∧ ∀ v, f.slot? = some (.simple v) → v < 24 ∨ 32 ≤ v

/-- The key and the value that a field is written as. -/
def pair (f : Field) : Item × Item := (.ofText f.key, (f.slot?.map Slot.item).getD .null)

end Field

/-- A simple value exists unless it is one of 24 to 31. -/
theorem reservedSimple_eq_false_iff (v : UInt8) : reservedSimple v.toNat = false ↔ v < 24 ∨ 32 ≤ v := by
  have hlt : v < 24 ↔ v.toNat < 24 := Iff.rfl
  have hle : 32 ≤ v ↔ 32 ≤ v.toNat := Iff.rfl
  rw [hlt, hle]
  simp only [reservedSimple, Bool.and_eq_false_iff, decide_eq_false_iff_not]
  omega

/-- A field that can be written is written as its pair. -/
theorem Action.field_of_writable {f : Field} (h : f.Writable) : ∃ op, Action.field f = .pair op f.key f.pair.2 := by
  obtain ⟨hbound, hsimple⟩ := h
  obtain ⟨key, binding, checked⟩ := f
  cases binding with
  | unbound t => cases hbound
  | bound s =>
    cases s with
    | simple v =>
      have hv := (reservedSimple_eq_false_iff v).2 (hsimple v rfl)
      refine ⟨"PutSimple", ?_⟩
      simp [Action.field, Action.simple, hv, Field.pair, Field.slot?, Slot.item]
    | _ => exact ⟨_, rfl⟩

/-- Any other field is refused. -/
theorem Action.field_of_not_writable {f : Field} (h : ¬f.Writable) : ∃ err, Action.field f = .refused err := by
  obtain ⟨key, binding, checked⟩ := f
  cases binding with
  | unbound t => exact ⟨_, rfl⟩
  | bound s =>
    cases s with
    | simple v =>
      have hv : reservedSimple v.toNat = true := by
        rw [← Bool.not_eq_false, reservedSimple_eq_false_iff]
        intro hv
        refine h ⟨rfl, fun v' hv' => ?_⟩
        cases hv'
        exact hv
      exact ⟨_, if_pos hv⟩
    | _ => exact absurd ⟨rfl, fun v hv => nomatch hv⟩ h

/-! ## Writing fields -/

/-- A draft with the pairs of fields added. -/
def Draft.addFields (g : Draft) (fields : List Field) : Draft :=
  { g with bytes := g.bytes ++ encodePairs (fields.map Field.pair), pairs := g.pairs + fields.length }

namespace Table

open Encoder

variable {buffer : List UInt8} {e : Encoder} {g : Draft} {f : Field} {fields : List Field}

/-- Writing one field that can be written adds its pair, and reports no more than a shortage. -/
theorem putField_of_writable (h : Carries buffer e g) (hfatal : g.fatal = none) (howed : g.owed = 0) (hf : f.Writable) :
    Carries buffer (e.putField f).2 (g.addFields [f]) ∧ (e.putField f).1.filter Error.isFatal = none := by
  obtain ⟨op, haction⟩ := Action.field_of_writable hf
  have hdraft : g.act (.pair op f.key f.pair.2) = (none, g.addFields [f]) := by
    rw [Draft.act_of_not_fatal hfatal, Draft.perform, if_neg (by omega)]
    simp [Draft.addFields, encodePairs, Field.pair]
  obtain ⟨hcarries, hreport⟩ := h.act (.pair op f.key f.pair.2)
  rw [hdraft] at hcarries hreport
  rw [putField_eq_act, haction, hreport]
  exact ⟨hcarries, filter_shortage ..⟩

/-- Writing any other field returns a fatal error. -/
theorem putField_of_not_writable (h : Carries buffer e g) (hfatal : g.fatal = none) (hf : ¬f.Writable) :
    ∃ err, (e.putField f).1 = some err ∧ err.isFatal = true := by
  obtain ⟨err, haction⟩ := Action.field_of_not_writable hf
  obtain ⟨-, hreport⟩ := h.act (.refused err)
  rw [Draft.act_of_not_fatal hfatal] at hreport
  refine ⟨err, ?_, Call.isFatal_of_refused (c := .field f) haction⟩
  rw [putField_eq_act, haction, hreport]
  rfl

theorem not_isFatal_of_filter {err : Error} (h : (some err).filter Error.isFatal = none) : err.isFatal = false := by
  rw [Option.filter_some] at h
  split at h
  · cases h
  · rename_i herr
    exact Bool.eq_false_iff.2 herr

theorem addFields_nil (g : Draft) : g.addFields [] = g := by
  simp [Draft.addFields, encodePairs]

theorem addFields_cons (g : Draft) (f : Field) (fields : List Field) :
    g.addFields (f :: fields) = (g.addFields [f]).addFields fields := by
  simp only [Draft.addFields, List.map_cons, List.map_nil, encodePairs, List.append_nil, List.append_assoc, List.length_cons,
    List.length_nil]
  congr 1
  omega

/-- Writing fields that can all be written adds their pairs, and reports no more than a shortage. -/
theorem putFields_of_writable (h : Carries buffer e g) (hfatal : g.fatal = none) (howed : g.owed = 0)
    (hfields : ∀ f ∈ fields, f.Writable) (last : Option Error) (hlast : last.filter Error.isFatal = none) :
    Carries buffer (putFields.go last fields e).2 (g.addFields fields) ∧
      (putFields.go last fields e).1.filter Error.isFatal = none := by
  induction fields generalizing e g last with
  | nil =>
    rw [addFields_nil]
    exact ⟨h, hlast⟩
  | cons f fields ih =>
    rw [List.forall_mem_cons] at hfields
    obtain ⟨hcarries, hreport⟩ := putField_of_writable h hfatal howed hfields.1
    rw [putFields.go, addFields_cons]
    rcases hput : e.putField f with ⟨_ | err, e'⟩
    · rw [hput] at hcarries
      exact ih hcarries hfatal howed hfields.2 last hlast
    · rw [hput] at hcarries hreport
      simp only [not_isFatal_of_filter hreport]
      exact ih hcarries hfatal howed hfields.2 (some err) hreport

/-- A field that cannot be written ends the run with a fatal error. -/
theorem putFields_of_not_writable (h : Carries buffer e g) (hfatal : g.fatal = none) (howed : g.owed = 0)
    (hfields : ¬∀ f ∈ fields, f.Writable) (last : Option Error) :
    ∃ err, (putFields.go last fields e).1 = some err ∧ err.isFatal = true := by
  induction fields generalizing e g last with
  | nil => exact absurd (by simp) hfields
  | cons f fields ih =>
    rw [putFields.go]
    by_cases hf : f.Writable
    · have hrest : ¬∀ f ∈ fields, f.Writable := fun hrest => hfields (List.forall_mem_cons.2 ⟨hf, hrest⟩)
      obtain ⟨hcarries, hreport⟩ := putField_of_writable h hfatal howed hf
      rcases hput : e.putField f with ⟨_ | err, e'⟩
      · rw [hput] at hcarries
        exact ih hcarries hfatal howed hrest last
      · rw [hput] at hcarries hreport
        simp only [not_isFatal_of_filter hreport]
        exact ih hcarries hfatal howed hrest (some err)
    · obtain ⟨err, hput, herr⟩ := putField_of_not_writable h hfatal hf
      rcases hput' : e.putField f with ⟨_ | err', e'⟩
      · rw [hput'] at hput
        cases hput
      · rw [hput'] at hput
        cases hput
        exact ⟨err, by simp only [herr, if_true], herr⟩

/-! ## Whole tables -/

/-- The map that a table is written as. -/
def message (t : Table) : Item := .ofPairs (t.fields.map Field.pair)

/-- The draft of a table that can be written. -/
def draft (t : Table) : Draft := (Draft.start t.fields.length).addFields t.fields

theorem bytes_draft (t : Table) : t.draft.bytes = t.message.encode := by
  simp [draft, message, Draft.addFields, Draft.start, ofPairs, Cbor.Item.encode, Head.shortest]

/-- What finishing leaves carries the same draft. -/
theorem carries_finish (h : Carries buffer e g) (hfatal : e.fatal = none) (howed : e.owed = 0) (hpairs : e.pairs = e.declared) :
    Carries buffer e.finish.2 g := by
  have hclose := (h.act .close).1
  rw [h.act_close hfatal howed hpairs] at hclose
  have hsame : e.finish.2 = e.close.2 := by
    rw [Encoder.finish]
    rcases e.close with ⟨_ | err, e'⟩ <;> rfl
  rw [hsame]
  exact hclose

variable {t : Table}

/-- Starting an encoder for a map of so many pairs reports no more than a shortage. -/
theorem startIn_of_count (labels : Labels) (buffer : List UInt8) (count : Nat) :
    Carries buffer (Encoder.startIn labels buffer count).2 (Draft.start count) ∧
      (Encoder.startIn labels buffer count).1.filter Error.isFatal = none := by
  obtain ⟨hcarries, hreport⟩ := carries_startIn labels buffer (Int.natCast_nonneg count)
  rw [Int.toNat_natCast] at hcarries hreport
  refine ⟨hcarries, ?_⟩
  rw [hreport]
  exact filter_shortage ..

theorem start_of_count (labels : Labels) (capacity count : Nat) :
    Carries (List.replicate capacity 0) (Encoder.start labels capacity count).2 (Draft.start count) ∧
      (Encoder.start labels capacity count).1.filter Error.isFatal = none :=
  startIn_of_count labels (List.replicate capacity 0) count

/-- Encoding a table that can be written gives its size if there is room, and else the bytes that are missing. -/
theorem encode_of_writable (h : ∀ f ∈ t.fields, f.Writable) (labels : Labels) (capacity : Nat) :
    Carries (List.replicate capacity 0) (t.encode labels capacity).2 t.draft ∧
      (t.encode labels capacity).1 = if t.message.encode.length ≤ capacity then .ok t.message.encode.length
        else .error { code := .bufferTooSmall, op := "Finish", needed := (t.message.encode.length : Int) - capacity } := by
  obtain ⟨hstart, hstartError⟩ := start_of_count labels capacity t.fields.length
  obtain ⟨hput, hputError⟩ := putFields_of_writable hstart rfl rfl h none rfl
  have hfatal : (putFields t.fields (Encoder.start labels capacity t.fields.length).2).2.fatal = none := hput.fatal
  have howed : (putFields t.fields (Encoder.start labels capacity t.fields.length).2).2.owed = 0 := hput.owed
  have hpairs := hput.pairs.trans ((Nat.zero_add t.fields.length).trans hput.declared.symm)
  have hencode : t.encode labels capacity = (putFields t.fields (Encoder.start labels capacity t.fields.length).2).2.finish := by
    simp only [Table.encode, hstartError]
    rw [putFields, hputError]
  have hfinish := hput.finish hfatal howed hpairs
  rw [hput.total, List.length_replicate, show ((Draft.start t.fields.length).addFields t.fields).bytes = t.message.encode from
    bytes_draft t] at hfinish
  rw [hencode]
  exact ⟨carries_finish hput hfatal howed hpairs, hfinish⟩

/-- The size of a table that can be written is that of its message. -/
theorem size_of_writable (h : ∀ f ∈ t.fields, f.Writable) : t.size = .ok t.message.encode.length := by
  obtain ⟨hcarries, hresult⟩ := encode_of_writable h {} 0
  have htotal := hcarries.total
  rw [bytes_draft] at htotal
  rw [size]
  rcases hencode : t.encode {} 0 with ⟨err | n, e⟩
  · rw [hencode] at hresult htotal
    dsimp only at hresult htotal ⊢
    split at hresult
    · cases hresult
    · cases hresult
      simp only [Error.isFatal, Code.isFatal, bne_self_eq_false, Bool.false_eq_true, if_false, htotal]
  · rw [hencode] at htotal
    dsimp only at htotal ⊢
    rw [htotal]

/-- A table that can be written is marshalled to its message. -/
theorem marshal_of_writable (h : ∀ f ∈ t.fields, f.Writable) (labels : Labels) :
    (t.marshal labels).1 = .ok t.message.encode := by
  obtain ⟨hcarries, hresult⟩ := encode_of_writable h labels t.message.encode.length
  rw [if_pos (Nat.le_refl _)] at hresult
  have hout : (t.encode labels t.message.encode.length).2.out = t.message.encode := by
    refine (hcarries.fits ?_).trans (bytes_draft t)
    rw [Bool.eq_false_iff]
    refine mt hcarries.overflow_iff.1 ?_
    rw [List.length_replicate, bytes_draft]
    exact Nat.lt_irrefl _
  rw [marshal, size_of_writable h]
  rcases hencode : t.encode labels t.message.encode.length with ⟨err | n, e⟩
  · rw [hencode] at hresult
    cases hresult
  · rw [hencode] at hout
    simp only [hencode]
    exact congrArg Except.ok hout

/-- Any other table is not marshalled. -/
theorem marshal_of_not_writable (h : ¬∀ f ∈ t.fields, f.Writable) (labels : Labels) : ∃ err, (t.marshal labels).1 = .error err := by
  obtain ⟨hstart, hstartError⟩ := start_of_count {} 0 t.fields.length
  obtain ⟨err, hput, herr⟩ := putFields_of_not_writable hstart rfl rfl h none
  have hfatal : (putFields t.fields (Encoder.start {} 0 t.fields.length).2).1.filter Error.isFatal = some err := by
    rw [putFields, hput, Option.filter_some, if_pos herr]
  have hsize : t.size = .error err := by
    simp only [size, Table.encode, hstartError, hfatal, herr, if_true]
  exact ⟨err, by rw [marshal, hsize]⟩

end Table

end SensorWire
