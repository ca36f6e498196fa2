import Mathlib
import SensorWire.Proofs.Kinds
import SensorWire.Proofs.Sending

/-!
# The normal form of a message

Some messages of the catalogue do not send all that they hold. A reading that the instrument does not provide is sent as NaN, a length is
that of the payload, and of the samples only so many are sent as the message says. `Message.normal` is what is left of a message: what it
sends, with signalling NaNs of single precision made quiet. It is told by the names of the messages and of their keys, and
`OfKind.fields_outgoing` says that the rules of the messages come to the same.

Main statements: `OfKind.fields_outgoing` and `payloadFault?_normal_iff`.
-/

namespace SensorWire

/-! ## Fields by their keys -/

namespace Table

variable {t : Table} {key : Text} {f : Field}

/-- When keys differ, updating the first field with a key is updating every field with it. -/
theorem updateFirst_eq_map {fields : List Field} (h : (fields.map Field.key).Nodup) (key : Text) (update : Field → Field) :
    updateFirst key update fields = fields.map fun f => if f.key = key then update f else f := by
  induction fields with
  | nil => rfl
  | cons f fields ih =>
    rw [List.map_cons, List.nodup_cons] at h
    by_cases hkey : f.key = key
    · have hrest : ∀ g ∈ fields, (if g.key = key then update g else g) = g := by
        intro g hg
        refine if_neg fun hsame => h.1 ?_
        rw [hkey, ← hsame]
        exact List.mem_map_of_mem hg
      rw [updateFirst, if_pos (by simpa using hkey), List.map_cons, if_pos hkey, List.map_congr_left hrest, List.map_id']
    · rw [updateFirst, if_neg (by simpa using hkey), List.map_cons, if_neg hkey, ih h.2]

theorem fields_store (h : (t.fields.map Field.key).Nodup) (key : Text) (s : Slot) :
    (t.store key s).fields = t.fields.map fun f => if f.key = key then f.store s else f :=
  updateFirst_eq_map h key _

/-- When keys differ, a field is found by its key. -/
theorem lookup?_eq_some_iff (h : (t.fields.map Field.key).Nodup) : t.lookup? key = some f ↔ f ∈ t.fields ∧ f.key = key := by
  constructor
  · intro hfind
    exact ⟨List.mem_of_find?_eq_some hfind, by simpa using List.find?_some hfind⟩
  · rintro ⟨hf, rfl⟩
    exact find?_key_of_mem h hf

/-- What keeps the keys of the fields keeps what is found by them. -/
theorem lookup?_map {φ : Field → Field} (hφ : ∀ f, (φ f).key = f.key) (t : Table) (key : Text) :
    lookup? { t with fields := t.fields.map φ } key = (t.lookup? key).map φ := by
  simp only [lookup?, List.find?_map, Function.comp_def, hφ]

end Table

namespace Field

theorem type_of_slot? {f : Field} {s : Slot} (h : f.slot? = some s) : f.type = s.type := by
  obtain ⟨key, checked, rfl⟩ := exists_of_slot? h
  rfl

theorem key_quieted (f : Field) : f.quieted.key = f.key := by
  unfold quieted
  split <;> rfl

/-- Only single precision is made quiet. -/
theorem value_quieted (f : Field) : f.quieted.value = f.value ∨ ∃ x y, f.quieted.value = .float32 x ∧ f.value = .float32 y := by
  obtain ⟨key, binding, checked⟩ := f
  cases binding with
  | unbound t => exact Or.inl rfl
  | bound s =>
    cases s with
    | float32 bits => exact Or.inr ⟨_, _, rfl, rfl⟩
    | _ => exact Or.inl rfl

end Field

/-! ## What is sent -/

namespace Message

/-- The keys of the length and of the data of the messages that carry a payload. -/
def payloadKeys? (name : Text) : Option (Text × Text) :=
  if name = "ConfigCborMapReply" then some ("cbor_encoded_map_len", "cbor_data")
  else if name = "DeviceTestRequest" ∨ name = "DeviceTestReply" then some ("data_len", "data")
  else none

/-- The type of the instrument that a message names. -/
def sensorType (m : Message) : SensorType := SensorType.ofNumber (UInt8.ofNat (m.number "sensor_type"))

/-- The keys of the readings that the instrument does not provide. -/
def Lacks (m : Message) (key : Text) : Prop :=
  (key = "pressure_deci_bar" ∧ m.sensorType ≠ .pressure ∧ m.sensorType ≠ .pressureAndTemperature) ∨
    (key = "temperature_deg_c" ∧ m.sensorType ≠ .temperature ∧ m.sensorType ≠ .pressureAndTemperature)

instance (m : Message) (key : Text) : Decidable (m.Lacks key) := inferInstanceAs (Decidable (_ ∨ _))

/-- What a message sends under a key whatever its field holds, if it does. -/
def forced? (m : Message) (key : Text) : Option Slot :=
  if m.name = "RbrData" then if m.Lacks key then some (.float64 Binary.nanBits) else none
  else match payloadKeys? m.name with
    | some (length, data) => if key = length then some (.uint32 (UInt32.ofNat (m.payload data).length)) else none
    | none => none

/-- A field as a message sends it. -/
def sent (m : Message) (f : Field) : Field :=
  match m.forced? f.key with
  | some s => f.store s
  | none => f

/-- The name of the message that has samples. -/
def signalName : Text := "RbrPressureDifferenceSignal"

/-- What comes back of a message: what it sends, with signalling NaNs of single precision made quiet. -/
def normal (m : Message) : Message :=
  { m with
    table := { m.table with fields := m.table.fields.map fun f => (m.sent f).quieted }
    samples := if m.name = signalName then ⟨m.samples.values.take m.sampleCount, m.sampleCount⟩ else {} }

/-- The rule of a message of the catalogue, by its name. -/
def namedRule (name : Text) : Rule :=
  if name = "RbrData" then .readings
  else if name = signalName then .samples
  else match payloadKeys? name with
    | some (length, data) => .payload length data
    | none => .plain

end Message

/-! ## Facts of the catalogue -/

namespace Catalog

open Message

theorem rule_of_mem : ∀ b ∈ Catalog.all, b.rule = namedRule b.name := by decide +kernel

theorem readings_of_mem : ∀ b ∈ Catalog.all, b.name = "RbrData" →
    ∀ f ∈ b.table.fields, f.key = "pressure_deci_bar" ∨ f.key = "temperature_deg_c" → f.type = .float64 := by decide +kernel

theorem payload_of_mem : ∀ b ∈ Catalog.all, ∀ p ∈ payloadKeys? b.name,
    (∀ f ∈ b.table.fields, f.key = p.1 → f.type = .uint32) ∧ p.1 ∈ b.table.fields.map Field.key ∧ p.1 ≠ p.2 := by decide +kernel

theorem signal_of_mem : ∀ b ∈ Catalog.all, b.name = signalName → ∀ f ∈ b.table.fields, f.type ≠ .simple := by decide +kernel

theorem empty_of_mem : ∀ b ∈ Catalog.all, b.samples = {} ∧ b.table.fields.length < 131072 ∧
    ∀ f ∈ b.table.fields, IsUtf8 f.key.bytes := by decide +kernel

end Catalog

/-! ## The rules of messages and what they send -/

theorem SensorType.hasTemperature_eq_false_iff (s : SensorType) :
    s.hasTemperature = false ↔ s ≠ .temperature ∧ s ≠ .pressureAndTemperature := by
  cases s <;> simp [hasTemperature]

theorem SensorType.hasPressure_eq_false_iff (s : SensorType) :
    s.hasPressure = false ↔ s ≠ .pressure ∧ s ≠ .pressureAndTemperature := by
  cases s <;> simp [hasPressure]

namespace Message

variable {m blank : Message} {f : Field} {key : Text} {s : Slot}

theorem key_sent (m : Message) (f : Field) : (m.sent f).key = f.key := by
  unfold sent
  split <;> rfl

/-- The message with samples sends its fields as they are. -/
theorem forced?_of_signal (h : m.name = signalName) (key : Text) : m.forced? key = none := by
  rw [forced?, h]
  rfl

section Unless

variable {t : Table} (h : (t.fields.map Field.key).Nodup) (present : Bool) (key : Text) (s : Slot)

include h

/-- A slot that is stored unless there is a reading. -/
theorem fields_unless :
    (if present then t else t.store key s).fields = t.fields.map fun f => if f.key = key ∧ present = false then f.store s else f := by
  cases present with
  | true => simp
  | false => simp [Table.fields_store h]

theorem nodup_keys_unless : ((if present then t else t.store key s).fields.map Field.key).Nodup := by
  have hkey : (Field.key ∘ fun f => if f.key = key ∧ present = false then f.store s else f) = Field.key := by
    funext f
    dsimp only [Function.comp_apply]
    split <;> rfl
  rw [fields_unless h, List.map_map, hkey]
  exact h

end Unless

theorem fields_outgoing_of_readings (hname : m.name = "RbrData") (hrule : m.rule = .readings)
    (hkeys : (m.table.fields.map Field.key).Nodup) : m.outgoing.fields = m.table.fields.map m.sent := by
  have hout : m.outgoing = if m.sensorType.hasPressure then
      (if m.sensorType.hasTemperature then m.table else m.table.store "temperature_deg_c" (.float64 Binary.nanBits))
      else (if m.sensorType.hasTemperature then m.table else m.table.store "temperature_deg_c" (.float64 Binary.nanBits)).store
        "pressure_deci_bar" (.float64 Binary.nanBits) := by
    rw [outgoing, hrule]
    rfl
  rw [hout, fields_unless (nodup_keys_unless hkeys ..), fields_unless hkeys, List.map_map]
  refine List.map_congr_left fun f _ => ?_
  have hforced : m.forced? f.key = if m.Lacks f.key then some (.float64 Binary.nanBits) else none := by
    rw [forced?, if_pos hname]
  have hlacks : m.Lacks f.key ↔ (f.key = "pressure_deci_bar" ∧ m.sensorType.hasPressure = false) ∨
      (f.key = "temperature_deg_c" ∧ m.sensorType.hasTemperature = false) := by
    rw [Lacks, SensorType.hasPressure_eq_false_iff, SensorType.hasTemperature_eq_false_iff]
  rw [sent, hforced]
  simp only [hlacks, Function.comp_apply]
  by_cases htemp : f.key = "temperature_deg_c" ∧ m.sensorType.hasTemperature = false
  · have hother : ¬(f.key = "pressure_deci_bar" ∧ m.sensorType.hasPressure = false) := by
      rw [htemp.1]
      exact fun hp => absurd hp.1 (by decide)
    rw [if_pos htemp, if_pos (Or.inr htemp)]
    exact if_neg hother
  · by_cases hpress : f.key = "pressure_deci_bar" ∧ m.sensorType.hasPressure = false
    · rw [if_neg htemp, if_pos hpress, if_pos (Or.inl hpress)]
    · rw [if_neg htemp, if_neg hpress, if_neg (not_or.2 ⟨hpress, htemp⟩)]

/-- The rules of the messages of the catalogue send what the names say. -/
theorem fields_outgoing_of_rule (hrule : m.rule = namedRule m.name) (hkeys : (m.table.fields.map Field.key).Nodup) :
    m.outgoing.fields = m.table.fields.map m.sent := by
  have hsame : (∀ key, m.forced? key = none) → m.table.fields = m.table.fields.map m.sent := by
    intro hforced
    have hsent : m.sent = id := funext fun f => by rw [sent, hforced, id]
    rw [hsent, List.map_id]
  unfold namedRule at hrule
  split_ifs at hrule with hreadings hsignal
  · exact fields_outgoing_of_readings hreadings hrule hkeys
  · rw [outgoing, hrule]
    exact hsame (forced?_of_signal hsignal)
  · cases hpayload : payloadKeys? m.name with
    | none =>
      rw [hpayload] at hrule
      rw [outgoing, hrule]
      refine hsame fun key => ?_
      rw [forced?, if_neg hreadings, hpayload]
    | some p =>
      obtain ⟨length, data⟩ := p
      rw [hpayload] at hrule
      rw [outgoing, hrule]
      dsimp only
      rw [Table.fields_store hkeys]
      refine List.map_congr_left fun f _ => ?_
      rw [sent, forced?, if_neg hreadings, hpayload]
      dsimp only
      split_ifs <;> rfl

theorem forced?_cases (h : m.forced? key = some s) :
    (m.name = "RbrData" ∧ (key = "pressure_deci_bar" ∨ key = "temperature_deg_c") ∧ s = .float64 Binary.nanBits) ∨
      ∃ p ∈ payloadKeys? m.name, key = p.1 ∧ s = .uint32 (UInt32.ofNat (m.payload p.2).length) := by
  unfold forced? at h
  split_ifs at h with hreadings hlacks
  · cases h
    exact Or.inl ⟨hreadings, hlacks.imp And.left And.left, rfl⟩
  · cases hpayload : payloadKeys? m.name with
    | none =>
      rw [hpayload] at h
      cases h
    | some p =>
      rw [hpayload] at h
      dsimp only at h
      split_ifs at h with hkey
      cases h
      exact Or.inr ⟨p, rfl, hkey, rfl⟩

/-- What is sent whatever the field holds is no text, no bytes and no simple value. -/
theorem sent_cases (m : Message) (f : Field) :
    m.sent f = f ∨ ∃ s, m.forced? f.key = some s ∧ m.sent f = f.store s ∧ (s.type = .float64 ∨ s.type = .uint32) := by
  cases hforced : m.forced? f.key with
  | none => exact Or.inl (by rw [sent, hforced])
  | some s =>
    refine Or.inr ⟨s, rfl, by rw [sent, hforced], ?_⟩
    rcases forced?_cases hforced with ⟨-, -, rfl⟩ | ⟨p, -, -, rfl⟩
    · exact Or.inl rfl
    · exact Or.inr rfl

/-! ## Messages of the catalogue -/

section OfKind

variable (hb : blank ∈ Catalog.all) (hm : m.OfKind blank)

include hb hm

theorem OfKind.rule_eq : m.rule = namedRule m.name := by
  rw [hm.rule, hm.name]
  exact Catalog.rule_of_mem blank hb

theorem OfKind.fields_outgoing : m.outgoing.fields = m.table.fields.map m.sent :=
  fields_outgoing_of_rule (hm.rule_eq hb) (hm.shape (.catalogue hb)).keysDiffer

/-- What is sent whatever the field holds has the type of the field. -/
theorem OfKind.type_forced (hf : f ∈ m.table.fields) (hs : m.forced? f.key = some s) : s.type = f.type := by
  obtain ⟨g, hg, hlike⟩ := hm.exists_blank hf
  rcases forced?_cases hs with ⟨hname, hkey, rfl⟩ | ⟨p, hp, hkey, rfl⟩
  · rw [hlike.key] at hkey
    rw [hlike.type]
    exact (Catalog.readings_of_mem blank hb (hm.name ▸ hname) g hg hkey).symm
  · rw [hlike.key] at hkey
    rw [hlike.type]
    exact ((Catalog.payload_of_mem blank hb p (hm.name ▸ hp)).1 g hg hkey).symm

/-- A field keeps its shape when it is sent. -/
theorem OfKind.alike_sent (hf : f ∈ m.table.fields) : f.Alike (m.sent f) := by
  have hbound := (hm.shape (.catalogue hb)).bound f hf
  rcases m.sent_cases f with hsame | ⟨s, hs, hstore, -⟩
  · rw [hsame]
    exact ⟨rfl, rfl, rfl, hbound⟩
  · rw [hstore]
    exact ⟨rfl, hm.type_forced hb hf hs, rfl, rfl⟩

/-- What a message sends has the shape of the blank message. -/
theorem OfKind.alike_outgoing : List.Forall₂ Field.Alike m.outgoing.fields blank.table.fields := by
  rw [hm.fields_outgoing hb, List.forall₂_map_left_iff]
  have hflip : List.Forall₂ (fun f g => g.Alike f) m.table.fields blank.table.fields := hm.fields.flip
  obtain ⟨hlen, hlike⟩ := List.forall₂_iff_zip.1 hflip
  refine List.forall₂_iff_zip.2 ⟨hlen, fun {f g} hmem => ?_⟩
  obtain ⟨hf, hg⟩ := List.of_mem_zip hmem
  have hsent := hm.alike_sent hb hf
  have hbound := ((Table.valid_of_faultFrom (Catalog.valid_of_mem blank hb)).1 g hg).1
  exact ⟨(hsent.key.trans (hlike hmem).key).symm, (hsent.type.trans (hlike hmem).type).symm,
    (hsent.checked.trans (hlike hmem).checked).symm, hbound⟩

theorem OfKind.hasSamples_iff : m.hasSamples = true ↔ m.name = signalName := by
  have hrule := hm.rule_eq hb
  unfold namedRule at hrule
  rw [hasSamples_iff_rule]
  split_ifs at hrule with hreadings hsignal
  · rw [hrule, hreadings]
    decide
  · exact iff_of_true hrule hsignal
  · refine iff_of_false ?_ hsignal
    rw [hrule]
    split <;> exact nofun

end OfKind

/-! ## What the normal form says -/

theorem lookup?_normal (m : Message) (key : Text) :
    m.normal.table.lookup? key = (m.table.lookup? key).map fun f => (m.sent f).quieted :=
  Table.lookup?_map (fun f => (Field.key_quieted _).trans (m.key_sent f)) m.table key

theorem lookup?_normal_of_not_forced (h : m.forced? key = none) :
    m.normal.table.lookup? key = (m.table.lookup? key).map Field.quieted := by
  rw [lookup?_normal]
  cases hfind : m.table.lookup? key with
  | none => rfl
  | some f =>
    have hkey : f.key = key := by simpa using List.find?_some hfind
    rw [Option.map_some, Option.map_some, sent, hkey, h]

/-- Numbers and bytes that are sent as they are come back. -/
theorem values_normal (h : m.forced? key = none) : m.normal.number key = m.number key ∧ m.normal.payload key = m.payload key := by
  simp only [number, payload, lookup?_normal_of_not_forced h]
  cases m.table.lookup? key with
  | none => exact ⟨rfl, rfl⟩
  | some f =>
    -- a number or bytes are no single precision, whose pattern alone is changed
    rcases f.value_quieted with hsame | ⟨x, y, hx, hy⟩
    · simp only [Option.map_some, hsame, and_self]
    · simp only [Option.map_some, hx, hy, and_self]

/-- A payload is what some field holds, or nothing. -/
theorem length_payload_lt {n : Nat} (hn : 0 < n) (h : ∀ f ∈ m.table.fields, ∀ v, f.slot? = some (.bytes v) → v.length < n)
    (key : Text) : (m.payload key).length < n := by
  rw [payload]
  cases hfind : m.table.lookup? key with
  | none => exact hn
  | some f =>
    have hbytes := h f (List.mem_of_find?_eq_some hfind)
    obtain ⟨key', binding, checked⟩ := f
    cases binding with
    | unbound t => exact hn
    | bound s =>
      cases s with
      | bytes v => exact hbytes v rfl
      | _ => exact hn

/-- The payload of a message, if it carries one, has a length of 32 bits. -/
def PayloadFits (m : Message) : Prop := ∀ p ∈ payloadKeys? m.name, (m.payload p.2).length < 2 ^ 32

/-- The length of the normal form is that of its payload, unless the payload is longer than lengths go. -/
theorem payloadFault?_normal_iff (hb : blank ∈ Catalog.all) (hm : m.OfKind blank) : m.normal.payloadFault? = none ↔ m.PayloadFits := by
  have hrule : m.rule = namedRule m.name := hm.rule_eq hb
  rw [payloadFault?, show m.normal.rule = m.rule from rfl, hrule, namedRule, PayloadFits]
  split_ifs with hreadings hsignal
  · rw [hreadings]
    exact iff_of_true rfl nofun
  · rw [hsignal]
    exact iff_of_true rfl nofun
  · cases hpayload : payloadKeys? m.name with
    | none => exact iff_of_true rfl nofun
    | some p =>
      obtain ⟨length, data⟩ := p
      obtain ⟨-, hmem, hdiffer⟩ := Catalog.payload_of_mem blank hb (length, data) (hm.name ▸ hpayload)
      have hforced : ∀ key, m.forced? key = if key = length then some (.uint32 (UInt32.ofNat (m.payload data).length)) else none := by
        intro key
        rw [forced?, if_neg hreadings, hpayload]
      have hdata : m.normal.payload data = m.payload data := (values_normal ((hforced data).trans (if_neg hdiffer.symm))).2
      have hlength : m.normal.number length = (m.payload data).length % 2 ^ 32 := by
        rw [← Field.Alike.map_key hm.fields] at hmem
        obtain ⟨f, hf, rfl⟩ := List.mem_map.1 hmem
        have hfind : m.table.lookup? f.key = some f :=
          (Table.lookup?_eq_some_iff (hm.shape (.catalogue hb)).keysDiffer).2 ⟨hf, rfl⟩
        have hsent : m.sent f = f.store (.uint32 (UInt32.ofNat (m.payload data).length)) := by
          rw [sent, hforced, if_pos rfl]
        rw [number, lookup?_normal, hfind, Option.map_some, hsent]
        exact (Int.toNat_natCast _).trans UInt32.toNat_ofNat
      simp only [hlength, hdata, ite_eq_left_iff, reduceCtorEq, imp_false, not_not, Option.mem_def, Option.some.injEq, forall_eq']
      exact ⟨fun h => h ▸ Nat.mod_lt _ (by decide), Nat.mod_eq_of_lt⟩

end Message

end SensorWire
