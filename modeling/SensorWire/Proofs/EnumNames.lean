import Mathlib
import SensorWire.Display.Format
import SensorWire.Proofs.LogStatistics

/-!
# Names of enumerated values

The values of some fields are shown by name: that of a constant, or else the name of the type with the number. A name tells a value apart
from every other of eight bits (`Enumeration.name_inj`). A field may be wider than that, and of a wider value the last eight bits are named,
so two values have the same name exactly if they are the same there.

Main statement: `value_names_agree_iff`.
-/

namespace SensorWire

theorem Text.ofString_inj {a b : String} : ofString a = ofString b ↔ a = b := by
  constructor
  · intro h
    have hbytes := congrArg bytes h
    simp only [ofString] at hbytes
    exact String.toByteArray_inj.1 (ByteArray.ext (Array.toList_inj.1 hbytes))
  · intro h
    rw [h]

/-- A key whose values are shown by name: the type of the values, and the constants with their numbers. Constants differ in their numbers and
in their names, and no name of a constant looks like one with a number. -/
structure Enumeration where
  key : Text
  type : String
  constants : List (Nat × String)
  numbers : (constants.map Prod.fst).Nodup
  names : (constants.map Prod.snd).Nodup
  plain : ∀ c ∈ constants, '(' ∉ c.2.toList

namespace Enumeration

variable (e : Enumeration)

/-- Which readings an instrument provides. -/
def sensorType : Enumeration where
  key := "sensor_type"
  type := "SensorType"
  constants := [(0, "UNKNOWN"), (1, "TEMPERATURE"), (2, "PRESSURE"), (3, "PRESSURE_AND_TEMPERATURE")]
  numbers := by decide
  names := by decide
  plain := by decide

/-- Where power was measured. -/
def powerReadingType : Enumeration where
  key := "power_reading_type"
  type := "PowerReadingType"
  constants := [(0, "SOURCE"), (1, "LOAD"), (2, "MONITOR")]
  numbers := by decide
  names := by decide
  plain := by decide

/-- The name of a value: that of a constant, or else the name of the type with the number. -/
def name (n : UInt8) : String := (e.constants.lookup n.toNat).getD (e.type ++ "(" ++ toString n.toNat ++ ")")

/-! ## Names and constants -/

theorem mem_constants_iff {n : Nat} {s : String} : (n, s) ∈ e.constants ↔ e.constants.lookup n = some s := mem_iff_lookup e.numbers

/-- A constant has its name, and no other value has it. -/
theorem name_eq_iff {c : Nat × String} (hc : c ∈ e.constants) (n : UInt8) : e.name n = c.2 ↔ n.toNat = c.1 := by
  constructor
  · intro h
    unfold name at h
    cases hlookup : e.constants.lookup n.toNat with
    | none =>
      rw [hlookup, Option.getD_none] at h
      exact absurd (by simp [← h]) (e.plain c hc)
    | some s =>
      rw [hlookup, Option.getD_some] at h
      exact congrArg Prod.fst (List.inj_on_of_nodup_map e.names (e.mem_constants_iff.2 hlookup) hc h)
  · intro h
    rw [name, h, e.mem_constants_iff.1 hc]
    rfl

/-- Values of eight bits have different names. -/
theorem name_inj {n m : UInt8} (h : e.name n = e.name m) : n = m := by
  rw [← UInt8.toNat_inj]
  cases hn : e.constants.lookup n.toNat with
  | some s =>
    have hname : e.name n = s := by simp [name, hn]
    exact ((e.name_eq_iff (e.mem_constants_iff.2 hn) m).1 (h.symm.trans hname)).symm
  | none =>
    cases hm : e.constants.lookup m.toNat with
    | some s =>
      have hname : e.name m = s := by simp [name, hm]
      exact (e.name_eq_iff (e.mem_constants_iff.2 hm) n).1 (h.trans hname)
    | none =>
      have hnumber : n.toNat.repr = m.toNat.repr := by simpa [name, hn, hm] using h
      exact Nat.repr_inj.1 hnumber

theorem name_of_other {n : UInt8} (h : ∀ c ∈ e.constants, c.1 ≠ n.toNat) : e.name n = e.type ++ "(" ++ toString n.toNat ++ ")" := by
  have hnone : e.constants.lookup n.toNat = none := by
    rw [List.lookup_eq_none_iff]
    intro c hc
    simp [(h c hc).symm]
  rw [name, hnone]
  rfl

/-! ## The names that are shown -/

theorem name_sensorType (n : UInt8) : sensorType.name n = (SensorType.ofNumber n).name := by
  unfold SensorType.ofNumber
  split
  · rfl
  · rfl
  · rfl
  · rfl
  · rename_i h0 h1 h2 h3
    apply sensorType.name_of_other
    simp only [← UInt8.toNat_inj, UInt8.reduceToNat] at h0 h1 h2 h3
    simpa [sensorType] using ⟨Ne.symm h0, Ne.symm h1, Ne.symm h2, Ne.symm h3⟩

theorem name_powerReadingType (n : UInt8) : powerReadingType.name n = powerReadingTypeName n := by
  unfold powerReadingTypeName
  split
  · rfl
  · rfl
  · rfl
  · rename_i h0 h1 h2
    apply powerReadingType.name_of_other
    simp only [← UInt8.toNat_inj, UInt8.reduceToNat] at h0 h1 h2
    simpa [powerReadingType] using ⟨Ne.symm h0, Ne.symm h1, Ne.symm h2⟩

/-- Any message may have fields of an enumeration, and of a number the last eight bits are named. -/
theorem ofValue?_eq {e : Enumeration} (he : e = sensorType ∨ e = powerReadingType) (message : Text) (n : Nat) :
    Names.ofValue? message e.key n = some (.ofString (e.name (UInt8.ofNat n))) := by
  rcases he with rfl | rfl
  · have hstatus : sensorType.key ≠ "status" := by decide
    have hflags : sensorType.key ≠ "flags" := by decide
    have hkey : sensorType.key = "sensor_type" := rfl
    simp only [Names.ofValue?, hstatus, hflags, false_and, if_false, if_pos hkey, name_sensorType]
  · have hstatus : powerReadingType.key ≠ "status" := by decide
    have hflags : powerReadingType.key ≠ "flags" := by decide
    have hother : powerReadingType.key ≠ "sensor_type" := by decide
    have hkey : powerReadingType.key = "power_reading_type" := rfl
    simp only [Names.ofValue?, hstatus, hflags, hother, false_and, if_false, if_pos hkey, name_powerReadingType]

end Enumeration

namespace Names

open Enumeration

/-- Every value of an enumeration has a name, and a field of any width is shown by the name of its value. Two values have the same name
exactly if their last eight bits are the same, and a value has the name of a constant exactly if its last eight bits are the constant. -/
theorem value_names_agree_iff {e : Enumeration} (he : e = sensorType ∨ e = powerReadingType) (message : Text) (v w : UInt64) :
    ∃ a b, ofValue? message e.key v.toNat = some a ∧ ofValue? message e.key w.toNat = some b ∧
      (a = b ↔ v.toNat % 256 = w.toNat % 256) ∧ (∀ c ∈ e.constants, a = .ofString c.2 ↔ v.toNat % 256 = c.1) ∧
      ∀ (f : Formatter) (field : Field), field.key = e.key → field.value = .integer .uint64 v.toNat →
        (f.row message field).value = f.withRaw a v.toNat := by
  have hlast (n : Nat) : (UInt8.ofNat n).toNat = n % 256 := UInt8.toNat_ofNat'
  refine ⟨_, _, ofValue?_eq he message _, ofValue?_eq he message _, ?_, ?_, ?_⟩
  · rw [Text.ofString_inj, ← hlast, ← hlast, UInt8.toNat_inj]
    constructor
    · exact e.name_inj
    · intro h
      rw [h]
  · intro c hc
    rw [Text.ofString_inj, e.name_eq_iff hc, hlast]
  · intro f field hkey hvalue
    simp [Formatter.row, hvalue, hkey, ofValue?_eq he]

/-- A field of sixteen bits that holds 256 is shown by the name of zero. -/
theorem wide_value_has_name_of_constant :
    (256 : UInt64) ≠ 0 ∧ ofValue? "Probe" "sensor_type" 256 = some "UNKNOWN" ∧ ofValue? "Probe" "sensor_type" 0 = some "UNKNOWN" ∧
      (Formatter.row { showRaw := false } "Probe" (.holding "sensor_type" (.uint16 256))).value = "UNKNOWN" := by
  obtain ⟨a, b, ha, hb, hsame, hconstant, hrow⟩ := value_names_agree_iff (.inl rfl) "Probe" 256 0
  obtain rfl : a = b := hsame.2 (by decide)
  obtain rfl : a = "UNKNOWN" := (hconstant (0, "UNKNOWN") (by simp [sensorType])).2 (by decide)
  exact ⟨by decide, ha, hb, hrow _ _ rfl rfl⟩

end Names

end SensorWire
