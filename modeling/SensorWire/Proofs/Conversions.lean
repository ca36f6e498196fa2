import Mathlib
import SensorWire.Proofs.Editing

/-!
# Converting values

What a field makes of a loosely typed value is told by a relation for each kind of field: the natural number that a value counts
(`Value.Counts`), the double-precision number that it denotes (`Value.Denotes`), the bytes that it spells (`Value.Spells`). From them
`Value.Converts` says what a field of a type holds once it is set to a value. A slot can be set exactly to the values that convert to its
type (`Slot.set_eq_ok_iff`), and an error of setting a field names the key of the field.
-/

namespace SensorWire

open Cbor

/-! ## Steps that may fail -/

section Steps

variable {ε α β : Type} {e : ε}

theorem map_eq_ok_iff {x : Except ε α} {f : α → β} {b : β} : x.map f = .ok b ↔ ∃ a, x = .ok a ∧ f a = b := by
  cases x <;> simp [Except.map]

theorem map_eq_error_iff {x : Except ε α} {f : α → β} : x.map f = .error e ↔ x = .error e := by
  cases x <;> simp [Except.map]

/-- Each element of a list is converted. -/
theorem mapM_eq_ok_iff {f : α → Except ε β} {as : List α} {bs : List β} :
    as.mapM f = .ok bs ↔ List.Forall₂ (fun a b => f a = .ok b) as bs := by
  induction as generalizing bs with
  | nil =>
    rw [List.forall₂_nil_left_iff]
    exact ⟨fun h => (Except.ok.inj h).symm, fun h => h ▸ rfl⟩
  | cons a as ih =>
    rw [List.mapM_cons, bind_eq_ok_iff, List.forall₂_cons_left_iff]
    constructor
    · rintro ⟨b, hb, h⟩
      obtain ⟨rest, hrest, hbs⟩ := bind_eq_ok_iff.1 h
      cases hbs
      exact ⟨b, rest, hb, ih.1 hrest, rfl⟩
    · rintro ⟨b, rest, hb, hrest, rfl⟩
      exact ⟨b, hb, bind_eq_ok_iff.2 ⟨rest, ih.2 hrest, rfl⟩⟩

/-- An element of a list is not converted. -/
theorem exists_of_mapM_eq_error {f : α → Except ε β} {as : List α} (h : as.mapM f = .error e) : ∃ a ∈ as, f a = .error e := by
  induction as with
  | nil => cases h
  | cons a as ih =>
    rw [List.mapM_cons] at h
    rcases bind_eq_error_iff.1 h with ha | ⟨b, -, hrest⟩
    · exact ⟨a, List.mem_cons_self, ha⟩
    · rcases bind_eq_error_iff.1 hrest with has | ⟨bs, -, hdone⟩
      · obtain ⟨a', hmem, ha'⟩ := ih has
        exact ⟨a', List.mem_cons_of_mem a hmem, ha'⟩
      · cases hdone

end Steps

/-! ## Integers and their types -/

namespace IntKind

/-- Whether a type has negative integers. -/
def isSigned : IntKind → Bool
  | int | int64 | int32 => true
  | _ => false

/-- The number of bits of a type. -/
def width : IntKind → Nat
  | int | int64 | uint | uint64 => 64
  | int32 | uint32 => 32
  | uint16 => 16
  | uint8 => 8

/-- The integers that a type has. -/
def Holds (kind : IntKind) (n : Int) : Prop :=
  (if kind.isSigned then -2 ^ (kind.width - 1) else 0) ≤ n ∧ n < if kind.isSigned then 2 ^ (kind.width - 1) else 2 ^ kind.width

instance (kind : IntKind) (n : Int) : Decidable (kind.Holds n) := inferInstanceAs (Decidable (_ ∧ _))

/-- The types whose integers a field for whole numbers takes. -/
def counted : List IntKind := [int, int64, uint, uint64, uint32]

theorem Holds.nonneg {kind : IntKind} {n : Int} (h : kind.Holds n) (hkind : kind.isSigned = false) : 0 ≤ n := by
  rw [Holds, hkind] at h
  exact h.1

end IntKind

/-- The number of bits of the fields that hold whole numbers, a truth value being one bit. -/
def FieldType.width? : FieldType → Option Nat
  | uint8 | simple => some 8
  | uint16 => some 16
  | uint32 => some 32
  | uint64 => some 64
  | bool => some 1
  | _ => none

/-- How a field of a type shows a whole number that it holds. -/
def FieldType.shown : FieldType → Nat → Value
  | bool, n => .bool (n != 0)
  | _, n => .integer .uint64 n

/-! ## What a value stands for -/

namespace Value

/-- The natural number that a value counts, if a field for whole numbers takes the value. -/
inductive Counts : Value → Nat → Prop
  | integer {kind : IntKind} {n : Int} (counted : kind ∈ IntKind.counted) (nonneg : kind.isSigned = true → 0 ≤ n) :
    Counts (.integer kind n) n.toNat
  | float64 {bits : UInt64} {n : Nat} (whole : Binary.toWord? bits = some n) : Counts (.float64 bits) n

/-- The double-precision number that a value denotes. -/
inductive Denotes : Value → UInt64 → Prop
  | float64 (bits : UInt64) : Denotes (.float64 bits) bits
  | float32 (bits : UInt32) : Denotes (.float32 bits) (Binary.widen bits)
  | integer {kind : IntKind} {n : Int} (kinds : kind ∈ [IntKind.int, .int64, .uint64]) : Denotes (.integer kind n) (Binary.ofInt n)

/-- The bytes that a value spells. -/
inductive Spells : Value → List UInt8 → Prop
  | null : Spells .null []
  | bytes (b : List UInt8) : Spells (.bytes b) b
  | text (t : Text) : Spells (.text t) t.bytes
  | list {vs : List Value} {b : List UInt8} (counts : List.Forall₂ (fun v x => v.Counts x.toNat) vs b) : Spells (.list vs) b

/-- What a field of a type shows once it is set to a value. -/
inductive Converts : Value → FieldType → Value → Prop
  | number {v : Value} {t : FieldType} {w n : Nat} (width : t.width? = some w) (counts : v.Counts n) (fits : n < 2 ^ w)
    (exists_simple : t = .simple → n < 24 ∨ 31 < n) : Converts v t (t.shown n)
  | truth (b : Bool) : Converts (.bool b) .bool (.bool b)
  | float32 {v : Value} {bits : UInt64} (denotes : v.Denotes bits) : Converts v .float32 (.float32 (Binary.narrow bits))
  | float64 {v : Value} {bits : UInt64} (denotes : v.Denotes bits) : Converts v .float64 (.float64 bits)
  | string (t : Text) : Converts (.text t) .string (.text t)
  | bytes {v : Value} {b : List UInt8} (spells : v.Spells b) : Converts v .bytes (.bytes b)

variable {v : Value} {key : Text} {limit n : Nat} {bits : UInt64} {b : List UInt8} {err : Error}

/-! ### Whole numbers -/

/-- An integer of a type that is counted: a negative one is improper, and one beyond the limit is out of range. -/
theorem toUnsigned_integer {kind : IntKind} {i : Int} (hkind : kind ∈ IntKind.counted) (hsign : kind.isSigned = false → 0 ≤ i) :
    (integer kind i).toUnsigned key limit =
      if i < 0 then .error { code := .improperValue, op := "Set", key, detail := .negativeValue i }
      else if limit < i.toNat then .error { code := .outOfRange, op := "Set", key, detail := .exceeds i.toNat limit }
      else .ok i.toNat := by
  cases kind with
  | int | int64 => rfl
  | uint | uint64 | uint32 => rw [if_neg (Int.not_lt.2 (hsign rfl))]; rfl
  | int32 | uint16 | uint8 => exact absurd hkind (by decide)

/-- A number within a limit. -/
theorem bounded_eq_ok_iff {k : Nat} : (if limit < k then .error err else .ok k : Except Error Nat) = .ok n ↔ k = n ∧ n ≤ limit := by
  split
  · rename_i hlimit
    simp only [reduceCtorEq, false_iff, not_and]
    omega
  · rename_i hlimit
    simp only [Except.ok.injEq, iff_self_and]
    omega

theorem counts_integer_iff {kind : IntKind} {i : Int} (hkind : kind ∈ IntKind.counted) :
    (integer kind i).Counts n ↔ (kind.isSigned = true → 0 ≤ i) ∧ i.toNat = n := by
  constructor
  · rintro ⟨-, hsign⟩
    exact ⟨hsign, rfl⟩
  · rintro ⟨hsign, rfl⟩
    exact .integer hkind hsign

/-- A value is taken as a number exactly if it counts one within the limit. -/
theorem toUnsigned_eq_ok_iff : v.toUnsigned key limit = .ok n ↔ v.Counts n ∧ n ≤ limit := by
  cases v with
  | integer kind i =>
    cases kind with
    | int | int64 =>
      rw [counts_integer_iff (by decide), toUnsigned_integer (by decide) (fun h => by cases h)]
      split
      · rename_i hneg
        simp [IntKind.isSigned, Int.not_le.2 hneg]
      · rename_i hpos
        rw [bounded_eq_ok_iff]
        simp [IntKind.isSigned, Int.not_lt.1 hpos]
    | uint | uint64 | uint32 =>
      rw [counts_integer_iff (by decide)]
      exact bounded_eq_ok_iff.trans (by simp [IntKind.isSigned])
    | int32 | uint16 | uint8 =>
      refine ⟨fun h => (by cases h), ?_⟩
      rintro ⟨hcounts, -⟩
      cases hcounts with
      | integer hkind _ => exact absurd hkind (by decide)
  | float64 bits =>
    have hcounts : (float64 bits).Counts n ↔ Binary.toWord? bits = some n := by
      refine ⟨?_, .float64⟩
      rintro (_ | hwhole)
      exact hwhole
    simp only [hcounts, toUnsigned]
    cases Binary.toWord? bits with
    | none => simp
    | some k =>
      rw [Option.some.injEq]
      exact bounded_eq_ok_iff
  | _ =>
    refine ⟨fun h => (by cases h), ?_⟩
    rintro ⟨hcounts, -⟩
    cases hcounts

/-- What is refused as a number is refused under the key. -/
theorem key_of_toUnsigned (h : v.toUnsigned key limit = .error err) : err.key = key := by
  unfold toUnsigned at h
  dsimp only at h
  split at h
  all_goals try split at h
  all_goals try split at h
  all_goals cases h
  all_goals rfl

/-! ### Floating-point numbers -/

theorem toDouble_eq_ok_iff : v.toDouble key = .ok bits ↔ v.Denotes bits := by
  constructor
  · intro h
    unfold toDouble at h
    split at h <;> cases h
    · exact .float64 _
    · exact .float32 _
    all_goals exact .integer (by decide)
  · rintro (_ | _ | hkind)
    · rfl
    · rfl
    · simp only [List.mem_cons, List.not_mem_nil, or_false] at hkind
      rcases hkind with rfl | rfl | rfl <;> rfl

theorem key_of_toDouble (h : v.toDouble key = .error err) : err.key = key := by
  unfold toDouble at h
  split at h <;> cases h
  rfl

/-! ### Bytes -/

theorem toByteList_eq_mapM (key : Text) (vs : List Value) :
    toByteList key vs = vs.mapM fun v => (v.toUnsigned key 0xff).map UInt8.ofNat := by
  induction vs with
  | nil => rfl
  | cons v vs ih =>
    rw [toByteList, List.mapM_cons, ih]
    cases v.toUnsigned key 0xff <;> rfl

theorem toByteList_eq_ok_iff {vs : List Value} : toByteList key vs = .ok b ↔ List.Forall₂ (fun v x => v.Counts x.toNat) vs b := by
  have hbyte (v : Value) (x : UInt8) : (v.toUnsigned key 0xff).map UInt8.ofNat = .ok x ↔ v.Counts x.toNat := by
    rw [map_eq_ok_iff]
    constructor
    · rintro ⟨n, hn, rfl⟩
      obtain ⟨hcounts, hle⟩ := toUnsigned_eq_ok_iff.1 hn
      rwa [UInt8.toNat_ofNat_of_lt' (Nat.lt_succ_of_le hle)]
    · intro hcounts
      exact ⟨x.toNat, toUnsigned_eq_ok_iff.2 ⟨hcounts, Nat.le_of_lt_succ x.toNat_lt⟩, UInt8.ofNat_toNat⟩
  rw [toByteList_eq_mapM, mapM_eq_ok_iff]
  simp only [hbyte]

theorem toBytes_eq_ok_iff : v.toBytes key = .ok b ↔ v.Spells b := by
  constructor
  · intro h
    unfold toBytes at h
    split at h
    · cases h; exact .null
    · cases h; exact .bytes _
    · cases h; exact .text _
    · exact .list (toByteList_eq_ok_iff.1 h)
    · cases h
  · rintro (_ | _ | _ | hcounts)
    · rfl
    · rfl
    · rfl
    · exact toByteList_eq_ok_iff.2 hcounts

theorem key_of_toByteList {vs : List Value} (h : toByteList key vs = .error err) : err.key = key := by
  rw [toByteList_eq_mapM] at h
  obtain ⟨v, -, hv⟩ := exists_of_mapM_eq_error h
  exact key_of_toUnsigned (map_eq_error_iff.1 hv)

theorem key_of_toBytes (h : v.toBytes key = .error err) : err.key = key := by
  unfold toBytes at h
  split at h
  · cases h
  · cases h
  · cases h
  · exact key_of_toByteList h
  · cases h
    rfl

/-! ### Conversions to a type -/

theorem converts_number_iff {t : FieldType} {w : Nat} {c : Value} (hw : t.width? = some w) (hv : ∀ b, v ≠ .bool b) :
    v.Converts t c ↔ ∃ n, v.Counts n ∧ n < 2 ^ w ∧ (t = .simple → n < 24 ∨ 31 < n) ∧ c = t.shown n := by
  constructor
  · intro h
    cases h with
    | @number v t w' n width counts fits exists_simple =>
      cases hw.symm.trans width
      exact ⟨n, counts, fits, exists_simple, rfl⟩
    | truth b => exact absurd rfl (hv b)
    | float32 denotes => cases hw
    | float64 denotes => cases hw
    | string t => cases hw
    | bytes spells => cases hw
  · rintro ⟨n, counts, fits, exists_simple, rfl⟩
    exact .number hw counts fits exists_simple

theorem converts_truth_iff {b : Bool} {t : FieldType} {c : Value} : (Value.bool b).Converts t c ↔ t = .bool ∧ c = .bool b := by
  constructor
  · intro h
    cases h with
    | number _ counts _ _ => cases counts
    | truth b => exact ⟨rfl, rfl⟩
    | float32 denotes => cases denotes
    | float64 denotes => cases denotes
    | bytes spells => cases spells
  · rintro ⟨rfl, rfl⟩
    exact .truth b

end Value

/-! ## Slots -/

namespace Slot

variable {s s' : Slot} {key : Text} {v : Value} {w n : Nat}

/-- A slot is its type and the value that it shows. -/
theorem eq_of_type_of_value (htype : s.type = s'.type) (hvalue : s.value = s'.value) : s = s' := by
  cases s <;> cases s' <;> cases htype
  all_goals simp only [value, Value.integer.injEq, true_and, Int.natCast_inj, Value.float32.injEq, Value.float64.injEq, Value.text.injEq,
    Value.bytes.injEq, Value.bool.injEq] at hvalue
  · exact congrArg uint8 (UInt8.toNat_inj.1 hvalue)
  · exact congrArg uint16 (UInt16.toNat_inj.1 hvalue)
  · exact congrArg uint32 (UInt32.toNat_inj.1 hvalue)
  · exact congrArg uint64 (UInt64.toNat_inj.1 hvalue)
  · exact congrArg float32 hvalue
  · exact congrArg float64 hvalue
  · exact congrArg string hvalue
  · exact congrArg bytes hvalue
  · exact congrArg bool hvalue
  · exact congrArg simple (UInt8.toNat_inj.1 hvalue)

/-- A whole number that fits is shown as it is. -/
theorem value_storeNat (hw : s.type.width? = some w) (hn : n < 2 ^ w) : (s.storeNat n).value = s.type.shown n := by
  cases s <;> cases hw
  · exact congrArg (fun k : Nat => Value.integer .uint64 k) (UInt8.toNat_ofNat_of_lt' hn)
  · exact congrArg (fun k : Nat => Value.integer .uint64 k) (UInt16.toNat_ofNat_of_lt' hn)
  · exact congrArg (fun k : Nat => Value.integer .uint64 k) (UInt32.toNat_ofNat_of_lt' hn)
  · exact congrArg (fun k : Nat => Value.integer .uint64 k) (UInt64.toNat_ofNat_of_lt' hn)
  · rfl
  · exact congrArg (fun k : Nat => Value.integer .uint64 k) (UInt8.toNat_ofNat_of_lt' hn)

/-- A slot for whole numbers takes what is not a truth value as a number of its width, and a simple value must exist. -/
theorem set_of_width (hw : s.type.width? = some w) (hv : ∀ b, v ≠ .bool b) :
    s.set key v = do
      let n ← v.toUnsigned key (2 ^ w - 1)
      if s.type = .simple ∧ reservedSimple n = true then
        throw { code := .improperValue, op := "Set", key, detail := .noSimpleValue n }
      else return s.storeNat n := by
  cases s <;> cases hw
  case bool =>
    cases v with
    | bool b => exact absurd rfl (hv b)
    | _ => simp [set, type]
  all_goals simp [set, type]

theorem reservedSimple_iff (n : Nat) : reservedSimple n = true ↔ ¬(n < 24 ∨ 31 < n) := by
  simp only [reservedSimple, Bool.and_eq_true, decide_eq_true_eq]
  omega

/-- Setting a slot for whole numbers to what is not a truth value. -/
theorem set_number_eq_ok_iff (hw : s.type.width? = some w) (hv : ∀ b, v ≠ .bool b) :
    s.set key v = .ok s' ↔ ∃ n, v.Counts n ∧ n < 2 ^ w ∧ (s.type = .simple → n < 24 ∨ 31 < n) ∧ s' = s.storeNat n := by
  have hpos : 0 < 2 ^ w := Nat.two_pow_pos w
  rw [set_of_width hw hv, bind_eq_ok_iff]
  refine exists_congr fun n => ?_
  rw [Value.toUnsigned_eq_ok_iff]
  split
  · rename_i hreserved
    refine ⟨fun h => (by cases h.2), fun h => ?_⟩
    exact absurd (h.2.2.1 hreserved.1) ((reservedSimple_iff n).1 hreserved.2)
  · rename_i hfree
    have hret : (return s.storeNat n : Except Error Slot) = .ok s' ↔ s' = s.storeNat n := by
      simp [pure, Except.pure, eq_comm]
    rw [hret]
    constructor
    · rintro ⟨⟨hcounts, hle⟩, hs⟩
      exact ⟨hcounts, by omega, fun hsimple => by_contra fun hnot => hfree ⟨hsimple, (reservedSimple_iff n).2 hnot⟩, hs⟩
    · rintro ⟨hcounts, hlt, -, hs⟩
      exact ⟨⟨hcounts, by omega⟩, hs⟩

theorem set_truth_eq_ok_iff {b : Bool} : s.set key (.bool b) = .ok s' ↔ s.type = .bool ∧ s' = .bool b := by
  cases s with
  | bool w => exact ⟨fun h => ⟨rfl, (Except.ok.inj h).symm⟩, fun h => h.2 ▸ rfl⟩
  | _ => exact ⟨fun h => (by cases h), fun h => (by cases h.1)⟩

theorem converts_of_set (h : s.set key v = .ok s') : v.Converts s.type s'.value := by
  cases hw : s.type.width? with
  | some w =>
    by_cases hv : ∃ b, v = .bool b
    · obtain ⟨b, rfl⟩ := hv
      obtain ⟨htype, rfl⟩ := set_truth_eq_ok_iff.1 h
      exact Value.converts_truth_iff.2 ⟨htype, rfl⟩
    · rw [not_exists] at hv
      obtain ⟨n, counts, fits, exists_simple, rfl⟩ := (set_number_eq_ok_iff hw hv).1 h
      rw [value_storeNat hw fits]
      exact .number hw counts fits exists_simple
  | none =>
    cases s with
    | float32 w =>
      obtain ⟨bits, hbits, hs⟩ := bind_eq_ok_iff.1 h
      cases hs
      exact .float32 (Value.toDouble_eq_ok_iff.1 hbits)
    | float64 w =>
      obtain ⟨bits, hbits, hs⟩ := bind_eq_ok_iff.1 h
      cases hs
      exact .float64 (Value.toDouble_eq_ok_iff.1 hbits)
    | string w =>
      cases v with
      | text t => cases h; exact .string t
      | _ => cases h
    | bytes w =>
      obtain ⟨b, hb, hs⟩ := bind_eq_ok_iff.1 h
      cases hs
      exact .bytes (Value.toBytes_eq_ok_iff.1 hb)
    | _ => cases hw

theorem exists_set {c : Value} (h : v.Converts s.type c) (key : Text) : ∃ s', s.set key v = .ok s' ∧ s'.value = c := by
  generalize ht : s.type = t at h
  cases h with
  | @number v t w n width counts fits exists_simple =>
    subst ht
    have hv : ∀ b, v ≠ .bool b := by
      rintro b rfl
      cases counts
    exact ⟨s.storeNat n, (set_number_eq_ok_iff width hv).2 ⟨n, counts, fits, exists_simple, rfl⟩, value_storeNat width fits⟩
  | truth b => exact ⟨.bool b, set_truth_eq_ok_iff.2 ⟨ht, rfl⟩, rfl⟩
  | @float32 v bits denotes =>
    cases s <;> cases ht
    exact ⟨.float32 (Binary.narrow bits), bind_eq_ok_iff.2 ⟨bits, Value.toDouble_eq_ok_iff.2 denotes, rfl⟩, rfl⟩
  | @float64 v bits denotes =>
    cases s <;> cases ht
    exact ⟨.float64 bits, bind_eq_ok_iff.2 ⟨bits, Value.toDouble_eq_ok_iff.2 denotes, rfl⟩, rfl⟩
  | string t =>
    cases s <;> cases ht
    exact ⟨.string t, rfl, rfl⟩
  | @bytes v b spells =>
    cases s <;> cases ht
    exact ⟨.bytes b, bind_eq_ok_iff.2 ⟨b, Value.toBytes_eq_ok_iff.2 spells, rfl⟩, rfl⟩

/-- A slot can be set to the values that convert to its type, and then shows what they convert to. -/
theorem set_eq_ok_iff : s.set key v = .ok s' ↔ s'.type = s.type ∧ v.Converts s.type s'.value := by
  refine ⟨fun h => ⟨(of_set h).1, converts_of_set h⟩, ?_⟩
  rintro ⟨htype, hconverts⟩
  obtain ⟨t, hset, hvalue⟩ := exists_set hconverts key
  rw [hset, eq_of_type_of_value ((of_set hset).1.trans htype.symm) hvalue]

/-- What becomes of a slot for whole numbers that is set to an integer: a negative one is improper, one that needs more bits than the
slot has is out of range, and so is no simple value that does not exist. -/
theorem set_integer {kind : IntKind} {i : Int} (hw : s.type.width? = some w) (hkind : kind ∈ IntKind.counted) (hi : kind.Holds i) :
    s.set key (.integer kind i) =
      if i < 0 then .error { code := .improperValue, op := "Set", key, detail := .negativeValue i }
      else if 2 ^ w ≤ i then .error { code := .outOfRange, op := "Set", key, detail := .exceeds i.toNat (2 ^ w - 1) }
      else if s.type = .simple ∧ 24 ≤ i ∧ i ≤ 31 then .error { code := .improperValue, op := "Set", key, detail := .noSimpleValue i.toNat }
      else .ok (s.storeNat i.toNat) := by
  have hpos : 0 < 2 ^ w := Nat.two_pow_pos w
  have hcast : ((2 ^ w : Nat) : Int) = 2 ^ w := by push_cast; rfl
  rw [set_of_width hw (fun b h => by cases h), Value.toUnsigned_integer hkind hi.nonneg]
  by_cases hneg : i < 0
  · rw [if_pos hneg, if_pos hneg]
    rfl
  rw [if_neg hneg, if_neg hneg]
  by_cases hlarge : 2 ^ w ≤ i
  · rw [if_pos (by omega), if_pos hlarge]
    rfl
  rw [if_neg (by omega), if_neg hlarge]
  by_cases hsimple : s.type = .simple ∧ 24 ≤ i ∧ i ≤ 31
  · have hreserved : s.type = .simple ∧ reservedSimple i.toNat = true := ⟨hsimple.1, (reservedSimple_iff _).2 (by omega)⟩
    simp only [bind, Except.bind, if_pos hreserved, if_pos hsimple]
    rfl
  · have hfree : ¬(s.type = .simple ∧ reservedSimple i.toNat = true) :=
      fun h => hsimple ⟨h.1, by have := (reservedSimple_iff _).1 h.2; omega⟩
    simp only [bind, Except.bind, if_neg hfree, if_neg hsimple]
    rfl

/-- An error of setting a slot names the key. -/
theorem key_of_set {err : Error} (h : s.set key v = .error err) : err.key = key := by
  cases s with
  | simple w =>
    rcases bind_eq_error_iff.1 h with hn | ⟨n, -, hset⟩
    · exact Value.key_of_toUnsigned hn
    · split at hset <;> cases hset
      rfl
  | uint8 w | uint16 w | uint32 w | uint64 w =>
    rcases bind_eq_error_iff.1 h with hn | ⟨n, -, hset⟩
    · exact Value.key_of_toUnsigned hn
    · cases hset
  | float32 w | float64 w =>
    rcases bind_eq_error_iff.1 h with hbits | ⟨bits, -, hset⟩
    · exact Value.key_of_toDouble hbits
    · cases hset
  | bytes w =>
    rcases bind_eq_error_iff.1 h with hb | ⟨b, -, hset⟩
    · exact Value.key_of_toBytes hb
    · cases hset
  | bool w =>
    by_cases hv : ∃ b, v = .bool b
    · obtain ⟨b, rfl⟩ := hv
      cases h
    · rw [not_exists] at hv
      rw [set_of_width rfl hv] at h
      rcases bind_eq_error_iff.1 h with hn | ⟨n, -, hset⟩
      · exact Value.key_of_toUnsigned hn
      · split at hset <;> cases hset
        rfl
  | string w =>
    cases v with
    | text t => cases h
    | _ => cases h; rfl

end Slot

/-! ## Fields -/

namespace Field

variable {f g : Field} {v c : Value}

/-- Setting a field is setting its slot. -/
theorem set_of_slot? {s : Slot} (h : f.slot? = some s) (v : Value) : f.set v = (s.set f.key v).map f.store := by
  obtain ⟨key, binding, checked⟩ := f
  cases binding with
  | bound s' =>
    cases h
    exact (map_eq_pure_bind _ _).symm
  | unbound t => cases h

/-- A field with a slot can be set to the values that convert to its type, and then shows what they convert to. -/
theorem set_eq_ok_iff (hbound : f.isBound = true) :
    f.set v = .ok g ↔ ∃ s : Slot, s.type = f.type ∧ v.Converts f.type s.value ∧ f.store s = g := by
  obtain ⟨s, hs⟩ := Option.isSome_iff_exists.1 hbound
  rw [set_of_slot? hs, type_of_slot? hs, map_eq_ok_iff]
  simp only [Slot.set_eq_ok_iff, and_assoc]

theorem exists_set (hbound : f.isBound = true) (h : v.Converts f.type c) : ∃ g, f.set v = .ok g ∧ g.value = c := by
  obtain ⟨s, hs⟩ := Option.isSome_iff_exists.1 hbound
  rw [type_of_slot? hs] at h
  obtain ⟨s', hset, hvalue⟩ := Slot.exists_set h f.key
  exact ⟨f.store s', (set_of_slot? hs v).trans (map_eq_ok_iff.2 ⟨s', hset, rfl⟩), hvalue⟩

/-- What a field shows that was set is the one thing that the value converts to. -/
theorem converts_iff_of_set (hbound : f.isBound = true) (h : f.set v = .ok g) : v.Converts f.type c ↔ g.value = c := by
  constructor
  · intro hconverts
    obtain ⟨g', hset, hvalue⟩ := exists_set hbound hconverts
    cases h.symm.trans hset
    exact hvalue
  · rintro rfl
    obtain ⟨s, -, hconverts, rfl⟩ := (set_eq_ok_iff hbound).1 h
    exact hconverts

/-- An error of setting a field names its key. -/
theorem key_of_set {err : Error} (h : f.set v = .error err) : err.key = f.key := by
  cases hs : f.slot? with
  | some s =>
    rw [set_of_slot? hs, map_eq_error_iff] at h
    exact Slot.key_of_set h
  | none =>
    obtain ⟨key, binding, checked⟩ := f
    cases binding with
    | bound s => cases hs
    | unbound t => cases h; rfl

end Field

end SensorWire
