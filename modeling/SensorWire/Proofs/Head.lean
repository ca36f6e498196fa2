import Mathlib
import SensorWire.Cbor.Head

/-!
# Heads read back

Big-endian bytes and item heads. A head is `Valid` when its width holds its argument, or when its length is open and its type allows
that. `Head.read_eq_ok_iff` is the law of the head codec: reading gives a head and a rest exactly when the bytes are the encoding of
that valid head followed by that rest.
-/

namespace SensorWire

/-! ## Splitting off elements -/

/-- Splitting off the elements in front of a list leaves the list. -/
theorem splitExact_append {α : Type} (front rest : List α) : splitExact front.length (front ++ rest) = some (front, rest) := by
  induction front with
  | nil => rfl
  | cons a front ih =>
    rw [List.length_cons, List.cons_append, splitExact, ih]
    rfl

/-- What was split off is as long as asked for, and nothing is lost. -/
theorem append_of_splitExact {α : Type} {n : Nat} {l front rest : List α} (h : splitExact n l = some (front, rest)) :
    l = front ++ rest ∧ front.length = n := by
  induction n generalizing l front with
  | zero =>
    simp only [splitExact, Option.some.injEq, Prod.mk.injEq] at h
    obtain ⟨rfl, rfl⟩ := h
    exact ⟨rfl, rfl⟩
  | succ n ih =>
    cases l with
    | nil => simp [splitExact] at h
    | cons a l =>
      simp only [splitExact, Option.map_eq_some_iff, Prod.mk.injEq, Prod.exists] at h
      obtain ⟨x, y, hxy, rfl, rfl⟩ := h
      obtain ⟨rfl, rfl⟩ := ih hxy
      exact ⟨rfl, rfl⟩

/-- Splitting fails only on a list that is too short. -/
theorem splitExact_eq_none_iff {α : Type} {n : Nat} {l : List α} : splitExact n l = none ↔ l.length < n := by
  induction n generalizing l with
  | zero => simp [splitExact]
  | succ n ih =>
    cases l with
    | nil => simp [splitExact]
    | cons a l => simp [splitExact, ih]

namespace Cbor

/-! ## Big-endian numbers -/

@[simp] theorem length_bigEndian (size n : Nat) : (bigEndian size n).length = size := by
  induction size generalizing n with
  | zero => rfl
  | succ size ih => simp [bigEndian, ih]

/-- One more byte at the end. -/
theorem ofBigEndian_append_byte (bytes : List UInt8) (b : UInt8) :
    ofBigEndian (bytes ++ [b]) = 256 * ofBigEndian bytes + b.toNat := by
  simp [ofBigEndian, List.foldl_append]

/-- The bytes of a number spell what of it fits in them. -/
theorem ofBigEndian_bigEndian (size n : Nat) : ofBigEndian (bigEndian size n) = n % 256 ^ size := by
  induction size generalizing n with
  | zero => simp [bigEndian, ofBigEndian, Nat.mod_one]
  | succ size ih =>
    rw [bigEndian, ofBigEndian_append_byte, ih, Nat.pow_succ', Nat.mod_mul, UInt8.toNat_ofNat']
    omega

/-- Bytes spell a number below the power of 256 of their count. -/
theorem ofBigEndian_lt (bytes : List UInt8) : ofBigEndian bytes < 256 ^ bytes.length := by
  induction bytes using List.reverseRecOn with
  | nil => simp [ofBigEndian]
  | append_singleton bytes b ih =>
    have hb := b.toNat_lt
    rw [ofBigEndian_append_byte, List.length_append, List.length_singleton, Nat.pow_succ]
    omega

/-- The number that bytes spell has these bytes. -/
theorem bigEndian_ofBigEndian (bytes : List UInt8) : bigEndian bytes.length (ofBigEndian bytes) = bytes := by
  induction bytes using List.reverseRecOn with
  | nil => rfl
  | append_singleton bytes b ih =>
    have hb := b.toNat_lt
    have hdiv : (256 * ofBigEndian bytes + b.toNat) / 256 = ofBigEndian bytes := by omega
    have hlow : UInt8.ofNat (256 * ofBigEndian bytes + b.toNat) = b := by
      apply UInt8.toNat_inj.mp
      rw [UInt8.toNat_ofNat']
      omega
    rw [List.length_append, List.length_singleton, ofBigEndian_append_byte, bigEndian, hdiv, ih, hlow]

/-! ## The first byte -/

theorem Major.number_lt (m : Major) : m.number < 8 := by
  cases m <;> decide

/-- A major type is the one with its number. -/
theorem Major.ofByte_of_number {b : UInt8} {m : Major} (h : b.toNat / 32 = m.number) : Major.ofByte b = m := by
  unfold Major.ofByte
  cases m <;> simp only [Major.number] at h <;> simp [h]

theorem Major.number_ofByte (b : UInt8) : (Major.ofByte b).number = b.toNat / 32 := by
  have hb := b.toNat_lt
  have hlt : b.toNat / 32 < 8 := by omega
  unfold Major.ofByte
  interval_cases b.toNat / 32 <;> rfl

namespace Head

theorem toNat_initial (m : Major) {info : Nat} (h : info < 32) : (initial m info).toNat = 32 * m.number + info := by
  have hm := m.number_lt
  rw [initial, UInt8.toNat_ofNat']
  omega

@[simp] theorem ofByte_initial (m : Major) {info : Nat} (h : info < 32) : Major.ofByte (initial m info) = m := by
  apply Major.ofByte_of_number
  rw [toNat_initial m h]
  omega

theorem initial_mod (m : Major) {info : Nat} (h : info < 32) : (initial m info).toNat % 32 = info := by
  rw [toNat_initial m h]
  omega

/-- A byte is the first byte of a head with its own major type and low bits. -/
theorem initial_ofByte (b : UInt8) : initial (Major.ofByte b) (b.toNat % 32) = b := by
  apply UInt8.toNat_inj.mp
  rw [toNat_initial _ (Nat.mod_lt _ (by decide)), Major.number_ofByte]
  omega

end Head

/-! ## Widths -/

namespace Width

/-- The low bits announce the width that they were made for. -/
theorem ofInfo?_info {w : Width} {arg : Nat} (h : w.Holds arg) : ofInfo? (w.info arg) = some w := by
  cases w
  case inline => simp [info, ofInfo?, show arg < 24 from h]
  all_goals rfl

theorem info_lt {w : Width} {arg : Nat} (h : w.Holds arg) : w.info arg < 28 := by
  cases w
  case inline => exact Nat.lt_trans (show arg < 24 from h) (by decide)
  all_goals simp [info]

/-- The low bits that announce a width other than the inline one. -/
theorem info_of_ofInfo? {info : Nat} {w : Width} (h : ofInfo? info = some w) (hw : w ≠ .inline) (arg : Nat) :
    w.info arg = info := by
  unfold ofInfo? at h
  split at h
  · simp only [Option.some.injEq] at h
    exact absurd h.symm hw
  · split at h <;> simp only [Option.some.injEq, reduceCtorEq] at h <;> subst h <;> rfl

theorem ofInfo?_inline {info : Nat} (h : ofInfo? info = some .inline) : info < 24 := by
  unfold ofInfo? at h
  split at h
  · assumption
  · split at h <;> simp at h

/-- A width other than the inline one holds what its bytes can spell. -/
theorem holds_iff_of_ne_inline {w : Width} (hw : w ≠ .inline) (arg : Nat) : w.Holds arg ↔ arg < 256 ^ w.size := by
  cases w <;> first | exact absurd rfl hw | exact Iff.rfl

/-- The narrowest width for an argument of 64 bits holds it. -/
theorem holds_shortest {arg : Nat} (h : arg < 2 ^ 64) : (shortest arg).Holds arg := by
  unfold shortest
  split_ifs <;> simp only [Holds, size] <;> norm_num <;> omega

/-- No width that holds an argument is narrower than the narrowest one for it or for a smaller one. -/
theorem size_shortest_le {w : Width} {m n : Nat} (h : w.Holds n) (hm : m ≤ n) : (shortest m).size ≤ w.size := by
  unfold shortest
  cases w with
  | inline =>
    have hlt : m < 24 := Nat.lt_of_le_of_lt hm h
    simp [hlt]
  | one =>
    have hlt : m < 0x100 := Nat.lt_of_le_of_lt hm h
    split_ifs <;> decide
  | two =>
    have hlt : m < 0x10000 := Nat.lt_of_le_of_lt hm h
    split_ifs <;> decide
  | four =>
    have hlt : m < 0x100000000 := Nat.lt_of_le_of_lt hm h
    split_ifs <;> decide
  | eight => split_ifs <;> decide

end Width

/-! ## Heads -/

namespace Head

/-- A head that can be written: its width holds its argument, or its type may leave the length open. -/
def Valid (h : Head) : Prop :=
  match h.width with
  | none => h.major.mayBeOpen = true ∧ h.arg = 0
  | some w => w.Holds h.arg

theorem valid_none {major : Major} {arg : Nat} : Valid ⟨major, none, arg⟩ ↔ major.mayBeOpen = true ∧ arg = 0 := Iff.rfl

theorem encode_some (major : Major) (w : Width) (arg : Nat) :
    encode ⟨major, some w, arg⟩ = initial major (w.info arg) :: bigEndian w.size arg := rfl

theorem length_encode (major : Major) (w : Width) (arg : Nat) : (encode ⟨major, some w, arg⟩).length = 1 + w.size := by
  rw [encode_some, List.length_cons, length_bigEndian, Nat.add_comm]

theorem encode_none (major : Major) (arg : Nat) : encode ⟨major, none, arg⟩ = [initial major 31] := rfl

/-- A head takes a byte at least. -/
theorem encode_ne_nil (h : Head) : h.encode ≠ [] := by
  unfold encode
  split <;> exact List.cons_ne_nil _ _

/-- The first byte of a valid head has the major type of the head. -/
theorem ofByte_encode {h : Head} (hv : h.Valid) : ∃ b tail, h.encode = b :: tail ∧ Major.ofByte b = h.major := by
  obtain ⟨major, width, arg⟩ := h
  cases width with
  | none => exact ⟨initial major 31, [], rfl, ofByte_initial major (by decide)⟩
  | some w =>
    have hi : w.info arg < 32 := Nat.lt_trans (Width.info_lt hv) (by decide)
    exact ⟨initial major (w.info arg), bigEndian w.size arg, rfl, ofByte_initial major hi⟩

/-- A valid head is read back, whatever follows it. -/
theorem read_encode {h : Head} (hv : h.Valid) (rest : List UInt8) : read (h.encode ++ rest) = .ok (h, rest) := by
  obtain ⟨major, width, arg⟩ := h
  cases width with
  | none =>
    obtain ⟨ho, rfl⟩ := valid_none.1 hv
    simp [encode, read, initial_mod, Width.ofInfo?, ho]
  | some w =>
    have hh : w.Holds arg := hv
    have hi : w.info arg < 32 := Nat.lt_trans (Width.info_lt hh) (by decide)
    have hw := Width.ofInfo?_info hh
    simp only [encode, List.cons_append, read, ofByte_initial major hi, initial_mod major hi, hw]
    by_cases hinl : w = .inline
    · subst hinl
      simp [Width.info, Width.size, bigEndian]
    · have hsplit : splitExact w.size (bigEndian w.size arg ++ rest) = some (bigEndian w.size arg, rest) := by
        have := splitExact_append (bigEndian w.size arg) rest
        rwa [length_bigEndian] at this
      have harg : ofBigEndian (bigEndian w.size arg) = arg := by
        rw [ofBigEndian_bigEndian, Nat.mod_eq_of_lt ((Width.holds_iff_of_ne_inline hinl arg).1 hh)]
      cases w <;> first | exact absurd rfl hinl | simp [hsplit, harg]

/-- The head that was read is valid, and its bytes stood in front. -/
theorem eq_encode_of_read {bytes rest : List UInt8} {h : Head} (hr : read bytes = .ok (h, rest)) :
    bytes = h.encode ++ rest ∧ h.Valid := by
  cases bytes with
  | nil => simp [read] at hr
  | cons b tail =>
    simp only [read] at hr
    split at hr
    · rename_i hinfo
      simp only [Except.ok.injEq, Prod.mk.injEq] at hr
      obtain ⟨rfl, rfl⟩ := hr
      refine ⟨?_, Width.ofInfo?_inline hinfo⟩
      simp [encode, Width.info, Width.size, bigEndian, initial_ofByte]
    · rename_i w hinl hinfo
      split at hr
      · rename_i arg tail' hsplit
        simp only [Except.ok.injEq, Prod.mk.injEq] at hr
        obtain ⟨rfl, rfl⟩ := hr
        obtain ⟨rfl, hlen⟩ := append_of_splitExact hsplit
        refine ⟨?_, (Width.holds_iff_of_ne_inline hinl _).2 (hlen ▸ ofBigEndian_lt arg)⟩
        rw [encode_some, Width.info_of_ofInfo? hinfo hinl, initial_ofByte, ← hlen, bigEndian_ofBigEndian]
        rfl
      · cases hr
    · split at hr
      · rename_i hinfo
        split at hr
        · rename_i ho
          simp only [Except.ok.injEq, Prod.mk.injEq] at hr
          obtain ⟨rfl, rfl⟩ := hr
          refine ⟨?_, ho, rfl⟩
          rw [encode_none, ← hinfo, initial_ofByte]
          rfl
        · cases hr
      · cases hr

/-- Reading gives a head and a rest exactly when the bytes are that valid head and that rest. -/
theorem read_eq_ok_iff {bytes rest : List UInt8} {h : Head} :
    read bytes = .ok (h, rest) ↔ bytes = h.encode ++ rest ∧ h.Valid := by
  refine ⟨eq_encode_of_read, ?_⟩
  rintro ⟨rfl, hv⟩
  exact read_encode hv rest

/-- The shortest head for an argument of 64 bits is valid. -/
theorem valid_shortest (major : Major) {arg : Nat} (h : arg < 2 ^ 64) : (shortest major arg).Valid :=
  Width.holds_shortest h

end Head

end Cbor

end SensorWire
