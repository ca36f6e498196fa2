import Mathlib
import SensorWire.Proofs.Head

/-!
# Heads as a code

Heads are a prefix code: the bytes of a head say where it ends, so it is read alike whatever follows it, and no head begins with another.
Several heads may have the same major type and argument, and the shortest one takes the fewest bytes, since a width holds an argument
only if it is as wide as the narrowest one for it (`Width.size_shortest_le`). `Headless` lists the byte sequences that have no head in
front, with what is wrong with them.

Main statement: `heads_are_minimal_prefix_code`.
-/

namespace SensorWire

namespace Cbor

/-! ## Widths -/

namespace Width

variable {w : Width} {arg info : Nat}

theorem lt_of_holds (h : w.Holds arg) : arg < 2 ^ 64 := by
  cases w with
  | inline => exact Nat.lt_trans (show arg < 24 from h) (by decide)
  | one => exact Nat.lt_trans (show arg < 0x100 from h) (by decide)
  | two => exact Nat.lt_trans (show arg < 0x10000 from h) (by decide)
  | four => exact Nat.lt_trans (show arg < 0x100000000 from h) (by decide)
  | eight => exact h

/-- The low bits from 24 to 27 announce one, two, four and eight bytes. -/
theorem size_of_ofInfo? (h : ofInfo? info = some w) (hw : w ≠ .inline) : (24 ≤ info ∧ info ≤ 27) ∧ w.size = 2 ^ (info - 24) := by
  obtain rfl : w.info 0 = info := info_of_ofInfo? h hw 0
  cases w with
  | inline => exact absurd rfl hw
  | one | two | four | eight => decide

theorem exists_ofInfo? (low : 24 ≤ info) (high : info ≤ 27) : ∃ w, ofInfo? info = some w ∧ w ≠ .inline := by
  obtain rfl | rfl | rfl | rfl : info = 24 ∨ info = 25 ∨ info = 26 ∨ info = 27 := by omega
  · exact ⟨.one, rfl, by decide⟩
  · exact ⟨.two, rfl, by decide⟩
  · exact ⟨.four, rfl, by decide⟩
  · exact ⟨.eight, rfl, by decide⟩

theorem ofInfo?_eq_none_iff : ofInfo? info = none ↔ 28 ≤ info := by
  unfold ofInfo?
  split_ifs with hinline
  · simp only [false_iff]
    omega
  · split
    case h_5 =>
      simp only [true_iff]
      grind
    all_goals decide

end Width

theorem Major.mayBeOpen_iff (m : Major) : m.mayBeOpen = true ↔ m ∈ [bytes, text, array, map] := by
  cases m <;> decide

namespace Head

variable {bytes rest : List UInt8} {fault : Fault}

/-! ## Where no head stands -/

/-- The byte sequences without a head in front: none at all, an argument that is cut short, reserved low bits, and an open length of an item
that must have one. -/
inductive Headless : List UInt8 → Fault → Prop where
  | empty : Headless [] .truncated
  | short {b : UInt8} {tail : List UInt8} (low : 24 ≤ b.toNat % 32) (high : b.toNat % 32 ≤ 27)
      (missing : tail.length < 2 ^ (b.toNat % 32 - 24)) : Headless (b :: tail) .truncated
  | reserved {b : UInt8} {tail : List UInt8} (low : 28 ≤ b.toNat % 32) (high : b.toNat % 32 ≤ 30) :
      Headless (b :: tail) (.reserved (b.toNat % 32))
  | endless {b : UInt8} {tail : List UInt8} (info : b.toNat % 32 = 31) (major : Major.ofByte b ∉ [.bytes, .text, .array, .map]) :
      Headless (b :: tail) (.endless (Major.ofByte b))

/-- Reading fails for one of these reasons only. -/
theorem headless_of_read (hr : read bytes = .error fault) : Headless bytes fault := by
  cases bytes with
  | nil =>
    cases hr
    exact .empty
  | cons b tail =>
    have hlt : b.toNat % 32 < 32 := Nat.mod_lt _ (by decide)
    simp only [read] at hr
    -- the argument in the first byte, the argument behind it, and no argument
    split at hr
    · cases hr
    · rename_i w hinline hinfo
      split at hr
      · cases hr
      · rename_i hsplit
        cases hr
        obtain ⟨⟨low, high⟩, hsize⟩ := Width.size_of_ofInfo? hinfo hinline
        exact .short low high (hsize ▸ splitExact_eq_none_iff.1 hsplit)
    · rename_i hinfo
      have low := Width.ofInfo?_eq_none_iff.1 hinfo
      split_ifs at hr with hopen hmajor
      · cases hr
        refine .endless hopen ?_
        intro hmem
        exact hmajor ((Major.mayBeOpen_iff _).2 hmem)
      · cases hr
        exact .reserved low (by omega)

theorem read_of_headless (h : Headless bytes fault) : read bytes = .error fault := by
  cases h with
  | empty => rfl
  | @short b tail low high missing =>
    obtain ⟨w, hinfo, hinline⟩ := Width.exists_ofInfo? low high
    have hsplit : splitExact w.size tail = none := splitExact_eq_none_iff.2 ((Width.size_of_ofInfo? hinfo hinline).2 ▸ missing)
    cases w with
    | inline => exact absurd rfl hinline
    | one | two | four | eight => simp only [read, hinfo, hsplit]
  | reserved low high =>
    simp only [read, Width.ofInfo?_eq_none_iff.2 low]
    rw [if_neg (by omega)]
  | @endless b tail info major =>
    have hnone : Width.ofInfo? (b.toNat % 32) = none := Width.ofInfo?_eq_none_iff.2 (by omega)
    have hclosed : ¬(Major.ofByte b).mayBeOpen = true := by
      intro hopen
      exact major ((Major.mayBeOpen_iff _).1 hopen)
    simp only [read, hnone]
    rw [if_pos info, if_neg hclosed]

/-! ## The code -/

theorem read_shortest (major : Major) (v : UInt64) (rest : List UInt8) :
    read ((shortest major v.toNat).encode ++ rest) = .ok (shortest major v.toNat, rest) :=
  read_encode (valid_shortest major v.toNat_lt) rest

/-- A head that was read takes as many bytes as the shortest one or more. -/
theorem length_shortest_le {major : Major} {w : Width} {arg : Nat} (hr : read bytes = .ok (⟨major, some w, arg⟩, rest)) :
    (shortest major arg).encode.length + rest.length ≤ bytes.length := by
  obtain ⟨rfl, hvalid⟩ := read_eq_ok_iff.1 hr
  have hsize : (Width.shortest arg).size ≤ w.size := Width.size_shortest_le hvalid (Nat.le_refl _)
  rw [List.length_append, shortest, length_encode, length_encode]
  omega

/-- The shortest head of one major type and argument does not begin that of another. -/
theorem eq_of_isPrefix {major major' : Major} {v v' : UInt64}
    (hp : (shortest major v.toNat).encode <+: (shortest major' v'.toNat).encode) : major = major' ∧ v = v' := by
  obtain ⟨more, hmore⟩ := hp
  have hread := read_shortest major v more
  have hread' := read_shortest major' v' []
  rw [List.append_nil, ← hmore, hread] at hread'
  simp only [Except.ok.injEq, Prod.mk.injEq, shortest, mk.injEq] at hread'
  exact ⟨hread'.1.1, UInt64.toNat_inj.1 hread'.1.2.2⟩

/-- Heads are a minimal prefix code. The shortest head of a major type and an argument of 64 bits is read back, whatever follows it, and
does not begin another such head. Every head with an argument takes as many bytes as the shortest one or more. There is no head exactly
in front of the byte sequences that are `Headless`. A head that was read is the same whatever follows its bytes. -/
theorem heads_are_minimal_prefix_code :
    (∀ (major : Major) (v : UInt64) (rest : List UInt8),
        ∃ w, read ((shortest major v.toNat).encode ++ rest) = .ok (⟨major, some w, v.toNat⟩, rest)) ∧
      (∀ (major major' : Major) (v v' : UInt64),
        (shortest major v.toNat).encode <+: (shortest major' v'.toNat).encode → major = major' ∧ v = v') ∧
      (∀ (bytes rest : List UInt8) (major : Major) (w : Width) (v : Nat), read bytes = .ok (⟨major, some w, v⟩, rest) →
        v < 2 ^ 64 ∧ (shortest major v).encode.length + rest.length ≤ bytes.length) ∧
      (∀ (bytes : List UInt8) (fault : Fault), read bytes = .error fault ↔ Headless bytes fault) ∧
      ∀ (bytes rest : List UInt8) (h : Head), read bytes = .ok (h, rest) →
        ∃ front, front ≠ [] ∧ bytes = front ++ rest ∧ ∀ other, read (front ++ other) = .ok (h, other) := by
  refine ⟨?_, ?_, ?_, ?_, ?_⟩
  · intro major v rest
    exact ⟨.shortest v.toNat, read_shortest major v rest⟩
  · intro major major' v v' hp
    exact eq_of_isPrefix hp
  · intro bytes rest major w v hr
    exact ⟨Width.lt_of_holds (read_eq_ok_iff.1 hr).2, length_shortest_le hr⟩
  · intro bytes fault
    exact ⟨headless_of_read, read_of_headless⟩
  · intro bytes rest h hr
    obtain ⟨hbytes, hvalid⟩ := read_eq_ok_iff.1 hr
    exact ⟨h.encode, encode_ne_nil h, hbytes, read_encode hvalid⟩

/-- The number five in two bytes, where none would do, with a byte behind it. -/
theorem wide_head_of_small_argument :
    read [0x19, 0x00, 0x05, 0xff] = .ok (⟨.unsigned, some .two, 5⟩, [0xff]) ∧ (shortest .unsigned 5).encode.length + 1 ≤ 4 ∧
      (∃ front, front ≠ [] ∧ [0x19, 0x00, 0x05, 0xff] = front ++ [0xff] ∧
        ∀ other, read (front ++ other) = .ok (⟨.unsigned, some .two, 5⟩, other)) ∧
      ¬(shortest .unsigned 5).encode <+: (shortest .unsigned 500).encode ∧ read [0x19, 0x00] = .error .truncated := by
  obtain ⟨-, hbegins, hlength, herror, hpast⟩ := heads_are_minimal_prefix_code
  have hread : read [0x19, 0x00, 0x05, 0xff] = .ok (⟨.unsigned, some .two, 5⟩, [0xff]) := by decide
  refine ⟨hread, (hlength _ _ _ _ _ hread).2, hpast _ _ _ hread, ?_, ?_⟩
  · intro hp
    exact absurd (hbegins .unsigned .unsigned 5 500 hp).2 (by decide)
  · exact (herror _ _).2 (.short (by decide) (by decide) (by decide))

end Head

end Cbor

end SensorWire
