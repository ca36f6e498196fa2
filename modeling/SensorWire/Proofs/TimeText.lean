import Mathlib
import SensorWire.Proofs.Calendar
import SensorWire.Text.Utf8
import SensorWire.Time.Reading

/-!
# Times written and read back

A time in the internet form is made of numbers of a fixed count of digits (`digits`), of marks between them, of a fraction without the
zeros at its end and of an offset. Each part is read back from in front of what follows it, and what was read makes the same time.

Main statement: `Timestamp.parse_render`, for times with a year of four digits and an offset of whole minutes below 25 hours.
-/

namespace SensorWire

/-! ## Decimal digits -/

namespace TimeReading

/-- A number in so many decimal digits. -/
def digits : (width n : Nat) → List UInt8
  | 0, _ => []
  | width + 1, n => digits width (n / 10) ++ [UInt8.ofNat (48 + n % 10)]

@[simp] theorem length_digits (width n : Nat) : (digits width n).length = width := by
  induction width generalizing n with
  | zero => rfl
  | succ width ih => rw [digits, List.length_append, ih, List.length_singleton]

theorem toNat_digit (n : Nat) : (UInt8.ofNat (48 + n % 10)).toNat = 48 + n % 10 := by
  rw [UInt8.toNat_ofNat']
  omega

theorem isDigit_digit (n : Nat) : isDigit (UInt8.ofNat (48 + n % 10)) = true := by
  have h := toNat_digit n
  simp only [isDigit, Bool.and_eq_true, decide_eq_true_eq, UInt8.le_iff_toNat_le, h]
  exact ⟨by simp, by simp; omega⟩

theorem isDigit_of_mem_digits {width n : Nat} {b : UInt8} (h : b ∈ digits width n) : isDigit b = true := by
  induction width generalizing n with
  | zero => cases h
  | succ width ih =>
    rw [digits, List.mem_append, List.mem_singleton] at h
    rcases h with h | rfl
    · exact ih h
    · exact isDigit_digit n

theorem number_append (bytes : List UInt8) (b : UInt8) : number (bytes ++ [b]) = 10 * number bytes + (b.toNat - 48) := by
  simp [number, List.foldl_append]

theorem number_digits (width n : Nat) : number (digits width n) = n % 10 ^ width := by
  induction width generalizing n with
  | zero => simp [digits, number, Nat.mod_one]
  | succ width ih =>
    rw [digits, number_append, ih, toNat_digit, Nat.pow_succ', Nat.mod_mul]
    omega

theorem number_digits_of_lt {width n : Nat} (h : n < 10 ^ width) : number (digits width n) = n :=
  (number_digits width n).trans (Nat.mod_eq_of_lt h)

/-- Zeros at the end of a number. -/
theorem number_append_zeros (bytes : List UInt8) (k : Nat) : number (bytes ++ List.replicate k 0x30) = number bytes * 10 ^ k := by
  induction k with
  | zero => simp
  | succ k ih =>
    rw [List.replicate_succ', ← List.append_assoc, number_append, ih, Nat.pow_succ]
    simp only [show (0x30 : UInt8).toNat - 48 = 0 from rfl, Nat.add_zero]
    ring

/-! ## Parts of a layout -/

section Parts

variable {p p' : Parts} {lone two : Bool} {n : Nat} {rest bytes : List UInt8} {part : TimePart} {layout : TimeLayout}

/-- Two digits in front are taken as a number. -/
theorem takeTwo?_digits (h : n < 100) (two : Bool) (rest : List UInt8) : takeTwo? two (digits 2 n ++ rest) = some (n, rest) := by
  have hnumber : number (digits 2 n) = n := number_digits_of_lt h
  have hfirst := isDigit_digit (n / 10)
  have hsecond := isDigit_digit n
  change takeTwo? two (UInt8.ofNat (48 + n / 10 % 10) :: UInt8.ofNat (48 + n % 10) :: rest) = _
  simp only [takeTwo?, hfirst, hsecond, if_true]
  exact congrArg (fun k => some (k, rest)) hnumber

theorem take?_mark (c : Char) (p : Parts) (rest : List UInt8) :
    take? lone p (.mark c) (c.toNat.toUInt8 :: rest) = .ok (some (p, rest)) := by
  simp [take?]

theorem take?_year (h : n < 10000) (p : Parts) (rest : List UInt8) :
    take? lone p .year (digits 4 n ++ rest) = .ok (some ({ p with year := n }, rest)) := by
  have hlength : (digits 4 n).length = 4 := length_digits 4 n
  have htake : (digits 4 n ++ rest).take 4 = digits 4 n := List.take_left' hlength
  have hdrop : (digits 4 n ++ rest).drop 4 = rest := List.drop_left' hlength
  have hall : (digits 4 n).all isDigit = true := List.all_eq_true.2 fun b hb => isDigit_of_mem_digits hb
  have hnumber : number (digits 4 n) = n := number_digits_of_lt h
  simp only [take?, htake, hdrop, hlength, hall, decide_true, Bool.and_self, if_true, hnumber]

theorem bounded_of_le {what : String} {low high : Nat} (hlow : low ≤ n) (hhigh : n ≤ high) (p : Parts) (rest : List UInt8) :
    bounded what low high n p rest = .ok (some (p, rest)) := by
  rw [bounded, if_neg (by omega)]

theorem take?_month (hlow : 1 ≤ n) (hhigh : n ≤ 12) (p : Parts) (rest : List UInt8) :
    take? lone p (.month true) (digits 2 n ++ rest) = .ok (some ({ p with month := n }, rest)) := by
  simp only [take?, takeTwo?_digits (show n < 100 by omega), bounded_of_le hlow hhigh]

theorem take?_day (h : n < 100) (p : Parts) (rest : List UInt8) :
    take? lone p (.day true) (digits 2 n ++ rest) = .ok (some ({ p with day := n }, rest)) := by
  simp only [take?, takeTwo?_digits h, Option.map_some]

theorem take?_hour (h : n < 24) (p : Parts) (rest : List UInt8) :
    take? lone p .hour (digits 2 n ++ rest) = .ok (some ({ p with hour := n }, rest)) := by
  simp only [take?, takeTwo?_digits (show n < 100 by omega), bounded_of_le (Nat.zero_le n) (show n ≤ 23 by omega)]

theorem take?_minute (h : n < 60) (p : Parts) (rest : List UInt8) :
    take? lone p (.minute true) (digits 2 n ++ rest) = .ok (some ({ p with minute := n }, rest)) := by
  simp only [take?, takeTwo?_digits (show n < 100 by omega), bounded_of_le (Nat.zero_le n) (show n ≤ 59 by omega)]

/-- The seconds, and the fraction after them. -/
theorem take?_second (h : n < 60) {nanos : Nat} (hfraction : takeFraction bytes = (nanos, rest)) (p : Parts) :
    take? true p (.second true) (digits 2 n ++ bytes) = .ok (some ({ p with second := n, nanos }, rest)) := by
  simp only [take?, takeTwo?_digits (show n < 100 by omega), hfraction, if_true, bounded_of_le (Nat.zero_le n) (show n ≤ 59 by omega)]

theorem take?_zone {offset : Int} (h : takeZone? bytes = .ok (some (offset, rest))) (p : Parts) :
    take? lone p .zone bytes = .ok (some ({ p with offset }, rest)) := by
  simp only [take?, h]
  rfl

/-- The parts of a layout are taken one after the other. -/
theorem takeAll_cons (h : take? (layout.head? ≠ some .fraction) p part bytes = .ok (some (p', rest))) :
    takeAll p (part :: layout) bytes = takeAll p' layout rest := by
  simp only [takeAll, h]
  rfl

end Parts

end TimeReading

/-! ## The characters of a time -/

theorem Text.bytes_ofChars_append (cs ds : List Char) :
    (Text.ofChars (cs ++ ds)).bytes = (Text.ofChars cs).bytes ++ (Text.ofChars ds).bytes :=
  List.flatMap_append

theorem Text.bytes_ofChars_cons {c : Char} (h : c.toNat < 128) (cs : List Char) :
    (Text.ofChars (c :: cs)).bytes = c.toNat.toUInt8 :: (Text.ofChars cs).bytes := by
  have hc : String.utf8EncodeChar c = [c.toNat.toUInt8] := if_pos (show c.val.toNat ≤ 127 from Nat.le_of_lt_succ h)
  rw [ofChars, List.flatMap_cons, hc]
  rfl

theorem Text.bytes_ofAscii {cs : List Char} (h : ∀ c ∈ cs, c.toNat < 128) : (Text.ofChars cs).bytes = cs.map fun c => c.toNat.toUInt8 := by
  induction cs with
  | nil => rfl
  | cons c cs ih =>
    rw [bytes_ofChars_cons (h c List.mem_cons_self), ih fun c hc => h c (List.mem_cons_of_mem _ hc), List.map_cons]

theorem Utf8.isUtf8_of_ascii {bytes : List UInt8} (h : ∀ b ∈ bytes, b < 0x80) : IsUtf8 bytes := by
  induction bytes with
  | nil => rfl
  | cons b bytes ih =>
    have hrest := ih fun b hb => h b (List.mem_cons_of_mem _ hb)
    unfold IsUtf8 isValid at hrest ⊢
    rw [runes.eq_def]
    dsimp only
    rw [if_pos (h b List.mem_cons_self), List.all_cons, hrest]
    rfl

namespace Timestamp

open TimeReading

theorem bytes_digitChar {d : Nat} (h : d < 10) : (Text.ofChars [Nat.digitChar d]).bytes = [UInt8.ofNat (48 + d)] := by
  interval_cases d <;> rfl

/-- One digit more at the end. -/
theorem padded_succ {width : Nat} (hwidth : 0 < width) (n : Nat) :
    padded (width + 1) n = padded width (n / 10) ++ [Nat.digitChar (n % 10)] := by
  unfold padded
  by_cases h : n < 10
  · obtain ⟨k, rfl⟩ : ∃ k, width = k + 1 := ⟨width - 1, by omega⟩
    have hzero : n / 10 = 0 := by omega
    rw [hzero, Nat.mod_eq_of_lt h, Nat.toDigits_of_lt_base h, Nat.toDigits_of_lt_base (show 0 < 10 by decide)]
    simp only [List.length_singleton, Nat.add_sub_cancel, List.replicate_succ']
    rfl
  · have hlength : 0 < (Nat.toDigits 10 (n / 10)).length := Nat.length_toDigits_pos
    rw [Nat.toDigits_eq_if (show 1 < 10 by decide), if_neg h]
    dsimp only
    rw [List.length_append, List.length_singleton, Nat.add_sub_add_right, List.append_assoc]

/-- A number with room for its digits is written in just so many. -/
theorem bytes_padded {width n : Nat} (hwidth : 0 < width) (h : n < 10 ^ width) :
    (Text.ofChars (padded width n)).bytes = digits width n := by
  induction width generalizing n with
  | zero => cases hwidth
  | succ width ih =>
    by_cases hzero : width = 0
    · subst hzero
      have hn : n < 10 := h
      rw [padded, Nat.toDigits_of_lt_base hn]
      exact (bytes_digitChar hn).trans (by rw [digits, digits, Nat.mod_eq_of_lt hn]; rfl)
    · have hquotient : n / 10 < 10 ^ width := by
        rw [Nat.pow_succ] at h
        omega
      rw [padded_succ (Nat.pos_of_ne_zero hzero), Text.bytes_ofChars_append, ih (Nat.pos_of_ne_zero hzero) hquotient,
        bytes_digitChar (Nat.mod_lt n (by decide)), digits]

/-! ## The fraction -/

/-- What is left of digits without the zeros at their end. -/
theorem exists_zeros (cs : List Char) :
    ∃ k, cs = (cs.reverse.dropWhile (· == '0')).reverse ++ List.replicate k '0' := by
  have hzeros : cs.reverse.takeWhile (· == '0') = List.replicate (cs.reverse.takeWhile (· == '0')).length '0' :=
    List.eq_replicate_iff.2 ⟨rfl, fun c hc => by simpa using List.mem_takeWhile_imp hc⟩
  refine ⟨(cs.reverse.takeWhile (· == '0')).length, ?_⟩
  have hsplit := congrArg List.reverse (List.takeWhile_append_dropWhile (p := (· == '0')) (l := cs.reverse))
  rw [List.reverse_append, List.reverse_reverse, hzeros, List.reverse_replicate] at hsplit
  exact hsplit.symm

theorem bytes_zeros (k : Nat) : (Text.ofChars (List.replicate k '0')).bytes = List.replicate k 0x30 := by
  induction k with
  | zero => rfl
  | succ k ih =>
    rw [List.replicate_succ, Text.bytes_ofChars_cons (by decide), ih]
    rfl

/-- The digits of a fraction, which are those of the nanoseconds but for zeros at the end. -/
theorem bytes_fraction {t : Timestamp} (h : t.nanos < 10 ^ 9) (hne : t.nanos ≠ 0) :
    ∃ first more k, (Text.ofChars t.fractionChars).bytes = 0x2e :: first :: more ∧
      digits 9 t.nanos = first :: more ++ List.replicate k 0x30 := by
  obtain ⟨k, hk⟩ := exists_zeros (padded 9 t.nanos)
  have hdigits : digits 9 t.nanos =
      (Text.ofChars ((padded 9 t.nanos).reverse.dropWhile (· == '0')).reverse).bytes ++ List.replicate k 0x30 := by
    rw [← bytes_padded (by decide) h, ← bytes_zeros k, ← Text.bytes_ofChars_append, ← hk]
  have hchars : (Text.ofChars t.fractionChars).bytes =
      0x2e :: (Text.ofChars ((padded 9 t.nanos).reverse.dropWhile (· == '0')).reverse).bytes := by
    rw [fractionChars, if_neg hne]
    exact Text.bytes_ofChars_cons (by decide) _
  cases hkept : (Text.ofChars ((padded 9 t.nanos).reverse.dropWhile (· == '0')).reverse).bytes with
  | nil =>
    -- nothing but zeros would be no nanoseconds at all
    have hnumber := number_append_zeros [] k
    rw [hkept] at hdigits
    rw [← hdigits, number_digits_of_lt h] at hnumber
    exact absurd (hnumber.trans (Nat.zero_mul _)) hne
  | cons first more => exact ⟨first, more, k, by rw [hchars, hkept], by rw [hdigits, hkept]⟩

/-- A byte that begins an offset. -/
def BeginsOffset (bytes : List UInt8) : Prop := ∃ b rest, bytes = b :: rest ∧ (b = 0x5a ∨ b = 0x2b ∨ b = 0x2d)

theorem BeginsOffset.span {zone : List UInt8} (h : BeginsOffset zone) {front : List UInt8} (hfront : ∀ b ∈ front, isDigit b = true) :
    (front ++ zone).takeWhile isDigit = front ∧ (front ++ zone).dropWhile isDigit = zone := by
  obtain ⟨b, rest, rfl, hb⟩ := h
  have hstop : isDigit b = false := by rcases hb with rfl | rfl | rfl <;> rfl
  rw [List.takeWhile_append_of_pos hfront, List.dropWhile_append_of_pos hfront, List.takeWhile_cons, List.dropWhile_cons, hstop]
  simp

/-- The fraction is read back from in front of the offset. -/
theorem takeFraction_bytes {t : Timestamp} (h : t.nanos < 10 ^ 9) {zone : List UInt8} (hzone : BeginsOffset zone) :
    takeFraction ((Text.ofChars t.fractionChars).bytes ++ zone) = (t.nanos, zone) := by
  by_cases hzero : t.nanos = 0
  · obtain ⟨b, rest, rfl, hb⟩ := hzone
    have hmark : (b = 0x2e || b = 0x2c) = false := by rcases hb with rfl | rfl | rfl <;> rfl
    rw [fractionChars, if_pos hzero, hzero]
    change takeFraction (b :: rest) = _
    cases rest with
    | nil => rfl
    | cons c rest => simp only [takeFraction, hmark, Bool.false_and, Bool.false_eq_true, if_false]
  · obtain ⟨first, more, k, hbytes, hdigits⟩ := bytes_fraction h hzero
    have hall : ∀ b ∈ first :: more, isDigit b = true := fun b hb =>
      isDigit_of_mem_digits (hdigits ▸ List.mem_append_left _ hb : b ∈ digits 9 t.nanos)
    rw [List.forall_mem_cons] at hall
    obtain ⟨htake, hdrop⟩ := hzone.span hall.2
    have hlength : (first :: more).length + k = 9 := by
      have := congrArg List.length hdigits
      rw [length_digits, List.length_append, List.length_replicate] at this
      exact this.symm
    have hkept : (first :: more).take 9 = first :: more := List.take_of_length_le (by omega)
    have hnumber : number (first :: more) * Nat.pow 10 (9 - (first :: more).length) = t.nanos := by
      rw [show 9 - (first :: more).length = k by omega]
      exact (number_append_zeros _ k).symm.trans (by rw [← hdigits, number_digits_of_lt h])
    rw [hbytes]
    simp only [List.cons_append, takeFraction, hall.1, decide_true, Bool.true_or, Bool.and_self, if_true, htake, hdrop, hkept, hnumber]

/-! ## The offset -/

/-- The bytes of an offset below 25 hours: `Z`, or a sign, hours and minutes of two digits each. -/
theorem bytes_offset {t : Timestamp} (h : t.offset.natAbs < 90000) :
    (t.offset = 0 ∧ (Text.ofChars t.offsetChars).bytes = [0x5a]) ∨
    (t.offset ≠ 0 ∧ (Text.ofChars t.offsetChars).bytes = (if t.offset < 0 then 0x2d else 0x2b) ::
      (digits 2 (t.offset.natAbs / 60 / 60) ++ 0x3a :: digits 2 (t.offset.natAbs / 60 % 60))) := by
  by_cases hzero : t.offset = 0
  · refine Or.inl ⟨hzero, ?_⟩
    rw [offsetChars, if_pos hzero]
    rfl
  · refine Or.inr ⟨hzero, ?_⟩
    have hminutes : (Int.tdiv t.offset 60).natAbs = t.offset.natAbs / 60 := Int.natAbs_tdiv t.offset 60
    have hsign : (Text.ofChars [if t.offset < 0 then '-' else '+']).bytes = [if t.offset < 0 then 0x2d else 0x2b] := by
      split <;> rfl
    rw [offsetChars, if_neg hzero, hminutes]
    dsimp only
    rw [List.cons_append, ← List.singleton_append, Text.bytes_ofChars_append, hsign, Text.bytes_ofChars_append,
      bytes_padded (by decide) (show t.offset.natAbs / 60 / 60 < 10 ^ 2 by omega), Text.bytes_ofChars_cons (by decide),
      bytes_padded (by decide) (show t.offset.natAbs / 60 % 60 < 10 ^ 2 by omega)]
    rfl

theorem beginsOffset_bytes {t : Timestamp} (h : t.offset.natAbs < 90000) : BeginsOffset (Text.ofChars t.offsetChars).bytes := by
  rcases bytes_offset h with ⟨-, hbytes⟩ | ⟨-, hbytes⟩
  · exact ⟨0x5a, [], hbytes, Or.inl rfl⟩
  · refine ⟨_, _, hbytes, Or.inr ?_⟩
    split
    · exact Or.inr rfl
    · exact Or.inl rfl

/-- A sign, hours and minutes are taken as an offset. -/
theorem takeZone?_signed {hours minutes : Nat} (hhours : hours ≤ 24) (hminutes : minutes < 60) (negative : Bool) :
    takeZone? ((if negative then 0x2d else 0x2b) :: (digits 2 hours ++ 0x3a :: digits 2 minutes)) =
      .ok (some (if negative then -((hours * 60 + minutes : Nat) * 60 : Int) else (hours * 60 + minutes : Nat) * 60, [])) := by
  have hh : takeTwo? true (digits 2 hours) = some (hours, []) := takeTwo?_digits (by omega) true []
  have hm : takeTwo? true (digits 2 minutes) = some (minutes, []) := takeTwo?_digits (by omega) true []
  have hlist : ∀ n, digits 2 n = [UInt8.ofNat (48 + n / 10 % 10), UInt8.ofNat (48 + n % 10)] := fun n => rfl
  rw [hlist] at hh hm
  rw [hlist, hlist]
  -- the bytes matter only through `hh` and `hm`
  generalize UInt8.ofNat (48 + hours / 10 % 10) = h₁, UInt8.ofNat (48 + hours % 10) = h₂,
    UInt8.ofNat (48 + minutes / 10 % 10) = m₁, UInt8.ofNat (48 + minutes % 10) = m₂ at *
  cases negative <;>
    simp [takeZone?, hh, hm, show ¬60 < minutes by omega, show ¬24 < hours by omega]

/-- An offset of whole minutes below 25 hours is read back. -/
theorem takeZone?_bytes {t : Timestamp} (h : t.offset.natAbs < 90000) (hwhole : t.offset % 60 = 0) :
    takeZone? (Text.ofChars t.offsetChars).bytes = .ok (some (t.offset, [])) := by
  rcases bytes_offset h with ⟨hzero, hbytes⟩ | ⟨-, hbytes⟩
  · rw [hbytes, hzero]
    rfl
  · have hzone := takeZone?_signed (show t.offset.natAbs / 60 / 60 ≤ 24 by omega) (Nat.mod_lt (t.offset.natAbs / 60) (by decide))
      (decide (t.offset < 0))
    simp only [decide_eq_true_eq] at hzone
    rw [hbytes, hzone]
    have hoffset : (if t.offset < 0 then -(((t.offset.natAbs / 60 / 60 * 60 + t.offset.natAbs / 60 % 60 : Nat) : Int) * 60)
        else ((t.offset.natAbs / 60 / 60 * 60 + t.offset.natAbs / 60 % 60 : Nat) : Int) * 60) = t.offset := by
      split <;> omega
    rw [hoffset]

/-! ## Whole times -/

/-- A time that has an internet form: a year of four digits, a fraction of nanoseconds and an offset of whole minutes. -/
structure Civil (t : Timestamp) : Prop where
  year : 0 ≤ t.date.year ∧ t.date.year ≤ 9999
  nanos : t.nanos < 10 ^ 9
  offset : t.offset % 60 = 0

/-- The bytes of a time, part by part. -/
theorem bytes_render {t : Timestamp} (h : t.Civil) :
    t.render.bytes = digits 4 t.date.year.toNat ++ '-'.toNat.toUInt8 :: (digits 2 t.date.month ++ '-'.toNat.toUInt8 ::
      (digits 2 t.date.day ++ 'T'.toNat.toUInt8 :: (digits 2 (t.secondOfDay / 3600) ++ ':'.toNat.toUInt8 ::
      (digits 2 (t.secondOfDay / 60 % 60) ++ ':'.toNat.toUInt8 :: (digits 2 (t.secondOfDay % 60) ++
      ((Text.ofChars t.fractionChars).bytes ++ (Text.ofChars t.offsetChars).bytes)))))) := by
  obtain ⟨hmonth, hday⟩ := t.proper_date
  have hdays := Date.daysIn_le t.date.year t.date.month
  have hsecond := t.secondOfDay_lt
  have hyear := h.year
  have hnatAbs : t.date.year.natAbs = t.date.year.toNat := by omega
  simp only [render, dateChars, clockChars, if_neg (show ¬t.date.year < 0 by omega), hnatAbs, List.nil_append,
    Text.bytes_ofChars_append, Text.bytes_ofChars_cons (show '-'.toNat < 128 by decide),
    Text.bytes_ofChars_cons (show 'T'.toNat < 128 by decide), Text.bytes_ofChars_cons (show ':'.toNat < 128 by decide),
    bytes_padded (show 0 < 4 by decide) (show t.date.year.toNat < 10 ^ 4 by omega),
    bytes_padded (show 0 < 2 by decide) (show t.date.month < 10 ^ 2 by omega),
    bytes_padded (show 0 < 2 by decide) (show t.date.day < 10 ^ 2 by omega),
    bytes_padded (show 0 < 2 by decide) (show t.secondOfDay / 3600 < 10 ^ 2 by omega),
    bytes_padded (show 0 < 2 by decide) (show t.secondOfDay / 60 % 60 < 10 ^ 2 by omega),
    bytes_padded (show 0 < 2 by decide) (show t.secondOfDay % 60 < 10 ^ 2 by omega), List.append_assoc, List.cons_append]

/-- A time in the internet form, with an offset below 25 hours, is read back. -/
theorem parse_render {t : Timestamp} (h : t.Civil) (hoffset : t.offset.natAbs < 90000) : Timestamp.parse t.render = .ok t := by
  obtain ⟨hmonth, hday⟩ := t.proper_date
  have hdays := Date.daysIn_le t.date.year t.date.month
  have hsecond := t.secondOfDay_lt
  have hyear : ((t.date.year.toNat : Nat) : Int) = t.date.year := Int.toNat_of_nonneg h.year.1
  have hall : takeAll {} TimeLayout.internet t.render.bytes =
      .ok (⟨t.date.year.toNat, t.date.month, t.date.day, t.secondOfDay / 3600, t.secondOfDay / 60 % 60, t.secondOfDay % 60, t.nanos,
        t.offset⟩, []) := by
    rw [bytes_render h]
    rw [TimeLayout.internet, takeAll_cons (take?_year (by have := h.year; omega) _ _), takeAll_cons (take?_mark '-' _ _),
      takeAll_cons (take?_month hmonth.1 hmonth.2 _ _), takeAll_cons (take?_mark '-' _ _), takeAll_cons (take?_day (by omega) _ _),
      takeAll_cons (take?_mark 'T' _ _), takeAll_cons (take?_hour (by omega) _ _), takeAll_cons (take?_mark ':' _ _),
      takeAll_cons (take?_minute (Nat.mod_lt _ (by decide)) _ _), takeAll_cons (take?_mark ':' _ _),
      takeAll_cons (show take? (decide (List.head? [TimePart.zone] ≠ some .fraction)) _ _ _ = _ from
        take?_second (Nat.mod_lt _ (by decide)) (takeFraction_bytes h.nanos (beginsOffset_bytes hoffset)) _),
      takeAll_cons (take?_zone (takeZone?_bytes hoffset h.offset) _)]
    rfl
  have htime : Parts.time ⟨t.date.year.toNat, t.date.month, t.date.day, t.secondOfDay / 3600, t.secondOfDay / 60 % 60,
      t.secondOfDay % 60, t.nanos, t.offset⟩ = t := by
    have hclock : t.secondOfDay / 3600 * 3600 + t.secondOfDay / 60 % 60 * 60 + t.secondOfDay % 60 = t.secondOfDay := by omega
    simp only [Parts.time, hyear, hclock]
    exact congrArg (fun s => Timestamp.mk s t.nanos t.offset) t.seconds_of_civil
  have hproper : ¬(t.date.day < 1 ∨ Date.daysIn t.date.year t.date.month < t.date.day) := by omega
  simp only [Timestamp.parse, Timestamp.read, hall, bind, Except.bind, List.isEmpty_nil, Bool.not_true, Bool.false_eq_true, if_false,
    hyear, hproper, htime]
  rfl

/-! ## Any time as text -/

theorem ascii_of_mem_padded {width n : Nat} {c : Char} (h : c ∈ padded width n) : c.toNat < 128 := by
  rcases List.mem_append.1 h with h | h
  · rw [List.eq_of_mem_replicate h]
    decide
  · have hdigit := Nat.isDigit_of_mem_toDigits (by decide) (by decide) h
    simp only [Char.isDigit, Bool.and_eq_true, decide_eq_true_eq, UInt32.le_iff_toNat_le] at hdigit
    exact Nat.lt_of_le_of_lt hdigit.2 (by decide)

theorem length_padded_le {n k : Nat} (width : Nat) (hk : 0 < k) (hwidth : width ≤ k) (h : n < 10 ^ k) : (padded width n).length ≤ k := by
  have := (Nat.length_toDigits_le_iff (show 1 < 10 by decide) hk).2 h
  rw [padded, List.length_append, List.length_replicate]
  omega

/-- The characters that a time is written with. -/
def chars (t : Timestamp) : List Char := t.dateChars ++ 'T' :: t.clockChars ++ t.fractionChars ++ t.offsetChars

theorem mem_fractionChars {t : Timestamp} {c : Char} (h : c ∈ t.fractionChars) : c = '.' ∨ c ∈ padded 9 t.nanos := by
  unfold fractionChars at h
  split at h
  · cases h
  · rw [List.mem_cons, List.mem_reverse] at h
    exact h.imp id fun h => List.mem_reverse.1 ((List.dropWhile_sublist _).subset h)

theorem ascii_of_mem_chars {t : Timestamp} {c : Char} (h : c ∈ t.chars) : c.toNat < 128 := by
  have hdate : ∀ c ∈ t.dateChars, c.toNat < 128 := by
    intro c hc
    simp only [dateChars, List.mem_append, List.mem_cons] at hc
    rcases hc with (((hc | hc) | rfl | hc) | rfl | hc)
    · split at hc
      · rw [List.mem_singleton.1 hc]
        decide
      · cases hc
    all_goals first | exact ascii_of_mem_padded hc | decide
  have hclock : ∀ c ∈ t.clockChars, c.toNat < 128 := by
    intro c hc
    simp only [clockChars, List.mem_append, List.mem_cons] at hc
    rcases hc with ((hc | rfl | hc) | rfl | hc)
    all_goals first | exact ascii_of_mem_padded hc | decide
  have hoffset : ∀ c ∈ t.offsetChars, c.toNat < 128 := by
    intro c hc
    unfold offsetChars at hc
    split at hc
    · rw [List.mem_singleton.1 hc]
      decide
    · simp only [List.mem_append, List.mem_cons] at hc
      rcases hc with ((rfl | hc) | rfl | hc)
      · split <;> decide
      all_goals first | exact ascii_of_mem_padded hc | decide
  simp only [chars, List.mem_append, List.mem_cons] at h
  rcases h with (((h | rfl | h) | h) | h)
  · exact hdate c h
  · decide
  · exact hclock c h
  · rcases mem_fractionChars h with rfl | h
    · decide
    · exact ascii_of_mem_padded h
  · exact hoffset c h

theorem bytes_render_eq_map (t : Timestamp) : t.render.bytes = t.chars.map fun c => c.toNat.toUInt8 :=
  Text.bytes_ofAscii fun _ h => ascii_of_mem_chars h

/-- The text of a time is well formed, whatever the time. -/
theorem isUtf8_render (t : Timestamp) : IsUtf8 t.render.bytes := by
  rw [bytes_render_eq_map]
  refine Utf8.isUtf8_of_ascii fun b hb => ?_
  obtain ⟨c, hc, rfl⟩ := List.mem_map.1 hb
  have hascii := ascii_of_mem_chars hc
  rw [UInt8.lt_iff_toNat_lt, UInt8.toNat_ofNat_of_lt' (Nat.lt_trans hascii (by decide))]
  exact hascii

/-- The text of a time is short, unless its fraction or offset is out of all bounds. -/
theorem length_render_le {t : Timestamp} (hnanos : t.nanos < 10 ^ 9) (hoffset : t.offset.natAbs < 2 ^ 63) : t.render.length ≤ 200 := by
  obtain ⟨hmonth, hday⟩ := t.proper_date
  have hdays := Date.daysIn_le t.date.year t.date.month
  have hsecond := t.secondOfDay_lt
  have hyear := length_padded_le 4 (show 0 < 15 by decide) (by decide) t.natAbs_year_lt
  have htwo : ∀ n < 100, (padded 2 n).length ≤ 2 := fun n hn => length_padded_le 2 (by decide) (by decide) hn
  have hfraction : t.fractionChars.length ≤ 10 := by
    have := length_padded_le 9 (show 0 < 9 by decide) (by decide) hnanos
    unfold fractionChars
    split
    · exact Nat.zero_le _
    · have hdrop := (List.dropWhile_sublist (· == '0') (l := (padded 9 t.nanos).reverse)).length_le
      rw [List.length_reverse] at hdrop
      rw [List.length_cons, List.length_reverse]
      omega
  have hzone : t.offsetChars.length ≤ 24 := by
    unfold offsetChars
    split
    · exact Nat.le_of_ble_eq_true rfl
    · have hminutes : (Int.tdiv t.offset 60).natAbs = t.offset.natAbs / 60 := Int.natAbs_tdiv t.offset 60
      have hhours := length_padded_le 2 (show 0 < 20 by decide) (by decide)
        (show (Int.tdiv t.offset 60).natAbs / 60 < 10 ^ 20 by omega)
      have hrest := htwo ((Int.tdiv t.offset 60).natAbs % 60) (by omega)
      simp only [List.length_append, List.length_cons]
      omega
  have hsign : (if t.date.year < 0 then ['-'] else []).length ≤ 1 := by split <;> simp
  have h1 := htwo t.date.month (by omega)
  have h2 := htwo t.date.day (by omega)
  have h3 := htwo (t.secondOfDay / 3600) (by omega)
  have h4 := htwo (t.secondOfDay / 60 % 60) (by omega)
  have h5 := htwo (t.secondOfDay % 60) (by omega)
  rw [Text.length, bytes_render_eq_map, List.length_map]
  simp only [chars, dateChars, clockChars, List.length_append, List.length_cons]
  omega

end Timestamp

end SensorWire
