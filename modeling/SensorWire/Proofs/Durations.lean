import Mathlib
import SensorWire.Display.Format
import SensorWire.Proofs.TimeText

/-!
# Durations

A duration is written as numbers with their units, and `Denotes` says how many nanoseconds such a text stands for: the sum of its parts, each
a number times its unit, with a minus sign in front or not. A text stands for one number at most (`Denotes.unique`), because the digits of a
part end where the letters of its unit begin, and what is written for a duration stands for that duration (`denotes_chars`).

A number of seconds is shown with the duration that it is. The duration is counted in 64 bits, so it is the number of seconds only as long
as the nanoseconds fit.

Main statement: `shown_duration_denotes_iff`.
-/

namespace SensorWire

namespace Duration

/-! ## What a text stands for -/

/-- The units of durations. -/
inductive Scale where
  | hour
  | minute
  | second
  | millisecond
  | microsecond
  | nanosecond
  deriving DecidableEq

/-- The letters of a unit. -/
def Scale.letters : Scale → List Char
  | hour => ['h']
  | minute => ['m']
  | second => ['s']
  | millisecond => ['m', 's']
  | microsecond => ['µ', 's']
  | nanosecond => ['n', 's']

/-- The nanoseconds of a unit. -/
def Scale.nanos : Scale → Nat
  | hour => 3600000000000
  | minute => 60000000000
  | second => 1000000000
  | millisecond => 1000000
  | microsecond => 1000
  | nanosecond => 1

/-- Whether a character may stand in a number. -/
def isNumeral (c : Char) : Bool := c.isDigit || c == '.'

/-- The number that digits are, perhaps with a point between them. -/
def numeralValue (cs : List Char) : ℚ :=
  let fraction := (cs.dropWhile (· != '.')).drop 1
  Nat.ofDigitChars 10 (cs.takeWhile (· != '.')) 0 + Nat.ofDigitChars 10 fraction 0 / 10 ^ fraction.length

/-- Numbers with their units, and the nanoseconds that they add up to. -/
inductive Totals : List Char → ℚ → Prop where
  | nil : Totals [] 0
  | part {numeral rest : List Char} {x : ℚ} (scale : Scale) (ne : numeral ≠ []) (numerals : ∀ c ∈ numeral, isNumeral c = true)
      (more : Totals rest x) : Totals (numeral ++ (scale.letters ++ rest)) (numeralValue numeral * scale.nanos + x)

/-- The nanoseconds that the text of a duration stands for. -/
inductive Denotes : List Char → ℚ → Prop where
  | plus {cs : List Char} {x : ℚ} (ne : cs ≠ []) (totals : Totals cs x) : Denotes cs x
  | minus {cs : List Char} {x : ℚ} (totals : Totals cs x) : Denotes ('-' :: cs) (-x)

/-! ### Only one number -/

/-- Two lists that begin with elements of a class are divided at the same place where the class ends. -/
theorem append_inj_of_class {p : Char → Bool} {a b a' b' : List Char} (ha : ∀ c ∈ a, p c = true) (ha' : ∀ c ∈ a', p c = true)
    (hb : ∀ c ∈ b.head?, p c = false) (hb' : ∀ c ∈ b'.head?, p c = false) (h : a ++ b = a' ++ b') : a = a' ∧ b = b' := by
  have hstop : ∀ l : List Char, (∀ c ∈ l.head?, p c = false) → l.takeWhile p = [] := by
    intro l hl
    cases l with
    | nil => rfl
    | cons c l => simp [hl c (by simp)]
  have htake := congrArg (List.takeWhile p) h
  rw [List.takeWhile_append_of_pos ha, List.takeWhile_append_of_pos ha', hstop b hb, hstop b' hb', List.append_nil, List.append_nil] at htake
  subst htake
  exact ⟨rfl, List.append_cancel_left h⟩

theorem letters_not_numeral (scale : Scale) : ∀ c ∈ scale.letters, isNumeral c = false := by
  cases scale <;> simp [Scale.letters, isNumeral, Char.isDigit]

theorem letters_ne_nil (scale : Scale) : scale.letters ≠ [] := by
  cases scale <;> decide

theorem letters_inj {scale scale' : Scale} : scale.letters = scale'.letters → scale = scale' := by
  cases scale <;> cases scale' <;> simp [Scale.letters]

theorem head?_letters (scale : Scale) (rest : List Char) : ∀ c ∈ (scale.letters ++ rest).head?, isNumeral c = false := by
  intro c hc
  rw [List.head?_append_of_ne_nil _ (letters_ne_nil scale)] at hc
  exact letters_not_numeral scale c (List.mem_of_mem_head? hc)

theorem Totals.head? {cs : List Char} {x : ℚ} (h : Totals cs x) : ∀ c ∈ cs.head?, isNumeral c = true := by
  intro c hc
  cases h with
  | nil => simp at hc
  | part scale ne numerals more =>
    rw [List.head?_append_of_ne_nil _ ne] at hc
    exact numerals c (List.mem_of_mem_head? hc)

theorem Totals.unique {cs : List Char} {x y : ℚ} (h : Totals cs x) (h' : Totals cs y) : x = y := by
  induction h generalizing y with
  | nil =>
    generalize hcs : ([] : List Char) = cs at h'
    cases h' with
    | nil => rfl
    | part scale ne => simp [ne] at hcs
  | @part numeral rest x scale ne numerals more ih =>
    generalize hcs : numeral ++ (scale.letters ++ rest) = cs at h'
    cases h' with
    | nil => simp [ne] at hcs
    | @part numeral' rest' x' scale' ne' numerals' more' =>
      obtain ⟨rfl, htail⟩ := append_inj_of_class numerals numerals' (head?_letters scale rest) (head?_letters scale' rest') hcs
      -- the letters of a unit end where the next number begins
      have hletters (scale : Scale) : ∀ c ∈ scale.letters, (!isNumeral c) = true := by
        intro c hc
        simp [letters_not_numeral scale c hc]
      have hhead {rest : List Char} {x : ℚ} (h : Totals rest x) : ∀ c ∈ rest.head?, (!isNumeral c) = false := by
        intro c hc
        simp [h.head? c hc]
      obtain ⟨hscale, rfl⟩ := append_inj_of_class (p := fun c => !isNumeral c) (hletters scale) (hletters scale') (hhead more) (hhead more') htail
      rw [letters_inj hscale, ih more']

theorem Denotes.unique {cs : List Char} {x y : ℚ} (h : Denotes cs x) (h' : Denotes cs y) : x = y := by
  have hsign : isNumeral '-' = false := rfl
  cases h with
  | plus ne totals =>
    cases h' with
    | plus _ totals' => exact totals.unique totals'
    | minus => simp [totals.head? '-' rfl] at hsign
  | minus totals =>
    cases h' with
    | plus _ totals' => simp [totals'.head? '-' rfl] at hsign
    | minus totals' => rw [totals.unique totals']

/-! ## Numbers -/

theorem isNumeral_of_mem_toDigits {n : Nat} {c : Char} (h : c ∈ Nat.toDigits 10 n) : isNumeral c = true := by
  simp [isNumeral, Nat.isDigit_of_mem_toDigits (by decide) (by decide) h]

theorem not_point_of_mem_toDigits {n : Nat} {c : Char} (h : c ∈ Nat.toDigits 10 n) : (c != '.') = true := by
  have hdigit := Nat.isDigit_of_mem_toDigits (by decide) (by decide) h
  rw [bne_iff_ne]
  rintro rfl
  cases hdigit

theorem toDigits_ne_nil (n : Nat) : Nat.toDigits 10 n ≠ [] := List.ne_nil_of_length_pos Nat.length_toDigits_pos

theorem numeralValue_toDigits (n : Nat) : numeralValue (Nat.toDigits 10 n) = n := by
  have htake : (Nat.toDigits 10 n).takeWhile (· != '.') = Nat.toDigits 10 n :=
    List.takeWhile_eq_self_iff.2 fun c hc => not_point_of_mem_toDigits hc
  have hdrop : (Nat.toDigits 10 n).dropWhile (· != '.') = [] :=
    List.dropWhile_eq_nil_iff.2 fun c hc => not_point_of_mem_toDigits hc
  simp [numeralValue, htake, hdrop, Nat.ofDigitChars_toDigits]

theorem numeralValue_point (n : Nat) (fraction : List Char) :
    numeralValue (Nat.toDigits 10 n ++ '.' :: fraction) = n + Nat.ofDigitChars 10 fraction 0 / 10 ^ fraction.length := by
  have htake : (Nat.toDigits 10 n ++ '.' :: fraction).takeWhile (· != '.') = Nat.toDigits 10 n := by
    rw [List.takeWhile_append_of_pos fun c hc => not_point_of_mem_toDigits hc]
    simp
  have hdrop : (Nat.toDigits 10 n ++ '.' :: fraction).dropWhile (· != '.') = '.' :: fraction := by
    rw [List.dropWhile_append_of_pos fun c hc => not_point_of_mem_toDigits hc]
    simp
  simp [numeralValue, htake, hdrop, Nat.ofDigitChars_toDigits]

/-- The digits of a fraction without the zeros at its end. -/
def fractionDigits (n places : Nat) : List Char := ((Timestamp.padded places (n % 10 ^ places)).reverse.dropWhile (· == '0')).reverse

theorem decimal_eq (n places : Nat) : decimal n places =
    Nat.toDigits 10 (n / 10 ^ places) ++ (if (fractionDigits n places).isEmpty then [] else '.' :: fractionDigits n places) := rfl

theorem ofDigitChars_padded (width n : Nat) : Nat.ofDigitChars 10 (Timestamp.padded width n) 0 = n := by
  rw [Timestamp.padded, Nat.ofDigitChars_append, Nat.ofDigitChars_replicate_zero, Nat.mul_zero]
  exact Nat.ofDigitChars_toDigits (by decide) (by decide)

theorem length_padded {width n : Nat} (hwidth : 0 < width) (h : n < 10 ^ width) : (Timestamp.padded width n).length = width := by
  have hle := (Nat.length_toDigits_le_iff (show 1 < 10 by decide) hwidth).2 h
  simp only [Timestamp.padded, List.length_append, List.length_replicate]
  omega

/-- The digits of a fraction are the fraction. -/
theorem value_fractionDigits {places : Nat} (hplaces : 0 < places) (n : Nat) :
    (Nat.ofDigitChars 10 (fractionDigits n places) 0 : ℚ) / 10 ^ (fractionDigits n places).length = (n % 10 ^ places : Nat) / 10 ^ places := by
  obtain ⟨zeros, hzeros⟩ := Timestamp.exists_zeros (Timestamp.padded places (n % 10 ^ places))
  have hkept : Timestamp.padded places (n % 10 ^ places) = fractionDigits n places ++ List.replicate zeros '0' := hzeros
  have hlt : n % 10 ^ places < 10 ^ places := Nat.mod_lt _ (Nat.pow_pos (by decide))
  have hlength := length_padded hplaces hlt
  have hvalue := ofDigitChars_padded places (n % 10 ^ places)
  rw [hkept, List.length_append, List.length_replicate] at hlength
  rw [hkept, Nat.ofDigitChars_append, Nat.ofDigitChars_replicate_zero] at hvalue
  generalize fractionDigits n places = digits at *
  rw [← hvalue, ← hlength, pow_add]
  push_cast
  field_simp

/-- A number of small units is written as that many of the unit that they make up. -/
theorem numeralValue_decimal {places : Nat} (hplaces : 0 < places) (n : Nat) : numeralValue (decimal n places) = n / 10 ^ places := by
  have hvalue := value_fractionDigits hplaces n
  have hsplit : (n : ℚ) / 10 ^ places = (n / 10 ^ places : Nat) + (n % 10 ^ places : Nat) / 10 ^ places := by
    have hdivision : (n : ℚ) = 10 ^ places * (n / 10 ^ places : Nat) + (n % 10 ^ places : Nat) := by
      exact_mod_cast (Nat.div_add_mod n (10 ^ places)).symm
    conv_lhs => rw [hdivision]
    field_simp
  rw [decimal_eq, hsplit, ← hvalue]
  by_cases hempty : (fractionDigits n places).isEmpty = true
  · rw [if_pos hempty, List.append_nil, numeralValue_toDigits, List.isEmpty_iff.1 hempty]
    simp [Nat.ofDigitChars]
  · rw [if_neg hempty, numeralValue_point]

theorem decimal_ne_nil (n places : Nat) : decimal n places ≠ [] := by
  rw [decimal_eq]
  simp

theorem isNumeral_of_mem_decimal {n places : Nat} {c : Char} (h : c ∈ decimal n places) : isNumeral c = true := by
  have hzero : isNumeral '0' = true := rfl
  have hpoint : isNumeral '.' = true := rfl
  have hfraction : ∀ c ∈ fractionDigits n places, isNumeral c = true := by
    intro c hc
    have hpadded : c ∈ Timestamp.padded places (n % 10 ^ places) :=
      List.mem_reverse.1 ((List.dropWhile_sublist _).subset (List.mem_reverse.1 hc))
    rcases List.mem_append.1 hpadded with hc | hc
    · rw [List.eq_of_mem_replicate hc, hzero]
    · exact isNumeral_of_mem_toDigits hc
  rw [decimal_eq] at h
  rcases List.mem_append.1 h with h | h
  · exact isNumeral_of_mem_toDigits h
  · split at h
    · simp at h
    · rcases List.mem_cons.1 h with rfl | h
      · exact hpoint
      · exact hfraction c h

/-- A whole number of units is written without a point. -/
theorem decimal_mul {places : Nat} (n : Nat) : decimal (n * 10 ^ places) places = Nat.toDigits 10 n := by
  have hpow : 0 < 10 ^ places := Nat.pow_pos (by decide)
  have hempty : fractionDigits (n * 10 ^ places) places = [] := by
    simp only [fractionDigits, Nat.mul_mod_left, List.reverse_eq_nil_iff, List.dropWhile_eq_nil_iff, List.mem_reverse]
    intro c hc
    rcases List.mem_append.1 hc with hc | hc
    · simp [List.eq_of_mem_replicate hc]
    · simpa using hc
  rw [decimal_eq, hempty, Nat.mul_div_cancel n hpow]
  simp

/-! ## What is written -/

/-- Hours, minutes and seconds, without the hours and then the minutes in front if there are none. -/
def clock (hours minutes : Nat) (seconds : List Char) : List Char :=
  (if hours = 0 then [] else Nat.toDigits 10 hours ++ ['h']) ++
    ((if hours = 0 ∧ minutes = 0 then [] else Nat.toDigits 10 minutes ++ ['m']) ++ (seconds ++ ['s']))

/-- The text of a number of nanoseconds that is not zero. -/
def magnitude (n : Nat) : List Char :=
  if n < 1000 then Nat.toDigits 10 n ++ ['n', 's']
  else if n < 1000000 then decimal n 3 ++ ['µ', 's']
  else if n < 1000000000 then decimal n 6 ++ ['m', 's']
  else clock (n / 60000000000 / 60) (n / 60000000000 % 60) (decimal (n % 60000000000) 9)

/-- The characters of a duration. -/
def chars (d : Int64) : List Char :=
  if d.toInt.natAbs = 0 then ['0', 's'] else (if d < 0 then ['-'] else []) ++ magnitude d.toInt.natAbs

theorem render_eq (d : Int64) : render d = .ofChars (chars d) := by
  have hnone (minutes : Nat) : (minutes / 60 = 0 ∧ minutes % 60 = 0) ↔ minutes = 0 := by omega
  unfold render chars magnitude
  by_cases hzero : d.toInt.natAbs = 0
  · simp only [hzero, if_true]
    rfl
  · simp only [hzero, if_false, clock, hnone, List.append_assoc]
    split_ifs <;> rfl

theorem Totals.digits {rest : List Char} {x : ℚ} (scale : Scale) (n : Nat) (h : Totals rest x) :
    Totals (Nat.toDigits 10 n ++ (scale.letters ++ rest)) (n * scale.nanos + x) := by
  have hpart := Totals.part scale (toDigits_ne_nil n) (fun c hc => isNumeral_of_mem_toDigits hc) h
  rwa [numeralValue_toDigits] at hpart

/-- A unit that is left out because there are none of it. -/
theorem Totals.optional {rest : List Char} {x : ℚ} {p : Prop} [Decidable p] {n : Nat} (scale : Scale) (hnone : p → n = 0)
    (h : Totals rest x) : Totals ((if p then [] else Nat.toDigits 10 n ++ scale.letters) ++ rest) (n * scale.nanos + x) := by
  by_cases hp : p
  · simpa [hp, hnone hp] using h
  · simpa [hp] using h.digits scale n

theorem totals_decimal {places : Nat} (scale : Scale) (hplaces : 0 < places) (n : Nat) (hnanos : scale.nanos = 10 ^ places) :
    Totals (decimal n places ++ scale.letters) n := by
  have hpart := Totals.part scale (decimal_ne_nil n places) (fun c hc => isNumeral_of_mem_decimal hc) .nil
  rw [numeralValue_decimal hplaces, hnanos] at hpart
  simpa using hpart

theorem totals_clock {seconds : List Char} {x : ℚ} (hours minutes : Nat) (h : Totals (seconds ++ ['s']) x) :
    Totals (clock hours minutes seconds) (hours * 3600000000000 + (minutes * 60000000000 + x)) := by
  have hminutes := h.optional (p := hours = 0 ∧ minutes = 0) .minute And.right
  exact_mod_cast hminutes.optional (p := hours = 0) .hour id

/-- What is written for a number of nanoseconds adds up to it. -/
theorem totals_magnitude (n : Nat) : Totals (magnitude n) n := by
  unfold magnitude
  split_ifs with hmicro hmilli hsecond
  · simpa [Scale.letters, Scale.nanos] using Totals.nil.digits .nanosecond n
  · exact totals_decimal .microsecond (by decide) n rfl
  · exact totals_decimal .millisecond (by decide) n rfl
  · have hclock := totals_clock (n / 60000000000 / 60) (n / 60000000000 % 60)
      (totals_decimal .second (show 0 < 9 by decide) (n % 60000000000) rfl)
    have hsum : n / 60000000000 / 60 * 3600000000000 + (n / 60000000000 % 60 * 60000000000 + n % 60000000000) = n := by omega
    have hcast := congrArg (Nat.cast (R := ℚ)) hsum
    push_cast at hcast hclock
    rwa [hcast] at hclock

/-- What is written for a duration stands for it. -/
theorem denotes_chars (d : Int64) : Denotes (chars d) d.toInt := by
  have hsign : d < 0 ↔ d.toInt < 0 := Int64.lt_iff_toInt_lt
  have htotals := totals_magnitude d.toInt.natAbs
  unfold chars
  split_ifs with hzero hneg
  · have hnone : d.toInt = 0 := Int.natAbs_eq_zero.1 hzero
    have hseconds : Totals ['0', 's'] _ := Totals.nil.digits .second 0
    rw [hnone]
    exact .plus (by simp) (by simpa using hseconds)
  · have hvalue : (d.toInt : ℚ) = -(d.toInt.natAbs : ℚ) := by
      rw [← Int.cast_natCast, Int.ofNat_natAbs_of_nonpos (hsign.1 hneg).le, Int.cast_neg, neg_neg]
    rw [hvalue]
    exact .minus htotals
  · have hvalue : (d.toInt : ℚ) = (d.toInt.natAbs : ℚ) := by
      rw [← Int.cast_natCast, Int.natAbs_of_nonneg (not_lt.1 (mt hsign.2 hneg))]
    have hne : magnitude d.toInt.natAbs ≠ [] := by
      intro hnil
      rw [hnil] at htotals
      exact hzero (by exact_mod_cast htotals.unique .nil)
    rw [hvalue]
    exact .plus hne htotals

theorem chars_inj {d d' : Int64} (h : chars d = chars d') : d = d' := by
  have hvalue := (denotes_chars d).unique (h ▸ denotes_chars d')
  exact Int64.toInt_inj.1 (by exact_mod_cast hvalue)

/-! ## Whole seconds -/

/-- The most seconds that can be counted in nanoseconds with 64 bits. -/
def lastSecond : Nat := (2 ^ 63 - 1) / 10 ^ 9

theorem lastSecond_eq : lastSecond = 9223372036 := rfl

theorem toInt_ofSeconds (n : Nat) : (ofSeconds n).toInt = Int.bmod (n * 10 ^ 9) (2 ^ 64) := by
  rw [ofSeconds, Int64.toInt_ofNat']
  norm_cast

theorem toInt_ofSeconds_eq_iff {n : Nat} (hn : n < 2 ^ 64) : (ofSeconds n).toInt = n * 10 ^ 9 ↔ n ≤ lastSecond := by
  rw [toInt_ofSeconds, Int.bmod_def, lastSecond_eq]
  split_ifs <;> omega

theorem bmod_eq_bmod_iff {a b : Int} {m : Nat} : a.bmod m = b.bmod m ↔ a ≡ b [ZMOD m] := by
  constructor
  · intro h
    rw [Int.ModEq, ← Int.bmod_emod, h, Int.bmod_emod]
  · intro h
    rw [← Int.emod_bmod, h, Int.emod_bmod]

/-- Seconds are counted alike exactly if they differ by a multiple of `2 ^ 55`. -/
theorem ofSeconds_eq_iff {n m : Nat} : ofSeconds n = ofSeconds m ↔ n % 2 ^ 55 = m % 2 ^ 55 := by
  -- a thousand million is an odd number times `2 ^ 9`
  have hfactor (k : Nat) : k * 10 ^ 9 = k * 5 ^ 9 * 2 ^ 9 := by ring
  have hcancel : n * 10 ^ 9 ≡ m * 10 ^ 9 [MOD 2 ^ 64] ↔ n ≡ m [MOD 2 ^ 55] := by
    rw [hfactor, hfactor, show (2 : Nat) ^ 64 = 2 ^ 55 * 2 ^ 9 by norm_num, Nat.ModEq.mul_right_cancel_iff' (by norm_num)]
    exact ⟨Nat.ModEq.cancel_right_of_coprime (by norm_num), Nat.ModEq.mul_right _⟩
  refine Iff.trans ?_ hcancel
  rw [← Int64.toInt_inj, toInt_ofSeconds, toInt_ofSeconds, bmod_eq_bmod_iff]
  exact_mod_cast Int.natCast_modEq_iff

/-- As many seconds as can be counted are written in hours, minutes and seconds. -/
theorem chars_ofSeconds {n : Nat} (hpos : 0 < n) (hn : n ≤ lastSecond) :
    chars (ofSeconds n) = clock (n / 3600) (n / 60 % 60) (Nat.toDigits 10 (n % 60)) := by
  have hlast := lastSecond_eq
  have hvalue := (toInt_ofSeconds_eq_iff (by omega)).2 hn
  have hnanos : (ofSeconds n).toInt.natAbs = n * 1000000000 := by omega
  have hsign : ¬ofSeconds n < 0 := by
    rw [Int64.lt_iff_toInt_lt, hvalue]
    exact not_lt.2 (by positivity)
  have hhours : n * 1000000000 / 60000000000 / 60 = n / 3600 := by omega
  have hminutes : n * 1000000000 / 60000000000 % 60 = n / 60 % 60 := by omega
  have hseconds : n * 1000000000 % 60000000000 = n % 60 * 10 ^ 9 := by omega
  unfold chars magnitude
  rw [hnanos, if_neg (by omega), if_neg hsign, if_neg (by omega), if_neg (by omega), if_neg (by omega), hhours, hminutes, hseconds,
    decimal_mul]
  rfl

end Duration

namespace Formatter

open Duration

/-- A number of seconds other than zero is shown as itself, its unit, and a duration in parentheses. -/
theorem value_seconds {n : Nat} (hpos : 0 < n) :
    value (.integer .uint64 n) "s" = .concat [.ofNat n, " s (", .ofChars (chars (ofSeconds n)), ")"] := by
  have hunit : Text.isEmpty "s" = false := rfl
  have hne : n ≠ 0 := hpos.ne'
  have htext : (Text.ofString " s (").bytes = (Text.ofString " ").bytes ++ ((Text.ofString "s").bytes ++ (Text.ofString " (").bytes) := rfl
  simp [value, whole, hne, withUnit, hunit, render_eq, Text.concat, htext]

/-- The duration that is shown for a number of seconds stands for the nanoseconds that are left of it in 64 bits. So it stands for the
number of seconds, in hours, minutes and seconds that add up to it, exactly if there are not too many, and two numbers are shown with the
same duration exactly if they differ by a multiple of `2 ^ 55`. -/
theorem shown_duration_denotes_iff {v w : UInt64} (hv : 0 < v) (hw : 0 < w) :
    ∃ a b : List Char, value (.integer .uint64 v.toNat) "s" = .concat [.ofNat v.toNat, " s (", .ofChars a, ")"] ∧
      value (.integer .uint64 w.toNat) "s" = .concat [.ofNat w.toNat, " s (", .ofChars b, ")"] ∧
      (∀ x, Denotes a x ↔ x = Int.bmod (v.toNat * 10 ^ 9) (2 ^ 64)) ∧ (Denotes a (v.toNat * 10 ^ 9) ↔ v.toNat ≤ lastSecond) ∧
      (v.toNat ≤ lastSecond → ∃ hours minutes seconds, a = clock hours minutes (Nat.toDigits 10 seconds) ∧
        3600 * hours + 60 * minutes + seconds = v.toNat) ∧
      (a = b ↔ v.toNat % 2 ^ 55 = w.toNat % 2 ^ 55) := by
  have hv' : 0 < v.toNat := UInt64.lt_iff_toNat_lt.1 hv
  have hw' : 0 < w.toNat := UInt64.lt_iff_toNat_lt.1 hw
  have hshown := denotes_chars (ofSeconds v.toNat)
  refine ⟨chars (ofSeconds v.toNat), chars (ofSeconds w.toNat), value_seconds hv', value_seconds hw', ?_, ?_, ?_, ?_⟩
  · intro x
    rw [← toInt_ofSeconds]
    constructor
    · intro hx
      exact hx.unique hshown
    · rintro rfl
      exact hshown
  · rw [← toInt_ofSeconds_eq_iff v.toNat_lt]
    constructor
    · intro h
      exact_mod_cast hshown.unique h
    · intro h
      rw [h] at hshown
      exact_mod_cast hshown
  · intro hlast
    exact ⟨_, _, _, chars_ofSeconds hv' hlast, by omega⟩
  · rw [← ofSeconds_eq_iff]
    constructor
    · exact chars_inj
    · intro h
      rw [h]

/-- One second more than can be counted, and a number of seconds that is shown with the same duration, which is below zero. -/
theorem durations_beyond_count :
    (0 : UInt64) < 9223372037 ∧ (0 : UInt64) < 36028806242336005 ∧
      value (.integer .uint64 9223372037) "s" = "9223372037 s (-2562047h47m16.709551616s)" ∧
      ∃ a, value (.integer .uint64 9223372037) "s" = .concat [.ofNat 9223372037, " s (", .ofChars a, ")"] ∧
        value (.integer .uint64 36028806242336005) "s" = .concat [.ofNat 36028806242336005, " s (", .ofChars a, ")"] ∧
        Denotes a (-9223372036709551616) ∧ ¬Denotes a (9223372037 * 10 ^ 9) := by
  have hv : (0 : UInt64) < 9223372037 := by decide
  have hw : (0 : UInt64) < 36028806242336005 := by decide
  obtain ⟨a, b, ha, hb, hshown, hexact, -, hsame⟩ := shown_duration_denotes_iff hv hw
  obtain rfl : a = b := hsame.2 (by decide)
  have hnanos : Int.bmod ((9223372037 : UInt64).toNat * 10 ^ 9) (2 ^ 64) = -9223372036709551616 := by decide +kernel
  refine ⟨hv, hw, by decide +kernel, a, ha, hb, (hshown _).2 (by rw [hnanos]; norm_num), ?_⟩
  intro h
  exact absurd (hexact.1 h) (by decide)

end Formatter

end SensorWire
