import Mathlib
import SensorWire.Number.Binary

/-!
# Exact conversions

A positive number that a format has is rounded to itself (`Format.round_exact`): the pattern that `round` gives for a quotient equal to
`m * 2 ^ e` is the one that decodes to `m` and `e`. It follows that a single-precision pattern comes back from double precision as it
was, but for a signalling NaN, which comes back quiet (`narrow_widen`).
-/

namespace SensorWire.Binary

/-! ## Quotients -/

theorem pos_scaled (n : Nat) (e : Int) : 0 < (scaled n e).2 := by
  unfold scaled
  split
  · exact Nat.one_pos
  · exact Nat.pow_pos (by decide)

/-- The quotient of a scaled number is the number times the power of two. -/
theorem scaled_div (n : Nat) (e : Int) : ((scaled n e).1 : ℚ) / (scaled n e).2 = n * 2 ^ e := by
  unfold scaled
  split
  · rename_i h
    obtain ⟨k, rfl⟩ := Int.eq_ofNat_of_zero_le h
    simp
  · rename_i h
    obtain ⟨k, hk⟩ := Int.eq_ofNat_of_zero_le (show 0 ≤ -e by omega)
    obtain rfl : e = -k := by omega
    simp [div_eq_mul_inv]

theorem scaled_fst (n : Nat) (e : Int) : ((scaled n e).1 : ℚ) = n * 2 ^ e * (scaled n e).2 := by
  have hpos : ((scaled n e).2 : ℚ) ≠ 0 := by exact_mod_cast (pos_scaled n e).ne'
  rw [← scaled_div, div_mul_cancel₀ _ hpos]

/-- Comparing a scaled numerator compares the quotient with a power of two. -/
theorem scaled_lt_iff {num den : Nat} (hden : den ≠ 0) {k : Nat} {e : Int} :
    (scaled num (-e)).1 < 2 ^ k * ((scaled num (-e)).2 * den) ↔ (num : ℚ) / den < 2 ^ (k + e) := by
  have hdpos : (0 : ℚ) < den := by exact_mod_cast Nat.pos_of_ne_zero hden
  have hb : (0 : ℚ) < (scaled num (-e)).2 := by exact_mod_cast pos_scaled num (-e)
  have hpow : (0 : ℚ) < 2 ^ e := zpow_pos (by norm_num) e
  calc (scaled num (-e)).1 < 2 ^ k * ((scaled num (-e)).2 * den)
      ↔ (num : ℚ) * 2 ^ (-e) * (scaled num (-e)).2 < 2 ^ k * den * (scaled num (-e)).2 := by
        rw [← scaled_fst, mul_right_comm, mul_assoc]
        exact_mod_cast Iff.rfl
    _ ↔ (num : ℚ) < 2 ^ k * den * 2 ^ e := by
        rw [mul_lt_mul_iff_left₀ hb, zpow_neg, ← div_eq_mul_inv, div_lt_iff₀ hpow]
    _ ↔ (num : ℚ) / den < 2 ^ (k + e) := by
        rw [div_lt_iff₀ hdpos, zpow_add₀ (by norm_num), zpow_natCast, mul_right_comm]

/-- A quotient without a remainder is not rounded. -/
theorem roundDiv_mul (q : Nat) {den : Nat} (h : 0 < den) : roundDiv (q * den) den = q := by
  simp [roundDiv, Nat.mul_div_cancel q h, h]

/-! ## The exponent of a quotient -/

/-- A positive number lies between the powers of two around its logarithm. -/
theorem log2_bounds {n : Nat} (h : n ≠ 0) : (2 : ℚ) ^ (n.log2 : ℤ) ≤ n ∧ (n : ℚ) < 2 ^ ((n.log2 : ℤ) + 1) := by
  have hle := Nat.log2_self_le h
  have hlt := @Nat.lt_log2_self n
  constructor
  · rw [zpow_natCast]
    exact_mod_cast hle
  · rw [← Nat.cast_succ, zpow_natCast]
    exact_mod_cast hlt

/-- Powers of two around one number have the same exponent. -/
theorem exponent_unique {v : ℚ} {a b : ℤ} (ha : (2 : ℚ) ^ a ≤ v) (ha' : v < 2 ^ (a + 1)) (hb : (2 : ℚ) ^ b ≤ v)
    (hb' : v < 2 ^ (b + 1)) : a = b := by
  have h1 := (zpow_lt_zpow_iff_right₀ (by norm_num : (1 : ℚ) < 2)).1 (ha.trans_lt hb')
  have h2 := (zpow_lt_zpow_iff_right₀ (by norm_num : (1 : ℚ) < 2)).1 (hb.trans_lt ha')
  omega

/-- A quotient is within a factor of two of the quotient of the powers of two. -/
theorem div_bounds {num den : Nat} (hnum : num ≠ 0) (hden : den ≠ 0) :
    (2 : ℚ) ^ ((num.log2 : ℤ) - den.log2 - 1) < num / den ∧ (num : ℚ) / den < 2 ^ ((num.log2 : ℤ) - den.log2 + 1) := by
  obtain ⟨hn, hn'⟩ := log2_bounds hnum
  obtain ⟨hd, hd'⟩ := log2_bounds hden
  have hdpos : (0 : ℚ) < den := by exact_mod_cast Nat.pos_of_ne_zero hden
  have h2 : (2 : ℚ) ≠ 0 := by norm_num
  rw [lt_div_iff₀ hdpos, div_lt_iff₀ hdpos]
  constructor
  · calc (2 : ℚ) ^ ((num.log2 : ℤ) - den.log2 - 1) * den
        < 2 ^ ((num.log2 : ℤ) - den.log2 - 1) * 2 ^ ((den.log2 : ℤ) + 1) := by gcongr
      _ = 2 ^ (num.log2 : ℤ) := by rw [← zpow_add₀ h2]; congr 1; ring
      _ ≤ num := hn
  · calc (num : ℚ) < 2 ^ ((num.log2 : ℤ) + 1) := hn'
      _ = 2 ^ ((num.log2 : ℤ) - den.log2 + 1) * 2 ^ (den.log2 : ℤ) := by rw [← zpow_add₀ h2]; congr 1; ring
      _ ≤ 2 ^ ((num.log2 : ℤ) - den.log2 + 1) * den := by gcongr

namespace Format

variable (f : Format)

/-- The exponent of a quotient before it is cut at the least one. -/
def freeExponent (num den : Nat) : Int :=
  let guess : Int := (num.log2 : Int) - den.log2 - f.fraction
  let (a, b) := scaled num (-guess)
  if a < Nat.pow 2 f.fraction * (b * den) then guess - 1 else guess

theorem exponentFor_eq (num den : Nat) : f.exponentFor num den = max (f.freeExponent num den) f.leastExponent := rfl

/-- With its free exponent a quotient has a significand of full width. -/
theorem freeExponent_bounds {num den : Nat} (hnum : num ≠ 0) (hden : den ≠ 0) :
    (2 : ℚ) ^ (f.fraction + f.freeExponent num den) ≤ num / den ∧
      (num : ℚ) / den < 2 ^ (f.fraction + f.freeExponent num den + 1) := by
  obtain ⟨hlow, hhigh⟩ := div_bounds hnum hden
  -- the quotient is within a factor of two of the guess, and the comparison tells on which side of it
  generalize hg : (num.log2 : ℤ) - den.log2 - f.fraction = guess
  have hfree : f.freeExponent num den = if (num : ℚ) / den < 2 ^ (f.fraction + guess) then guess - 1 else guess := by
    unfold freeExponent
    simp only [hg, Nat.pow_eq, scaled_lt_iff hden]
  rw [hfree]
  split
  · rename_i hlt
    refine ⟨?_, by rwa [show (f.fraction : ℤ) + (guess - 1) + 1 = f.fraction + guess by ring]⟩
    rw [show (f.fraction : ℤ) + (guess - 1) = (num.log2 : ℤ) - den.log2 - 1 by omega]
    exact hlow.le
  · rename_i hge
    refine ⟨not_lt.1 hge, ?_⟩
    rw [show (f.fraction : ℤ) + guess + 1 = (num.log2 : ℤ) - den.log2 + 1 by omega]
    exact hhigh

/-! ## Patterns of finite numbers -/

/-- The significands and exponents that a format has patterns for: a significand of full width, or the least exponent. -/
def Canonical (m : Nat) (e : Int) : Prop :=
  (m < 2 ^ f.fraction ∧ e = f.leastExponent) ∨
    (2 ^ f.fraction ≤ m ∧ m < 2 ^ (f.fraction + 1) ∧ f.leastExponent ≤ e ∧ e - f.leastExponent + 1 < f.topExponent)

/-- The pattern of a finite number. -/
def pattern (s : Bool) (m : Nat) (e : Int) : Nat :=
  f.withSign s (if m < 2 ^ f.fraction then m else (e - f.leastExponent).toNat * 2 ^ f.fraction + m)

variable {f}

/-- The exponent of a quotient that is a number of the format. -/
theorem exponentFor_of_canonical {m num den : Nat} {e : Int} (h : f.Canonical m e) (hnum : num ≠ 0) (hden : den ≠ 0)
    (hv : (num : ℚ) / den = m * 2 ^ e) : f.exponentFor num den = e := by
  obtain ⟨hlow, hhigh⟩ := f.freeExponent_bounds hnum hden
  have h2 : (2 : ℚ) ≠ 0 := by norm_num
  have hpow : (0 : ℚ) < 2 ^ e := zpow_pos (by norm_num) e
  rw [exponentFor_eq]
  rw [hv] at hlow hhigh
  rcases h with ⟨hlt, rfl⟩ | ⟨hle, hlt, hleast, -⟩
  · have hsmall : (m : ℚ) * 2 ^ f.leastExponent < 2 ^ (f.fraction + f.leastExponent) := by
      rw [zpow_add₀ h2, zpow_natCast]
      exact mul_lt_mul_of_pos_right (by exact_mod_cast hlt) hpow
    have := (zpow_lt_zpow_iff_right₀ (by norm_num : (1 : ℚ) < 2)).1 (hlow.trans_lt hsmall)
    omega
  · have hge : (2 : ℚ) ^ (f.fraction + e) ≤ m * 2 ^ e := by
      rw [zpow_add₀ h2, zpow_natCast]
      exact mul_le_mul_of_nonneg_right (by exact_mod_cast hle) hpow.le
    have hlt' : (m : ℚ) * 2 ^ e < 2 ^ (f.fraction + e + 1) := by
      rw [show (f.fraction : ℤ) + e + 1 = ((f.fraction + 1 : ℕ) : ℤ) + e by push_cast; ring, zpow_add₀ h2, zpow_natCast]
      exact mul_lt_mul_of_pos_right (by exact_mod_cast hlt) hpow
    have := exponent_unique hlow hhigh hge hlt'
    omega

/-- The exponent field and the fraction in the pattern of a number of the format. -/
theorem Canonical.fields (hx : 0 < f.exponent) {m : Nat} {e : Int} (h : f.Canonical m e) :
    ∃ x k, x < f.topExponent ∧ k < 2 ^ f.fraction ∧ (∀ s, f.pattern s m e = f.withSign s (x * 2 ^ f.fraction + k)) ∧
      ((x = 0 ∧ k = m ∧ e = f.leastExponent) ∨ (0 < x ∧ 2 ^ f.fraction + k = m ∧ f.leastExponent + x - 1 = e)) := by
  have htop : f.topExponent = 2 ^ f.exponent - 1 := rfl
  have htwo : 2 ≤ 2 ^ f.exponent := Nat.le_self_pow hx.ne' 2
  rcases h with ⟨hlt, rfl⟩ | ⟨hle, hlt, hleast, hmax⟩
  · refine ⟨0, m, by omega, hlt, fun s => ?_, Or.inl ⟨rfl, rfl, rfl⟩⟩
    rw [pattern, if_pos hlt, Nat.zero_mul, Nat.zero_add]
  · rw [Nat.pow_succ] at hlt
    refine ⟨(e - f.leastExponent).toNat + 1, m - 2 ^ f.fraction, by omega, by omega, fun s => ?_,
      Or.inr ⟨Nat.succ_pos _, by omega, by omega⟩⟩
    rw [pattern, if_neg (Nat.not_lt.2 hle), Nat.succ_mul, Nat.add_assoc, Nat.add_sub_cancel' hle]

theorem fields_lt {x m n : Nat} (hx : x < n) (hm : m < 2 ^ f.fraction) : x * 2 ^ f.fraction + m < n * 2 ^ f.fraction :=
  calc x * 2 ^ f.fraction + m < (x + 1) * 2 ^ f.fraction := by rw [Nat.succ_mul]; omega
    _ ≤ n * 2 ^ f.fraction := Nat.mul_le_mul_right _ hx

theorem magnitude_lt {x m : Nat} (hx : x < 2 ^ f.exponent) (hm : m < 2 ^ f.fraction) :
    x * 2 ^ f.fraction + m < 2 ^ (f.fraction + f.exponent) := by
  rw [Nat.pow_add, Nat.mul_comm (2 ^ f.fraction)]
  exact fields_lt hx hm

/-- The pattern of a number of the format is below those of the infinities. -/
theorem Canonical.pattern_false_lt (hx : 0 < f.exponent) {m : Nat} {e : Int} (h : f.Canonical m e) :
    f.pattern false m e < f.topExponent * 2 ^ f.fraction := by
  obtain ⟨x, k, htop, hk, hpattern, -⟩ := h.fields hx
  rw [hpattern]
  exact fields_lt htop hk

/-- A quotient that is a number of the format is rounded to the pattern of that number. -/
theorem round_exact (hx : 0 < f.exponent) (s : Bool) {m num den : Nat} {e : Int} (h : f.Canonical m e) (hden : den ≠ 0)
    (hv : (num : ℚ) / den = m * 2 ^ e) : f.round s num den = f.pattern s m e := by
  have hdpos : (0 : ℚ) < den := by exact_mod_cast Nat.pos_of_ne_zero hden
  have h2 : (2 : ℚ) ≠ 0 := by norm_num
  by_cases hm : m = 0
  · subst hm
    obtain rfl : num = 0 := by
      rw [Nat.cast_zero, zero_mul, div_eq_zero_iff] at hv
      exact_mod_cast hv.resolve_right hdpos.ne'
    simp [round, pattern]
  · have hnum : num ≠ 0 := by
      rintro rfl
      rw [Nat.cast_zero, zero_div, eq_comm, mul_eq_zero] at hv
      exact hm (by exact_mod_cast hv.resolve_right (zpow_ne_zero e h2))
    -- the significand is a whole number, so nothing is rounded
    have hquot : (scaled num (-e)).1 = m * ((scaled num (-e)).2 * den) := by
      rw [div_eq_iff hdpos.ne'] at hv
      have : ((scaled num (-e)).1 : ℚ) = m * ((scaled num (-e)).2 * den) := by
        rw [scaled_fst, hv, zpow_neg]
        field_simp
      exact_mod_cast this
    rw [round, if_neg hnum]
    simp only [exponentFor_of_canonical h hnum hden hv, hquot,
      roundDiv_mul m (Nat.mul_pos (pos_scaled num (-e)) (Nat.pos_of_ne_zero hden)), Nat.pow_eq]
    exact if_neg (Nat.not_le.2 (h.pattern_false_lt hx))

/-- The fields of a pattern put together from a sign, an exponent field and a fraction. -/
theorem fields_withSign (s : Bool) {x m : Nat} (hx : x < 2 ^ f.exponent) (hm : m < 2 ^ f.fraction) :
    f.signOf (f.withSign s (x * 2 ^ f.fraction + m)) = s ∧ f.exponentOf (f.withSign s (x * 2 ^ f.fraction + m)) = x ∧
      f.fractionOf (f.withSign s (x * 2 ^ f.fraction + m)) = m := by
  have hP : 0 < 2 ^ f.fraction := Nat.two_pow_pos _
  have hlow := magnitude_lt hx hm
  have hdiv : (x * 2 ^ f.fraction + m) / 2 ^ f.fraction = x := by
    rw [Nat.add_comm, Nat.add_mul_div_right _ _ hP, Nat.div_eq_of_lt hm, Nat.zero_add]
  cases s with
  | false =>
    refine ⟨?_, ?_, ?_⟩
    · simp [withSign, signOf, Nat.div_eq_of_lt hlow]
    · simp [withSign, exponentOf, hdiv, Nat.mod_eq_of_lt hx]
    · simp [withSign, fractionOf, Nat.mod_eq_of_lt hm]
  | true =>
    have hhigh : 2 ^ (f.fraction + f.exponent) + (x * 2 ^ f.fraction + m) =
        (2 ^ f.exponent + x) * 2 ^ f.fraction + m := by rw [Nat.pow_add]; ring
    refine ⟨?_, ?_, ?_⟩
    · simp [withSign, signOf, Nat.add_div_left _ (Nat.two_pow_pos _), Nat.div_eq_of_lt hlow]
    · have hdiv' : ((2 ^ f.exponent + x) * 2 ^ f.fraction + m) / 2 ^ f.fraction = 2 ^ f.exponent + x := by
        rw [Nat.add_comm, Nat.add_mul_div_right _ _ hP, Nat.div_eq_of_lt hm, Nat.zero_add]
      simp [withSign, exponentOf, hhigh, hdiv', Nat.mod_eq_of_lt hx]
    · simp [withSign, fractionOf, hhigh, Nat.mod_eq_of_lt hm]

/-- A pattern is put together from its fields. -/
theorem eq_withSign {bits : Nat} (h : bits < 2 ^ (f.fraction + f.exponent + 1)) :
    bits = f.withSign (f.signOf bits) (f.exponentOf bits * 2 ^ f.fraction + f.fractionOf bits) := by
  have hlow : bits % 2 ^ (f.fraction + f.exponent) = f.exponentOf bits * 2 ^ f.fraction + f.fractionOf bits := by
    simp only [exponentOf, fractionOf, Nat.pow_eq]
    rw [Nat.pow_add, Nat.mod_mul, Nat.mul_comm]
    exact Nat.add_comm _ _
  have hsign : bits / 2 ^ (f.fraction + f.exponent) < 2 := by
    rw [Nat.div_lt_iff_lt_mul (Nat.two_pow_pos _), Nat.mul_comm, ← Nat.pow_succ]
    exact h
  have hsum := Nat.div_add_mod bits (2 ^ (f.fraction + f.exponent))
  rw [withSign, ← hlow, signOf]
  simp only [Nat.pow_eq]
  obtain hzero | hone := Nat.le_one_iff_eq_zero_or_eq_one.1 (Nat.le_of_lt_succ hsign)
  · simp [hzero] at hsum ⊢
    exact hsum.symm
  · simp [hone] at hsum ⊢
    exact hsum.symm

/-- The pattern of a number decodes to it. -/
theorem decode_pattern (hx : 0 < f.exponent) (s : Bool) {m : Nat} {e : Int} (h : f.Canonical m e) :
    f.decode (f.pattern s m e) = .finite s m e := by
  obtain ⟨x, k, htop, hk, hpattern, hnumber⟩ := h.fields hx
  obtain ⟨hs, he, hf⟩ := fields_withSign s (Nat.lt_of_lt_of_le htop (Nat.sub_le _ 1)) hk
  simp only [decode, hpattern, hs, he, hf, Nat.pow_eq]
  rw [if_neg htop.ne]
  rcases hnumber with ⟨rfl, rfl, rfl⟩ | ⟨hpos, rfl, rfl⟩
  · exact if_pos rfl
  · exact if_neg hpos.ne'

/-- A pattern that decodes to a finite number is the pattern of that number, which the format has. -/
theorem canonical_of_decode {bits m : Nat} {s : Bool} {e : Int} (h : bits < 2 ^ (f.fraction + f.exponent + 1))
    (hd : f.decode bits = .finite s m e) : f.Canonical m e ∧ bits = f.pattern s m e := by
  have hbits := eq_withSign h
  have hfraction : f.fractionOf bits < 2 ^ f.fraction := Nat.mod_lt _ (Nat.two_pow_pos _)
  have hexponent : f.exponentOf bits < 2 ^ f.exponent := Nat.mod_lt _ (Nat.two_pow_pos _)
  have htop : f.topExponent = 2 ^ f.exponent - 1 := rfl
  simp only [decode, Nat.pow_eq] at hd
  split_ifs at hd with hmax hinf hzero
  · cases hd
    refine ⟨Or.inl ⟨hfraction, rfl⟩, ?_⟩
    rw [pattern, if_pos hfraction]
    nth_rewrite 1 [hbits]
    rw [hzero, Nat.zero_mul, Nat.zero_add]
  · cases hd
    refine ⟨Or.inr ⟨Nat.le_add_right _ _, by rw [Nat.pow_succ]; omega, by omega, by omega⟩, ?_⟩
    have hsteps : (f.leastExponent + (f.exponentOf bits : Int) - 1 - f.leastExponent).toNat + 1 = f.exponentOf bits := by omega
    rw [pattern, if_neg (Nat.not_lt.2 (Nat.le_add_right _ _)), ← Nat.add_assoc, ← Nat.succ_mul, Nat.succ_eq_add_one, hsteps]
    exact hbits

end Format

/-! ## Infinities and NaNs -/

namespace Format

variable {f : Format}

theorem withSign_lt (s : Bool) {x m : Nat} (hx : x < 2 ^ f.exponent) (hm : m < 2 ^ f.fraction) :
    f.withSign s (x * 2 ^ f.fraction + m) < 2 ^ (f.fraction + f.exponent + 1) := by
  have hlow := magnitude_lt hx hm
  rw [Nat.pow_succ]
  cases s <;> simp only [withSign, Nat.pow_eq, if_true, Bool.false_eq_true, if_false] <;> omega

/-- The pattern of a finite number has no more bits than the format. -/
theorem pattern_lt (hx : 0 < f.exponent) (s : Bool) {m : Nat} {e : Int} (h : f.Canonical m e) :
    f.pattern s m e < 2 ^ (f.fraction + f.exponent + 1) := by
  obtain ⟨x, k, htop, hk, hpattern, -⟩ := h.fields hx
  rw [hpattern]
  exact withSign_lt s (Nat.lt_of_lt_of_le htop (Nat.sub_le _ 1)) hk

/-- The patterns past the finite numbers: the exponent field is full. -/
def special (f : Format) (s : Bool) (m : Nat) : Nat := f.withSign s (f.topExponent * 2 ^ f.fraction + m)

theorem infinity_add (s : Bool) (m : Nat) : f.infinity s + m = f.special s m := by
  cases s <;> simp [infinity, special, withSign, Nat.add_assoc]

theorem fields_special (s : Bool) {m : Nat} (hm : m < 2 ^ f.fraction) :
    f.signOf (f.special s m) = s ∧ f.exponentOf (f.special s m) = f.topExponent ∧ f.fractionOf (f.special s m) = m :=
  fields_withSign s (Nat.sub_lt (Nat.two_pow_pos _) Nat.one_pos) hm

/-- A full exponent field is that of an infinity, or of a NaN if the fraction is not zero. -/
theorem decode_special (s : Bool) {m : Nat} (hm : m < 2 ^ f.fraction) :
    f.decode (f.special s m) = if m = 0 then .infinite s else .nan := by
  obtain ⟨hs, he, hf⟩ := fields_special (f := f) s hm
  simp only [decode, hs, he, hf, if_true]

/-- A pattern that decodes to no finite number has a full exponent field. -/
theorem eq_special {bits : Nat} (h : bits < 2 ^ (f.fraction + f.exponent + 1))
    (hd : ∀ s m e, f.decode bits ≠ .finite s m e) : ∃ s m, m < 2 ^ f.fraction ∧ bits = f.special s m := by
  refine ⟨f.signOf bits, f.fractionOf bits, Nat.mod_lt _ (Nat.two_pow_pos _), ?_⟩
  have hbits := eq_withSign h
  by_cases hx : f.exponentOf bits = f.topExponent
  · rwa [hx] at hbits
  · simp only [decode, hx, if_false] at hd
    split at hd
    · exact absurd rfl (hd _ _ _)
    · exact absurd rfl (hd _ _ _)

end Format

/-! ## Single precision and back -/

/-- A number of single precision as one of double precision. -/
theorem canonical_double {m : Nat} {e : Int} (h : single.Canonical m e) :
    ∃ m' e', double.Canonical m' e' ∧ (m' : ℚ) * 2 ^ e' = m * 2 ^ e := by
  have hleast : single.leastExponent = -149 := by decide
  have hleast' : double.leastExponent = -1074 := by decide
  have htop : single.topExponent = 255 := by decide
  have htop' : double.topExponent = 2047 := by decide
  by_cases hm : m = 0
  · exact ⟨0, -1074, Or.inl ⟨by decide, hleast'.symm⟩, by simp [hm]⟩
  · have hlt : m < 2 ^ 24 := by
      rcases h with ⟨hlt, -⟩ | ⟨-, hlt, -⟩
      · exact hlt.trans (by decide)
      · exact hlt
    have he : -149 ≤ e ∧ e < 105 := by
      rcases h with ⟨-, rfl⟩ | ⟨-, -, hge, hmax⟩
      · rw [hleast]; decide
      · rw [hleast] at hge hmax
        rw [htop] at hmax
        omega
    have hlog : m.log2 < 24 := (Nat.log2_lt hm).2 hlt
    -- shift the significand up to full width
    refine ⟨m * 2 ^ (52 - m.log2), e - (52 - m.log2 : ℕ), Or.inr ⟨?_, ?_, by omega, by omega⟩, ?_⟩
    · calc 2 ^ 52 = 2 ^ m.log2 * 2 ^ (52 - m.log2) := by rw [← Nat.pow_add]; congr 1; omega
        _ ≤ m * 2 ^ (52 - m.log2) := Nat.mul_le_mul_right _ (Nat.log2_self_le hm)
    · calc m * 2 ^ (52 - m.log2) < 2 ^ (m.log2 + 1) * 2 ^ (52 - m.log2) :=
          Nat.mul_lt_mul_of_pos_right Nat.lt_log2_self (Nat.two_pow_pos _)
        _ = 2 ^ (52 + 1) := by rw [← Nat.pow_add]; congr 1; omega
    · rw [zpow_sub₀ (by norm_num : (2 : ℚ) ≠ 0), zpow_natCast]
      push_cast
      field_simp

/-- A finite number of single precision comes back from double precision. -/
theorem convert_convert_finite {bits m : Nat} {s : Bool} {e : Int} (h : bits < 2 ^ 32)
    (hd : single.decode bits = .finite s m e) :
    single.convert double bits < 2 ^ 64 ∧ double.convert single (single.convert double bits) = bits := by
  obtain ⟨hcanonical, hbits⟩ := Format.canonical_of_decode (f := single) h hd
  obtain ⟨m', e', hcanonical', hvalue⟩ := canonical_double hcanonical
  have hup : single.convert double bits = double.pattern s m' e' := by
    rw [Format.convert, hd]
    exact Format.round_exact (by decide) s hcanonical' (pos_scaled m e).ne' ((scaled_div m e).trans hvalue.symm)
  have hdown : double.decode (double.pattern s m' e') = .finite s m' e' := Format.decode_pattern (by decide) s hcanonical'
  rw [hup, Format.convert, hdown]
  refine ⟨Format.pattern_lt (by decide) s hcanonical', Eq.trans ?_ hbits.symm⟩
  exact Format.round_exact (by decide) s hcanonical (pos_scaled m' e').ne' ((scaled_div m' e').trans hvalue)

/-- A fraction of single precision in double precision, quiet unless it is zero. -/
theorem single_special (s : Bool) {m : Nat} (hm : m < 2 ^ 23) :
    single.convert double (single.special s m) =
      double.special s (if m = 0 then 0 else if m < 2 ^ 22 then m * 2 ^ 29 + 2 ^ 51 else m * 2 ^ 29) := by
  obtain ⟨hs, -, hf⟩ := Format.fields_special (f := single) s hm
  rw [Format.convert, Format.decode_special s hm]
  by_cases hzero : m = 0
  · simp only [hzero, if_true]
    exact Format.infinity_add s 0
  · simp only [hzero, if_false, hs, hf, Format.infinity_add]
    congr 1
    simp only [single, double, Nat.pow_eq]
    norm_num
    split_ifs <;> omega

/-- A fraction of double precision in single precision, when it is quiet or zero. -/
theorem double_special (s : Bool) {m : Nat} (hm : m < 2 ^ 52) (hquiet : m = 0 ∨ 2 ^ 51 ≤ m) :
    double.convert single (double.special s m) = single.special s (m / 2 ^ 29) := by
  obtain ⟨hs, -, hf⟩ := Format.fields_special (f := double) s hm
  rw [Format.convert, Format.decode_special s hm]
  rcases hquiet with rfl | hquiet
  · exact Format.infinity_add s 0
  · have hzero : m ≠ 0 := by omega
    simp only [hzero, if_false, hs, hf, Format.infinity_add]
    congr 1
    simp only [single, double, Nat.pow_eq]
    norm_num
    omega

/-- Whether a single-precision pattern is a signalling NaN: one whose leading fraction bit is not set. -/
def isSignalling (bits : UInt32) : Bool := single.decode bits.toNat == .nan && bits.toNat / 2 ^ 22 % 2 == 0

/-- A pattern with a signalling NaN made quiet by setting its leading fraction bit. -/
def quieted (bits : UInt32) : UInt32 := if isSignalling bits then bits + 0x400000 else bits

/-- A pattern of single precision past the finite numbers comes back from double precision quiet. -/
theorem convert_convert_special (s : Bool) {m : Nat} (hm : m < 2 ^ 23) :
    single.convert double (single.special s m) < 2 ^ 64 ∧
      double.convert single (single.convert double (single.special s m)) =
        single.special s (if m = 0 ∨ 2 ^ 22 ≤ m then m else m + 2 ^ 22) := by
  rw [single_special s hm]
  suffices ∃ k, (if m = 0 then 0 else if m < 2 ^ 22 then m * 2 ^ 29 + 2 ^ 51 else m * 2 ^ 29) = k ∧ k < 2 ^ 52 ∧
      (k = 0 ∨ 2 ^ 51 ≤ k) ∧ k / 2 ^ 29 = if m = 0 ∨ 2 ^ 22 ≤ m then m else m + 2 ^ 22 by
    obtain ⟨k, hk, hlt, hquiet, hback⟩ := this
    rw [hk, double_special s hlt hquiet, hback]
    exact ⟨Format.withSign_lt (f := double) s (by decide) hlt, rfl⟩
  by_cases hzero : m = 0
  · exact ⟨0, if_pos hzero, by norm_num, Or.inl rfl, by rw [if_pos (Or.inl hzero), hzero, Nat.zero_div]⟩
  · rw [if_neg hzero]
    by_cases hlow : m < 2 ^ 22
    · rw [if_pos hlow, if_neg (by omega)]
      exact ⟨_, rfl, by omega, by omega, by omega⟩
    · rw [if_neg hlow, if_pos (by omega)]
      exact ⟨_, rfl, by omega, by omega, by omega⟩

/-- The pattern of a special fraction is a signalling NaN when the fraction is below half its range and not zero. -/
theorem isSignalling_iff {bits : UInt32} {s : Bool} {m : Nat} (hm : m < 2 ^ 23) (h : bits.toNat = single.special s m) :
    isSignalling bits = true ↔ ¬(m = 0 ∨ 2 ^ 22 ≤ m) := by
  have hvalue : single.special s m = (if s then 2 ^ 31 else 0) + (255 * 2 ^ 23 + m) := by
    have htop : single.topExponent * 2 ^ single.fraction = 255 * 2 ^ 23 := rfl
    rw [Format.special, htop, Format.withSign]
    cases s
    · exact (Nat.zero_add _).symm
    · rfl
  have hbit : bits.toNat / 2 ^ 22 % 2 = 0 ↔ m < 2 ^ 22 := by
    rw [h, hvalue]
    cases s <;> simp only [if_true, Bool.false_eq_true, if_false] <;> omega
  simp only [isSignalling, Bool.and_eq_true, beq_iff_eq, hbit]
  rw [h, Format.decode_special s hm]
  by_cases hzero : m = 0 <;> simp [hzero]

/-- A single-precision pattern comes back from double precision as it was, but for a signalling NaN, which comes back quiet. -/
theorem narrow_widen (bits : UInt32) : narrow (widen bits) = quieted bits := by
  have hbits : bits.toNat < 2 ^ 32 := bits.toNat_lt
  suffices single.convert double bits.toNat < 2 ^ 64 ∧
      double.convert single (single.convert double bits.toNat) = (quieted bits).toNat by
    rw [narrow, widen, UInt64.toNat_ofNat_of_lt' this.1, this.2, UInt32.ofNat_toNat]
  cases hd : single.decode bits.toNat with
  | finite s m e =>
    have hquiet : quieted bits = bits := by simp [quieted, isSignalling, hd]
    rw [hquiet]
    exact convert_convert_finite hbits hd
  | _ =>
    obtain ⟨s, m, hm, hspecial⟩ := Format.eq_special (f := single) hbits (by simp [hd])
    have hround := convert_convert_special s hm
    rw [← hspecial] at hround
    refine ⟨hround.1, hround.2.trans ?_⟩
    have hsignal := isSignalling_iff hm hspecial
    by_cases hquiet : m = 0 ∨ 2 ^ 22 ≤ m
    · rw [if_pos hquiet, quieted, if_neg (fun h => hsignal.1 h hquiet), hspecial]
    · have hlt := Format.withSign_lt (f := single) s (x := 255) (m := m + 2 ^ 22) (by decide) (show m + 2 ^ 22 < 2 ^ 23 by omega)
      have hadd : single.special s (m + 2 ^ 22) = bits.toNat + 2 ^ 22 := by
        rw [hspecial]
        cases s <;> simp only [Format.special, Format.withSign, if_true, Bool.false_eq_true, if_false, Nat.add_assoc]
      rw [if_neg hquiet, quieted, if_pos (hsignal.2 hquiet), UInt32.toNat_add, hadd]
      exact (Nat.mod_eq_of_lt (hadd ▸ hlt)).symm

end SensorWire.Binary
