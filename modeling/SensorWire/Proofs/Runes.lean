import Mathlib
import SensorWire.Text.Words

/-!
# Text and what is read from it

Reading UTF-8 takes a character or a stray byte off the front, and what it takes has the bytes that it was read from
(`flatMap_bytes_runes`). The bytes of a character are read as that character whatever follows them, and a byte that continues a sequence
stands alone where it begins one. `ReadsAs` says of bytes that they are read as the same runes whatever follows, so that pieces of which
this holds can be put together.

Main statements: `ReadsAs.encode`, `ReadsAs.tail`, `Text.ofRunes_runes`.
-/

namespace SensorWire

namespace Utf8

variable {b b1 b2 b3 : UInt8}

theorem isTail_iff : isTail b = true ↔ 0x80 ≤ b ∧ b ≤ 0xbf := by simp [isTail]

/-! ## One sequence -/

theorem runes_ascii (h : b < 0x80) (rest : List UInt8) : runes (b :: rest) = .char (Char.ofNat b.toNat) :: runes rest := by
  rw [runes.eq_def]
  exact if_pos h

theorem runes_two (h : 0xc2 ≤ b ∧ b ≤ 0xdf) (h1 : isTail b1 = true) (rest : List UInt8) :
    runes (b :: b1 :: rest) = .char (Char.ofNat (extend (b.toNat % 32) b1)) :: runes rest := by
  have hascii : ¬b < 0x80 := by grind
  rw [runes.eq_def]
  simp only [if_neg hascii, h.1, h.2, h1, decide_true, Bool.and_self, if_true]

theorem runes_three (h : 0xe0 ≤ b ∧ b ≤ 0xef) (h1 : secondOfThree b b1 = true) (h2 : isTail b2 = true) (rest : List UInt8) :
    runes (b :: b1 :: b2 :: rest) = .char (Char.ofNat (extend (extend (b.toNat % 16) b1) b2)) :: runes rest := by
  have hascii : ¬b < 0x80 := by grind
  have htwo : ¬b ≤ 0xdf := by grind
  rw [runes.eq_def]
  simp only [if_neg hascii, htwo, h.1, h.2, h1, h2, decide_true, decide_false, Bool.and_false, Bool.false_and, Bool.and_self,
    Bool.false_eq_true, if_false, if_true]

theorem runes_four (h : 0xf0 ≤ b ∧ b ≤ 0xf4) (h1 : secondOfFour b b1 = true) (h2 : isTail b2 = true) (h3 : isTail b3 = true)
    (rest : List UInt8) :
    runes (b :: b1 :: b2 :: b3 :: rest) = .char (Char.ofNat (extend (extend (extend (b.toNat % 8) b1) b2) b3)) :: runes rest := by
  have hascii : ¬b < 0x80 := by grind
  have htwo : ¬b ≤ 0xdf := by grind
  have hthree : ¬b ≤ 0xef := by grind
  rw [runes.eq_def]
  simp only [if_neg hascii, htwo, hthree, h.1, h.2, h1, h2, h3, decide_true, decide_false, Bool.and_false, Bool.false_and, Bool.and_self,
    Bool.false_eq_true, if_false, if_true]

/-- A byte that continues a sequence begins none. -/
theorem runes_tail (h : isTail b = true) (rest : List UInt8) : runes (b :: rest) = .stray b :: runes rest := by
  have htail := isTail_iff.1 h
  have hascii : ¬b < 0x80 := by grind
  have hlead (n : UInt8) (hn : 0xc0 ≤ n) : ¬n ≤ b := by grind
  rw [runes.eq_def]
  dsimp only
  rw [if_neg hascii]
  rcases rest with _ | ⟨b1, _ | ⟨b2, _ | ⟨b3, rest⟩⟩⟩
  · rw [runes]
  · simp [hlead]
  · simp [hlead]
  · simp [hlead]

/-! ## Reading what was written -/

theorem toNat_byte {n : Nat} (h : n < 256) : (UInt8.ofNat n).toNat = n := by rw [UInt8.toNat_ofNat', Nat.mod_eq_of_lt h]

theorem isTail_byte (n : Nat) : isTail (UInt8.ofNat (n % 64 + 128)) = true := by
  rw [isTail_iff, UInt8.le_iff_toNat_le, UInt8.le_iff_toNat_le, toNat_byte (by omega)]
  simp
  omega

theorem extend_byte (high n : Nat) : extend high (UInt8.ofNat (n % 64 + 128)) = high * 64 + n % 64 := by
  rw [extend, toNat_byte (by omega)]
  omega

theorem secondOfThree_byte {n : Nat} (h : 0x800 ≤ n ∧ n ≤ 0xffff) (hvalid : n < 0xd800 ∨ 0xdfff < n) :
    secondOfThree (UInt8.ofNat (n / 4096 % 16 + 224)) (UInt8.ofNat (n / 64 % 64 + 128)) = true := by
  simp only [secondOfThree, ← UInt8.toNat_inj, toNat_byte (show n / 4096 % 16 + 224 < 256 by omega), UInt8.reduceToNat]
  split_ifs
  · simp [UInt8.le_iff_toNat_le]
    omega
  · simp [UInt8.le_iff_toNat_le]
    omega
  · exact isTail_byte _

theorem secondOfFour_byte {n : Nat} (h : 0x10000 ≤ n ∧ n < 0x110000) :
    secondOfFour (UInt8.ofNat (n / 262144 % 8 + 240)) (UInt8.ofNat (n / 4096 % 64 + 128)) = true := by
  simp only [secondOfFour, ← UInt8.toNat_inj, toNat_byte (show n / 262144 % 8 + 240 < 256 by omega), UInt8.reduceToNat]
  split_ifs
  · simp [UInt8.le_iff_toNat_le]
    omega
  · simp [UInt8.le_iff_toNat_le]
    omega
  · exact isTail_byte _

/-- The bytes of a character are read as the character. -/
theorem runes_encode (c : Char) (rest : List UInt8) : runes (String.utf8EncodeChar c ++ rest) = .char c :: runes rest := by
  have hvalid : c.toNat < 0xd800 ∨ 0xdfff < c.toNat ∧ c.toNat < 0x110000 := c.valid
  have hback {n : Nat} (h : n = c.toNat) : Char.ofNat n = c := h ▸ Char.ofNat_toNat c
  have hval : c.val.toNat = c.toNat := rfl
  simp only [String.utf8EncodeChar, hval]
  generalize c.toNat = v at *
  -- one case for each number of bytes
  split_ifs with hone htwo hthree
  · have hb : (UInt8.ofNat v).toNat = v := toNat_byte (by omega)
    have hlead : UInt8.ofNat v < 0x80 := by
      simp only [UInt8.lt_iff_toNat_lt, hb, UInt8.reduceToNat]
      omega
    rw [List.singleton_append, runes_ascii hlead, hb, hback rfl]
  · have hb : (UInt8.ofNat (v / 64 % 32 + 192)).toNat = v / 64 % 32 + 192 := toNat_byte (by omega)
    have hlead : 0xc2 ≤ UInt8.ofNat (v / 64 % 32 + 192) ∧ UInt8.ofNat (v / 64 % 32 + 192) ≤ 0xdf := by
      simp only [UInt8.le_iff_toNat_le, hb, UInt8.reduceToNat]
      omega
    rw [List.cons_append, List.singleton_append, runes_two hlead (isTail_byte v), hb, extend_byte, hback (by omega)]
  · have hb : (UInt8.ofNat (v / 4096 % 16 + 224)).toNat = v / 4096 % 16 + 224 := toNat_byte (by omega)
    have hlead : 0xe0 ≤ UInt8.ofNat (v / 4096 % 16 + 224) ∧ UInt8.ofNat (v / 4096 % 16 + 224) ≤ 0xef := by
      simp only [UInt8.le_iff_toNat_le, hb, UInt8.reduceToNat]
      omega
    rw [List.cons_append, List.cons_append, List.singleton_append,
      runes_three hlead (secondOfThree_byte (by omega) (by omega)) (isTail_byte v), hb, extend_byte, extend_byte, hback (by omega)]
  · have hb : (UInt8.ofNat (v / 262144 % 8 + 240)).toNat = v / 262144 % 8 + 240 := toNat_byte (by omega)
    have hlead : 0xf0 ≤ UInt8.ofNat (v / 262144 % 8 + 240) ∧ UInt8.ofNat (v / 262144 % 8 + 240) ≤ 0xf4 := by
      simp only [UInt8.le_iff_toNat_le, hb, UInt8.reduceToNat]
      omega
    rw [List.cons_append, List.cons_append, List.cons_append, List.singleton_append,
      runes_four hlead (secondOfFour_byte (by omega)) (isTail_byte _) (isTail_byte v), hb, extend_byte, extend_byte, extend_byte,
      hback (by omega)]

/-- An ASCII character has one byte. Any other has a first byte that is not ASCII and some more that continue the sequence. -/
theorem encode_cases (c : Char) :
    (c.toNat < 0x80 ∧ String.utf8EncodeChar c = [c.toNat.toUInt8] ∧ c.toNat.toUInt8 < 0x80) ∨
      (0x80 ≤ c.toNat ∧ ∃ b tail, String.utf8EncodeChar c = b :: tail ∧ 0x80 ≤ b ∧ tail ≠ [] ∧ ∀ x ∈ tail, isTail x = true) := by
  have hval : c.val.toNat = c.toNat := rfl
  simp only [String.utf8EncodeChar, hval]
  generalize c.toNat = v
  have hlead (n : Nat) (h : 128 ≤ n ∧ n < 256) : 0x80 ≤ UInt8.ofNat n := by
    simp only [UInt8.le_iff_toNat_le, toNat_byte h.2, UInt8.reduceToNat]
    exact h.1
  split_ifs with hone htwo hthree
  · refine .inl ⟨by omega, rfl, ?_⟩
    change UInt8.ofNat v < 0x80
    simp only [UInt8.lt_iff_toNat_lt, toNat_byte (show v < 256 by omega), UInt8.reduceToNat]
    omega
  · exact .inr ⟨by omega, _, _, rfl, hlead _ (by omega), List.cons_ne_nil _ _, List.forall_mem_singleton.2 (isTail_byte v)⟩
  · exact .inr ⟨by omega, _, _, rfl, hlead _ (by omega), List.cons_ne_nil _ _,
      List.forall_mem_cons.2 ⟨isTail_byte _, List.forall_mem_singleton.2 (isTail_byte v)⟩⟩
  · exact .inr ⟨by omega, _, _, rfl, hlead _ (by omega), List.cons_ne_nil _ _,
      List.forall_mem_cons.2 ⟨isTail_byte _, List.forall_mem_cons.2 ⟨isTail_byte _, List.forall_mem_singleton.2 (isTail_byte v)⟩⟩⟩

/-- The bytes of a character that is not ASCII are not ASCII either. -/
theorem le_of_mem_encode {c : Char} (h : 0x80 ≤ c.toNat) : ∀ b ∈ String.utf8EncodeChar c, 0x80 ≤ b := by
  rcases encode_cases c with ⟨hascii, -⟩ | ⟨-, b, tail, hencode, hb, -, htail⟩
  · exact absurd h (not_le.2 hascii)
  · rw [hencode]
    exact List.forall_mem_cons.2 ⟨hb, fun x hx => (isTail_iff.1 (htail x hx)).1⟩

/-! ## Writing what was read -/

theorem encode_ofNat {n : Nat} (h : n.isValidChar) :
    String.utf8EncodeChar (Char.ofNat n) =
      if n ≤ 127 then [UInt8.ofNat n]
      else if n ≤ 2047 then [UInt8.ofNat (n / 64 % 32 + 192), UInt8.ofNat (n % 64 + 128)]
      else if n ≤ 65535 then [UInt8.ofNat (n / 4096 % 16 + 224), UInt8.ofNat (n / 64 % 64 + 128), UInt8.ofNat (n % 64 + 128)]
      else [UInt8.ofNat (n / 262144 % 8 + 240), UInt8.ofNat (n / 4096 % 64 + 128), UInt8.ofNat (n / 64 % 64 + 128),
        UInt8.ofNat (n % 64 + 128)] := by
  have hval : (Char.ofNat n).val.toNat = n := by
    change (Char.ofNat n).toNat = n
    rw [Char.toNat_ofNat, if_pos h]
  rw [String.utf8EncodeChar, hval]

theorem byte_eq {n : Nat} (h : n = b.toNat) : UInt8.ofNat n = b := by rw [h, UInt8.ofNat_toNat]

theorem encode_ascii (h : b < 0x80) : String.utf8EncodeChar (Char.ofNat b.toNat) = [b] := by
  simp only [UInt8.lt_iff_toNat_lt, UInt8.reduceToNat] at h
  rw [encode_ofNat (.inl (by omega)), if_pos (by omega), byte_eq rfl]

theorem encode_two (h : 0xc2 ≤ b ∧ b ≤ 0xdf) (h1 : isTail b1 = true) :
    String.utf8EncodeChar (Char.ofNat (extend (b.toNat % 32) b1)) = [b, b1] := by
  rw [isTail_iff] at h1
  simp only [UInt8.le_iff_toNat_le, UInt8.reduceToNat] at h h1
  rw [extend, encode_ofNat (.inl (by omega)), if_neg (by omega), if_pos (by omega), byte_eq (b := b) (by omega),
    byte_eq (b := b1) (by omega)]

theorem encode_three (h : 0xe0 ≤ b ∧ b ≤ 0xef) (h1 : secondOfThree b b1 = true) (h2 : isTail b2 = true) :
    String.utf8EncodeChar (Char.ofNat (extend (extend (b.toNat % 16) b1) b2)) = [b, b1, b2] := by
  have hsecond : 0x80 ≤ b1.toNat ∧ b1.toNat ≤ 0xbf ∧ (b.toNat = 0xe0 → 0xa0 ≤ b1.toNat) ∧ (b.toNat = 0xed → b1.toNat ≤ 0x9f) := by
    simp only [secondOfThree, ← UInt8.toNat_inj, UInt8.reduceToNat] at h1
    split_ifs at h1 <;> simp [isTail, UInt8.le_iff_toNat_le] at h1 <;> omega
  rw [isTail_iff] at h2
  simp only [UInt8.le_iff_toNat_le, UInt8.reduceToNat] at h h2
  have hn : extend (extend (b.toNat % 16) b1) b2 = b.toNat % 16 * 4096 + b1.toNat % 64 * 64 + b2.toNat % 64 := by
    simp only [extend]
    omega
  have hvalid : (b.toNat % 16 * 4096 + b1.toNat % 64 * 64 + b2.toNat % 64).isValidChar := by
    unfold Nat.isValidChar
    omega
  rw [hn, encode_ofNat hvalid, if_neg (by omega), if_neg (by omega), if_pos (by omega), byte_eq (b := b) (by omega),
    byte_eq (b := b1) (by omega), byte_eq (b := b2) (by omega)]

theorem encode_four (h : 0xf0 ≤ b ∧ b ≤ 0xf4) (h1 : secondOfFour b b1 = true) (h2 : isTail b2 = true) (h3 : isTail b3 = true) :
    String.utf8EncodeChar (Char.ofNat (extend (extend (extend (b.toNat % 8) b1) b2) b3)) = [b, b1, b2, b3] := by
  have hsecond : 0x80 ≤ b1.toNat ∧ b1.toNat ≤ 0xbf ∧ (b.toNat = 0xf0 → 0x90 ≤ b1.toNat) ∧ (b.toNat = 0xf4 → b1.toNat ≤ 0x8f) := by
    simp only [secondOfFour, ← UInt8.toNat_inj, UInt8.reduceToNat] at h1
    split_ifs at h1 <;> simp [isTail, UInt8.le_iff_toNat_le] at h1 <;> omega
  rw [isTail_iff] at h2 h3
  simp only [UInt8.le_iff_toNat_le, UInt8.reduceToNat] at h h2 h3
  have hn : extend (extend (extend (b.toNat % 8) b1) b2) b3 =
      b.toNat % 8 * 262144 + b1.toNat % 64 * 4096 + b2.toNat % 64 * 64 + b3.toNat % 64 := by
    simp only [extend]
    omega
  have hvalid : (b.toNat % 8 * 262144 + b1.toNat % 64 * 4096 + b2.toNat % 64 * 64 + b3.toNat % 64).isValidChar := by
    unfold Nat.isValidChar
    omega
  rw [hn, encode_ofNat hvalid, if_neg (by omega), if_neg (by omega), if_neg (by omega), byte_eq (b := b) (by omega),
    byte_eq (b := b1) (by omega), byte_eq (b := b2) (by omega), byte_eq (b := b3) (by omega)]

/-- What is read from bytes has these bytes. -/
theorem flatMap_bytes_runes (bytes : List UInt8) : (runes bytes).flatMap Rune.bytes = bytes := by
  fun_induction runes bytes
  case case1 => rfl
  case case2 b rest hb ih =>
    rw [List.flatMap_cons, ih, Rune.bytes, encode_ascii hb]
    rfl
  case case4 b _ b1 rest hseq ih =>
    simp only [Bool.and_eq_true, decide_eq_true_eq] at hseq
    rw [List.flatMap_cons, ih, Rune.bytes, encode_two hseq.1 hseq.2]
    rfl
  case case6 b _ b1 _ b2 rest hseq ih =>
    simp only [Bool.and_eq_true, decide_eq_true_eq] at hseq
    rw [List.flatMap_cons, ih, Rune.bytes, encode_three hseq.1.1 hseq.1.2 hseq.2]
    rfl
  case case8 b _ b1 _ b2 _ b3 rest hseq ih =>
    simp only [Bool.and_eq_true, decide_eq_true_eq] at hseq
    rw [List.flatMap_cons, ih, Rune.bytes, encode_four hseq.1.1.1 hseq.1.1.2 hseq.1.2 hseq.2]
    rfl
  case case3 => rfl
  case case5 ih | case7 ih | case9 ih =>
    rw [List.flatMap_cons, ih]
    rfl

/-- An ASCII byte is a character whatever stands before it. -/
theorem runes_append_ascii (h : b < 0x80) (bytes rest : List UInt8) :
    runes (bytes ++ b :: rest) = runes bytes ++ .char (Char.ofNat b.toNat) :: runes rest := by
  have htail : isTail b = false := by
    rw [← Bool.not_eq_true, isTail_iff]
    grind
  have hsecond (lead : UInt8) : secondOfThree lead b = false ∧ secondOfFour lead b = false := by
    simp only [secondOfThree, secondOfFour, htail]
    grind
  rw [← runes_ascii h]
  fun_induction runes bytes
  all_goals simp only [List.cons_append, List.nil_append]
  case case2 b0 bytes hb ih => rw [← ih, runes_ascii hb]
  case case4 b0 hb b1 bytes hseq ih =>
    simp only [Bool.and_eq_true, decide_eq_true_eq] at hseq
    rw [← ih, runes_two hseq.1 hseq.2]
  case case6 b0 hb b1 htwo b2 bytes hseq ih =>
    simp only [Bool.and_eq_true, decide_eq_true_eq] at hseq
    rw [← ih, runes_three hseq.1.1 hseq.1.2 hseq.2]
  case case8 b0 hb b1 htwo b2 hthree b3 bytes hseq ih =>
    simp only [Bool.and_eq_true, decide_eq_true_eq] at hseq
    rw [← ih, runes_four hseq.1.1.1 hseq.1.1.2 hseq.1.2 hseq.2]
  -- the bytes before the end begin no sequence, and the ASCII byte completes none
  case case3 b0 hb =>
    rw [runes.eq_def]
    rcases rest with _ | ⟨b2, _ | ⟨b3, rest⟩⟩
    all_goals simp [hb, htail, hsecond]
  case case5 b0 hb b1 hseq ih =>
    rw [← ih, runes.eq_def]
    rcases rest with _ | ⟨b3, rest⟩
    all_goals simp [hb, htail, hseq]
  case case7 b0 hb b1 htwo b2 hthree ih =>
    rw [← ih, runes.eq_def]
    simp [hb, htail, htwo, hthree]
  case case9 b0 hb b1 htwo b2 hthree b3 bytes hseq ih =>
    rw [← ih, runes.eq_def]
    simp [hb, htwo, hthree, hseq]

/-- A byte that stands alone is not ASCII. -/
theorem le_of_stray_mem {bytes : List UInt8} (h : .stray b ∈ runes bytes) : 0x80 ≤ b := by
  fun_induction runes bytes with grind

/-! ## Pieces -/

/-- Bytes that are read as these runes, whatever follows them. -/
def ReadsAs (bytes : List UInt8) (rs : List Rune) : Prop := ∀ rest, runes (bytes ++ rest) = rs ++ runes rest

namespace ReadsAs

variable {bytes bytes' : List UInt8} {rs rs' : List Rune}

theorem nil : ReadsAs [] [] := fun _ => rfl

theorem append (h : ReadsAs bytes rs) (h' : ReadsAs bytes' rs') : ReadsAs (bytes ++ bytes') (rs ++ rs') := by
  intro rest
  rw [List.append_assoc, h, h', List.append_assoc]

theorem encode (c : Char) : ReadsAs (String.utf8EncodeChar c) [.char c] := runes_encode c

theorem chars (cs : List Char) : ReadsAs (Text.ofChars cs).bytes (cs.map .char) := by
  induction cs with
  | nil => exact nil
  | cons c cs ih => exact (encode c).append ih

/-- Bytes that continue a sequence stand alone where they begin one. -/
theorem tail (h : ∀ b ∈ bytes, isTail b = true) : ReadsAs bytes (bytes.map .stray) := by
  intro rest
  induction bytes with
  | nil => rfl
  | cons b bytes ih =>
    rw [List.cons_append, runes_tail (h b List.mem_cons_self), ih fun b hb => h b (List.mem_cons_of_mem _ hb)]
    rfl

theorem concat {α : Type} {f : α → Text} {g : α → List Rune} (as : List α) (h : ∀ a ∈ as, ReadsAs (f a).bytes (g a)) :
    ReadsAs (Text.concat (as.map f)).bytes (as.flatMap g) := by
  induction as with
  | nil => exact nil
  | cons a as ih => exact (h a List.mem_cons_self).append (ih fun a ha => h a (List.mem_cons_of_mem _ ha))

theorem runes_eq (h : ReadsAs bytes rs) : runes bytes = rs := by
  simpa [runes] using h []

end ReadsAs

end Utf8

/-- What holds of the ASCII characters and of the others holds of every character. -/
theorem Char.ascii_or {p : Char → Prop} (ascii : ∀ n < 0x80, p (Char.ofNat n)) (other : ∀ c : Char, 0x80 ≤ c.toNat → p c) (c : Char) :
    p c := by
  rcases lt_or_ge c.toNat 0x80 with hascii | hother
  · exact Char.ofNat_toNat c ▸ ascii c.toNat hascii
  · exact other c hother

/-- Runes without stray bytes are characters. -/
theorem Rune.exists_chars {rs : List Rune} (h : ∀ b, stray b ∉ rs) : ∃ cs : List Char, rs = cs.map char := by
  induction rs with
  | nil => exact ⟨[], rfl⟩
  | cons r rs ih =>
    obtain ⟨cs, rfl⟩ := ih fun b hb => h b (List.mem_cons_of_mem _ hb)
    cases r with
    | char c => exact ⟨c :: cs, rfl⟩
    | stray b => exact absurd List.mem_cons_self (h b)

/-! ## Text -/

namespace Text

theorem ofRunes_runes (t : Text) : ofRunes t.runes = t := congrArg Text.mk (Utf8.flatMap_bytes_runes t.bytes)

theorem ofRunes_append (rs rs' : List Rune) : ofRunes (rs ++ rs') = ofRunes rs ++ ofRunes rs' := congrArg Text.mk List.flatMap_append

theorem ofRunes_chars (cs : List Char) : ofRunes (cs.map .char) = ofChars cs := by
  rw [ofRunes, ofChars, List.flatMap_map]
  rfl

theorem runes_ofChars (cs : List Char) : (ofChars cs).runes = cs.map .char := (Utf8.ReadsAs.chars cs).runes_eq

theorem ofChars_inj {cs ds : List Char} (h : ofChars cs = ofChars ds) : cs = ds := by
  have hrunes := congrArg runes h
  rw [runes_ofChars, runes_ofChars] at hrunes
  exact List.map_injective_iff.2 (fun _ _ hchar => Rune.char.inj hchar) hrunes

theorem eq_ofChars_of_runes {t : Text} {cs : List Char} (h : t.runes = cs.map .char) : t = ofChars cs := by
  rw [← ofRunes_runes t, h, ofRunes_chars]

end Text

theorem isUtf8_iff_runes {bytes : List UInt8} : IsUtf8 bytes ↔ ∀ b, Rune.stray b ∉ Utf8.runes bytes := by
  rw [IsUtf8, Utf8.isValid, List.all_eq_true]
  constructor
  · intro h b hb
    exact Bool.false_ne_true (h _ hb)
  · intro h r hr
    cases r with
    | char c => rfl
    | stray b => exact absurd hr (h b)

end SensorWire
