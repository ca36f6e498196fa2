import Mathlib
import SensorWire.Proofs.Runes
import SensorWire.Proofs.SchemaLoading

/-!
# Spellings of names

Names are found in any case and with white space around them. Texts that differ in the case of ASCII letters alone are the same when case
is ignored (`Text.folded_of_lowered`), and what stands beside a name, a blank or a separator, stays what it is (`Rune.folded_eq_or`). So
the white space around a text and the separators inside it can be told from what the text is when case is ignored.

Main statements: `Text.folded_of_lowered`, `Text.exists_trim`, `Text.trim_ofChars`.
-/

namespace SensorWire

/-! ## Runes when case is ignored -/

namespace Rune

/-- A rune as it is compared when case is ignored. -/
def folded : Rune → Rune
  | char c => char (Char.folded c)
  | r => r

/-- Whether a rune stands in no name: white space, a separator of paths, or a stray byte. -/
def isMark : Rune → Bool
  | char c => Char.isBlank c || c == '/' || c == '.'
  | stray _ => true

variable {r : Rune}

theorem isMark_of_isBlank (h : r.isBlank = true) : r.isMark = true := by
  cases r with
  | char c => simp [isMark, show Char.isBlank c = true from h]
  | stray b => rfl

theorem isBlank_of_isMark (h : r.isMark = false) : r.isBlank = false := by
  by_contra hblank
  exact Bool.false_ne_true (h.symm.trans (isMark_of_isBlank (by simpa using hblank)))

theorem toLower_of_le {c : Char} (h : 0x80 ≤ c.toNat) : c.toLower = c := by
  have hval : 0x80 ≤ c.val.toNat := h
  have hlast : 'Z'.val.toNat = 0x5a := rfl
  rw [Char.toLower, dif_neg]
  simp only [ge_iff_le, UInt32.le_iff_toNat_le, not_and, not_le]
  omega

/-- What changes when case is ignored may stand in a name, before and after. -/
theorem folded_eq_or (r : Rune) : r.folded = r ∨ r.folded.isMark = false ∧ r.isMark = false := by
  cases r with
  | stray b => exact .inl rfl
  | char c =>
    rcases lt_or_ge c.toNat 0x80 with hascii | hother
    · have hall : ∀ n < 0x80, (char (Char.ofNat n)).folded = char (Char.ofNat n) ∨
          (char (Char.ofNat n)).folded.isMark = false ∧ (char (Char.ofNat n)).isMark = false := by decide +kernel
      have hc := hall c.toNat hascii
      rwa [Char.ofNat_toNat] at hc
    · by_cases hlong : c.toNat = 0x17f
      · obtain rfl : c = Char.ofNat 0x17f := by rw [← hlong, Char.ofNat_toNat]
        exact .inr (by decide)
      · by_cases hkelvin : c.toNat = 0x212a
        · obtain rfl : c = Char.ofNat 0x212a := by rw [← hkelvin, Char.ofNat_toNat]
          exact .inr (by decide)
        · refine .inl (congrArg char ?_)
          rw [Char.folded, if_neg hlong, if_neg hkelvin, toLower_of_le hother]

theorem isMark_folded (r : Rune) : r.folded.isMark = r.isMark := by
  rcases folded_eq_or r with h | ⟨h, h'⟩
  · rw [h]
  · rw [h, h']

theorem folded_of_isMark (h : r.isMark = true) : r.folded = r := by
  rcases folded_eq_or r with heq | ⟨-, hnot⟩
  · exact heq
  · exact absurd h (by simp [hnot])

theorem isBlank_folded (r : Rune) : r.folded.isBlank = r.isBlank := by
  rcases folded_eq_or r with h | ⟨h, h'⟩
  · rw [h]
  · rw [isBlank_of_isMark h, isBlank_of_isMark h']

end Rune

/-! ## Texts when case is ignored -/

/-- The byte of a small letter in place of that of an ASCII capital. -/
def lowered (b : UInt8) : UInt8 := if 0x41 ≤ b && b ≤ 0x5a then b + 0x20 else b

variable {b : UInt8}

theorem lowered_of_le (h : 0x80 ≤ b) : lowered b = b := by
  rw [lowered]
  grind

theorem lowered_lt_iff : lowered b < 0x80 ↔ b < 0x80 := by
  rw [lowered]
  grind

theorem folded_ascii (h : b < 0x80) : Char.folded (Char.ofNat b.toNat) = Char.ofNat (lowered b).toNat := by
  have hall : ∀ n < 0x80, Char.folded (Char.ofNat n) = Char.ofNat (lowered n.toUInt8).toNat := by decide +kernel
  have hb := hall b.toNat (UInt8.lt_iff_toNat_lt.1 h)
  rwa [show b.toNat.toUInt8 = b from UInt8.ofNat_toNat] at hb

namespace Text

variable {t : Text} {cs ws ws' : List Char}

theorem folded_eq (t : Text) : t.folded = t.runes.map Rune.folded := rfl

theorem folded_ofChars (cs : List Char) : (ofChars cs).folded = cs.map fun c => .char (Char.folded c) := by
  rw [folded_eq, runes_ofChars, List.map_map]
  rfl

theorem ofChars_append (cs ds : List Char) : ofChars (cs ++ ds) = ofChars cs ++ ofChars ds := congrArg Text.mk List.flatMap_append

theorem isEmpty_of_folded (h : t.folded ≠ []) : t.isEmpty = false := by
  rw [isEmpty, List.isEmpty_eq_false_iff]
  intro hnil
  rw [folded_eq, runes, hnil] at h
  exact h rfl

/-- A text without stray bytes is its characters. -/
theorem exists_ofChars (h : ∀ b, .stray b ∉ t.folded) : ∃ cs, t = ofChars cs := by
  obtain ⟨cs, hcs⟩ := Rune.exists_chars fun b hb => h b (List.mem_map.2 ⟨.stray b, hb, rfl⟩)
  exact ⟨cs, eq_ofChars_of_runes hcs⟩

/-- Texts that differ in the case of ASCII letters alone are the same when case is ignored. -/
theorem folded_of_lowered {bytes : List UInt8} (h : bytes.map lowered = (ofChars cs).bytes.map lowered) :
    (Text.mk bytes).folded = (ofChars cs).folded := by
  induction cs generalizing bytes with
  | nil =>
    obtain rfl : bytes = [] := List.map_eq_nil_iff.1 h
    rfl
  | cons c cs ih =>
    rw [ofChars, List.flatMap_cons, List.map_append] at h
    obtain ⟨bytes, rest, rfl, hfirst, hrest⟩ := List.map_eq_append_iff.1 h
    rw [folded_ofChars, List.map_cons, ← folded_ofChars cs, ← ih hrest]
    rcases Utf8.encode_cases c with ⟨hascii, hencode, hbyte⟩ | ⟨hother, -⟩
    · rw [hencode, List.map_singleton] at hfirst
      obtain ⟨b, rfl, hb⟩ := List.map_eq_singleton_iff.1 hfirst
      have hsmall : b < 0x80 := lowered_lt_iff.1 (hb ▸ lowered_lt_iff.2 hbyte)
      have hc : Char.ofNat c.toNat.toUInt8.toNat = c := by rw [Utf8.toNat_byte (by omega), Char.ofNat_toNat]
      rw [folded_eq, runes, List.singleton_append, Utf8.runes_ascii hsmall, List.map_cons, Rune.folded, folded_ascii hsmall, hb,
        ← folded_ascii hbyte, hc]
      rfl
    · have hsame : bytes = String.utf8EncodeChar c := by
        have hle := Utf8.le_of_mem_encode hother
        rw [List.map_congr_left fun b hb => lowered_of_le (hle b hb), List.map_id'] at hfirst
        rw [← hfirst, List.map_congr_left fun b hb => ?_, List.map_id']
        have hlarge : 0x80 ≤ lowered b := hle _ (hfirst ▸ List.mem_map_of_mem hb)
        exact lowered_of_le (UInt8.not_lt.1 fun hsmall => UInt8.not_lt.2 hlarge (lowered_lt_iff.2 hsmall))
      rw [hsame, folded_eq, runes, Utf8.runes_encode]
      rfl

/-! ## White space around a text -/

/-- Blanks stay what they are when case is ignored. -/
theorem folded_blanks (h : ∀ c ∈ ws, Char.isBlank c = true) : (ofChars ws).folded = ws.map .char := by
  rw [folded_ofChars]
  exact List.map_congr_left fun c hc => Rune.folded_of_isMark (Rune.isMark_of_isBlank (r := .char c) (h c hc))

/-- A text is what it is trimmed to with white space around it. -/
theorem exists_trim (t : Text) :
    ∃ ws ws' : List Char, (∀ c ∈ ws ++ ws', Char.isBlank c = true) ∧ t = ofChars ws ++ t.trim ++ ofChars ws' := by
  have hblanks (rs : List Rune) (h : ∀ r ∈ rs, r.isBlank = true) :
      ∃ ws, ofRunes rs = ofChars ws ∧ ∀ c ∈ ws, Char.isBlank c = true := by
    obtain ⟨ws, rfl⟩ := Rune.exists_chars fun b hb => Bool.false_ne_true (h (.stray b) hb)
    exact ⟨ws, ofRunes_chars ws, List.forall_mem_map.1 h⟩
  obtain ⟨ws, hws, hblank⟩ := hblanks (t.runes.takeWhile Rune.isBlank) fun r hr => List.mem_takeWhile_imp hr
  obtain ⟨ws', hws', hblank'⟩ :=
    hblanks ((t.runes.dropWhile Rune.isBlank).rtakeWhile Rune.isBlank) fun r hr => List.mem_rtakeWhile_imp hr
  refine ⟨ws, ws', List.forall_mem_append.2 ⟨hblank, hblank'⟩, ?_⟩
  have htrim : t.trim = ofRunes ((t.runes.dropWhile Rune.isBlank).rdropWhile Rune.isBlank) := rfl
  rw [htrim, ← hws, ← hws', ← ofRunes_append, ← ofRunes_append, List.append_assoc, List.rdropWhile_append_rtakeWhile,
    List.takeWhile_append_dropWhile, ofRunes_runes]

/-- White space around a text is trimmed off. -/
theorem trim_ofChars (hws : ∀ c ∈ ws, Char.isBlank c = true) (hcs : ∀ c ∈ cs, Char.isBlank c = false) (hne : cs ≠ [])
    (hws' : ∀ c ∈ ws', Char.isBlank c = true) : (ofChars (ws ++ cs ++ ws')).trim = ofChars cs := by
  have hblank {ws : List Char} (h : ∀ c ∈ ws, Char.isBlank c = true) : ∀ r ∈ ws.map Rune.char, r.isBlank = true := List.forall_mem_map.2 h
  have hfirst : ((cs ++ ws').map Rune.char).dropWhile Rune.isBlank = (cs ++ ws').map Rune.char := by
    obtain ⟨c, cs, rfl⟩ := List.exists_cons_of_ne_nil hne
    exact List.dropWhile_cons_of_neg (by simp [Rune.isBlank, hcs])
  have hlast : (cs.reverse.map Rune.char).dropWhile Rune.isBlank = cs.reverse.map Rune.char := by
    obtain ⟨c, cs', hcons⟩ := List.exists_cons_of_ne_nil (List.reverse_ne_nil_iff.2 hne)
    have hc : Char.isBlank c = false := hcs c (List.mem_reverse.1 (hcons ▸ List.mem_cons_self))
    rw [hcons]
    exact List.dropWhile_cons_of_neg (by simp [Rune.isBlank, hc])
  rw [trim, runes_ofChars, List.append_assoc, List.map_append, List.dropWhile_append_of_pos (hblank hws), hfirst, ← List.map_reverse,
    List.reverse_append, List.map_append, List.dropWhile_append_of_pos (hblank fun c hc => hws' c (List.mem_reverse.1 hc)), hlast,
    ← List.map_reverse, List.reverse_reverse, ofRunes_chars]

/-! ## Separators inside a text -/

theorem splitBytes_eq_splitOn (sep : UInt8) (l : List UInt8) : splitBytes sep l = l.splitOn sep := by
  induction l with
  | nil => rfl
  | cons b l ih =>
    rw [splitBytes, List.splitOn_eq_splitOnP, List.splitOnP_cons_eq_if_modifyHead, ← List.splitOn_eq_splitOnP, ← ih]
    by_cases hb : b = sep
    · simp [hb]
    · simp only [hb, if_false, beq_iff_eq]
      cases hsplit : splitBytes sep l with
      | nil => exact absurd (ih.symm.trans hsplit) (List.splitOn_ne_nil sep l)
      | cons piece pieces => rfl

/-- An ASCII character occurs in a text exactly if its byte does. -/
theorem hasChar_ofChars {c : Char} (hc : c.toNat < 0x80) : (ofChars cs).hasChar c = true ↔ c ∈ cs := by
  have hbyte : (c.toNat.toUInt8).toNat = c.toNat := Utf8.toNat_byte (by omega)
  rw [hasChar, List.contains_iff_mem, ofChars, List.mem_flatMap]
  constructor
  · rintro ⟨d, hd, hmem⟩
    rcases Utf8.encode_cases d with ⟨hascii, hencode, -⟩ | ⟨hother, -⟩
    · rw [hencode, List.mem_singleton] at hmem
      have heq := congrArg UInt8.toNat hmem
      rw [hbyte, Utf8.toNat_byte (by omega)] at heq
      rwa [Char.toNat_inj.1 heq]
    · have hle := UInt8.le_iff_toNat_le.1 (Utf8.le_of_mem_encode hother _ hmem)
      rw [hbyte] at hle
      exact absurd hle (not_le.2 hc)
  · intro hmem
    rcases Utf8.encode_cases c with ⟨-, hencode, -⟩ | ⟨hother, -⟩
    · exact ⟨c, hmem, hencode ▸ List.mem_singleton.2 rfl⟩
    · exact absurd hc (not_lt.2 hother)

theorem intercalate_splitOn (t : Text) (sep : Char) :
    [sep.toNat.toUInt8].intercalate ((t.splitOn sep).map Text.bytes) = t.bytes := by
  rw [splitOn, List.map_map, splitBytes_eq_splitOn, show Text.bytes ∘ Text.mk = id from rfl, List.map_id]
  exact List.intercalate_splitOn _

/-- A text of parts without the separator is divided into these. -/
theorem splitOn_eq {sep : Char} {ts : List Text} (hne : ts ≠ []) (hsep : ∀ t ∈ ts, t.hasChar sep = false)
    (h : t.bytes = [sep.toNat.toUInt8].intercalate (ts.map Text.bytes)) : t.splitOn sep = ts := by
  have hparts : ∀ l ∈ ts.map Text.bytes, sep.toNat.toUInt8 ∉ l := by
    refine List.forall_mem_map.2 fun t ht hmem => ?_
    simpa using (hsep t ht).symm.trans (List.contains_iff_mem.2 hmem)
  rw [splitOn, splitBytes_eq_splitOn, h, List.splitOn_intercalate _ hparts (by simpa using hne), List.map_map,
    show Text.mk ∘ Text.bytes = id from rfl, List.map_id]

theorem bytes_join (sep : Text) (ts : List Text) : (join sep ts).bytes = sep.bytes.intercalate (ts.map Text.bytes) := by
  fun_induction join sep ts with
  | case1 => rfl
  | case2 t => simp
  | case3 t rest hne ih =>
    obtain ⟨next, rest, rfl⟩ := List.exists_cons_of_ne_nil hne
    simp [ih]

/-- Texts without the separator are what their row is divided into. -/
theorem splitOn_join {sep : Char} {bar : Text} {ts : List Text} (hbar : bar.bytes = [sep.toNat.toUInt8]) (hne : ts ≠ [])
    (hsep : ∀ t ∈ ts, t.hasChar sep = false) : (join bar ts).splitOn sep = ts :=
  splitOn_eq hne hsep (by rw [bytes_join, hbar])

end Text

end SensorWire
