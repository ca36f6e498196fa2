import Mathlib
import SensorWire.Proofs.Conversions
import SensorWire.Proofs.Spelling
import SensorWire.Text.Hex

/-!
# Hexadecimal text

Hexadecimal text is read without its white space, without the marks in front of it, and in either case of the letters. `Spells` says which
digits spell which bytes, and a text is read exactly if what is left of it without white space is marks and then such digits
(`parse_eq_ok_iff`). A change of white space or of the case of a digit leaves the normal form of a text as it is, and the normal form
decides what is read (`parse_of_normal`).

Main statement: `hex_text_round_trip`.
-/

namespace SensorWire

namespace Hex

variable {b : UInt8} {c : Char} {cs mark : List Char} {t : Text} {bytes l : List UInt8} {n : Nat}

/-! ## Digits -/

/-- A character that is the digit of a number, in either case. -/
def IsDigit (c : Char) (n : Nat) : Prop := "0123456789abcdef".toList[n]? = some c.toLower

/-- Digits that spell bytes: two for each, the higher one first. -/
inductive Spells : List Char → List UInt8 → Prop where
  | nil : Spells [] []
  | cons {c d : Char} {x y : Nat} {digits : List Char} {bytes : List UInt8} (high : IsDigit c x) (low : IsDigit d y)
      (rest : Spells digits bytes) : Spells (c :: d :: digits) (UInt8.ofNat (16 * x + y) :: bytes)

theorem Spells.length_eq (h : Spells cs bytes) : cs.length = 2 * bytes.length := by
  induction h with
  | nil => rfl
  | cons _ _ _ ih =>
    simp only [List.length_cons, ih]
    omega

/-- A capital digit made small; every other character stays as it is. -/
def small (c : Char) : Char := if 'A' ≤ c ∧ c ≤ 'F' then c.toLower else c

theorem small_of_le (h : 0x80 ≤ c.toNat) : small c = c := by
  have hval : 0x80 ≤ c.val.toNat := h
  have hlast : 'F'.val.toNat = 0x46 := rfl
  rw [small, if_neg]
  simp only [Char.le_def, UInt32.le_iff_toNat_le, not_and, not_le]
  omega

theorem toNat_hexDigit_lt : ∀ n < 16, (hexDigit n).toNat < 0x80 := by decide

theorem ascii_of_small (hn : n < 16) (h : small c = hexDigit n) : c.toNat < 0x80 := by
  by_contra hother
  rw [small_of_le (not_lt.1 hother)] at h
  exact hother (h ▸ toNat_hexDigit_lt n hn)

/-- The characters that are digits are those which are made the small digit. -/
theorem isDigit_iff : IsDigit c n ↔ n < 16 ∧ small c = hexDigit n := by
  have hdigits : ∀ n < 16, "0123456789abcdef".toList[n]? = some (hexDigit n) := by decide
  rcases lt_or_ge n 16 with hn | hn
  · simp only [IsDigit, hdigits n hn, Option.some.injEq, hn, true_and]
    refine Char.ascii_or (p := fun c => ∀ n < 16, hexDigit n = c.toLower ↔ small c = hexDigit n) (by decide +kernel) ?_ c n hn
    intro c hc n _
    rw [Rune.toLower_of_le hc, small_of_le hc, eq_comm]
  · simp [IsDigit, not_lt.2 hn]

theorem IsDigit.isBlank (h : IsDigit c n) : Char.isBlank c = false := by
  obtain ⟨hn, hsmall⟩ := isDigit_iff.1 h
  refine Char.ascii_or (p := fun c => ∀ n < 16, small c = hexDigit n → Char.isBlank c = false) (by decide +kernel) ?_ c n hn hsmall
  intro c hc n hn h
  exact absurd (ascii_of_small hn h) (not_lt.2 hc)

/-! ### Their bytes -/

theorem digitValue?_ascii : ∀ k < 0x80, ∀ n < 16, digitValue? k.toUInt8 = some n ↔ small (Char.ofNat k) = hexDigit n := by decide +kernel

theorem lt_of_digitValue? (h : digitValue? b = some n) : b < 0x80 ∧ n < 16 := by
  simp only [digitValue?, Bool.and_eq_true, decide_eq_true_eq] at h
  simp only [UInt8.lt_iff_toNat_lt, UInt8.reduceToNat]
  split_ifs at h
  all_goals
    injection h
    omega

theorem exists_isDigit_of_digitValue? (h : digitValue? b = some n) : ∃ c, String.utf8EncodeChar c = [b] ∧ IsDigit c n := by
  obtain ⟨hb, hn⟩ := lt_of_digitValue? h
  refine ⟨Char.ofNat b.toNat, Utf8.encode_ascii hb, isDigit_iff.2 ⟨hn, ?_⟩⟩
  refine (digitValue?_ascii _ (UInt8.lt_iff_toNat_lt.1 hb) n hn).1 ?_
  rwa [show b.toNat.toUInt8 = b from UInt8.ofNat_toNat]

theorem IsDigit.exists_digitValue? (h : IsDigit c n) :
    ∃ b, String.utf8EncodeChar c = [b] ∧ b < 0x80 ∧ digitValue? b = some n := by
  obtain ⟨hn, hsmall⟩ := isDigit_iff.1 h
  rcases Utf8.encode_cases c with ⟨hascii, hencode, hbyte⟩ | ⟨hother, -⟩
  · exact ⟨_, hencode, hbyte, (digitValue?_ascii _ hascii n hn).2 (by rwa [Char.ofNat_toNat])⟩
  · exact absurd (ascii_of_small hn hsmall) (not_lt.2 hother)

/-- Pairs of digits are read as the bytes that they spell. -/
theorem decode_eq_ok_iff : decode l = .ok bytes ↔ ∃ cs, l = (Text.ofChars cs).bytes ∧ Spells cs bytes := by
  constructor
  · intro h
    fun_induction decode l generalizing bytes with
    | case1 =>
      cases h
      exact ⟨[], rfl, .nil⟩
    | case2 | case3 | case4 | case5 => cases h
    | case6 a b rest x y hb ha ih =>
      obtain ⟨more, hmore, rfl⟩ := map_eq_ok_iff.1 h
      obtain ⟨cs, rfl, hcs⟩ := ih hmore
      obtain ⟨c, hc, hcx⟩ := exists_isDigit_of_digitValue? ha
      obtain ⟨d, hd, hdy⟩ := exists_isDigit_of_digitValue? hb
      exact ⟨c :: d :: cs, by simp [Text.ofChars, hc, hd], .cons hcx hdy hcs⟩
  · rintro ⟨cs, rfl, hcs⟩
    induction hcs with
    | nil => rfl
    | @cons c d x y digits bytes high low _ ih =>
      obtain ⟨a, hc, -, ha⟩ := high.exists_digitValue?
      obtain ⟨b, hd, -, hb⟩ := low.exists_digitValue?
      have hbytes : (Text.ofChars (c :: d :: digits)).bytes = a :: b :: (Text.ofChars digits).bytes := by simp [Text.ofChars, hc, hd]
      rw [hbytes, decode, ha, hb]
      dsimp only
      rw [ih]
      rfl

theorem Spells.ascii (h : Spells cs bytes) : ∀ b ∈ (Text.ofChars cs).bytes, b < 0x80 := by
  induction h with
  | nil => exact List.forall_mem_nil _
  | cons high low _ ih =>
    obtain ⟨a, hc, ha, -⟩ := high.exists_digitValue?
    obtain ⟨b, hd, hb, -⟩ := low.exists_digitValue?
    simpa [Text.ofChars, hc, hd, ha, hb] using ih

/-! ## White space and marks -/

/-- The characters of a text that are not white space. -/
def unspaced (cs : List Char) : List Char := cs.filter fun c => !Char.isBlank c

/-- What may stand before the digits: `0x` or not, and then `0X` or not. -/
def IsMark (mark : List Char) : Prop := ∃ p q, (p = [] ∨ p = ['0', 'x']) ∧ (q = [] ∨ q = ['0', 'X']) ∧ mark = p ++ q

theorem squeeze_ofChars (cs : List Char) : squeeze (.ofChars cs) = (Text.ofChars (unspaced cs)).bytes := by
  rw [squeeze, Text.runes_ofChars, List.filter_map, List.flatMap_map]
  rfl

/-- A text in which nothing but white space is not ASCII has no stray bytes. -/
theorem exists_ofChars_of_squeeze (h : ∀ b ∈ squeeze t, b < 0x80) : ∃ cs, t = .ofChars cs := by
  have hstray : ∀ b, .stray b ∉ t.runes := by
    intro b hb
    have hmem : b ∈ squeeze t := List.mem_flatMap.2 ⟨.stray b, List.mem_filter.2 ⟨hb, rfl⟩, List.mem_singleton.2 rfl⟩
    exact UInt8.not_lt.2 (Utf8.le_of_stray_mem hb) (h b hmem)
  obtain ⟨cs, hcs⟩ := Rune.exists_chars hstray
  exact ⟨cs, Text.eq_ofChars_of_runes hcs⟩

theorem dropStart_append (start : Text) (l : List UInt8) : dropStart start (start.bytes ++ l) = l := by
  rw [dropStart, Text.afterStart?_eq_some_iff.2 rfl]
  rfl

/-- A start is dropped, or there is none. -/
theorem exists_dropStart (start : Text) (l : List UInt8) : ∃ p, (p = .empty ∨ p = start) ∧ l = p.bytes ++ dropStart start l := by
  rw [dropStart]
  cases h : Text.afterStart? start.bytes l with
  | none => exact ⟨.empty, .inl rfl, rfl⟩
  | some rest => exact ⟨start, .inr rfl, Text.afterStart?_eq_some_iff.1 h⟩

/-- Digits do not begin with a mark. -/
theorem dropStart_of_decode {start : Text} (hstart : start = "0x" ∨ start = "0X") (h : decode l = .ok bytes) : dropStart start l = l := by
  obtain ⟨p, rfl | rfl, hl⟩ := exists_dropStart start l
  · exact hl.symm
  · rw [hl] at h
    rcases hstart with rfl | rfl
    all_goals cases h

/-- The marks are what is dropped. -/
theorem decode_dropStart_eq_ok_iff : decode (dropStart "0X" (dropStart "0x" l)) = .ok bytes ↔
    ∃ mark rest, IsMark mark ∧ l = (Text.ofChars mark).bytes ++ rest ∧ decode rest = .ok bytes := by
  constructor
  · intro h
    obtain ⟨p, hp, hl⟩ := exists_dropStart "0x" l
    obtain ⟨q, hq, hrest⟩ := exists_dropStart "0X" (dropStart "0x" l)
    rw [hrest, ← List.append_assoc] at hl
    rcases hp with rfl | rfl
    all_goals rcases hq with rfl | rfl
    · exact ⟨[], _, ⟨_, _, .inl rfl, .inl rfl, rfl⟩, hl, h⟩
    · exact ⟨['0', 'X'], _, ⟨_, _, .inl rfl, .inr rfl, rfl⟩, hl, h⟩
    · exact ⟨['0', 'x'], _, ⟨_, _, .inr rfl, .inl rfl, rfl⟩, hl, h⟩
    · exact ⟨['0', 'x', '0', 'X'], _, ⟨_, _, .inr rfl, .inr rfl, rfl⟩, hl, h⟩
  · rintro ⟨_, rest, ⟨p, q, hp, hq, rfl⟩, rfl, hrest⟩
    have hcapital : dropStart "0X" ((Text.ofChars q).bytes ++ rest) = rest := by
      rcases hq with rfl | rfl
      · exact dropStart_of_decode (.inr rfl) hrest
      · exact dropStart_append "0X" rest
    have hsmall : dropStart "0x" ((Text.ofChars p).bytes ++ ((Text.ofChars q).bytes ++ rest)) = (Text.ofChars q).bytes ++ rest := by
      rcases hp with rfl | rfl
      · rcases hq with rfl | rfl
        · exact dropStart_of_decode (.inl rfl) hrest
        · rfl
      · exact dropStart_append "0x" _
    rw [Text.ofChars_append, Text.bytes_append, List.append_assoc, hsmall, hcapital, hrest]

theorem IsMark.cases (h : IsMark mark) : mark = [] ∨ mark = ['0', 'x'] ∨ mark = ['0', 'X'] ∨ mark = ['0', 'x', '0', 'X'] := by
  obtain ⟨p, q, rfl | rfl, rfl | rfl, rfl⟩ := h
  all_goals simp

theorem IsMark.ascii (h : IsMark mark) : ∀ b ∈ (Text.ofChars mark).bytes, b < 0x80 := by
  rcases h.cases with rfl | rfl | rfl | rfl
  all_goals decide +kernel

/-- A text is read as bytes exactly if marks and then digits that spell them are left of it without its white space. -/
theorem parse_eq_ok_iff : parse t = .ok bytes ↔
    ∃ cs mark digits, t = .ofChars cs ∧ unspaced cs = mark ++ digits ∧ IsMark mark ∧ Spells digits bytes := by
  rw [parse, decode_dropStart_eq_ok_iff]
  constructor
  · rintro ⟨mark, _, hmark, hsqueeze, hrest⟩
    obtain ⟨digits, rfl, hdigits⟩ := decode_eq_ok_iff.1 hrest
    obtain ⟨cs, rfl⟩ : ∃ cs, t = .ofChars cs := by
      refine exists_ofChars_of_squeeze ?_
      rw [hsqueeze]
      exact List.forall_mem_append.2 ⟨hmark.ascii, hdigits.ascii⟩
    rw [squeeze_ofChars, ← Text.bytes_append, ← Text.ofChars_append] at hsqueeze
    exact ⟨cs, mark, digits, rfl, Text.ofChars_inj (congrArg Text.mk hsqueeze), hmark, hdigits⟩
  · rintro ⟨cs, mark, digits, rfl, hunspaced, hmark, hdigits⟩
    refine ⟨mark, _, hmark, ?_, decode_eq_ok_iff.2 ⟨digits, rfl, hdigits⟩⟩
    rw [squeeze_ofChars, hunspaced, Text.ofChars_append, Text.bytes_append]

/-! ## The normal form of a text -/

/-- What a text says without its white space and with small digits. -/
def normal (cs : List Char) : List Char := (unspaced cs).map small

theorem normal_append (cs ds : List Char) : normal (cs ++ ds) = normal cs ++ normal ds := by
  rw [normal, unspaced, List.filter_append, List.map_append]
  rfl

theorem normal_blank (h : Char.isBlank c = true) (cs : List Char) : normal (c :: cs) = normal cs := by
  rw [normal, unspaced, List.filter_cons_of_neg (by simp [h])]
  rfl

theorem normal_digit (h : IsDigit c n) (cs : List Char) : normal (c :: cs) = hexDigit n :: normal cs := by
  rw [normal, unspaced, List.filter_cons_of_pos (by simp [h.isBlank]), List.map_cons, (isDigit_iff.1 h).2]
  rfl

theorem isDigit_hexDigit (h : n < 16) : IsDigit (hexDigit n) n := by
  have hsmall : ∀ n < 16, small (hexDigit n) = hexDigit n := by decide
  exact isDigit_iff.2 ⟨h, hsmall n h⟩

/-- A byte is written with the digits that spell it. -/
theorem spells_byte (b : UInt8) (h : Spells cs bytes) : Spells (byte b ++ cs) (b :: bytes) := by
  have hb := b.toNat_lt
  have hvalue : UInt8.ofNat (16 * (b.toNat / 16) + b.toNat % 16) = b := by rw [Nat.div_add_mod, UInt8.ofNat_toNat]
  have hpair := Spells.cons (isDigit_hexDigit (show b.toNat / 16 < 16 by omega)) (isDigit_hexDigit (show b.toNat % 16 < 16 by omega)) h
  rwa [hvalue] at hpair

theorem spells_flatMap_byte (bytes : List UInt8) : Spells (bytes.flatMap byte) bytes := by
  induction bytes with
  | nil => exact .nil
  | cons b bytes ih => exact spells_byte b ih

theorem toLower_small (c : Char) : (small c).toLower = c.toLower :=
  Char.ascii_or (p := fun c => (small c).toLower = c.toLower) (by decide +kernel) (fun c hc => by rw [small_of_le hc]) c

/-- Digits spell the same in either case. -/
theorem Spells.of_map_small (h : Spells (cs.map small) bytes) : Spells cs bytes := by
  generalize hds : cs.map small = ds at h
  induction h generalizing cs with
  | nil =>
    obtain rfl := List.map_eq_nil_iff.1 hds
    exact .nil
  | cons high low _ ih =>
    obtain ⟨c, _, rfl, rfl, hrest⟩ := List.map_eq_cons_iff.1 hds
    obtain ⟨d, cs, rfl, rfl, hmore⟩ := List.map_eq_cons_iff.1 hrest
    rw [IsDigit, toLower_small] at high low
    exact .cons high low (ih hmore)

/-- Marks have no capital digits. -/
theorem IsMark.eq_of_map_small (h : IsMark mark) (hcs : cs.map small = mark) : cs = mark := by
  have hsmall (c : Char) : small c ∈ ['0', 'x', 'X'] → small c = c :=
    Char.ascii_or (p := fun c => small c ∈ ['0', 'x', 'X'] → small c = c) (by decide +kernel) (fun c hc _ => small_of_le hc) c
  have hmem : ∀ c ∈ mark, c ∈ ['0', 'x', 'X'] := by
    rcases h.cases with rfl | rfl | rfl | rfl
    all_goals simp
  rw [← hcs, List.map_congr_left fun c hc => hsmall c (hmem _ (hcs ▸ List.mem_map_of_mem hc)), List.map_id']

/-- The normal form decides what is read. -/
theorem parse_of_normal (hmark : IsMark mark) (h : normal cs = mark ++ bytes.flatMap byte) : parse (.ofChars cs) = .ok bytes := by
  obtain ⟨p, digits, hunspaced, hp, hdigits⟩ := List.map_eq_append_iff.1 h
  obtain rfl := hmark.eq_of_map_small hp
  refine parse_eq_ok_iff.2 ⟨cs, p, digits, rfl, hunspaced, hmark, Spells.of_map_small ?_⟩
  rw [hdigits]
  exact spells_flatMap_byte bytes

/-! ## Text as people write it -/

theorem normal_byte (b : UInt8) : normal (byte b) = byte b := by
  have hb := b.toNat_lt
  rw [byte, normal_digit (isDigit_hexDigit (by omega)), normal_digit (isDigit_hexDigit (by omega))]
  rfl

/-- Bytes are written with nothing but blanks between their digits. -/
theorem exists_normal_spaced (bytes : List UInt8) : ∃ cs, spaced bytes = .ofChars cs ∧ normal cs = bytes.flatMap byte := by
  induction bytes with
  | nil => exact ⟨[], rfl, rfl⟩
  | cons b bytes ih =>
    cases bytes with
    | nil =>
      refine ⟨byte b, rfl, ?_⟩
      rw [normal_byte, List.flatMap_singleton]
    | cons next rest =>
      obtain ⟨cs, hcs, hnormal⟩ := ih
      refine ⟨byte b ++ ' ' :: cs, ?_, ?_⟩
      · have hjoin : spaced (b :: next :: rest) = .ofChars (byte b) ++ .ofChars [' '] ++ spaced (next :: rest) := rfl
        rw [hjoin, hcs, ← Text.ofChars_append, ← Text.ofChars_append, List.append_assoc, List.singleton_append]
      · rw [normal_append, normal_byte, normal_blank (by decide), hnormal]
        rfl

/-- The texts that are made of the written bytes by changing the case of digits, by putting white space in and taking it out, and by
putting a mark in front, which is done at most once. -/
inductive Respelled (bytes : List UInt8) : (marked : Bool) → Text → Prop where
  | written : Respelled bytes false (spaced bytes)
  | recase {marked : Bool} {l r : List Char} {c d : Char} {n : Nat} (text : Respelled bytes marked (.ofChars (l ++ c :: r)))
      (digit : IsDigit c n) (same : d.toLower = c.toLower) : Respelled bytes marked (.ofChars (l ++ d :: r))
  | insert {marked : Bool} {l r : List Char} {c : Char} (text : Respelled bytes marked (.ofChars (l ++ r)))
      (blank : Char.isBlank c = true) : Respelled bytes marked (.ofChars (l ++ c :: r))
  | remove {marked : Bool} {l r : List Char} {c : Char} (text : Respelled bytes marked (.ofChars (l ++ c :: r)))
      (blank : Char.isBlank c = true) : Respelled bytes marked (.ofChars (l ++ r))
  | mark {t start : Text} (text : Respelled bytes false t) (front : start = "0x" ∨ start = "0X") : Respelled bytes true (start ++ t)

/-- The marks of a text in which there is one or none. -/
def marksOf (marked : Bool) : List (List Char) := if marked then [['0', 'x'], ['0', 'X']] else [[]]

/-- A text whose normal form is that of the written bytes, after a mark if there is one. -/
def HasNormal (bytes : List UInt8) (marked : Bool) (t : Text) : Prop :=
  ∃ cs, t = .ofChars cs ∧ ∃ mark ∈ marksOf marked, normal cs = mark ++ bytes.flatMap byte

theorem HasNormal.of_normal_eq {marked : Bool} {ds : List Char} (h : HasNormal bytes marked (.ofChars cs)) (heq : normal ds = normal cs) :
    HasNormal bytes marked (.ofChars ds) := by
  obtain ⟨cs', hcs, mark, hmark, hnormal⟩ := h
  obtain rfl := Text.ofChars_inj hcs
  exact ⟨ds, rfl, mark, hmark, heq.trans hnormal⟩

/-- Each change of a text leaves its normal form as it is, but for the mark. -/
theorem Respelled.hasNormal {marked : Bool} (h : Respelled bytes marked t) : HasNormal bytes marked t := by
  induction h with
  | written =>
    obtain ⟨cs, hcs, hnormal⟩ := exists_normal_spaced bytes
    exact ⟨cs, hcs, [], List.mem_singleton.2 rfl, hnormal⟩
  | @recase marked l r c d n _ digit same ih =>
    have digit' : IsDigit d n := by rwa [IsDigit, same]
    apply ih.of_normal_eq
    rw [normal_append, normal_append, normal_digit digit, normal_digit digit']
  | insert _ blank ih =>
    apply ih.of_normal_eq
    rw [normal_append, normal_append, normal_blank blank]
  | remove _ blank ih =>
    apply ih.of_normal_eq
    rw [normal_append, normal_append, normal_blank blank]
  | mark _ front ih =>
    obtain ⟨cs, rfl, mark, hmark, hnormal⟩ := ih
    obtain rfl := List.mem_singleton.1 hmark
    rcases front with rfl | rfl
    · exact ⟨'0' :: 'x' :: cs, rfl, ['0', 'x'], by decide, congrArg (['0', 'x'] ++ ·) hnormal⟩
    · exact ⟨'0' :: 'X' :: cs, rfl, ['0', 'X'], by decide, congrArg (['0', 'X'] ++ ·) hnormal⟩

/-- Bytes are read back from every text that is made of what was written, and nothing else is read: a text that is read as bytes is, without
its white space, marks and then two digits for each byte that spell it. -/
theorem hex_text_round_trip :
    (∀ (bytes : List UInt8) (marked : Bool) (t : Text), Respelled bytes marked t → parse t = .ok bytes) ∧
      ∀ (t : Text) (bytes : List UInt8), parse t = .ok bytes ↔
        ∃ cs mark digits, t = .ofChars cs ∧ unspaced cs = mark ++ digits ∧ IsMark mark ∧ digits.length = 2 * bytes.length ∧
          Spells digits bytes := by
  constructor
  · intro bytes marked t h
    obtain ⟨cs, rfl, mark, hmark, hnormal⟩ := h.hasNormal
    refine parse_of_normal ?_ hnormal
    cases marked with
    | false => exact ⟨[], [], .inl rfl, .inl rfl, List.mem_singleton.1 hmark⟩
    | true =>
      rcases List.mem_pair.1 hmark with rfl | rfl
      · exact ⟨_, [], .inr rfl, .inl rfl, rfl⟩
      · exact ⟨[], _, .inl rfl, .inr rfl, rfl⟩
  · intro t bytes
    rw [parse_eq_ok_iff]
    constructor
    · rintro ⟨cs, mark, digits, ht, hunspaced, hmark, hdigits⟩
      exact ⟨cs, mark, digits, ht, hunspaced, hmark, hdigits.length_eq, hdigits⟩
    · rintro ⟨cs, mark, digits, ht, hunspaced, hmark, -, hdigits⟩
      exact ⟨cs, mark, digits, ht, hunspaced, hmark, hdigits⟩

/-- A capital digit, no blank, a mark, and an ideographic space inside the mark. -/
theorem marked_text_is_read_back :
    Respelled [0x0a, 0xff] true (.ofChars ['0', Char.ofNat 0x3000, 'X', '0', 'A', 'f', 'f']) ∧
      parse (.ofChars ['0', Char.ofNat 0x3000, 'X', '0', 'A', 'f', 'f']) = .ok [0x0a, 0xff] := by
  have hwritten : Respelled [0x0a, 0xff] false (.ofChars (['0'] ++ 'a' :: [' ', 'f', 'f'])) := .written
  have hcapital : Respelled [0x0a, 0xff] false (.ofChars (['0', 'A'] ++ ' ' :: ['f', 'f'])) :=
    .recase (d := 'A') (n := 10) hwritten (by rw [isDigit_iff]; decide) (by decide)
  have hmarked := Respelled.mark (.remove hcapital (by decide)) (.inr rfl)
  have htext := Respelled.insert (l := ['0']) (c := Char.ofNat 0x3000) (r := ['X', '0', 'A', 'f', 'f']) hmarked (by decide)
  exact ⟨htext, hex_text_round_trip.1 _ _ _ htext⟩

end Hex

end SensorWire
