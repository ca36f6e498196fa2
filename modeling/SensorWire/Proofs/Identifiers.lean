import Mathlib
import SensorWire.Generate.Identifier
import SensorWire.Proofs.Runes
import SensorWire.Proofs.TimeText

/-!
# Identifiers from names

The words of a name are its runs of letters and digits (`runs`). A word keeps its characters inside an identifier but for the first,
which becomes a capital, unless the word is an abbreviation and becomes all capitals (`Inside`). But it is the first byte that is
capitalised. Where that is not a character, it is replaced by one that no identifier has, and the other bytes of the character stand
alone. So a name becomes an identifier exactly if each of its words is an abbreviation or begins with an ASCII character.

Main statement: `ofName_isIdentifier_iff`.
-/

namespace SensorWire.Identifier

open Utf8 (ReadsAs)

/-! ## The words of a name -/

/-- The runs of letters and digits among runes. -/
def runsOf (rs : List Rune) : List (List Rune) := (rs.splitOnP fun r => !inWord r).filter fun w => !w.isEmpty

/-- The runs of letters and digits in a name. -/
def runs (t : Text) : List (List Rune) := runsOf t.runes

variable {r : Rune} {rs w : List Rune} {t : Text}

theorem wordsFrom_eq (current rs : List Rune) : wordsFrom current rs =
    (((rs.splitOnP fun r => !inWord r).modifyHead (current.reverse ++ ·)).filter fun w => !w.isEmpty).map .ofRunes := by
  induction rs generalizing current with
  | nil =>
    cases current with
    | nil => rfl
    | cons r current => simp [wordsFrom]
  | cons r rs ih =>
    rw [wordsFrom, List.splitOnP_cons_eq_if_modifyHead]
    by_cases hr : inWord r = true
    · simp only [hr, if_true, Bool.not_true, Bool.false_eq_true, if_false, ih, List.modifyHead_modifyHead]
      simp [Function.comp_def]
    · have hrest := ih []
      simp only [List.reverse_nil, List.nil_append, show (fun w : List Rune => w) = id from rfl, List.modifyHead_id, id_eq] at hrest
      cases current with
      | nil => simp [hr, hrest]
      | cons r' current => simp [hr, hrest]

/-- The words of a name are its runs of letters and digits. -/
theorem words_eq_runs (t : Text) : words t = (runs t).map .ofRunes := by
  rw [words, wordsFrom_eq]
  simp [runs, runsOf, show (fun w : List Rune => w) = id from rfl]

theorem inWord_of_mem_splitOnP (hw : w ∈ rs.splitOnP fun r => !inWord r) : ∀ r ∈ w, inWord r = true := by
  induction rs generalizing w with
  | nil =>
    rw [List.splitOnP_nil, List.mem_singleton] at hw
    simp [hw]
  | cons r rs ih =>
    obtain ⟨first, rest, hsplit⟩ := List.exists_cons_of_ne_nil (List.splitOnP_ne_nil (fun r => !inWord r) rs)
    rw [hsplit] at ih
    rw [List.splitOnP_cons_eq_if_modifyHead, hsplit] at hw
    split_ifs at hw with hr
    · rcases List.mem_cons.1 hw with rfl | hw
      · exact List.forall_mem_nil _
      · exact ih hw
    · rcases List.mem_cons.1 hw with rfl | hw
      · exact List.forall_mem_cons.2 ⟨by simpa using hr, ih List.mem_cons_self⟩
      · exact ih (List.mem_cons_of_mem _ hw)

theorem exists_chars (h : ∀ r ∈ w, inWord r = true) : ∃ cs : List Char, w = cs.map .char :=
  Rune.exists_chars fun b hb => Bool.false_ne_true (h (.stray b) hb)

/-- A word has characters, each a letter or a digit. -/
theorem exists_chars_of_mem_runs (hw : w ∈ runs t) :
    ∃ c cs, w = .char c :: cs.map .char ∧ ∀ d ∈ c :: cs, inWord (.char d) = true := by
  obtain ⟨hsplit, hne⟩ := List.mem_filter.1 hw
  have hall := inWord_of_mem_splitOnP hsplit
  obtain ⟨_ | ⟨c, cs⟩, rfl⟩ := exists_chars hall
  · simp at hne
  · exact ⟨c, cs, rfl, fun d hd => hall _ (List.mem_map_of_mem hd)⟩

/-- The first word begins with the first letter or digit. -/
theorem head_runsOf (rs : List Rune) : (runsOf rs).head?.bind List.head? = rs.find? inWord := by
  induction rs with
  | nil => rfl
  | cons r rs ih =>
    rw [runsOf, List.splitOnP_cons_eq_if_modifyHead]
    cases hr : inWord r with
    | true =>
      obtain ⟨first, rest, hsplit⟩ := List.exists_cons_of_ne_nil (List.splitOnP_ne_nil (fun r => !inWord r) rs)
      simp [hsplit, hr]
    | false =>
      rw [List.find?_cons_of_neg (by simp [hr]), ← ih]
      simp [runsOf]

/-! ## A word inside an identifier -/

/-- A word that can be capitalised: it begins with an ASCII character, or it is an abbreviation. -/
def Capitalisable (w : List Rune) : Prop :=
  (∃ c rest, w = .char c :: rest ∧ c.toNat < 0x80) ∨ (Text.ofRunes w).toSmalls ∈ abbreviations.map Text.ofString

/-- Abbreviations are not empty, and their capitals are ASCII. -/
theorem capitals_of_mem_abbreviations {a : String} (ha : a ∈ abbreviations) :
    ∃ c cs, (Text.ofString a).chars.map Char.toCapital = c :: cs ∧ ∀ d ∈ c :: cs, d.isUpper = true ∧ inWord (.char d) = true := by
  have hne : ∀ a ∈ abbreviations, (Text.ofString a).chars.map Char.toCapital ≠ [] := by decide +kernel
  have hall : ∀ a ∈ abbreviations,
      ((Text.ofString a).chars.map Char.toCapital).all fun d => d.isUpper && inWord (.char d) := by decide +kernel
  obtain ⟨c, cs, hcs⟩ := List.exists_cons_of_ne_nil (hne a ha)
  refine ⟨c, cs, hcs, fun d hd => ?_⟩
  simpa using List.all_eq_true.1 (hall a ha) d (hcs ▸ hd)

/-- The capital of an ASCII letter is an ASCII letter, and an ASCII digit is its own. -/
theorem toCapital_ascii {c : Char} (hc : c.toNat < 0x80) (hin : inWord (.char c) = true) :
    (Char.toCapital c).toNat < 0x80 ∧ inWord (.char (Char.toCapital c)) = true ∧
      ((Char.toCapital c).isUpper = true ∨ (Char.toCapital c).isDigit = true) := by
  have hall : ∀ n < 0x80, inWord (.char (Char.ofNat n)) = true →
      (Char.toCapital (Char.ofNat n)).toNat < 0x80 ∧ inWord (.char (Char.toCapital (Char.ofNat n))) = true ∧
        ((Char.toCapital (Char.ofNat n)).isUpper = true ∨ (Char.toCapital (Char.ofNat n)).isDigit = true) := by decide +kernel
  have hchar := hall c.toNat hc
  rw [Char.ofNat_toNat] at hchar
  exact hchar hin

/-- The character that takes the place of a byte which is none. -/
def replacement : Char := Char.ofNat 0xfffd

theorem capitalised_ascii {c : Char} (hc : c.toNat < 0x80) (hin : inWord (.char c) = true) (cs : List Char) :
    capitalised (.ofRunes (.char c :: cs.map .char)) = .ofChars (Char.toCapital c :: cs) := by
  have hb : (c.toNat.toUInt8).toNat = c.toNat := Utf8.toNat_byte (by omega)
  have hascii : c.toNat.toUInt8 < 0x80 := by
    simp only [UInt8.lt_iff_toNat_lt, hb, UInt8.reduceToNat]
    exact hc
  rw [capitalised, ← List.map_cons, Text.ofRunes_chars, Text.bytes_ofChars_cons hc]
  dsimp only
  rw [if_pos hascii, hb, Char.ofNat_toNat, ← Text.bytes_ofChars_cons (toCapital_ascii hc hin).1]

/-- Where the first byte is no character, the others of the first character are left. -/
theorem capitalised_other {c : Char} (hc : 0x80 ≤ c.toNat) (cs : List Char) :
    ∃ tail, tail ≠ [] ∧ (∀ b ∈ tail, Utf8.isTail b = true) ∧
      (capitalised (.ofRunes (.char c :: cs.map .char))).bytes =
        (Text.ofChars [replacement]).bytes ++ (tail ++ (Text.ofChars cs).bytes) := by
  rcases Utf8.encode_cases c with ⟨hascii, -⟩ | ⟨-, b, tail, hencode, hb, hne, htail⟩
  · exact absurd hc (not_le.2 hascii)
  · refine ⟨tail, hne, htail, ?_⟩
    have hbytes : (Text.ofRunes (.char c :: cs.map .char)).bytes = b :: (tail ++ (Text.ofChars cs).bytes) := by
      rw [← List.map_cons, Text.ofRunes_chars, Text.ofChars, List.flatMap_cons, hencode]
      rfl
    rw [capitalised, hbytes]
    dsimp only
    rw [if_neg (by grind)]
    rfl

/-- What a word is read as inside an identifier. One that can be capitalised is letters and digits, with an ASCII capital or digit at
its beginning; in any other the replacement character stands there, and bytes that stand alone follow it. -/
inductive Inside (w : List Rune) : List Rune → Prop where
  | capital (h : Capitalisable w) {c : Char} {rest : List Rune} (first : c.isUpper = true ∨ c.isDigit = true)
      (all : ∀ r ∈ .char c :: rest, inWord r = true) : Inside w (.char c :: rest)
  | replaced (h : ¬Capitalisable w) {tail : List UInt8} {rest : List Rune} (ne : tail ≠ []) (tails : ∀ b ∈ tail, Utf8.isTail b = true)
      (all : ∀ r ∈ rest, inWord r = true) : Inside w (.char replacement :: (tail.map .stray ++ rest))

theorem exists_inside (hw : w ∈ runs t) : ∃ rs, Inside w rs ∧ ReadsAs (word (.ofRunes w)).bytes rs := by
  obtain ⟨c, cs, rfl, hall⟩ := exists_chars_of_mem_runs hw
  rw [word]
  split
  · rename_i a ha
    obtain ⟨d, ds, hds, hcapitals⟩ := capitals_of_mem_abbreviations (List.mem_of_find?_eq_some ha)
    have habbreviation : Capitalisable (.char c :: cs.map .char) :=
      .inr (List.mem_map.2 ⟨a, List.mem_of_find?_eq_some ha, (by simpa using List.find?_some ha : _ = _).symm⟩)
    refine ⟨.char d :: ds.map .char, .capital habbreviation (.inl (hcapitals d List.mem_cons_self).1) ?_, ?_⟩
    · rw [← List.map_cons, List.forall_mem_map]
      exact fun d' hd' => (hcapitals d' hd').2
    · rw [Text.toCapitals, hds, ← List.map_cons]
      exact .chars (d :: ds)
  · rename_i hnone
    obtain ⟨hfirst, hrest⟩ := List.forall_mem_cons.1 hall
    by_cases hc : c.toNat < 0x80
    · rw [capitalised_ascii hc hfirst]
      obtain ⟨-, hin, hcapital⟩ := toCapital_ascii hc hfirst
      refine ⟨.char (Char.toCapital c) :: cs.map .char, .capital (.inl ⟨c, _, rfl, hc⟩) hcapital ?_, .chars _⟩
      exact List.forall_mem_cons.2 ⟨hin, List.forall_mem_map.2 hrest⟩
    · obtain ⟨tail, hne, htail, hbytes⟩ := capitalised_other (not_lt.1 hc) cs
      have hother : ¬Capitalisable (.char c :: cs.map .char) := by
        rintro (⟨c', rest, heq, hascii⟩ | habbreviation)
        · obtain ⟨⟨⟩, -⟩ := List.cons.inj heq
          exact hc hascii
        · obtain ⟨a, ha, hsmalls⟩ := List.mem_map.1 habbreviation
          exact List.find?_eq_none.1 hnone a ha (beq_iff_eq.2 hsmalls.symm)
      refine ⟨_, .replaced hother hne htail (List.forall_mem_map.2 hrest), ?_⟩
      rw [hbytes]
      exact (ReadsAs.chars [replacement]).append ((ReadsAs.tail htail).append (.chars cs))

theorem inside_word (hw : w ∈ runs t) :
    Inside w (word (.ofRunes w)).runes ∧ ReadsAs (word (.ofRunes w)).bytes (word (.ofRunes w)).runes := by
  obtain ⟨rs, hinside, hreads⟩ := exists_inside hw
  have hrunes : (word (.ofRunes w)).runes = rs := hreads.runes_eq
  rw [hrunes]
  exact ⟨hinside, hreads⟩

theorem Inside.mem_capital (h : Inside w rs) (hw : Capitalisable w) (hr : r ∈ rs) : inWord r = true := by
  cases h with
  | capital _ _ all => exact all r hr
  | replaced hnot => exact absurd hw hnot

theorem Inside.exists_stray (h : Inside w rs) (hw : ¬Capitalisable w) : ∃ b, .stray b ∈ rs := by
  cases h with
  | capital hcapital => exact absurd hcapital hw
  | @replaced _ tail rest ne =>
    obtain ⟨b, tail, rfl⟩ := List.exists_cons_of_ne_nil ne
    exact ⟨b, by simp⟩

/-! ## The identifier -/

/-- The words of a name one after the other, as they are inside an identifier. -/
def body (t : Text) : Text := Text.concat ((words t).map word)

theorem runes_body (t : Text) : (body t).runes = (runs t).flatMap fun w => (word (.ofRunes w)).runes := by
  rw [body, words_eq_runs, List.map_map]
  exact (ReadsAs.concat (runs t) fun w hw => (inside_word hw).2).runes_eq

/-- The identifier is the body, after an `X` if that is empty or begins with a digit. -/
theorem ofName_cases (t : Text) :
    (body t = ⟨[]⟩ ∧ ofName t = Text.ofString "X" ++ body t) ∨
      ∃ b rest, (body t).bytes = b :: rest ∧ ofName t = if 0x30 ≤ b && b ≤ 0x39 then Text.ofString "X" ++ body t else body t := by
  have hname : Text.concat ((words t).map word) = body t := rfl
  rw [ofName, hname]
  cases hbytes : (body t).bytes with
  | nil =>
    have hempty : body t = ⟨[]⟩ := congrArg Text.mk hbytes
    exact .inl ⟨hempty, by rw [hempty]; rfl⟩
  | cons b rest => exact .inr ⟨b, rest, rfl, rfl⟩

theorem runes_x_append (t : Text) : (Text.ofString "X" ++ t).runes = .char 'X' :: t.runes := ReadsAs.chars ['X'] t.bytes

theorem runes_ofName (t : Text) : (ofName t).runes = (body t).runes ∨ (ofName t).runes = .char 'X' :: (body t).runes := by
  rcases ofName_cases t with ⟨-, hname⟩ | ⟨b, rest, -, hname⟩
  · exact .inr (hname ▸ runes_x_append _)
  · rw [hname]
    split
    · exact .inr (runes_x_append _)
    · exact .inl rfl

/-- The first byte of a text is a digit exactly if its first character is. -/
theorem bytes_of_runes {c : Char} (h : t.runes = .char c :: rs) :
    ∃ b rest, t.bytes = b :: rest ∧ (0x30 ≤ b && b ≤ 0x39) = c.isDigit := by
  have hbytes : t.bytes = String.utf8EncodeChar c ++ rs.flatMap Rune.bytes := by
    rw [← Utf8.flatMap_bytes_runes t.bytes, show Utf8.runes t.bytes = _ from h]
    rfl
  rcases Utf8.encode_cases c with ⟨hascii, hencode, -⟩ | ⟨hother, b, tail, hencode, hb, -⟩
  · have hdigit : ∀ n < 0x80, (0x30 ≤ n.toUInt8 && n.toUInt8 ≤ 0x39) = (Char.ofNat n).isDigit := by decide +kernel
    have hc := hdigit c.toNat hascii
    rw [Char.ofNat_toNat] at hc
    exact ⟨_, _, by rw [hbytes, hencode]; rfl, hc⟩
  · refine ⟨b, _, by rw [hbytes, hencode]; rfl, ?_⟩
    have hdigit : c.isDigit = false := by
      have hval : 0x80 ≤ c.val.toNat := hother
      simp [Char.isDigit, UInt32.le_iff_toNat_le]
      omega
    rw [hdigit]
    grind

theorem le_of_mem_bytes (h : inWord r = true) : ∀ b ∈ r.bytes, 0x30 ≤ b := by
  cases r with
  | stray b => cases h
  | char c =>
    rcases Utf8.encode_cases c with ⟨hascii, hencode, -⟩ | ⟨hother, -⟩
    · have hall : ∀ n < 0x80, inWord (.char (Char.ofNat n)) = true → 0x30 ≤ n := by decide +kernel
      have hc := hall c.toNat hascii
      rw [Char.ofNat_toNat] at hc
      rw [Rune.bytes, hencode, List.forall_mem_singleton, UInt8.le_iff_toNat_le, Utf8.toNat_byte (by omega)]
      exact hc h
    · exact fun b hb => le_trans (b := 0x80) (by decide) (Utf8.le_of_mem_encode hother b hb)

theorem Inside.le_of_mem_bytes (h : Inside w rs) (hr : r ∈ rs) : ∀ b ∈ r.bytes, 0x30 ≤ b := by
  cases h with
  | capital _ _ all => exact Identifier.le_of_mem_bytes (all r hr)
  | @replaced _ tail rest _ tails all =>
    rcases List.mem_cons.1 hr with rfl | hr
    · exact fun b hb => le_trans (b := 0x80) (by decide) (Utf8.le_of_mem_encode (c := replacement) (by decide) b hb)
    · rcases List.mem_append.1 hr with hr | hr
      · obtain ⟨b, hb, rfl⟩ := List.mem_map.1 hr
        exact List.forall_mem_singleton.2 (le_trans (b := 0x80) (by decide) (Utf8.isTail_iff.1 (tails b hb)).1)
      · exact Identifier.le_of_mem_bytes (all r hr)

/-- No byte of what a name becomes is a blank or a mark that code has between words. -/
theorem le_of_mem_ofName : ∀ b ∈ (ofName t).bytes, 0x30 ≤ b := by
  have hbody : ∀ r ∈ (body t).runes, ∀ b ∈ r.bytes, 0x30 ≤ b := by
    rw [runes_body, List.forall_mem_flatMap]
    exact fun w hw r hr => (inside_word hw).1.le_of_mem_bytes hr
  rw [← Utf8.flatMap_bytes_runes (ofName t).bytes, List.forall_mem_flatMap]
  rcases runes_ofName t with hrunes | hrunes
  · rwa [show Utf8.runes (ofName t).bytes = _ from hrunes]
  · rw [show Utf8.runes (ofName t).bytes = _ from hrunes]
    exact List.forall_mem_cons.2 ⟨le_of_mem_bytes rfl, hbody⟩

/-- A text that begins with an ASCII capital, as the name of something that others may use does. -/
def Exported (name : Text) : Prop := ∃ c, name.runes.head? = some (.char c) ∧ c.isUpper = true

theorem exported_x_append (t : Text) : Exported (Text.ofString "X" ++ t) := ⟨'X', by rw [runes_x_append]; rfl, rfl⟩

theorem exported_ofName (h : ∀ w ∈ (runs t).head?, Capitalisable w) : Exported (ofName t) := by
  rcases ofName_cases t with ⟨-, hname⟩ | ⟨b, bytes, hbytes, hname⟩
  · exact hname ▸ exported_x_append _
  · rw [hname]
    have hrunes := runes_body t
    cases hruns : runs t with
    | nil =>
      have hempty : body t = ⟨[]⟩ := by rw [body, words_eq_runs, hruns]; rfl
      rw [hempty] at hbytes
      cases hbytes
    | cons w ws =>
      have hinside := (inside_word (hruns ▸ List.mem_cons_self : w ∈ runs t)).1
      rw [hruns, List.flatMap_cons] at hrunes
      generalize (word (.ofRunes w)).runes = rs at hrunes hinside
      cases hinside with
      | replaced hnot => exact absurd (h w (by rw [hruns]; rfl)) hnot
      | @capital _ c rest first _ =>
        obtain ⟨b', bytes', hbytes', hdigit⟩ := bytes_of_runes hrunes
        obtain ⟨rfl, -⟩ := List.cons.inj (hbytes.symm.trans hbytes')
        rw [hdigit]
        split
        · exact exported_x_append _
        · rename_i hnot
          exact ⟨c, by rw [hrunes]; rfl, first.resolve_right hnot⟩

theorem isUtf8_ofName_iff (t : Text) : IsUtf8 (ofName t).bytes ↔ ∀ w ∈ runs t, Capitalisable w := by
  have hstray (b : UInt8) : .stray b ∈ (ofName t).runes ↔ ∃ w ∈ runs t, .stray b ∈ (word (.ofRunes w)).runes := by
    rw [← List.mem_flatMap, ← runes_body]
    rcases runes_ofName t with h | h <;> simp [h]
  rw [isUtf8_iff_runes]
  constructor
  · intro hutf8 w hw
    by_contra hnot
    obtain ⟨b, hb⟩ := (inside_word hw).1.exists_stray hnot
    exact hutf8 b ((hstray b).2 ⟨w, hw, hb⟩)
  · intro hall b hb
    obtain ⟨w, hw, hb⟩ := (hstray b).1 hb
    exact Bool.false_ne_true ((inside_word hw).1.mem_capital (hall w hw) hb)

/-- An identifier: a letter, and then letters and digits. -/
def IsIdentifier (name : Text) : Prop :=
  ∃ (c : Char) (cs : List Char), name.runes = .char c :: cs.map .char ∧ Char.isLetter c = true ∧
    ∀ d ∈ cs, Char.isLetter d = true ∨ Char.isDecimal d = true

theorem IsIdentifier.isUtf8 (h : IsIdentifier t) : IsUtf8 t.bytes := by
  obtain ⟨c, cs, hrunes, -⟩ := h
  refine isUtf8_iff_runes.2 fun b hb => ?_
  rw [show Utf8.runes t.bytes = _ from hrunes] at hb
  simp at hb

theorem isLetter_of_isUpper {c : Char} (h : c.isUpper = true) : Char.isLetter c = true := by
  have hascii : c.toNat < 0x80 := by
    simp only [Char.isUpper, decide_eq_true_eq, ge_iff_le, UInt32.le_iff_toNat_le] at h
    exact Nat.lt_of_le_of_lt h.2 (by decide)
  rw [Char.isLetter, if_pos hascii, Char.isAlpha, h]
  rfl

theorem isIdentifier_of_runes (h : Exported t) (hall : ∀ r ∈ t.runes, inWord r = true) : IsIdentifier t := by
  obtain ⟨c, hhead, hupper⟩ := h
  obtain ⟨_ | ⟨c', cs⟩, hrunes⟩ := exists_chars hall
  · rw [hrunes] at hhead
    cases hhead
  · rw [hrunes] at hhead hall
    cases hhead
    refine ⟨c, cs, hrunes, isLetter_of_isUpper hupper, fun d hd => ?_⟩
    simpa [inWord] using hall (.char d) (List.mem_map_of_mem (List.mem_cons_of_mem _ hd))

theorem isIdentifier_ofName (h : ∀ w ∈ runs t, Capitalisable w) : IsIdentifier (ofName t) := by
  refine isIdentifier_of_runes (exported_ofName fun w hw => h w (List.mem_of_head? hw)) ?_
  have hbody : ∀ r ∈ (body t).runes, inWord r = true := by
    rw [runes_body, List.forall_mem_flatMap]
    exact fun w hw r hr => (inside_word hw).1.mem_capital (h w hw) hr
  rcases runes_ofName t with hrunes | hrunes
  · rwa [hrunes]
  · rw [hrunes]
    exact List.forall_mem_cons.2 ⟨rfl, hbody⟩

theorem isEmpty_ofName (t : Text) : (ofName t).isEmpty = false := by
  rcases ofName_cases t with ⟨-, hname⟩ | ⟨b, bytes, hbytes, hname⟩
  · rw [hname]
    rfl
  · rw [hname]
    split
    · rfl
    · rw [Text.isEmpty, hbytes]
      rfl

/-- A name becomes an identifier exactly if it becomes UTF-8 at all, and that is exactly if each of its words begins with an ASCII
character or is an abbreviation; then the identifier begins with an ASCII capital. It does so too, whatever the words after the first,
if the first letter or digit of the name is ASCII. What a name becomes is never empty. -/
theorem ofName_isIdentifier_iff (t : Text) :
    (IsUtf8 (ofName t).bytes ↔ ∀ w ∈ runs t, Capitalisable w) ∧
    (IsIdentifier (ofName t) ↔ ∀ w ∈ runs t, Capitalisable w) ∧
    (IsIdentifier (ofName t) → Exported (ofName t)) ∧
    (∀ c : Char, t.runes.find? inWord = some (.char c) → c.toNat < 0x80 → Exported (ofName t)) ∧
    (ofName t).isEmpty = false := by
  have hutf8 := isUtf8_ofName_iff t
  refine ⟨hutf8, ⟨fun h => hutf8.1 h.isUtf8, isIdentifier_ofName⟩, fun h => ?_, fun c hfirst hascii => ?_, isEmpty_ofName t⟩
  · exact exported_ofName fun w hw => hutf8.1 h.isUtf8 w (List.mem_of_head? hw)
  · refine exported_ofName fun w hw => ?_
    rw [← head_runsOf, show (runsOf t.runes).head? = some w from hw] at hfirst
    obtain ⟨rest, rfl⟩ := List.head?_eq_some_iff.1 hfirst
    exact .inl ⟨c, rest, rfl, hascii⟩

/-- The capital of the first byte of an accented letter is no letter. -/
theorem accented_name_is_no_identifier :
    let t := Text.ofChars ['é', 't', 'é']
    ofName t = Text.ofChars [replacement] ++ ⟨[0xa9]⟩ ++ Text.ofChars ['t', 'é'] ∧ ¬IsUtf8 (ofName t).bytes ∧ ¬IsIdentifier (ofName t) := by
  intro t
  obtain ⟨hutf8, hidentifier, -⟩ := ofName_isIdentifier_iff t
  have hnot : ¬IsUtf8 (ofName t).bytes := by decide +kernel
  exact ⟨by decide +kernel, hnot, fun h => hnot (hutf8.2 (hidentifier.1 h))⟩

end SensorWire.Identifier
