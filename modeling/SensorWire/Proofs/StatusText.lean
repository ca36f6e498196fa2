import Mathlib
import SensorWire.Message.Enumerations
import SensorWire.Proofs.HexText

/-!
# Power status text

A power status is shown as the names of its faults with bars between them, and the faults that have no name as one hexadecimal number behind
them. `Tells` says of which status a text tells, in terms of the pieces between the bars. A text tells of one status at most
(`Tells.unique`): a name does not look like a number, so every fault of the status can be found in the text, by its name or in the number,
and no other fault is found there (`Tells.reports_iff`).

Main statement: `status_text_is_lossless`.
-/

namespace SensorWire

namespace Hex

/-! ## Hexadecimal numbers -/

/-- Digits and the number that they are, the highest digit first. -/
inductive Numeral : List Char → Nat → Prop where
  | digit {c : Char} {n : Nat} (single : IsDigit c n) : Numeral [c] n
  | snoc {cs : List Char} {c : Char} {m n : Nat} (front : Numeral cs m) (last : IsDigit c n) : Numeral (cs ++ [c]) (16 * m + n)

variable {cs : List Char} {c : Char} {m n : Nat}

theorem IsDigit.unique (h : IsDigit c n) (h' : IsDigit c m) : n = m := by
  have hinj : ∀ n < 16, ∀ m < 16, hexDigit n = hexDigit m → n = m := by decide
  obtain ⟨hn, hc⟩ := isDigit_iff.1 h
  obtain ⟨hm, hc'⟩ := isDigit_iff.1 h'
  exact hinj n hn m hm (hc.symm.trans hc')

theorem Numeral.ne_nil (h : Numeral cs n) : cs ≠ [] := by
  cases h <;> simp

/-- Digits are one number. -/
theorem Numeral.unique (h : Numeral cs n) (h' : Numeral cs m) : n = m := by
  induction h generalizing m with
  | @digit c n single =>
    generalize hcs : [c] = cs at h'
    cases h' with
    | digit single' =>
      obtain rfl : c = _ := List.singleton_inj.1 hcs
      exact single.unique single'
    | snoc front => simp [front.ne_nil, List.singleton_eq_append_iff] at hcs
  | @snoc cs c k n front last ih =>
    generalize hcs : cs ++ [c] = cs' at h'
    cases h' with
    | digit => simp [front.ne_nil, List.append_eq_singleton_iff] at hcs
    | snoc front' last' =>
      obtain ⟨rfl, hc⟩ := List.append_inj' hcs rfl
      obtain rfl := List.singleton_inj.1 hc
      rw [ih front', last.unique last']

theorem isDigit_digitChar (h : n < 16) : IsDigit n.digitChar n := by
  have hdigit : ∀ n < 16, hexDigit n = n.digitChar := by decide
  exact hdigit n h ▸ isDigit_hexDigit h

/-- A number is written with digits that are this number. -/
theorem numeral_toDigits (n : Nat) : Numeral (Nat.toDigits 16 n) n := by
  induction n using Nat.strong_induction_on with
  | _ n ih =>
    rcases lt_or_ge n 16 with hlt | hge
    · rw [Nat.toDigits_of_lt_base hlt]
      exact .digit (isDigit_digitChar hlt)
    · have hsnoc := (ih (n / 16) (by omega)).snoc (isDigit_digitChar (Nat.mod_lt n (show 0 < 16 by decide)))
      rwa [← Nat.toDigits_of_base_le (by decide) hge, Nat.div_add_mod] at hsnoc

theorem Numeral.exists_isDigit (h : Numeral cs n) : ∀ c ∈ cs, ∃ k, IsDigit c k := by
  induction h with
  | digit single => exact List.forall_mem_singleton.2 ⟨_, single⟩
  | snoc _ last ih => exact List.forall_mem_append.2 ⟨ih, List.forall_mem_singleton.2 ⟨_, last⟩⟩

end Hex

namespace PowerStatus

variable {s s' : PowerStatus} {t : Text} {i : Nat}

/-! ## Faults -/

/-- Whether a status reports the fault of a bit. -/
def Reports (s : PowerStatus) (i : Nat) : Prop := s.bits.toNat.testBit i = true

/-- Whether the fault of a bit has a name. -/
def HasName (i : Nat) : Prop := ∃ f ∈ flags, f.1.toNat.testBit i = true

instance (i : Nat) : Decidable (HasName i) := inferInstanceAs (Decidable (∃ f ∈ flags, f.1.toNat.testBit i = true))

theorem eq_of_reports (h : ∀ i, s.Reports i ↔ s'.Reports i) : s = s' := by
  obtain ⟨bits⟩ := s
  obtain ⟨bits'⟩ := s'
  rw [mk.injEq, ← UInt64.toNat_inj]
  apply Nat.eq_of_testBit_eq
  intro i
  exact Bool.eq_iff_iff.2 (h i)

theorem not_reports_zero (i : Nat) : ¬(mk 0).Reports i := by
  simp [Reports]

theorem Reports.lt (h : s.Reports i) : i < 64 := by
  by_contra hle
  have hlt : s.bits.toNat < 2 ^ i := Nat.lt_of_lt_of_le s.bits.toNat_lt (Nat.pow_le_pow_right (by decide) (not_lt.1 hle))
  exact Bool.false_ne_true ((Nat.testBit_lt_two_pow hlt).symm.trans h)

/-- A fault with a name is one bit, and it is reported if that bit is. -/
theorem and_flag_ne_zero_iff {f : UInt64 × String} (hf : f ∈ flags) (hi : f.1.toNat.testBit i = true) :
    s.bits &&& f.1 ≠ 0 ↔ s.Reports i := by
  have hbit : ∀ f ∈ flags, ∃ k < 4, f.1.toNat = 2 ^ k := by decide
  obtain ⟨k, -, hk⟩ := hbit f hf
  obtain rfl : k = i := by simpa [hk, Nat.testBit_two_pow] using hi
  rw [Reports, ne_eq, ← UInt64.toNat_inj, UInt64.toNat_and, hk, Nat.and_two_pow]
  cases s.bits.toNat.testBit k <;> simp

/-- What is left without the named faults is what has no name. -/
theorem testBit_unnamed : s.unnamed.toNat.testBit i = true ↔ s.Reports i ∧ ¬HasName i := by
  have hmask : ∀ i < 64, (0xfffffffffffffff0 : UInt64).toNat.testBit i = true ↔ ¬HasName i := by decide
  rw [unnamed, UInt64.toNat_and, Nat.testBit_and, Bool.and_eq_true]
  apply and_congr_right
  intro hi
  exact hmask i (Reports.lt hi)

/-! ## What a text tells -/

/-- What stands behind the names: nothing if every fault has a name, and otherwise the number of the faults that have none. -/
inductive Remainder (s : PowerStatus) : List Text → Prop where
  | nothing (named : ∀ i, s.Reports i → HasName i) : Remainder s []
  | number {digits : List Char} {n : Nat} (numeral : Hex.Numeral digits n) (nonzero : n ≠ 0)
      (unnamed : ∀ i, n.testBit i = true ↔ s.Reports i ∧ ¬HasName i) : Remainder s ["0x" ++ .ofChars digits]

/-- The status that a text tells of. Between its bars stand the names of the faults that are reported, in their order and none twice, and then
the remainder. -/
inductive Tells : Text → PowerStatus → Prop where
  | okay : Tells "OKAY" ⟨0⟩
  | faults {t : Text} {s : PowerStatus} {names rest : List Text} (pieces : t.splitOn '|' = names ++ rest)
      (order : names.Sublist (flags.map fun f => .ofString f.2))
      (named : ∀ f ∈ flags, Text.ofString f.2 ∈ names ↔ s.bits &&& f.1 ≠ 0) (remainder : Remainder s rest) : Tells t s

/-! ### Only one status -/

/-- Whether a text shows the fault of a bit, by its name or in a number. -/
def Shown (t : Text) (i : Nat) : Prop :=
  (∃ f ∈ flags, f.1.toNat.testBit i = true ∧ Text.ofString f.2 ∈ t.splitOn '|') ∨
    ∃ digits n, "0x" ++ Text.ofChars digits ∈ t.splitOn '|' ∧ Hex.Numeral digits n ∧ n.testBit i = true

/-- A number begins with a digit, and no name does. -/
theorem number_ne (ht : t.bytes.head? ≠ some 0x30) (digits : List Char) : "0x" ++ .ofChars digits ≠ t := by
  rintro rfl
  exact ht rfl

theorem head?_name : ∀ f ∈ flags, (Text.ofString f.2).bytes.head? ≠ some 0x30 := by decide

theorem Remainder.eq_number {rest : List Text} {piece : Text} (h : Remainder s rest) (hmem : piece ∈ rest) :
    ∃ digits n, piece = "0x" ++ .ofChars digits ∧ Hex.Numeral digits n ∧ ∀ i, n.testBit i = true ↔ s.Reports i ∧ ¬HasName i := by
  cases h with
  | nothing => exact absurd hmem List.not_mem_nil
  | number numeral _ unnamed => exact ⟨_, _, List.mem_singleton.1 hmem, numeral, unnamed⟩

theorem number_inj {digits digits' : List Char} (h : "0x" ++ Text.ofChars digits = "0x" ++ Text.ofChars digits') : digits = digits' :=
  Text.ofChars_inj (congrArg Text.mk (List.append_cancel_left (congrArg Text.bytes h)))

theorem not_shown_okay (i : Nat) : ¬Shown "OKAY" i := by
  have hpieces : Text.splitOn "OKAY" '|' = [.ofString "OKAY"] := by decide
  have hname : ∀ f ∈ flags, Text.ofString f.2 ≠ "OKAY" := by decide
  simp only [Shown, hpieces, List.mem_singleton]
  rintro (⟨f, hf, -, heq⟩ | ⟨digits, n, heq, -⟩)
  · exact hname f hf heq
  · exact number_ne (by decide) digits heq

/-- A text shows the faults of the status that it tells of, and no others. -/
theorem Tells.reports_iff (h : Tells t s) : s.Reports i ↔ Shown t i := by
  cases h with
  | okay => exact iff_of_false (not_reports_zero i) (not_shown_okay i)
  | @faults _ _ names rest pieces order named remainder =>
    rw [Shown, pieces]
    constructor
    · intro hi
      by_cases hname : HasName i
      · obtain ⟨f, hf, hbit⟩ := hname
        exact .inl ⟨f, hf, hbit, List.mem_append_left _ ((named f hf).2 ((and_flag_ne_zero_iff hf hbit).2 hi))⟩
      · cases remainder with
        | nothing all => exact absurd (all i hi) hname
        | number numeral _ unnamed => exact .inr ⟨_, _, by simp, numeral, (unnamed i).2 ⟨hi, hname⟩⟩
    · -- what is a name stands among the names, and what is a number in the remainder
      rintro (⟨f, hf, hbit, hmem⟩ | ⟨digits, n, hmem, numeral, hbit⟩)
      · rcases List.mem_append.1 hmem with hmem | hmem
        · exact (and_flag_ne_zero_iff hf hbit).1 ((named f hf).1 hmem)
        · obtain ⟨digits, -, heq, -⟩ := remainder.eq_number hmem
          exact absurd heq.symm (number_ne (head?_name f hf) digits)
      · rcases List.mem_append.1 hmem with hmem | hmem
        · obtain ⟨f, hf, heq⟩ := List.mem_map.1 (order.subset hmem)
          exact absurd heq.symm (number_ne (head?_name f hf) digits)
        · obtain ⟨digits', n', heq, numeral', unnamed⟩ := remainder.eq_number hmem
          obtain rfl := number_inj heq
          obtain rfl := numeral.unique numeral'
          exact ((unnamed i).1 hbit).1

theorem Tells.unique (h : Tells t s) (h' : Tells t s') : s = s' := by
  apply eq_of_reports
  intro i
  exact h.reports_iff.trans h'.reports_iff.symm

/-! ## The text of a status -/

/-- The names of the faults that a status reports. -/
def names (s : PowerStatus) : List Text := (flags.filter fun f => s.bits &&& f.1 != 0).map fun f => .ofString f.2

/-- The faults without a name as a number. -/
def rest (s : PowerStatus) : List Text := if s.unnamed = 0 then [] else ["0x" ++ hexNumber s.unnamed.toNat]

theorem render_eq (h : s.bits ≠ 0) : s.render = Text.join "|" (s.names ++ s.rest) := if_neg h

/-- A name is listed exactly if its fault is reported, as no two faults share a name. -/
theorem mem_names_iff (s : PowerStatus) {f : UInt64 × String} (hf : f ∈ flags) : .ofString f.2 ∈ s.names ↔ s.bits &&& f.1 ≠ 0 := by
  have hnodup : (flags.map fun f => Text.ofString f.2).Nodup := by decide
  simp only [names, List.mem_map, List.mem_filter, bne_iff_ne]
  constructor
  · rintro ⟨g, ⟨hg, hset⟩, heq⟩
    rwa [List.inj_on_of_nodup_map hnodup hg hf heq] at hset
  · intro hset
    exact ⟨f, ⟨hf, hset⟩, rfl⟩

theorem names_sublist (s : PowerStatus) : s.names.Sublist (flags.map fun f => .ofString f.2) := List.filter_sublist.map _

theorem remainder_rest (s : PowerStatus) : Remainder s s.rest := by
  unfold rest
  split_ifs with hzero
  · refine .nothing ?_
    intro i hi
    by_contra hname
    simpa [hzero] using testBit_unnamed.2 ⟨hi, hname⟩
  · refine .number (Hex.numeral_toDigits _) ?_ fun i => testBit_unnamed
    rwa [← UInt64.toNat_inj] at hzero

/-- A status that is not empty has something to tell. -/
theorem pieces_ne_nil (h : s.bits ≠ 0) : s.names ++ s.rest ≠ [] := by
  intro hnil
  obtain ⟨hnames, hrest⟩ := List.append_eq_nil_iff.1 hnil
  have hall := hrest ▸ s.remainder_rest
  have hnone (i : Nat) : ¬s.Reports i := by
    intro hi
    cases hall with
    | nothing named =>
      obtain ⟨f, hf, hbit⟩ := named i hi
      have hmem := (s.mem_names_iff hf).2 ((and_flag_ne_zero_iff hf hbit).2 hi)
      rw [hnames] at hmem
      exact List.not_mem_nil hmem
  have hzero : s = ⟨0⟩ := by
    apply eq_of_reports
    intro i
    exact iff_of_false (hnone i) (not_reports_zero i)
  exact h (congrArg bits hzero)

/-- There is no bar in a name or in a number. -/
theorem hasChar_piece (s : PowerStatus) : ∀ piece ∈ s.names ++ s.rest, piece.hasChar '|' = false := by
  have hname : ∀ name ∈ flags.map (fun f => Text.ofString f.2), name.hasChar '|' = false := by decide
  have hdigit (n : Nat) : ¬Hex.IsDigit '|' n := by
    have hall : ∀ n < 16, Hex.small '|' ≠ hexDigit n := by decide
    rw [Hex.isDigit_iff]
    rintro ⟨hn, heq⟩
    exact hall n hn heq
  intro piece hmem
  rcases List.mem_append.1 hmem with hmem | hmem
  · exact hname piece (s.names_sublist.subset hmem)
  · obtain ⟨digits, n, rfl, numeral, -⟩ := s.remainder_rest.eq_number hmem
    have hchars : "0x" ++ Text.ofChars digits = .ofChars ('0' :: 'x' :: digits) := (Text.ofChars_append ['0', 'x'] digits).symm
    rw [hchars, ← Bool.not_eq_true, Text.hasChar_ofChars (by decide)]
    simp only [List.mem_cons, not_or]
    refine ⟨by decide, by decide, ?_⟩
    intro hbar
    obtain ⟨k, hk⟩ := numeral.exists_isDigit _ hbar
    exact hdigit k hk

theorem tells_render (s : PowerStatus) : Tells s.render s := by
  by_cases h : s.bits = 0
  · obtain ⟨bits⟩ := s
    obtain rfl : bits = 0 := h
    exact .okay
  · rw [render_eq h]
    have hpieces : (Text.join "|" (s.names ++ s.rest)).splitOn '|' = s.names ++ s.rest :=
      Text.splitOn_join rfl (pieces_ne_nil h) s.hasChar_piece
    refine .faults hpieces s.names_sublist ?_ s.remainder_rest
    intro f hf
    exact s.mem_names_iff hf

/-- No two statuses have the same text. A text has the names of exactly those faults that are reported and have one, and its number is
exactly the reported faults that have none. -/
theorem status_text_is_lossless : Function.Injective render ∧ ∀ s : PowerStatus, Tells s.render s := by
  refine ⟨?_, tells_render⟩
  intro s s' h
  exact (h ▸ s.tells_render).unique s'.tells_render

/-- A fault with a name and one without, and the same status without the latter. -/
theorem mixed_status_is_told :
    (mk 0x22).render = "OVERVOLTAGE|0x20" ∧ Tells "OVERVOLTAGE|0x20" ⟨0x22⟩ ∧ (mk 0x22).render ≠ (mk 0x02).render := by
  have hrender : (mk 0x22).render = "OVERVOLTAGE|0x20" := by decide
  exact ⟨hrender, hrender ▸ status_text_is_lossless.2 ⟨0x22⟩, status_text_is_lossless.1.ne (by decide)⟩

end PowerStatus

end SensorWire
