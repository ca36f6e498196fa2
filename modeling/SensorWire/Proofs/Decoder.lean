import Mathlib
import SensorWire.Codec.Decoder
import SensorWire.Proofs.Binary
import SensorWire.Proofs.Item

/-!
# What a decoder makes of the next item

Every step of decoding either gives a value and leaves a decoder (`Gives`), or stops with an error that is not about the range of a
number (`Stops`), or refuses a number out of range and goes on (`Refuses`). The lemmas here say which of these happens when a
well-formed item stands in front of what is unread. `Item.Spells` is the rule for text, `Slot.Suits` the rule for the value of a slot,
`Slot.filled` what the slot then holds and `Field.Overflows` when a checked field refuses it.

Main statement: `takeValue` by these rules (`takeValue_filled`, `takeValue_refuses`, `takeValue_fails`).
-/

namespace SensorWire

open Cbor Item

/-! ## Steps -/

/-- A step after another, whatever the steps work on: it is taken where the first succeeds. -/
theorem run_bind {ε σ α β : Type} (m : ExceptT ε (StateM σ) α) (f : α → ExceptT ε (StateM σ) β) (s : σ) :
    (m >>= f).run.run s = match m.run.run s with
      | (.ok a, s') => (f a).run.run s'
      | (.error err, s') => (.error err, s') := by
  change (do let r ← m.run; ExceptT.bindCont f r : StateM σ _).run s = _
  simp only [StateT.run_bind]
  rcases m.run.run s with ⟨_ | _, _⟩ <;> rfl

namespace Decoder

section Steps

variable {α β : Type} {m : Decode α} {f : α → Decode β} {d d' : Decoder} {a : α}

/-- A step gives a value and leaves a decoder. -/
def Gives (m : Decode α) (d : Decoder) (a : α) (d' : Decoder) : Prop := m.run.run d = (.ok a, d')

/-- A step ends with an error that is not about the range of a number. -/
def Stops (m : Decode α) (d : Decoder) : Prop := ∃ err d', m.run.run d = (.error err, d') ∧ err.code ≠ .outOfRange

/-- A step ends with an error of a code that lists no keys. -/
def Fails (m : Decode α) (d : Decoder) (code : Code) : Prop :=
  ∃ err d', m.run.run d = (.error err, d') ∧ err.code = code ∧ err.keys = []

/-- A step refuses a number out of range, and leaves a decoder that can go on. -/
def Refuses (m : Decode α) (d d' : Decoder) : Prop := ∃ err, m.run.run d = (.error err, d') ∧ err.code = .outOfRange

theorem gives_pure (a : α) (d : Decoder) : Gives (pure a : Decode α) d a d := rfl

theorem Gives.run_bind (h : Gives m d a d') (f : α → Decode β) : (m >>= f).run.run d = (f a).run.run d' := by
  rw [SensorWire.run_bind, h]

theorem Gives.bind {b : β} {d'' : Decoder} (h : Gives m d a d') (hf : Gives (f a) d' b d'') : Gives (m >>= f) d b d'' :=
  (h.run_bind f).trans hf

theorem Gives.fails {code : Code} (h : Gives m d a d') (hf : Fails (f a) d' code) : Fails (m >>= f) d code := by
  obtain ⟨err, d'', hrun, herr⟩ := hf
  exact ⟨err, d'', (h.run_bind f).trans hrun, herr⟩

theorem Gives.stops (h : Gives m d a d') (hf : Stops (f a) d') : Stops (m >>= f) d := by
  obtain ⟨err, d'', hrun, hcode⟩ := hf
  exact ⟨err, d'', (h.run_bind f).trans hrun, hcode⟩

theorem Gives.refuses {d'' : Decoder} (h : Gives m d a d') (hf : Refuses (f a) d' d'') : Refuses (m >>= f) d d'' := by
  obtain ⟨err, hrun, hcode⟩ := hf
  exact ⟨err, (h.run_bind f).trans hrun, hcode⟩

theorem Fails.bind {code : Code} (h : Fails m d code) (f : α → Decode β) : Fails (m >>= f) d code := by
  obtain ⟨err, d', hrun, herr⟩ := h
  exact ⟨err, d', by rw [run_bind, hrun], herr⟩

theorem Fails.stops {code : Code} (h : Fails m d code) (hcode : code ≠ .outOfRange) : Stops m d := by
  obtain ⟨err, d', hrun, rfl, -⟩ := h
  exact ⟨err, d', hrun, hcode⟩

theorem Stops.bind (h : Stops m d) (f : α → Decode β) : Stops (m >>= f) d := by
  obtain ⟨err, d', hrun, hcode⟩ := h
  exact ⟨err, d', by rw [run_bind, hrun], hcode⟩

theorem Refuses.bind (h : Refuses m d d') (f : α → Decode β) : Refuses (m >>= f) d d' := by
  obtain ⟨err, hrun, hcode⟩ := h
  exact ⟨err, by rw [run_bind, hrun], hcode⟩

theorem gives_get (d : Decoder) : Gives (get : Decode Decoder) d d d := rfl

theorem gives_modify (g : Decoder → Decoder) (d : Decoder) : Gives (modify g : Decode Unit) d () (g d) := rfl

/-- An error that the trace records. -/
theorem fails_fail {err : Error} (h : err.keys = []) (d : Decoder) : Fails (fail err : Decode α) d err.code := ⟨err, _, rfl, rfl, h⟩

/-- An error that the trace records, of any kind but a number out of range. -/
theorem stops_fail {err : Error} (h : err.code ≠ .outOfRange) (d : Decoder) : Stops (fail err : Decode α) d :=
  ⟨err, _, rfl, h⟩

/-! A sequence of steps that gives a value is made of steps that give values. -/

theorem Gives.of_bind {b : β} (h : Gives (m >>= f) d b d') : ∃ a d₁, Gives m d a d₁ ∧ Gives (f a) d₁ b d' := by
  rw [Gives, SensorWire.run_bind] at h
  rcases hm : m.run.run d with ⟨err | a, d₁⟩
  · rw [hm] at h
    cases h
  · rw [hm] at h
    exact ⟨a, d₁, hm, h⟩

theorem Gives.of_pure {b : α} (h : Gives (pure b : Decode α) d a d') : a = b ∧ d' = d := by
  cases h
  exact ⟨rfl, rfl⟩

theorem Gives.of_get {s : Decoder} (h : Gives (get : Decode Decoder) d s d') : s = d ∧ d' = d := by
  cases h
  exact ⟨rfl, rfl⟩

theorem Gives.of_modify {g : Decoder → Decoder} {u : Unit} (h : Gives (modify g : Decode Unit) d u d') : d' = g d := by
  cases h
  rfl

theorem not_gives_fail (err : Error) : ¬Gives (fail err : Decode α) d a d' := nofun

end Steps

/-! ## The next item -/

variable {d : Decoder} {i : Item} {rest : List UInt8}

/-- A well-formed item stands in front of what is unread. -/
structure Faces (d : Decoder) (i : Item) (rest : List UInt8) : Prop where
  unread : d.unread = i.encode ++ rest
  within : i.Within {} 0 false

/-- Taking an item off gives what is made of it. -/
theorem Faces.next {α : Type} {view : Item → Except Fault α} {a : α} (h : Faces d i rest) (hview : view i = .ok a)
    (op key : Text) : Gives (next op key view) d a { d with unread := rest } := by
  refine (gives_get d).bind ?_
  rw [h.unread, h.within.read_encode rest]
  simp only [hview]
  exact (gives_modify _ d).bind (gives_pure a _)

theorem Faces.skip (h : Faces d i rest) (op key : Text) : Gives (skip op key) d () { d with unread := rest } := by
  refine h.next ?_ op key
  rfl

/-- An item of which nothing can be made ends the decoding. -/
theorem Faces.next_fails {α : Type} {view : Item → Except Fault α} {f : Fault} (h : Faces d i rest) (hview : view i = .error f)
    (op key : Text) : Fails (Decoder.next op key view) d .malformedInput := by
  refine (gives_get d).fails ?_
  rw [h.unread, h.within.read_encode rest]
  simp only [hview]
  exact fails_fail rfl d

/-- The first byte of the next item tells its major type. -/
theorem Faces.peek (h : Faces d i rest) (op key : Text) :
    ∃ b tail, i.encode = b :: tail ∧ Major.ofByte b = i.major ∧ Gives (peek op key) d (b, tail ++ rest) d := by
  obtain ⟨b, tail, hb, hm⟩ := h.within.first
  refine ⟨b, tail, hb, hm, (gives_get d).bind ?_⟩
  rw [h.unread, hb]
  exact gives_pure _ d

theorem Faces.expect (h : Faces d i rest) (op key : Text) (want : String) : Gives (expect op key i.major want) d () d := by
  obtain ⟨b, tail, -, hm, hpeek⟩ := h.peek op key
  refine hpeek.bind ?_
  simp only [hm, ne_eq, not_true_eq_false, if_false]
  exact gives_pure () d

theorem Faces.expect_fails (h : Faces d i rest) {major : Major} (hne : i.major ≠ major) (op key : Text) (want : String) :
    Fails (Decoder.expect op key major want) d .unexpectedWireType := by
  obtain ⟨b, tail, -, hm, hpeek⟩ := h.peek op key
  refine hpeek.fails ?_
  simp only [hm, hne, ne_eq, not_false_eq_true, if_true]
  exact fails_fail rfl d

/-- The head of the next item. -/
theorem Faces.peekHead (h : Faces d i rest) (op key : Text) : Gives (peekHead op key) d (i.head, i.body ++ rest) d := by
  refine (gives_get d).bind ?_
  rw [h.unread, encode_eq, List.append_assoc, Head.read_encode h.within.valid_head]
  exact gives_pure _ d

/-! ## What the next item was -/

section Found

variable {d' : Decoder} {op key : Text}

theorem Gives.of_next {α : Type} {view : Item → Except Fault α} {a : α} (h : Gives (next op key view) d a d') :
    ∃ i rest, Faces d i rest ∧ view i = .ok a ∧ d' = { d with unread := rest } := by
  obtain ⟨s, d₁, hget, hread⟩ := h.of_bind
  obtain ⟨rfl, rfl⟩ := hget.of_get
  split at hread
  · exact absurd hread (not_gives_fail _)
  · rename_i i rest hitem
    split at hread
    · exact absurd hread (not_gives_fail _)
    · rename_i b hview
      obtain ⟨u, d₂, hmodify, hpure⟩ := hread.of_bind
      obtain rfl := hmodify.of_modify
      obtain ⟨rfl, rfl⟩ := hpure.of_pure
      exact ⟨i, rest, ⟨(read_eq_ok_iff.1 hitem).1, (read_eq_ok_iff.1 hitem).2⟩, hview, rfl⟩

theorem Gives.of_peek {b : UInt8} {tail : List UInt8} (h : Gives (peek op key) d (b, tail) d') : d.unread = b :: tail ∧ d' = d := by
  obtain ⟨s, d₁, hget, hmatch⟩ := h.of_bind
  obtain ⟨rfl, rfl⟩ := hget.of_get
  split at hmatch
  · exact absurd hmatch (not_gives_fail _)
  · rename_i hunread
    obtain ⟨hpair, rfl⟩ := hmatch.of_pure
    cases hpair
    exact ⟨hunread, rfl⟩

theorem Gives.of_peekHead {r : Head × List UInt8} (h : Gives (peekHead op key) d r d') : d' = d := by
  obtain ⟨s, d₁, hget, hmatch⟩ := h.of_bind
  obtain ⟨rfl, rfl⟩ := hget.of_get
  split at hmatch
  · exact absurd hmatch (not_gives_fail _)
  · exact hmatch.of_pure.2

theorem Gives.of_expect {major : Major} {want : String} {u : Unit} (h : Gives (expect op key major want) d u d') :
    (∃ b tail, d.unread = b :: tail ∧ Major.ofByte b = major) ∧ d' = d := by
  obtain ⟨⟨b, tail⟩, d₁, hpeek, hmajor⟩ := h.of_bind
  obtain ⟨hunread, rfl⟩ := hpeek.of_peek
  dsimp only at hmajor
  split at hmajor
  · exact absurd hmajor (not_gives_fail _)
  · rename_i hb
    obtain ⟨-, rfl⟩ := hmajor.of_pure
    exact ⟨⟨b, tail, hunread, not_not.1 hb⟩, rfl⟩

end Found

end Decoder

/-! ## Text -/

/-- The item is a text string that holds a text, and each of its chunks is UTF-8 by itself. -/
def Cbor.Item.Spells (i : Item) (t : Text) : Prop :=
  match i with
  | string .text _ content => content = t.bytes ∧ IsUtf8 content
  | chunks .text pieces => pieces.flatMap Prod.snd = t.bytes ∧ ∀ p ∈ pieces, IsUtf8 p.2
  | _ => False

theorem Cbor.Item.spells_iff {i : Item} {t : Text} : i.Spells t ↔ i.major = .text ∧ i.text = .ok t := by
  have htext : ∀ b : List UInt8, (⟨b⟩ : Text) = t ↔ b = t.bytes := fun b => ⟨fun h => h ▸ rfl, fun h => h ▸ rfl⟩
  cases i with
  | string kind w b =>
    cases kind with
    | bytes => simp [Spells, major, StringKind.major]
    | text =>
      by_cases hv : Utf8.isValid b = true <;>
        simp [Spells, major, StringKind.major, text, content, IsUtf8, hv, htext]
  | chunks kind pieces =>
    cases kind with
    | bytes => simp [Spells, major, StringKind.major]
    | text =>
      by_cases hv : pieces.all (fun p => Utf8.isValid p.2) = true
      · have hall := List.all_eq_true.1 hv
        simp [Spells, major, StringKind.major, text, content, IsUtf8, hv, htext]
        exact fun _ => by simpa using hall
      · simp only [Spells, major, StringKind.major, text, hv, true_and]
        simp only [Bool.false_eq_true, if_false, reduceCtorEq, iff_false, not_and]
        intro _ hall
        exact hv (List.all_eq_true.2 hall)
  | _ => simp [Spells, major]

/-- The code of the error that an item is where a text is wanted: text that is not UTF-8, or no text at all. -/
def Cbor.Item.textFault (i : Item) : Code := if i.major = .text then .malformedInput else .unexpectedWireType

theorem Cbor.Item.textFault_ne_outOfRange (i : Item) : i.textFault ≠ .outOfRange := by
  unfold textFault
  split <;> decide

/-- The text is the content of the item. -/
theorem Cbor.Item.Spells.content_eq {i : Item} {t : Text} (h : i.Spells t) : (⟨i.content⟩ : Text) = t := by
  have htext := (spells_iff.1 h).2
  unfold Item.text at htext
  dsimp only at htext
  split at htext
  all_goals
    split at htext
    · exact Except.ok.inj htext
    · cases htext

namespace Decoder

variable {d : Decoder} {i : Item} {rest : List UInt8}

/-- The key of a pair, when pairs remain. -/
theorem Faces.takeKey (h : Faces d i rest) (hmore : d.read < d.count) {t : Text} (ht : i.Spells t) (op expected : Text) :
    Gives (takeKey op expected) d t { d with unread := rest, read := d.read + 1 } := by
  obtain ⟨hmajor, htext⟩ := spells_iff.1 ht
  have hexpect := h.expect op expected "text string key"
  rw [hmajor] at hexpect
  refine (gives_get d).bind ?_
  simp only [more, hmore, decide_true, Bool.not_true, Bool.false_eq_true, if_false]
  exact hexpect.bind ((h.next htext op expected).bind ((gives_modify _ _).bind (gives_pure t _)))

theorem Faces.takeKey_fails (h : Faces d i rest) (hmore : d.read < d.count) (ht : ∀ t, ¬i.Spells t) (op expected : Text) :
    Fails (Decoder.takeKey op expected) d i.textFault := by
  refine (gives_get d).fails ?_
  simp only [more, hmore, decide_true, Bool.not_true, Bool.false_eq_true, if_false]
  by_cases hmajor : i.major = .text
  · have hexpect := h.expect op expected "text string key"
    rw [hmajor] at hexpect
    rw [textFault, if_pos hmajor]
    refine hexpect.fails (Fails.bind ?_ _)
    cases htext : i.text with
    | ok t => exact absurd (spells_iff.2 ⟨hmajor, htext⟩) (ht t)
    | error f => exact h.next_fails htext op expected
  · rw [textFault, if_neg hmajor]
    exact (h.expect_fails hmajor op expected _).bind _

/-! ## Numbers and simple values -/

theorem Faces.takeUnsigned {w : Width} {n : Nat} (h : Faces d (.unsigned w n) rest) (op key : Text) :
    Gives (takeUnsigned op key) d n { d with unread := rest } := by
  refine (h.expect op key "unsigned integer").bind (h.next ?_ op key)
  rfl

theorem Faces.takeUnsigned_fails (h : Faces d i rest) (hne : i.major ≠ .unsigned) (op key : Text) :
    Fails (Decoder.takeUnsigned op key) d .unexpectedWireType :=
  (h.expect_fails hne op key _).bind _

/-- A simple value stands in one byte below 24, and in two from 32 on. -/
theorem Faces.takeSimple {v : UInt8} (h : Faces d (.simple v) rest) (op key : Text) :
    Gives (takeSimple op key) d v { d with unread := rest } := by
  have hv : v < 24 ∨ 32 ≤ v := h.within
  refine (h.expect op key "simple value").bind ?_
  rcases hv with hlt | hge
  · have hlt' : v.toNat < 24 := hlt
    have hencode : (Item.simple v).encode = [Head.initial .primitive v.toNat] := by
      rw [encode_eq, head_simple_of_lt hlt]
      rfl
    have hmod := Head.initial_mod .primitive (show v.toNat < 32 by omega)
    obtain ⟨b, tail, hb, -, hpeek⟩ := h.peek op key
    rw [hencode, List.cons.injEq] at hb
    obtain ⟨rfl, rfl⟩ := hb
    refine hpeek.bind ?_
    simp only [hmod, hlt', if_true, UInt8.ofNat_toNat]
    exact (gives_modify _ d).bind (gives_pure v _)
  · have hge' : 32 ≤ v.toNat := hge
    have hencode : (Item.simple v).encode = [Head.initial .primitive 24, v] := by
      rw [encode_eq, head_simple_of_le (UInt8.le_trans (by decide) hge), Head.encode_some]
      simp [Width.size, Width.info, bigEndian, body]
    have hmod := Head.initial_mod .primitive (show 24 < 32 by omega)
    obtain ⟨b, tail, hb, -, hpeek⟩ := h.peek op key
    rw [hencode, List.cons.injEq] at hb
    obtain ⟨rfl, rfl⟩ := hb
    refine hpeek.bind ?_
    have hnot : ¬v < 32 := Nat.not_lt.2 hge'
    simp only [hmod, Nat.lt_irrefl, if_false, if_true, List.cons_append, List.nil_append, hnot]
    exact (gives_modify _ d).bind (gives_pure v _)

/-- The low bits of the first byte tell the primitive items apart. -/
theorem first_of_primitive {lim : Limits} {depth : Nat} {inTag : Bool} {b : UInt8} {tail : List UInt8}
    (h : i.Within lim depth inTag) (hb : i.encode = b :: tail) (hm : i.major = .primitive) :
    (∃ v, i = .simple v ∧ b.toNat % 32 ≤ 24) ∨ (∃ bits, i = .half bits ∧ b.toNat % 32 = 25) ∨
      (∃ bits, i = .single bits ∧ b.toNat % 32 = 26) ∨ ∃ bits, i = .double bits ∧ b.toNat % 32 = 27 := by
  have hinfo : ∀ {w : Width} {n : Nat}, i.head = ⟨.primitive, some w, n⟩ → b.toNat % 32 = w.info n := by
    intro w n hhead
    have hv := h.valid_head
    rw [encode_eq, hhead, Head.encode_some, List.cons_append, List.cons.injEq] at hb
    rw [hhead] at hv
    rw [← hb.1, Head.initial_mod .primitive (Nat.lt_trans (Width.info_lt hv) (by decide))]
  cases i with
  | simple v =>
    refine Or.inl ⟨v, rfl, ?_⟩
    by_cases hv : v < 24
    · rw [hinfo (head_simple_of_lt hv)]
      exact Nat.le_of_lt hv
    · rw [hinfo (head_simple_of_le (Nat.not_lt.1 hv))]
      exact Nat.le_refl 24
  | half bits => exact Or.inr (Or.inl ⟨bits, rfl, hinfo rfl⟩)
  | single bits => exact Or.inr (Or.inr (Or.inl ⟨bits, rfl, hinfo rfl⟩))
  | double bits => exact Or.inr (Or.inr (Or.inr ⟨bits, rfl, hinfo rfl⟩))
  | string kind w content => exact absurd hm kind.major_ne_primitive
  | chunks kind pieces => exact absurd hm kind.major_ne_primitive
  | _ => cases hm

theorem Faces.takeSimple_fails (h : Faces d i rest) (hne : ∀ v, i ≠ .simple v) (op key : Text) :
    Fails (Decoder.takeSimple op key) d .unexpectedWireType := by
  by_cases hmajor : i.major = .primitive
  · have hexpect := h.expect op key "simple value"
    rw [hmajor] at hexpect
    refine hexpect.fails ?_
    obtain ⟨b, tail, hb, -, hpeek⟩ := h.peek op key
    have hinfo : 24 < b.toNat % 32 := by
      rcases first_of_primitive h.within hb hmajor with ⟨v, hi, -⟩ | ⟨_, -, hinfo⟩ | ⟨_, -, hinfo⟩ | ⟨_, -, hinfo⟩
      · exact absurd hi (hne v)
      all_goals omega
    refine hpeek.fails ?_
    simp only [show ¬b.toNat % 32 < 24 by omega, show ¬b.toNat % 32 = 24 by omega, if_false]
    exact fails_fail rfl d
  · exact (h.expect_fails hmajor op key _).bind _

/-- The first byte of a single-precision number is its own. -/
theorem first_eq_single_iff {lim : Limits} {depth : Nat} {inTag : Bool} {b : UInt8} {tail : List UInt8}
    (h : i.Within lim depth inTag) (hb : i.encode = b :: tail) (hm : Major.ofByte b = i.major) :
    b = 0xfa ↔ ∃ bits, i = .single bits := by
  constructor
  · rintro rfl
    rcases first_of_primitive h hb hm.symm with ⟨_, -, hinfo⟩ | ⟨_, -, hinfo⟩ | ⟨bits, rfl, -⟩ | ⟨_, -, hinfo⟩
    · exact absurd hinfo (by decide)
    · exact absurd hinfo (by decide)
    · exact ⟨bits, rfl⟩
    · exact absurd hinfo (by decide)
  · rintro ⟨bits, rfl⟩
    exact (List.cons.inj hb).1.symm

/-- The first byte of a double-precision number is its own. -/
theorem first_eq_double_iff {lim : Limits} {depth : Nat} {inTag : Bool} {b : UInt8} {tail : List UInt8}
    (h : i.Within lim depth inTag) (hb : i.encode = b :: tail) (hm : Major.ofByte b = i.major) :
    b = 0xfb ↔ ∃ bits, i = .double bits := by
  constructor
  · rintro rfl
    rcases first_of_primitive h hb hm.symm with ⟨_, -, hinfo⟩ | ⟨_, -, hinfo⟩ | ⟨_, -, hinfo⟩ | ⟨bits, rfl, -⟩
    · exact absurd hinfo (by decide)
    · exact absurd hinfo (by decide)
    · exact absurd hinfo (by decide)
    · exact ⟨bits, rfl⟩
  · rintro ⟨bits, rfl⟩
    exact (List.cons.inj hb).1.symm

theorem Faces.takeFloat32 {bits : UInt32} (h : Faces d (.single bits) rest) (op key : Text) :
    Gives (takeFloat32 op key) d (Binary.quieted bits) { d with unread := rest } := by
  obtain ⟨b, tail, hb, hm, hpeek⟩ := h.peek op key
  obtain rfl := (first_eq_single_iff h.within hb hm).2 ⟨bits, rfl⟩
  rw [← Binary.narrow_widen]
  refine hpeek.bind ?_
  simp only [ne_eq, not_true_eq_false, if_false]
  refine h.next ?_ op key
  rfl

theorem Faces.takeFloat32_fails (h : Faces d i rest) (hne : ∀ bits, i ≠ .single bits) (op key : Text) :
    Fails (Decoder.takeFloat32 op key) d .unexpectedWireType := by
  obtain ⟨b, tail, hb, hm, hpeek⟩ := h.peek op key
  have hbyte : b ≠ 0xfa := fun hbyte => by
    obtain ⟨bits, hi⟩ := (first_eq_single_iff h.within hb hm).1 hbyte
    exact hne bits hi
  refine hpeek.fails ?_
  simp only [ne_eq, hbyte, not_false_eq_true, if_true]
  exact fails_fail rfl d

theorem Faces.takeFloat64 {bits : UInt64} (h : Faces d (.double bits) rest) (op key : Text) :
    Gives (takeFloat64 op key) d bits { d with unread := rest } := by
  obtain ⟨b, tail, hb, hm, hpeek⟩ := h.peek op key
  obtain rfl := (first_eq_double_iff h.within hb hm).2 ⟨bits, rfl⟩
  refine hpeek.bind ?_
  simp only [ne_eq, not_true_eq_false, if_false]
  refine h.next ?_ op key
  rfl

theorem Faces.takeFloat64_fails (h : Faces d i rest) (hne : ∀ bits, i ≠ .double bits) (op key : Text) :
    Fails (Decoder.takeFloat64 op key) d .unexpectedWireType := by
  obtain ⟨b, tail, hb, hm, hpeek⟩ := h.peek op key
  have hbyte : b ≠ 0xfb := fun hbyte => by
    obtain ⟨bits, hi⟩ := (first_eq_double_iff h.within hb hm).1 hbyte
    exact hne bits hi
  refine hpeek.fails ?_
  simp only [ne_eq, hbyte, not_false_eq_true, if_true]
  exact fails_fail rfl d

/-! ## Text and bytes -/

theorem gives_charge (h : d.options.allocLimit ≤ 0) (op key : Text) (n : Int64) :
    Gives (charge op key n) d () { d with allocated := d.allocated + n } := by
  refine (gives_get d).bind ?_
  have hlimit : ¬0 < d.options.allocLimit := Int64.not_lt.2 h
  simp only [hlimit, false_and, if_false]
  rfl

theorem eq_string_or_chunks {kind : StringKind} (h : i.major = kind.major) :
    (∃ w content, i = .string kind w content) ∨ ∃ pieces, i = .chunks kind pieces := by
  cases i with
  | string kind' w content =>
    obtain rfl : kind' = kind := by cases kind <;> cases kind' <;> first | rfl | cases h
    exact Or.inl ⟨w, content, rfl⟩
  | chunks kind' pieces =>
    obtain rfl : kind' = kind := by cases kind <;> cases kind' <;> first | rfl | cases h
    exact Or.inr ⟨pieces, rfl⟩
  | _ => cases kind <;> cases h

/-- Without a limit a string is charged, and nothing else changes. -/
theorem Faces.chargeString (h : Faces d i rest) (halloc : d.options.allocLimit ≤ 0) (kind : StringKind)
    (hm : i.major = kind.major) (op key : Text) (want : String) (extra : Nat) :
    ∃ isOpen x, Gives (chargeString op key kind want extra) d isOpen { d with allocated := x } := by
  have hexpect := h.expect op key want
  rw [hm] at hexpect
  have hhead := h.peekHead op key
  rcases eq_string_or_chunks hm with ⟨w, content, rfl⟩ | ⟨pieces, rfl⟩
  · have hlen : ¬d.unread.length < content.length := by
      rw [h.unread, encode_eq, body]
      simp only [List.length_append]
      omega
    by_cases hpos : 0 < content.length
    · refine ⟨false, d.allocated + Int64.ofNat (content.length + extra), hexpect.bind (hhead.bind ?_)⟩
      simp only [head, reduceCtorEq, if_false, hpos, if_true]
      refine (gives_get d).bind ?_
      simp only [hlen, if_false]
      exact (gives_charge halloc op key _).bind (gives_pure false _)
    · refine ⟨false, d.allocated, hexpect.bind (hhead.bind ?_)⟩
      simp only [head, reduceCtorEq, if_false, hpos]
      exact gives_pure false d
  · refine ⟨true, d.allocated, hexpect.bind (hhead.bind ?_)⟩
    simp only [head, if_true]
    exact gives_pure true d

/-- The step that charges a string of open length once it is read. -/
theorem gives_chargeOpen {α : Type} (halloc : d.options.allocLimit ≤ 0) (c : Prop) [Decidable c] (op key : Text) (n : Int64) (a : α) :
    ∃ x, Gives (if c then do charge op key n; pure a else pure a) d a { d with allocated := x } := by
  by_cases hc : c
  · refine ⟨d.allocated + n, ?_⟩
    rw [if_pos hc]
    exact (gives_charge halloc op key n).bind (gives_pure a _)
  · refine ⟨d.allocated, ?_⟩
    rw [if_neg hc]
    exact gives_pure a d

theorem Faces.takeText (h : Faces d i rest) (halloc : d.options.allocLimit ≤ 0) {t : Text} (ht : i.Spells t) (op key : Text) :
    ∃ x, Gives (takeText op key) d t { d with unread := rest, allocated := x } := by
  obtain ⟨hmajor, htext⟩ := spells_iff.1 ht
  obtain ⟨isOpen, x, hcharge⟩ := h.chargeString halloc .text hmajor op key "text string" 1
  have hfaces : Faces { d with allocated := x } i rest := ⟨h.unread, h.within⟩
  obtain ⟨y, hopen⟩ := gives_chargeOpen (d := { d with allocated := x, unread := rest }) halloc
    (isOpen = true ∧ (!t.isEmpty) = true) op key (Int64.ofNat (t.length + 1)) t
  exact ⟨y, hcharge.bind ((hfaces.next htext op key).bind hopen)⟩

theorem Faces.takeText_fails (h : Faces d i rest) (halloc : d.options.allocLimit ≤ 0) (ht : ∀ t, ¬i.Spells t) (op key : Text) :
    Fails (Decoder.takeText op key) d i.textFault := by
  by_cases hmajor : i.major = .text
  · obtain ⟨isOpen, x, hcharge⟩ := h.chargeString halloc .text hmajor op key "text string" 1
    have hfaces : Faces { d with allocated := x } i rest := ⟨h.unread, h.within⟩
    rw [textFault, if_pos hmajor]
    refine hcharge.fails (Fails.bind ?_ _)
    cases htext : i.text with
    | ok t => exact absurd (spells_iff.2 ⟨hmajor, htext⟩) (ht t)
    | error f => exact hfaces.next_fails htext op key
  · rw [textFault, if_neg hmajor]
    exact ((h.expect_fails hmajor op key _).bind _).bind _

theorem Faces.takeBytes (h : Faces d i rest) (halloc : d.options.allocLimit ≤ 0) (hmajor : i.major = .bytes) (op key : Text) :
    ∃ x, Gives (takeBytes op key) d i.content { d with unread := rest, allocated := x } := by
  obtain ⟨isOpen, x, hcharge⟩ := h.chargeString halloc .bytes hmajor op key "byte string" 0
  have hfaces : Faces { d with allocated := x } i rest := ⟨h.unread, h.within⟩
  obtain ⟨y, hopen⟩ := gives_chargeOpen (d := { d with allocated := x, unread := rest }) halloc
    (isOpen = true ∧ (!i.content.isEmpty) = true) op key (Int64.ofNat i.content.length) i.content
  refine ⟨y, hcharge.bind (Gives.bind (hfaces.next ?_ op key) hopen)⟩
  rfl

theorem Faces.takeBytes_fails (h : Faces d i rest) (hmajor : i.major ≠ .bytes) (op key : Text) :
    Fails (Decoder.takeBytes op key) d .unexpectedWireType :=
  ((h.expect_fails hmajor op key _).bind _).bind _

end Decoder

/-! ## Values -/

namespace Slot

/-- The items that a slot takes. -/
def Suits (s : Slot) (i : Item) : Prop :=
  match s with
  | uint8 _ | uint16 _ | uint32 _ | uint64 _ | bool _ => i.major = .unsigned
  | simple _ => ∃ v, i = .simple v
  | float32 _ => ∃ bits, i = .single bits
  | float64 _ => ∃ bits, i = .double bits
  | string _ => ∃ t, i.Spells t
  | bytes _ => i.major = .bytes

/-- The code of the error that an item is which a slot does not take. -/
def refusal (s : Slot) (i : Item) : Code :=
  match s with
  | string _ => i.textFault
  | _ => .unexpectedWireType

theorem refusal_ne_outOfRange (s : Slot) (i : Item) : s.refusal i ≠ .outOfRange := by
  cases s with
  | string t => exact i.textFault_ne_outOfRange
  | _ => exact nofun

/-- What a slot holds after it took an item. Whole numbers are reduced to the width of the slot. -/
def filled (s : Slot) (i : Item) : Slot :=
  match s, i with
  | uint8 _, .unsigned _ n => uint8 (UInt8.ofNat (n % 2 ^ 8))
  | uint16 _, .unsigned _ n => uint16 (UInt16.ofNat (n % 2 ^ 16))
  | uint32 _, .unsigned _ n => uint32 (UInt32.ofNat (n % 2 ^ 32))
  | uint64 _, .unsigned _ n => uint64 (UInt64.ofNat (n % 2 ^ 64))
  | bool _, .unsigned _ n => bool (n != 0)
  | simple _, .simple v => simple v
  | float32 _, .single bits => float32 (Binary.quieted bits)
  | float64 _, .double bits => float64 bits
  | string _, i => string ⟨i.content⟩
  | bytes _, i => bytes i.content
  | s, _ => s

/-- Storing a whole number reduces it to the width of the slot. -/
theorem filled_unsigned {s : Slot} {limit : Nat} (h : s.capacity? = some limit) (w : Width) (n : Nat) :
    s.filled (.unsigned w n) = s.storeNat n := by
  cases s with
  | uint8 v => exact congrArg uint8 (UInt8.toNat_inj.1 (by simp))
  | uint16 v => exact congrArg uint16 (UInt16.toNat_inj.1 (by simp))
  | uint32 v => exact congrArg uint32 (UInt32.toNat_inj.1 (by simp))
  | uint64 v => exact congrArg uint64 (UInt64.toNat_inj.1 (by simp))
  | bool v => rfl
  | _ => cases h

end Slot

namespace Field

/-- Whether an item is a number that a checked field has no room for. -/
def overflows (f : Field) (i : Item) : Bool :=
  match f.checked, f.slot?.bind Slot.capacity?, i with
  | true, some limit, .unsigned _ n => limit < n
  | _, _, _ => false

theorem exists_of_slot? {f : Field} {s : Slot} (h : f.slot? = some s) : ∃ key checked, f = ⟨key, .bound s, checked⟩ := by
  obtain ⟨key, binding, checked⟩ := f
  cases binding with
  | bound s' =>
    cases h
    exact ⟨key, checked, rfl⟩
  | unbound t => cases h

/-- A field after it took an item: a number that it has no room for leaves it as it was. -/
def received (f : Field) (i : Item) : Field :=
  match f.slot? with
  | some s => if f.overflows i then f else f.store (s.filled i)
  | none => f

variable {f : Field} {i : Item}

theorem received_of_overflows (h : f.overflows i = true) : f.received i = f := by
  unfold received
  split
  · exact if_pos h
  · rfl

theorem received_of_not_overflows {s : Slot} (hslot : f.slot? = some s) (h : f.overflows i = false) :
    f.received i = f.store (s.filled i) := by
  simp only [received, hslot, h, Bool.false_eq_true, if_false]

/-- What a field has no room for is a number beyond its limit, and the field is checked. -/
theorem exists_of_overflows (h : f.overflows i = true) :
    ∃ limit w n, f.checked = true ∧ f.slot?.bind Slot.capacity? = some limit ∧ i = .unsigned w n ∧ limit < n := by
  unfold overflows at h
  split at h
  · rename_i limit w n hchecked hlimit
    exact ⟨limit, w, n, hchecked, hlimit, rfl, of_decide_eq_true h⟩
  · cases h

end Field

namespace Decoder

variable {d : Decoder} {i : Item} {rest : List UInt8}

/-- A whole number is refused by a checked field that has no room for it. -/
theorem Faces.takeNumber_refuses {w : Width} {n limit : Nat} (h : Faces d (.unsigned w n) rest) {f : Field}
    (hc : f.checked = true) (hn : limit < n) (op : Text) (s : Slot) (refused : Nat → Detail) :
    Refuses (takeNumber op f s limit refused) d { d with unread := rest } := by
  refine (h.takeUnsigned op f.key).refuses ?_
  rw [if_pos ⟨hc, hn⟩]
  exact ⟨_, rfl, rfl⟩

/-- A whole number is stored otherwise. -/
theorem Faces.takeNumber {w : Width} {n limit : Nat} (h : Faces d (.unsigned w n) rest) {f : Field}
    (hc : ¬(f.checked = true ∧ limit < n)) (op : Text) (s : Slot) (refused : Nat → Detail) :
    Gives (takeNumber op f s limit refused) d (s.storeNat n) { d with unread := rest } := by
  refine (h.takeUnsigned op f.key).bind ?_
  rw [if_neg hc]
  exact gives_pure _ _

theorem eq_unsigned_of_major (h : i.major = .unsigned) : ∃ w n, i = .unsigned w n := by
  cases i with
  | unsigned w n => exact ⟨w, n, rfl⟩
  | string kind w content => cases kind <;> cases h
  | chunks kind pieces => cases kind <;> cases h
  | _ => cases h

/-- A slot for whole numbers takes its value as one. -/
theorem takeValue_eq_takeNumber {s : Slot} {limit : Nat} (h : s.capacity? = some limit) (op key : Text) (checked : Bool) :
    ∃ refused, takeValue op ⟨key, .bound s, checked⟩ = takeNumber op ⟨key, .bound s, checked⟩ s limit refused := by
  cases s <;> cases h <;> exact ⟨_, rfl⟩

theorem eq_unsigned_of_suits {s : Slot} {limit : Nat} (h : s.Suits i) (hs : s.capacity? = some limit) : ∃ w n, i = .unsigned w n := by
  cases s <;> cases hs <;> exact eq_unsigned_of_major h

/-- An item that does not suit the slot ends the decoding. -/
theorem Faces.takeValue_fails (h : Faces d i rest) (halloc : d.options.allocLimit ≤ 0) {f : Field} {s : Slot}
    (hslot : f.slot? = some s) (hs : ¬s.Suits i) (op : Text) : Fails (takeValue op f) d (s.refusal i) := by
  obtain ⟨key, checked, rfl⟩ := Field.exists_of_slot? hslot
  cases s with
  | uint8 v => exact (h.takeUnsigned_fails hs op key).bind _
  | uint16 v => exact (h.takeUnsigned_fails hs op key).bind _
  | uint32 v => exact (h.takeUnsigned_fails hs op key).bind _
  | uint64 v => exact (h.takeUnsigned_fails hs op key).bind _
  | bool v => exact (h.takeUnsigned_fails hs op key).bind _
  | simple v => exact (h.takeSimple_fails (fun v hi => hs ⟨v, hi⟩) op key).bind _
  | float32 bits => exact (h.takeFloat32_fails (fun bits hi => hs ⟨bits, hi⟩) op key).bind _
  | float64 bits => exact (h.takeFloat64_fails (fun bits hi => hs ⟨bits, hi⟩) op key).bind _
  | string t => exact (h.takeText_fails halloc (fun t hi => hs ⟨t, hi⟩) op key).bind _
  | bytes b => exact (h.takeBytes_fails hs op key).bind _

/-- A number that a checked field has no room for is refused, and the decoding goes on after it. -/
theorem Faces.takeValue_refuses (h : Faces d i rest) {f : Field} {s : Slot} (hslot : f.slot? = some s)
    (ho : f.overflows i = true) (op : Text) : Refuses (takeValue op f) d { d with unread := rest } := by
  obtain ⟨limit, w, n, hchecked, hlimit, rfl, hn⟩ := Field.exists_of_overflows ho
  rw [hslot, Option.bind_some] at hlimit
  obtain ⟨key, checked, rfl⟩ := Field.exists_of_slot? hslot
  obtain ⟨refused, hvalue⟩ := takeValue_eq_takeNumber hlimit op key checked
  rw [hvalue]
  exact h.takeNumber_refuses hchecked hn op s refused

/-- A number that the field does not refuse is stored, reduced to the width of the slot. -/
theorem Faces.takeValue_number {w : Width} {n limit : Nat} (h : Faces d (.unsigned w n) rest) {key : Text} {s : Slot}
    {checked : Bool} (hs : s.capacity? = some limit) (ho : Field.overflows ⟨key, .bound s, checked⟩ (.unsigned w n) = false)
    (op : Text) : Gives (takeValue op ⟨key, .bound s, checked⟩) d (s.filled (.unsigned w n)) { d with unread := rest } := by
  have hc : ¬(checked = true ∧ limit < n) := by
    rintro ⟨rfl, hn⟩
    have hover : Field.overflows ⟨key, .bound s, true⟩ (.unsigned w n) = decide (limit < n) := by
      simp only [Field.overflows, Field.slot?, Option.bind_some, hs]
    rw [ho, decide_eq_true hn] at hover
    cases hover
  obtain ⟨refused, hvalue⟩ := takeValue_eq_takeNumber hs op key checked
  rw [hvalue, Slot.filled_unsigned hs]
  exact h.takeNumber hc op s refused

/-- An item that suits the slot, and that the field does not refuse, fills it. -/
theorem Faces.takeValue_filled (h : Faces d i rest) (halloc : d.options.allocLimit ≤ 0) {f : Field} {s : Slot}
    (hslot : f.slot? = some s) (hs : s.Suits i) (ho : f.overflows i = false) (op : Text) :
    ∃ x, Gives (takeValue op f) d (s.filled i) { d with unread := rest, allocated := x } := by
  obtain ⟨key, checked, rfl⟩ := Field.exists_of_slot? hslot
  cases hc : s.capacity? with
  | some limit =>
    obtain ⟨w, n, rfl⟩ := eq_unsigned_of_suits hs hc
    exact ⟨d.allocated, h.takeValue_number hc ho op⟩
  | none =>
    -- the slots left hold no whole numbers
    cases s with
    | simple v =>
      obtain ⟨v, rfl⟩ := hs
      exact ⟨d.allocated, (h.takeSimple op key).bind (gives_pure _ _)⟩
    | float32 bits =>
      obtain ⟨bits, rfl⟩ := hs
      exact ⟨d.allocated, (h.takeFloat32 op key).bind (gives_pure _ _)⟩
    | float64 bits =>
      obtain ⟨bits, rfl⟩ := hs
      exact ⟨d.allocated, (h.takeFloat64 op key).bind (gives_pure _ _)⟩
    | string t =>
      obtain ⟨t, ht⟩ := hs
      obtain ⟨x, htake⟩ := h.takeText halloc ht op key
      obtain rfl : (⟨i.content⟩ : Text) = t := ht.content_eq
      exact ⟨x, htake.bind (gives_pure _ _)⟩
    | bytes b =>
      obtain ⟨x, htake⟩ := h.takeBytes halloc hs op key
      exact ⟨x, htake.bind (gives_pure _ _)⟩
    | _ => cases hc

/-! ## Entering and leaving -/

/-- The decoder inside a map, before its first pair. -/
def inside (options : Options) (w : Width) (pairs : List (Item × Item)) (trailing : Nat) : Decoder :=
  { unread := encodePairs pairs, size := (Item.map w pairs).encode.length, trailing, count := pairs.length, options }

/-- Entering a map of a number of pairs that is right leaves the decoder inside it. -/
theorem enter_map {w : Width} {pairs : List (Item × Item)} (hin : (Item.map w pairs).Within {} 0 false) (options : Options)
    {expected : Option Int} (hexpected : ∀ n, expected = some n → (pairs.length : Int) = n % 0x10000000000000000)
    (rest : List UInt8) :
    enter options expected ((Item.map w pairs).encode ++ rest) = (.ok (), inside options w pairs rest.length) := by
  have hhead : Head.read ((Item.map w pairs).encode ++ rest) = .ok (⟨.map, some w, pairs.length⟩, encodePairs pairs ++ rest) := by
    rw [encode_eq, List.append_assoc, Head.read_encode hin.valid_head, encodePairs_eq_flatMap]
    rfl
  unfold enter
  simp only [hin.read_encode rest, hhead, ne_eq, not_true_eq_false, if_false, reduceCtorEq, List.length_append,
    Nat.add_sub_cancel]
  cases expected with
  | none => simp [inside, pure, ExceptT.pure, ExceptT.mk, ExceptT.run, StateT.run, StateT.pure]
  | some n =>
    have hn := hexpected n rfl
    simp [hn, inside, pure, ExceptT.pure, ExceptT.mk, ExceptT.run, StateT.run, StateT.pure]

theorem eq_map_of_major (hm : i.head.major = .map) (hw : i.head.width ≠ none) : ∃ w pairs, i = .map w pairs := by
  cases i with
  | map w pairs => exact ⟨w, pairs, rfl⟩
  | openMap pairs => exact absurd rfl hw
  | string kind w content => cases kind <;> cases hm
  | chunks kind pieces => cases kind <;> cases hm
  | _ => cases hm

/-- Input that is entered begins with a map of definite length of the right number of pairs; other input ends the decoding. -/
theorem enter_cases (options : Options) (expected : Option Int) (data : List UInt8) :
    (∃ w pairs rest, data = (Item.map w pairs).encode ++ rest ∧ (Item.map w pairs).Within {} 0 false ∧
      ∀ n, expected = some n → (pairs.length : Int) = n % 0x10000000000000000) ∨
    ∃ err d, enter options expected data = (.error err, d) ∧ err.code ≠ .outOfRange := by
  have hfail : ∀ {err : Error}, err.code ≠ .outOfRange → ∀ {r : Except Error Unit × Decoder},
      r = (fail err : Decode Unit).run.run { options } → ∃ err d, r = (.error err, d) ∧ err.code ≠ .outOfRange :=
    fun hcode r hr => ⟨_, _, hr, hcode⟩
  cases hread : Item.read {} data with
  | error f =>
    right
    unfold enter
    simp only [hread]
    exact hfail (by simp) rfl
  | ok r =>
    obtain ⟨i, rest⟩ := r
    obtain ⟨rfl, hin⟩ := read_eq_ok_iff.1 hread
    have hhead : Head.read (i.encode ++ rest) = .ok (i.head, i.body ++ rest) := by
      rw [encode_eq, List.append_assoc, Head.read_encode hin.valid_head]
    by_cases hmajor : i.head.major = .map
    · by_cases hwidth : i.head.width = none
      · right
        unfold enter
        simp only [hread, hhead, hmajor, hwidth, ne_eq, not_true_eq_false, if_false, if_true]
        exact hfail (by simp) rfl
      · obtain ⟨w, pairs, rfl⟩ := eq_map_of_major hmajor hwidth
        by_cases hexpected : ∀ n, expected = some n → (pairs.length : Int) = n % 0x10000000000000000
        · exact Or.inl ⟨w, pairs, rest, rfl, hin, hexpected⟩
        · right
          push Not at hexpected
          obtain ⟨n, rfl, hn⟩ := hexpected
          have harg : (Item.map w pairs).head.arg = pairs.length := rfl
          unfold enter
          simp only [hread, hhead, hmajor, hwidth, harg, hn, ne_eq, not_true_eq_false, not_false_eq_true, if_false, if_true]
          exact hfail (by simp) rfl
    · right
      unfold enter
      simp only [hread, hhead, hmajor, ne_eq, not_false_eq_true, if_true]
      exact hfail (by simp) rfl

/-- Leaving succeeds when everything was read and nothing follows. -/
theorem gives_leave (hread : d.read = d.count) (hunread : d.unread = []) (htrailing : d.trailing = 0) :
    ∃ d', Gives leave d () d' := by
  obtain ⟨d', hemit⟩ : ∃ d', Gives (emit { operation := .decode, category := .message, size := d.size }) d () d' := ⟨_, rfl⟩
  refine ⟨d', (gives_get d).bind ?_⟩
  simp only [hread, hunread, htrailing, ne_eq, not_true_eq_false, or_self, if_false]
  exact hemit

theorem leave_stops (htrailing : d.trailing ≠ 0) : Stops leave d := by
  refine (gives_get d).stops ?_
  by_cases hrest : d.read ≠ d.count ∨ d.unread ≠ []
  · simp only [hrest, if_true]
    exact stops_fail (by simp) d
  · simp only [hrest, htrailing, if_false, ne_eq, not_false_eq_true, if_true]
    exact stops_fail (by simp) d

end Decoder

end SensorWire
