import Mathlib
import SensorWire.Cbor.Reader
import SensorWire.Proofs.Head

/-!
# Items read back

Which items a reader accepts, and what it makes of bytes. `Item.Within lim depth inTag i` says that the item is well formed within
limits at a depth: every width holds its argument, no container is too large or too deep, and no open length stands where none is
allowed. `Item.read_eq_ok_iff` is the law of the item codec: reading gives an item and a rest exactly when the bytes are the encoding
of that item, within the limits, followed by that rest.

The proof goes reader by reader: `Exact` says of a reader what the law says of `Item.read`, for inputs below a length, and every way
to combine readers keeps it.
-/

namespace SensorWire.Cbor

/-! ## Exact readers -/

/-- A reader is exact up to a length of input when it gives an element and a rest exactly for the written element, of those that it
accepts, followed by the rest. -/
def Exact {α : Type} (one : Reader α) (write : α → List UInt8) (accepts : α → Prop) (bound : Nat) : Prop :=
  ∀ bytes : List UInt8, bytes.length < bound →
    ∀ a rest, one bytes = .ok (a, rest) ↔ bytes = write a ++ rest ∧ accepts a

/-- What an exact reader leaves is no longer than what it was given. -/
theorem Exact.length_rest {α : Type} {one : Reader α} {write : α → List UInt8} {accepts : α → Prop} {bound : Nat}
    (h : Exact one write accepts bound) {bytes rest : List UInt8} {a : α} (hb : bytes.length < bound)
    (hr : one bytes = .ok (a, rest)) : rest.length < bound := by
  obtain ⟨rfl, -⟩ := (h bytes hb a rest).1 hr
  rw [List.length_append] at hb
  omega

/-- A sequence of two steps succeeds when both do. -/
theorem bind_eq_ok_iff {ε α β : Type} {x : Except ε α} {f : α → Except ε β} {b : β} :
    (x >>= f) = .ok b ↔ ∃ a, x = .ok a ∧ f a = .ok b := by
  cases x with
  | error e => simp [bind, Except.bind]
  | ok a => simp [bind, Except.bind]

/-- A sequence of two steps fails when the first does, or the second after it. -/
theorem bind_eq_error_iff {ε α β : Type} {x : Except ε α} {f : α → Except ε β} {e : ε} :
    (x >>= f) = .error e ↔ x = .error e ∨ ∃ a, x = .ok a ∧ f a = .error e := by
  cases x with
  | error e' => simp [bind, Except.bind]
  | ok a => simp [bind, Except.bind]

/-- Two exact readers one after the other. -/
theorem exact_readBoth {α β : Type} {first : Reader α} {second : Reader β} {writeA : α → List UInt8} {writeB : β → List UInt8}
    {acceptsA : α → Prop} {acceptsB : β → Prop} {bound : Nat} (hA : Exact first writeA acceptsA bound)
    (hB : Exact second writeB acceptsB bound) :
    Exact (readBoth first second) (fun p => writeA p.1 ++ writeB p.2) (fun p => acceptsA p.1 ∧ acceptsB p.2) bound := by
  intro bytes hb p rest
  simp only [readBoth, bind_eq_ok_iff, Prod.exists]
  constructor
  · rintro ⟨a, tail, ha, b, tail', hb', h⟩
    simp only [pure, Except.pure, Except.ok.injEq, Prod.mk.injEq] at h
    obtain ⟨rfl, rfl⟩ := h
    have htail := hA.length_rest hb ha
    obtain ⟨rfl, pa⟩ := (hA _ hb _ _).1 ha
    obtain ⟨rfl, pb⟩ := (hB _ htail _ _).1 hb'
    exact ⟨by simp, pa, pb⟩
  · rintro ⟨rfl, pa, pb⟩
    have ha := (hA _ hb p.1 (writeB p.2 ++ rest)).2 ⟨by simp, pa⟩
    have hb' := (hB _ (hA.length_rest hb ha) p.2 rest).2 ⟨rfl, pb⟩
    exact ⟨_, _, ha, _, _, hb', rfl⟩

/-- So many in a row. -/
theorem exact_readMany {α : Type} {one : Reader α} {write : α → List UInt8} {accepts : α → Prop} {bound : Nat}
    (h : Exact one write accepts bound) (n : Nat) :
    Exact (readMany one n) (List.flatMap write) (fun as => as.length = n ∧ ∀ a ∈ as, accepts a) bound := by
  induction n with
  | zero =>
    intro bytes _ as rest
    simp only [readMany, Except.ok.injEq, Prod.mk.injEq, List.length_eq_zero_iff]
    constructor
    · rintro ⟨rfl, rfl⟩
      exact ⟨rfl, rfl, by simp⟩
    · rintro ⟨rfl, rfl, -⟩
      exact ⟨rfl, rfl⟩
  | succ n ih =>
    intro bytes hb as rest
    simp only [readMany, bind_eq_ok_iff, Prod.exists]
    constructor
    · rintro ⟨a, tail, ha, as', tail', has, hr⟩
      simp only [pure, Except.pure, Except.ok.injEq, Prod.mk.injEq] at hr
      obtain ⟨rfl, rfl⟩ := hr
      have htail := h.length_rest hb ha
      obtain ⟨rfl, pa⟩ := (h _ hb _ _).1 ha
      obtain ⟨rfl, hlen, pas⟩ := (ih _ htail _ _).1 has
      exact ⟨by simp, by simp [hlen], by simpa using ⟨pa, pas⟩⟩
    · rintro ⟨rfl, hlen, pas⟩
      cases as with
      | nil => simp at hlen
      | cons a as =>
        rw [List.length_cons, Nat.add_right_cancel_iff] at hlen
        rw [List.forall_mem_cons] at pas
        have ha := (h _ hb a (as.flatMap write ++ rest)).2 ⟨by simp, pas.1⟩
        have has := (ih _ (h.length_rest hb ha) as rest).2 ⟨rfl, hlen, pas.2⟩
        exact ⟨_, _, ha, _, _, has, rfl⟩

/-- All up to the byte that closes an open length, when no element begins with that byte. -/
theorem exact_readOpen {α : Type} {one : Reader α} {write : α → List UInt8} {accepts : α → Prop} {bound : Nat}
    (h : Exact one write accepts bound) (hstart : ∀ a, accepts a → ∃ b tail, write a = b :: tail ∧ b ≠ Item.breakByte)
    (overfull : Fault) (fuel room : Nat) (hfuel : fuel ≤ bound) :
    Exact (readOpen one overfull fuel room) (fun as => as.flatMap write ++ [Item.breakByte])
      (fun as => as.length ≤ room ∧ ∀ a ∈ as, accepts a) fuel := by
  -- every element takes a byte at least, so the fuel outlasts the bytes
  induction fuel generalizing room with
  | zero => exact fun bytes hb => absurd hb (Nat.not_lt_zero _)
  | succ fuel ih =>
    intro bytes hb as rest
    have hbound : bytes.length < bound := Nat.lt_of_lt_of_le hb hfuel
    by_cases hbreak : bytes.head? = some Item.breakByte
    · simp only [readOpen, hbreak, if_true, Except.ok.injEq, Prod.mk.injEq]
      obtain ⟨tail, rfl⟩ : ∃ tail, bytes = Item.breakByte :: tail := by
        cases bytes with
        | nil => simp at hbreak
        | cons b tail => exact ⟨tail, by simpa using hbreak⟩
      constructor
      · rintro ⟨rfl, rfl⟩
        exact ⟨rfl, by simp, by simp⟩
      · rintro ⟨heq, -, pas⟩
        cases as with
        | nil => simpa using heq
        | cons a as =>
          obtain ⟨b, t, hw, hne⟩ := hstart a (pas a (by simp))
          simp [hw] at heq
          exact absurd heq.1.symm hne
    · simp only [readOpen, hbreak, if_false, bind_eq_ok_iff, Prod.exists]
      constructor
      · rintro ⟨a, tail, ha, hr⟩
        have htail := h.length_rest hbound ha
        obtain ⟨rfl, pa⟩ := (h _ hbound _ _).1 ha
        obtain ⟨b, t, hw, -⟩ := hstart a pa
        have hlt : tail.length < fuel := by simp [hw] at hb; omega
        cases room with
        | zero => simp [throw, throwThe, MonadExceptOf.throw] at hr
        | succ room =>
          simp only [bind_eq_ok_iff, Prod.exists, pure, Except.pure, Except.ok.injEq, Prod.mk.injEq] at hr
          obtain ⟨as', tail', has, rfl, rfl⟩ := hr
          obtain ⟨rfl, hlen, pas⟩ := (ih room (Nat.le_of_succ_le hfuel) _ hlt _ _).1 has
          exact ⟨by simp, by simpa using hlen, by simpa using ⟨pa, pas⟩⟩
      · rintro ⟨rfl, hlen, pas⟩
        cases as with
        | nil => simp at hbreak
        | cons a as =>
          rw [List.forall_mem_cons] at pas
          obtain ⟨b, t, hw, -⟩ := hstart a pas.1
          have ha := (h _ hbound a (as.flatMap write ++ [Item.breakByte] ++ rest)).2 ⟨by simp, pas.1⟩
          refine ⟨_, _, ha, ?_⟩
          cases room with
          | zero => simp at hlen
          | succ room =>
            have hlt : (as.flatMap write ++ [Item.breakByte] ++ rest).length < fuel := by
              simp [hw] at hb ⊢; omega
            have has := (ih room (Nat.le_of_succ_le hfuel) _ hlt as rest).2 ⟨rfl, by simpa using hlen, pas.2⟩
            simp only [bind_eq_ok_iff, Prod.exists]
            exact ⟨_, _, has, rfl⟩

/-! ## Heads and contents -/

/-- A reader of items accepts the valid heads but for simple values below 32 in two bytes. -/
theorem readHead_eq_ok_iff {bytes rest : List UInt8} {h : Head} :
    readHead bytes = .ok (h, rest) ↔
      bytes = h.encode ++ rest ∧ h.Valid ∧ ¬(h.major = .primitive ∧ h.width = some .one ∧ h.arg < 32) := by
  rw [← and_assoc, ← Head.read_eq_ok_iff, readHead]
  split
  · rename_i f hf
    simp [hf]
  · rename_i h' rest' hr
    split
    · rename_i hbad
      rw [hr]
      simp only [reduceCtorEq, Except.ok.injEq, Prod.mk.injEq, false_iff]
      rintro ⟨⟨rfl, rfl⟩, hgood⟩
      exact hgood hbad
    · rename_i hgood
      rw [hr]
      simp only [Except.ok.injEq, Prod.mk.injEq]
      constructor
      · rintro ⟨rfl, rfl⟩
        exact ⟨⟨rfl, rfl⟩, hgood⟩
      · rintro ⟨⟨rfl, rfl⟩, -⟩
        exact ⟨rfl, rfl⟩

/-- The content of a string is as many bytes as asked for, and its length is a signed number of 64 bits. -/
theorem readContent_eq_ok_iff {kind : StringKind} {n : Nat} {bytes content rest : List UInt8} :
    readContent kind n bytes = .ok (content, rest) ↔ bytes = content ++ rest ∧ content.length = n ∧ n < 2 ^ 63 := by
  unfold readContent
  split
  · rename_i hlong
    simp only [reduceCtorEq, false_iff, not_and, not_lt]
    intro _ _
    norm_num
    exact hlong
  · rename_i hshort
    have hlt : n < 2 ^ 63 := by norm_num; omega
    split
    · rename_i r hr
      rw [Except.ok.injEq]
      constructor
      · rintro rfl
        exact ⟨(append_of_splitExact hr).1, (append_of_splitExact hr).2, hlt⟩
      · rintro ⟨rfl, rfl, -⟩
        rw [splitExact_append, Option.some.injEq] at hr
        exact hr.symm
    · rename_i hr
      rw [splitExact_eq_none_iff] at hr
      simp only [reduceCtorEq, false_iff, not_and]
      rintro rfl rfl
      simp at hr

theorem StringKind.mayBeOpen_major (kind : StringKind) : kind.major.mayBeOpen = true := by
  cases kind <;> rfl

theorem StringKind.major_ne_primitive (kind : StringKind) : kind.major ≠ .primitive := by
  cases kind <;> decide

/-- A piece of a string that can be written with a width: the width holds its length, a signed number of 64 bits. -/
def PieceFits (p : Width × List UInt8) : Prop := p.1.Holds p.2.length ∧ p.2.length < 2 ^ 63

/-- The low bits of the first byte of a head are those of its width. -/
theorem Head.first_mod (major : Major) {w : Width} {arg : Nat} (h : w.Holds arg) (rest : List UInt8) :
    ∃ b tail, Head.encode ⟨major, some w, arg⟩ ++ rest = b :: tail ∧ Major.ofByte b = major ∧ b.toNat % 32 ≠ 31 := by
  have hi : w.info arg < 31 := Nat.lt_trans (Width.info_lt h) (by decide)
  have hi' : w.info arg < 32 := Nat.lt_succ_of_lt hi
  refine ⟨Head.initial major (w.info arg), _, rfl, Head.ofByte_initial major hi', ?_⟩
  rw [Head.initial_mod major hi']
  exact Nat.ne_of_lt hi

/-- A chunk is a string of the same kind whose length is not open. -/
theorem exact_readChunk (kind : StringKind) (bound : Nat) :
    Exact (readChunk kind) (fun p => Item.encodeString kind p.1 p.2) PieceFits bound := by
  rintro bytes - ⟨w, content⟩ rest
  constructor
  · intro h
    cases bytes with
    | nil => simp [readChunk] at h
    | cons b tail =>
      simp only [readChunk] at h
      split at h
      · cases h
      · rename_i hmajor
        split at h
        · cases h
        · rename_i hopen
          simp only [bind_eq_ok_iff, Prod.exists, pure, Except.pure, Except.ok.injEq, Prod.mk.injEq] at h
          obtain ⟨⟨major, width, arg⟩, tail', hh, content', rest', hc, ⟨rfl, rfl⟩, rfl⟩ := h
          obtain ⟨heq, hv, -⟩ := readHead_eq_ok_iff.1 hh
          obtain ⟨rfl, hlen, hlt⟩ := readContent_eq_ok_iff.1 hc
          simp only at hlen hlt
          subst hlen
          obtain ⟨b', t', hb', hm'⟩ := Head.ofByte_encode hv
          rw [hb', List.cons_append, List.cons.injEq] at heq
          obtain ⟨rfl, htail⟩ := heq
          have hmaj : major = kind.major := hm'.symm.trans (not_not.1 hmajor)
          cases width with
          | none =>
            rw [Head.encode_none, List.cons.injEq] at hb'
            rw [← hb'.1, Head.initial_mod major (by decide)] at hopen
            exact absurd rfl hopen
          | some w =>
            refine ⟨?_, hv, hlt⟩
            rw [htail]
            simp [Item.encodeString, ← hmaj, hb']
  · rintro ⟨rfl, hfit, hlt⟩
    simp only [Item.encodeString, List.append_assoc]
    obtain ⟨b, tail, heq, hm, hmod⟩ := Head.first_mod kind.major hfit (content ++ rest)
    have hhead : readHead (b :: tail) = .ok (⟨kind.major, some w, content.length⟩, content ++ rest) :=
      readHead_eq_ok_iff.2 ⟨heq.symm, hfit, fun hp => kind.major_ne_primitive hp.1⟩
    have hcontent : readContent kind content.length (content ++ rest) = .ok (content, rest) :=
      readContent_eq_ok_iff.2 ⟨rfl, rfl, hlt⟩
    rw [heq]
    simp [readChunk, hm, hmod, hhead, hcontent, bind, Except.bind, pure, Except.pure]

/-! ## Items within limits -/

namespace Item

mutual

/-- An item that is well formed within limits, at a depth, and directly inside a tag or not. -/
def Within (lim : Limits) (depth : Nat) (inTag : Bool) : Item → Prop
  | unsigned w n => w.Holds n
  | negative w n => w.Holds n
  | string _ w content => PieceFits (w, content)
  | chunks _ pieces => lim.openLengths = true ∧ ∀ p ∈ pieces, PieceFits p
  | array w items =>
    w.Holds items.length ∧ depth < lim.depth ∧ items.length < 2 ^ 63 ∧ items.length ≤ lim.elements ∧
      AllWithin lim (depth + 1) items
  | openArray items =>
    lim.openLengths = true ∧ depth < lim.depth ∧ items.length ≤ lim.elements ∧ AllWithin lim (depth + 1) items
  | map w pairs =>
    w.Holds pairs.length ∧ depth < lim.depth ∧ pairs.length < 2 ^ 63 ∧ pairs.length ≤ lim.pairs ∧
      PairsWithin lim (depth + 1) pairs
  | openMap pairs =>
    lim.openLengths = true ∧ depth < lim.depth ∧ pairs.length ≤ lim.pairs ∧ PairsWithin lim (depth + 1) pairs
  | tag w n content =>
    w.Holds n ∧ (inTag = true → depth < lim.depth) ∧ Within lim (if inTag then depth + 1 else depth) true content
  | simple n => n < 24 ∨ 32 ≤ n
  | half _ => True
  | single _ => True
  | double _ => True

/-- Items that are all well formed within limits, at a depth. -/
def AllWithin (lim : Limits) (depth : Nat) : List Item → Prop
  | [] => True
  | i :: items => Within lim depth false i ∧ AllWithin lim depth items

/-- Pairs whose keys and values are all well formed within limits, at a depth. -/
def PairsWithin (lim : Limits) (depth : Nat) : List (Item × Item) → Prop
  | [] => True
  | (k, v) :: pairs => (Within lim depth false k ∧ Within lim depth false v) ∧ PairsWithin lim depth pairs

end

/-- An item that is well formed, within some limits. -/
def WellFormed (i : Item) : Prop := ∃ lim : Limits, i.Within lim 0 false

theorem allWithin_iff {lim : Limits} {depth : Nat} {items : List Item} :
    AllWithin lim depth items ↔ ∀ i ∈ items, Within lim depth false i := by
  induction items with
  | nil => simp [AllWithin]
  | cons i items ih => simp [AllWithin, ih]

theorem pairsWithin_iff {lim : Limits} {depth : Nat} {pairs : List (Item × Item)} :
    PairsWithin lim depth pairs ↔ ∀ p ∈ pairs, Within lim depth false p.1 ∧ Within lim depth false p.2 := by
  induction pairs with
  | nil => simp [PairsWithin]
  | cons p pairs ih => simp [PairsWithin, ih]

theorem encodeAll_eq_flatMap (items : List Item) : encodeAll items = items.flatMap encode := by
  induction items with
  | nil => rfl
  | cons i items ih => simp [encodeAll, ih]

theorem encodePairs_eq_flatMap (pairs : List (Item × Item)) :
    encodePairs pairs = pairs.flatMap fun p => encode p.1 ++ encode p.2 := by
  induction pairs with
  | nil => rfl
  | cons p pairs ih => simp [encodePairs, ih]

/-! ## The head and the body of an item -/

/-- The head of an item. -/
def head : Item → Head
  | unsigned w n => ⟨.unsigned, some w, n⟩
  | negative w n => ⟨.negative, some w, n⟩
  | string kind w content => ⟨kind.major, some w, content.length⟩
  | chunks kind _ => ⟨kind.major, none, 0⟩
  | array w items => ⟨.array, some w, items.length⟩
  | openArray _ => ⟨.array, none, 0⟩
  | map w pairs => ⟨.map, some w, pairs.length⟩
  | openMap _ => ⟨.map, none, 0⟩
  | tag w n _ => ⟨.tag, some w, n⟩
  | simple n => Head.shortest .primitive n.toNat
  | half bits => ⟨.primitive, some .two, bits.toNat⟩
  | single bits => ⟨.primitive, some .four, bits.toNat⟩
  | double bits => ⟨.primitive, some .eight, bits.toNat⟩

/-- What follows the head of an item. -/
def body : Item → List UInt8
  | string _ _ content => content
  | chunks kind pieces => pieces.flatMap (fun p => encodeString kind p.1 p.2) ++ [breakByte]
  | array _ items => items.flatMap encode
  | openArray items => items.flatMap encode ++ [breakByte]
  | map _ pairs => pairs.flatMap fun p => encode p.1 ++ encode p.2
  | openMap pairs => pairs.flatMap (fun p => encode p.1 ++ encode p.2) ++ [breakByte]
  | tag _ _ content => encode content
  | _ => []

/-- An item is its head and its body. -/
theorem encode_eq (i : Item) : encode i = i.head.encode ++ i.body := by
  cases i <;> simp [encode, head, body, encodeString, encodeAll_eq_flatMap, encodePairs_eq_flatMap]

theorem major_head (i : Item) : i.head.major = i.major := by
  cases i <;> rfl

/-- The head of a simple value stands in one byte below 24, and else in two. -/
theorem head_simple_of_lt {n : UInt8} (h : n < 24) : (simple n).head = ⟨.primitive, some .inline, n.toNat⟩ := by
  simp [head, Head.shortest, Width.shortest, show n.toNat < 24 from h]

theorem head_simple_of_le {n : UInt8} (h : 24 ≤ n) : (simple n).head = ⟨.primitive, some .one, n.toNat⟩ := by
  have h1 : ¬n.toNat < 24 := Nat.not_lt.2 h
  have h2 : n.toNat < 256 := n.toNat_lt
  simp [head, Head.shortest, Width.shortest, h1, h2]

/-- The head of a well-formed item is valid. -/
theorem Within.valid_head {lim : Limits} {depth : Nat} {inTag : Bool} {i : Item} (h : i.Within lim depth inTag) :
    i.head.Valid := by
  cases i with
  | unsigned w n => exact h
  | negative w n => exact h
  | string kind w content => exact h.1
  | chunks kind pieces => exact ⟨kind.mayBeOpen_major, rfl⟩
  | array w items => exact h.1
  | openArray items => exact ⟨rfl, rfl⟩
  | map w pairs => exact h.1
  | openMap pairs => exact ⟨rfl, rfl⟩
  | tag w n content => exact h.1
  | simple n => exact Head.valid_shortest _ (Nat.lt_trans n.toNat_lt (by norm_num))
  | half bits => exact bits.toNat_lt
  | single bits => exact bits.toNat_lt
  | double bits => exact bits.toNat_lt

/-- No well-formed item is a simple value below 32 in two bytes. -/
theorem Within.not_wide {lim : Limits} {depth : Nat} {inTag : Bool} {i : Item} (h : i.Within lim depth inTag) :
    ¬(i.head.major = .primitive ∧ i.head.width = some .one ∧ i.head.arg < 32) := by
  rintro ⟨hm, hw, ha⟩
  cases i with
  | simple n =>
    rcases h with h | h
    · rw [head_simple_of_lt h] at hw
      cases hw
    · rw [head_simple_of_le (UInt8.le_trans (by decide) h)] at ha
      exact absurd ha (Nat.not_lt.2 h)
  | string kind w content => exact kind.major_ne_primitive hm
  | chunks kind pieces => exact kind.major_ne_primitive hm
  | half bits => cases hw
  | single bits => cases hw
  | double bits => cases hw
  | _ => cases hm

/-- A container stands above the deepest level. -/
theorem Within.depth_lt {lim : Limits} {depth : Nat} {inTag : Bool} {i : Item} (h : i.Within lim depth inTag)
    (hm : i.major = .array ∨ i.major = .map) : depth < lim.depth := by
  cases i with
  | array w items => exact h.2.1
  | openArray items => exact h.2.1
  | map w pairs => exact h.2.1
  | openMap pairs => exact h.2.1
  | string kind w content => cases kind <;> rcases hm with hm | hm <;> cases hm
  | chunks kind pieces => cases kind <;> rcases hm with hm | hm <;> cases hm
  | _ => rcases hm with hm | hm <;> cases hm

/-- A well-formed item begins with a byte of its major type. -/
theorem Within.first {lim : Limits} {depth : Nat} {inTag : Bool} {i : Item} (h : i.Within lim depth inTag) :
    ∃ b tail, encode i = b :: tail ∧ Major.ofByte b = i.major := by
  obtain ⟨b, tail, hb, hm⟩ := Head.ofByte_encode h.valid_head
  exact ⟨b, tail ++ i.body, by rw [encode_eq, hb, List.cons_append], hm.trans i.major_head⟩

/-- No item begins with the byte that closes an open length. -/
theorem Within.first_ne_break {lim : Limits} {depth : Nat} {inTag : Bool} {i : Item} (h : i.Within lim depth inTag) :
    ∃ b tail, encode i = b :: tail ∧ b ≠ breakByte := by
  obtain ⟨b, tail, hb, hm⟩ := Head.ofByte_encode h.valid_head
  refine ⟨b, tail ++ i.body, by rw [encode_eq, hb, List.cons_append], ?_⟩
  rintro rfl
  have hread := Head.read_encode h.valid_head i.body
  rw [hb] at hread
  -- the closing byte would be a primitive of open length, and there is none
  cases hread

end Item

/-! ## Readers after a head -/

namespace Item

theorem eq_unsigned_of_head {i : Item} {w : Width} {n : Nat} (h : i.head = ⟨.unsigned, some w, n⟩) : i = unsigned w n := by
  cases i with
  | string kind _ _ => cases kind <;> simp_all [head, StringKind.major]
  | _ => simp_all [head, Head.shortest]

theorem eq_negative_of_head {i : Item} {w : Width} {n : Nat} (h : i.head = ⟨.negative, some w, n⟩) : i = negative w n := by
  cases i with
  | string kind _ _ => cases kind <;> simp_all [head, StringKind.major]
  | _ => simp_all [head, Head.shortest]

theorem eq_string_of_head {i : Item} {kind : StringKind} {w : Width} {n : Nat} (h : i.head = ⟨kind.major, some w, n⟩) :
    ∃ content, i = string kind w content ∧ content.length = n := by
  cases i with
  | string kind' w' content => cases kind <;> cases kind' <;> simp_all [head, StringKind.major]
  | _ => cases kind <;> simp_all [head, StringKind.major, Head.shortest]

theorem eq_chunks_of_head {i : Item} {kind : StringKind} {n : Nat} (h : i.head = ⟨kind.major, none, n⟩) :
    ∃ pieces, i = chunks kind pieces := by
  cases i with
  | chunks kind' pieces => cases kind <;> cases kind' <;> simp_all [head, StringKind.major]
  | _ => cases kind <;> simp_all [head, StringKind.major, Head.shortest]

theorem eq_array_of_head {i : Item} {w : Width} {n : Nat} (h : i.head = ⟨.array, some w, n⟩) :
    ∃ items, i = array w items ∧ items.length = n := by
  cases i with
  | string kind _ _ => cases kind <;> simp_all [head, StringKind.major]
  | _ => simp_all [head, Head.shortest]

theorem eq_openArray_of_head {i : Item} {n : Nat} (h : i.head = ⟨.array, none, n⟩) : ∃ items, i = openArray items := by
  cases i with
  | chunks kind _ => cases kind <;> simp_all [head, StringKind.major]
  | _ => simp_all [head, Head.shortest]

theorem eq_map_of_head {i : Item} {w : Width} {n : Nat} (h : i.head = ⟨.map, some w, n⟩) :
    ∃ pairs, i = map w pairs ∧ pairs.length = n := by
  cases i with
  | string kind _ _ => cases kind <;> simp_all [head, StringKind.major]
  | _ => simp_all [head, Head.shortest]

theorem eq_openMap_of_head {i : Item} {n : Nat} (h : i.head = ⟨.map, none, n⟩) : ∃ pairs, i = openMap pairs := by
  cases i with
  | chunks kind _ => cases kind <;> simp_all [head, StringKind.major]
  | _ => simp_all [head, Head.shortest]

theorem eq_tag_of_head {i : Item} {w : Width} {n : Nat} (h : i.head = ⟨.tag, some w, n⟩) :
    ∃ content, i = tag w n content := by
  cases i with
  | string kind _ _ => cases kind <;> simp_all [head, StringKind.major]
  | _ => simp_all [head, Head.shortest]

/-- A list of written elements is no shorter than the list, when each takes a byte. -/
theorem length_le_flatMap {α : Type} {write : α → List UInt8} {l : List α} (h : ∀ a ∈ l, write a ≠ []) :
    l.length ≤ (l.flatMap write).length := by
  induction l with
  | nil => simp
  | cons a l ih =>
    have ha := List.length_pos_iff.2 (h a (by simp))
    have hl := ih fun b hb => h b (by simp [hb])
    rw [List.flatMap_cons, List.length_cons, List.length_append]
    omega

end Item

open Item

/-- What a reader does after the head of an item: it gives an item with that head exactly when the item's body stands in front. -/
def ExactAfter (after : Head → Reader Item) (accepts : Item → Prop) (h : Head) (bound : Nat) : Prop :=
  ∀ bytes : List UInt8, bytes.length < bound →
    ∀ i rest, after h bytes = .ok (i, rest) ↔ (i.head = h ∧ bytes = i.body ++ rest) ∧ accepts i

theorem throw_ne_ok {ε α : Type} (e : ε) (a : α) : (throw e : Except ε α) ≠ .ok a := by
  simp [throw, throwThe, MonadExceptOf.throw]

theorem encodeString_ne_nil (kind : StringKind) (p : Width × List UInt8) : encodeString kind p.1 p.2 ≠ [] := by
  simp [encodeString, Head.encode_ne_nil]

/-- No chunk begins with the byte that closes an open length. -/
theorem encodeString_first_ne_break (kind : StringKind) {p : Width × List UInt8} (hp : PieceFits p) :
    ∃ b tail, encodeString kind p.1 p.2 = b :: tail ∧ b ≠ breakByte := by
  obtain ⟨b, tail, hb, hm, -⟩ := Head.first_mod kind.major hp.1 p.2
  refine ⟨b, tail, hb, ?_⟩
  rintro rfl
  exact kind.major_ne_primitive hm.symm

/-- A string after its head. -/
theorem exactAfter_readString (lim : Limits) (kind : StringKind) {h : Head} (hm : h.major = kind.major) (hv : h.Valid)
    (depth : Nat) (inTag : Bool) (bound : Nat) : ExactAfter (readString lim kind) (Within lim depth inTag) h bound := by
  obtain ⟨major, width, arg⟩ := h
  simp only at hm
  subst hm
  intro bytes _ i rest
  cases width with
  | none =>
    obtain ⟨-, rfl⟩ := Head.valid_none.1 hv
    have hopen := exact_readOpen (exact_readChunk kind (bytes.length + 1)) (fun p => encodeString_first_ne_break kind)
      .truncated (bytes.length + 1) (bytes.length + 1) (Nat.le_refl _) bytes (Nat.lt_succ_self _)
    cases hlim : lim.openLengths with
    | false =>
      simp only [readString, hlim, Bool.not_false, if_true, throw_ne_ok, false_iff]
      rintro ⟨⟨hhead, -⟩, hin⟩
      obtain ⟨pieces, rfl⟩ := eq_chunks_of_head hhead
      exact absurd (hlim.symm.trans hin.1) (by decide)
    | true =>
      simp only [readString, hlim, Bool.not_true, Bool.false_eq_true, if_false, bind_eq_ok_iff, Prod.exists, hopen, pure,
        Except.pure, Except.ok.injEq, Prod.mk.injEq]
      constructor
      · rintro ⟨pieces, rest', ⟨hbytes, -, hfit⟩, rfl, rfl⟩
        exact ⟨⟨rfl, hbytes⟩, hlim, hfit⟩
      · rintro ⟨⟨hhead, hbytes⟩, hin⟩
        obtain ⟨pieces, rfl⟩ := eq_chunks_of_head hhead
        have hlen := length_le_flatMap fun p (_ : p ∈ pieces) => encodeString_ne_nil kind p
        refine ⟨pieces, rest, ⟨hbytes, ?_, hin.2⟩, rfl, rfl⟩
        rw [hbytes, body, List.length_append, List.length_append]
        omega
  | some w =>
    simp only [readString, bind_eq_ok_iff, Prod.exists, readContent_eq_ok_iff, pure, Except.pure, Except.ok.injEq,
      Prod.mk.injEq]
    constructor
    · rintro ⟨content, rest', ⟨rfl, rfl, hlt⟩, rfl, rfl⟩
      exact ⟨⟨rfl, rfl⟩, hv, hlt⟩
    · rintro ⟨⟨hhead, hbytes⟩, hin⟩
      obtain ⟨content, rfl, rfl⟩ := eq_string_of_head hhead
      exact ⟨content, rest, ⟨hbytes, rfl, hin.2⟩, rfl, rfl⟩

/-- A container after its head, when the reader of its members is exact. -/
theorem readContainer_eq_ok_iff {α : Type} {lim : Limits} {one : Reader α} {write : α → List UInt8} {accepts : α → Prop}
    {bound : Nat} (hone : Exact one write accepts bound)
    (hstart : ∀ a, accepts a → ∃ b tail, write a = b :: tail ∧ b ≠ breakByte) (limit : Nat) (overfull : Fault)
    (closed : Width → List α → Item) (opened : List α → Item) (h : Head) {bytes : List UInt8} (hb : bytes.length < bound)
    (i : Item) (rest : List UInt8) :
    readContainer lim one limit overfull closed opened h bytes = .ok (i, rest) ↔
      ∃ members : List α, members.length ≤ limit ∧ (∀ a ∈ members, accepts a) ∧
        ((h.width = none ∧ lim.openLengths = true ∧ i = opened members ∧
            bytes = members.flatMap write ++ [breakByte] ++ rest) ∨
          ∃ w, h.width = some w ∧ members.length = h.arg ∧ h.arg < 2 ^ 63 ∧ i = closed w members ∧
            bytes = members.flatMap write ++ rest) := by
  have hopen := exact_readOpen hone hstart overfull (bytes.length + 1) limit hb bytes (Nat.lt_succ_self _)
  have hmany := exact_readMany hone h.arg bytes hb
  unfold readContainer
  cases hw : h.width with
  | none =>
    cases hlim : lim.openLengths with
    | false => simp [throw_ne_ok]
    | true =>
      simp only [Bool.not_true, Bool.false_eq_true, if_false, bind_eq_ok_iff, Prod.exists, hopen, pure, Except.pure,
        Except.ok.injEq, Prod.mk.injEq]
      constructor
      · rintro ⟨members, rest', ⟨hbytes, hlen, hall⟩, rfl, rfl⟩
        exact ⟨members, hlen, hall, Or.inl ⟨trivial, trivial, rfl, hbytes⟩⟩
      · rintro ⟨members, hlen, hall, ⟨-, -, rfl, hbytes⟩ | ⟨w, hw', -⟩⟩
        · exact ⟨members, rest, ⟨hbytes, hlen, hall⟩, rfl, rfl⟩
        · cases hw'
  | some w =>
    dsimp only
    split_ifs with hlong hcount
    · rw [false_iff]
      rintro ⟨members, -, -, ⟨hw', -⟩ | ⟨w', -, -, hlt, -⟩⟩
      · cases hw'
      · exact absurd hlt (Nat.not_lt.2 hlong)
    · rw [false_iff]
      rintro ⟨members, hlen, -, ⟨hw', -⟩ | ⟨w', -, harg, -⟩⟩
      · cases hw'
      · exact absurd (harg ▸ hlen) (Nat.not_le.2 hcount)
    · simp only [bind_eq_ok_iff, Prod.exists, hmany, pure, Except.pure, Except.ok.injEq, Prod.mk.injEq]
      constructor
      · rintro ⟨members, rest', ⟨hbytes, harg, hall⟩, rfl, rfl⟩
        exact ⟨members, harg ▸ Nat.not_lt.1 hcount, hall, Or.inr ⟨w, rfl, harg, Nat.not_le.1 hlong, rfl, hbytes⟩⟩
      · rintro ⟨members, -, hall, ⟨hw', -⟩ | ⟨w', hw', harg, -, rfl, hbytes⟩⟩
        · cases hw'
        · cases hw'
          exact ⟨members, rest, ⟨hbytes, harg, hall⟩, rfl, rfl⟩

/-- An array after its head, when the reader of its items is exact. -/
theorem exactAfter_readArray (lim : Limits) {one : Reader Item} {depth bound : Nat} (inTag : Bool)
    (hone : Exact one encode (Within lim (depth + 1) false) bound) (hdepth : depth < lim.depth) {h : Head}
    (hm : h.major = .array) (hv : h.Valid) : ExactAfter (readArray lim one) (Within lim depth inTag) h bound := by
  obtain ⟨major, width, arg⟩ := h
  simp only at hm
  subst hm
  intro bytes hb i rest
  rw [readArray, readContainer_eq_ok_iff hone (fun i hi => hi.first_ne_break) _ _ _ _ _ hb]
  constructor
  · rintro ⟨items, hlen, hall, ⟨rfl, hlim, rfl, hbytes⟩ | ⟨w, rfl, rfl, hlt, rfl, hbytes⟩⟩
    · obtain ⟨-, rfl⟩ := Head.valid_none.1 hv
      exact ⟨⟨rfl, hbytes⟩, hlim, hdepth, hlen, allWithin_iff.2 hall⟩
    · exact ⟨⟨rfl, hbytes⟩, hv, hdepth, hlt, hlen, allWithin_iff.2 hall⟩
  · rintro ⟨⟨hhead, hbytes⟩, hin⟩
    cases width with
    | none =>
      obtain ⟨items, rfl⟩ := eq_openArray_of_head hhead
      exact ⟨items, hin.2.2.1, allWithin_iff.1 hin.2.2.2, Or.inl ⟨rfl, hin.1, rfl, hbytes⟩⟩
    | some w =>
      obtain ⟨items, rfl, rfl⟩ := eq_array_of_head hhead
      exact ⟨items, hin.2.2.2.1, allWithin_iff.1 hin.2.2.2.2, Or.inr ⟨w, rfl, rfl, hin.2.2.1, rfl, hbytes⟩⟩

/-- A map after its head, when the reader of its keys and values is exact. -/
theorem exactAfter_readMap (lim : Limits) {one : Reader Item} {depth bound : Nat} (inTag : Bool)
    (hone : Exact one encode (Within lim (depth + 1) false) bound) (hdepth : depth < lim.depth) {h : Head}
    (hm : h.major = .map) (hv : h.Valid) : ExactAfter (readMap lim one) (Within lim depth inTag) h bound := by
  obtain ⟨major, width, arg⟩ := h
  simp only at hm
  subst hm
  intro bytes hb i rest
  have hstart : ∀ p : Item × Item, Within lim (depth + 1) false p.1 ∧ Within lim (depth + 1) false p.2 →
      ∃ b tail, encode p.1 ++ encode p.2 = b :: tail ∧ b ≠ breakByte := by
    rintro p ⟨hk, -⟩
    obtain ⟨b, tail, hb, hne⟩ := hk.first_ne_break
    exact ⟨b, tail ++ encode p.2, by rw [hb, List.cons_append], hne⟩
  rw [readMap, readContainer_eq_ok_iff (exact_readBoth hone hone) hstart _ _ _ _ _ hb]
  constructor
  · rintro ⟨pairs, hlen, hall, ⟨rfl, hlim, rfl, hbytes⟩ | ⟨w, rfl, rfl, hlt, rfl, hbytes⟩⟩
    · obtain ⟨-, rfl⟩ := Head.valid_none.1 hv
      exact ⟨⟨rfl, hbytes⟩, hlim, hdepth, hlen, pairsWithin_iff.2 hall⟩
    · exact ⟨⟨rfl, hbytes⟩, hv, hdepth, hlt, hlen, pairsWithin_iff.2 hall⟩
  · rintro ⟨⟨hhead, hbytes⟩, hin⟩
    cases width with
    | none =>
      obtain ⟨pairs, rfl⟩ := eq_openMap_of_head hhead
      exact ⟨pairs, hin.2.2.1, pairsWithin_iff.1 hin.2.2.2, Or.inl ⟨rfl, hin.1, rfl, hbytes⟩⟩
    | some w =>
      obtain ⟨pairs, rfl, rfl⟩ := eq_map_of_head hhead
      exact ⟨pairs, hin.2.2.2.1, pairsWithin_iff.1 hin.2.2.2.2, Or.inr ⟨w, rfl, rfl, hin.2.2.1, rfl, hbytes⟩⟩

/-- A primitive after its head is an item by itself. -/
theorem exactAfter_primitive (lim : Limits) (depth : Nat) (inTag : Bool) {h : Head} (hm : h.major = .primitive) (hv : h.Valid)
    (hwide : ¬(h.major = .primitive ∧ h.width = some .one ∧ h.arg < 32)) (bound : Nat) :
    ExactAfter (fun h bytes => .ok (primitive h, bytes)) (Within lim depth inTag) h bound := by
  obtain ⟨major, width, arg⟩ := h
  simp only at hm
  subst hm
  -- the item of a head, and the head of an item, case by case on the width
  have hitem : (primitive ⟨.primitive, width, arg⟩).head = ⟨.primitive, width, arg⟩ ∧
      (primitive ⟨.primitive, width, arg⟩).body = [] ∧ Within lim depth inTag (primitive ⟨.primitive, width, arg⟩) := by
    cases width with
    | none => exact absurd hv.1 Bool.false_ne_true
    | some w =>
      cases w with
      | inline =>
        have harg : arg < 24 := hv
        have hn : (UInt8.ofNat arg).toNat = arg := by rw [UInt8.toNat_ofNat']; omega
        have hlt : UInt8.ofNat arg < 24 := by rw [UInt8.lt_iff_toNat_lt, hn]; exact harg
        exact ⟨by rw [primitive, head_simple_of_lt hlt, hn], rfl, Or.inl hlt⟩
      | one =>
        have harg : arg < 256 := hv
        have hge : 32 ≤ arg := Nat.not_lt.1 fun hlt => hwide ⟨rfl, rfl, hlt⟩
        have hn : (UInt8.ofNat arg).toNat = arg := by rw [UInt8.toNat_ofNat']; omega
        have hle : 32 ≤ UInt8.ofNat arg := by rw [UInt8.le_iff_toNat_le, hn]; exact hge
        exact ⟨by rw [primitive, head_simple_of_le (UInt8.le_trans (by decide) hle), hn], rfl, Or.inr hle⟩
      | two => exact ⟨by simp [primitive, head, UInt16.toNat_ofNat_of_lt' hv], rfl, trivial⟩
      | four => exact ⟨by simp [primitive, head, UInt32.toNat_ofNat_of_lt' hv], rfl, trivial⟩
      | eight => exact ⟨by simp [primitive, head, UInt64.toNat_ofNat_of_lt' hv], rfl, trivial⟩
  obtain ⟨hhead, hbody, hin⟩ := hitem
  intro bytes _ i rest
  rw [Except.ok.injEq, Prod.mk.injEq]
  constructor
  · rintro ⟨rfl, rfl⟩
    exact ⟨⟨hhead, by rw [hbody]; rfl⟩, hin⟩
  · rintro ⟨⟨hi, rfl⟩, hin'⟩
    have hprim : primitive i.head = i ∧ i.body = [] := by
      cases i with
      | simple n =>
        rcases hin' with hn | hn
        · rw [head_simple_of_lt hn]
          exact ⟨by simp [primitive], rfl⟩
        · rw [head_simple_of_le (UInt8.le_trans (by decide) hn)]
          exact ⟨by simp [primitive], rfl⟩
      | half bits => exact ⟨by simp [primitive, head], rfl⟩
      | single bits => exact ⟨by simp [primitive, head], rfl⟩
      | double bits => exact ⟨by simp [primitive, head], rfl⟩
      | string kind w content => exact absurd (congrArg Head.major hi) kind.major_ne_primitive
      | chunks kind pieces => exact absurd (congrArg Head.major hi) kind.major_ne_primitive
      | _ => cases hi
    rw [← hi, hprim.1, hprim.2]
    exact ⟨rfl, rfl⟩

/-! ## Items -/

/-- An item after its head, when the readers of what it holds are exact. -/
theorem exactAfter_readAfter (lim : Limits) {inner : Nat → Bool → Reader Item} {bound : Nat}
    (hinner : ∀ depth inTag, Exact (inner depth inTag) encode (Within lim depth inTag) bound) (depth : Nat) (inTag : Bool)
    {h : Head} (hv : h.Valid) (hwide : ¬(h.major = .primitive ∧ h.width = some .one ∧ h.arg < 32)) :
    ExactAfter (readAfter lim inner depth inTag) (Within lim depth inTag) h bound := by
  intro bytes hb i rest
  obtain ⟨major, width, arg⟩ := h
  cases major with
  | bytes => exact exactAfter_readString lim .bytes rfl hv depth inTag bound bytes hb i rest
  | text => exact exactAfter_readString lim .text rfl hv depth inTag bound bytes hb i rest
  | primitive => exact exactAfter_primitive lim depth inTag rfl hv hwide bound bytes hb i rest
  | array =>
    simp only [readAfter]
    split_ifs with hdeep
    · rw [false_iff]
      rintro ⟨⟨hhead, -⟩, hin⟩
      have hmajor : i.major = .array := i.major_head.symm.trans (congrArg Head.major hhead)
      exact Nat.not_lt.2 (Nat.le_of_lt_succ hdeep) (hin.depth_lt (Or.inl hmajor))
    · exact exactAfter_readArray lim inTag (hinner _ _) (Nat.not_lt.1 hdeep) rfl hv bytes hb i rest
  | map =>
    simp only [readAfter]
    split_ifs with hdeep
    · rw [false_iff]
      rintro ⟨⟨hhead, -⟩, hin⟩
      have hmajor : i.major = .map := i.major_head.symm.trans (congrArg Head.major hhead)
      exact Nat.not_lt.2 (Nat.le_of_lt_succ hdeep) (hin.depth_lt (Or.inr hmajor))
    · exact exactAfter_readMap lim inTag (hinner _ _) (Nat.not_lt.1 hdeep) rfl hv bytes hb i rest
  | unsigned =>
    cases width with
    | none => exact absurd hv.1 Bool.false_ne_true
    | some w =>
      simp only [readAfter, Option.getD_some, Except.ok.injEq, Prod.mk.injEq]
      constructor
      · rintro ⟨rfl, rfl⟩
        exact ⟨⟨rfl, rfl⟩, hv⟩
      · rintro ⟨⟨hhead, hbytes⟩, -⟩
        obtain rfl := eq_unsigned_of_head hhead
        exact ⟨rfl, hbytes⟩
  | negative =>
    cases width with
    | none => exact absurd hv.1 Bool.false_ne_true
    | some w =>
      simp only [readAfter, Option.getD_some, Except.ok.injEq, Prod.mk.injEq]
      constructor
      · rintro ⟨rfl, rfl⟩
        exact ⟨⟨rfl, rfl⟩, hv⟩
      · rintro ⟨⟨hhead, hbytes⟩, -⟩
        obtain rfl := eq_negative_of_head hhead
        exact ⟨rfl, hbytes⟩
  | tag =>
    cases width with
    | none => exact absurd hv.1 Bool.false_ne_true
    | some w =>
      simp only [readAfter]
      by_cases hdeep : inTag = true ∧ lim.depth < depth + 1
      · simp only [hdeep, and_self, if_true, reduceCtorEq, false_iff]
        rintro ⟨⟨hhead, -⟩, hin⟩
        obtain ⟨content, rfl⟩ := eq_tag_of_head hhead
        exact absurd (hin.2.1 rfl) (Nat.not_lt.2 (Nat.le_of_lt_succ hdeep.2))
      · simp only [hdeep, if_false, Option.getD_some, bind_eq_ok_iff, Prod.exists, hinner _ _ bytes hb, pure, Except.pure,
          Except.ok.injEq, Prod.mk.injEq]
        constructor
        · rintro ⟨content, rest', ⟨hbytes, hin⟩, rfl, rfl⟩
          refine ⟨⟨rfl, hbytes⟩, hv, fun ht => ?_, hin⟩
          exact Nat.not_le.1 fun hle => hdeep ⟨ht, Nat.lt_succ_of_le hle⟩
        · rintro ⟨⟨hhead, hbytes⟩, hin⟩
          obtain ⟨content, rfl⟩ := eq_tag_of_head hhead
          exact ⟨content, rest, ⟨hbytes, hin.2.2⟩, rfl, rfl⟩

namespace Item

/-- Reading items at a depth is exact as far as the fuel reaches. -/
theorem exact_readAt (lim : Limits) (fuel depth : Nat) (inTag : Bool) :
    Exact (readAt lim fuel depth inTag) encode (Within lim depth inTag) fuel := by
  induction fuel generalizing depth inTag with
  | zero => exact fun bytes hb => absurd hb (Nat.not_lt_zero _)
  | succ fuel ih =>
    intro bytes hb i rest
    simp only [readAt, bind_eq_ok_iff, Prod.exists, readHead_eq_ok_iff]
    constructor
    · rintro ⟨h, tail, ⟨rfl, hv, hwide⟩, hr⟩
      have htail : tail.length < fuel := by
        have := List.length_pos_iff.2 h.encode_ne_nil
        rw [List.length_append] at hb
        omega
      obtain ⟨⟨rfl, rfl⟩, hin⟩ := (exactAfter_readAfter lim ih depth inTag hv hwide tail htail i rest).1 hr
      exact ⟨by rw [encode_eq, List.append_assoc], hin⟩
    · rintro ⟨rfl, hin⟩
      have htail : (i.body ++ rest).length < fuel := by
        have := List.length_pos_iff.2 i.head.encode_ne_nil
        rw [encode_eq, List.append_assoc, List.length_append] at hb
        omega
      refine ⟨i.head, i.body ++ rest, ⟨by rw [encode_eq, List.append_assoc], hin.valid_head, hin.not_wide⟩, ?_⟩
      exact (exactAfter_readAfter lim ih depth inTag hin.valid_head hin.not_wide _ htail i rest).2 ⟨⟨rfl, rfl⟩, hin⟩

/-- Reading gives an item and a rest exactly when the bytes are that item, well formed within the limits, and that rest. -/
theorem read_eq_ok_iff {lim : Limits} {bytes rest : List UInt8} {i : Item} :
    read lim bytes = .ok (i, rest) ↔ bytes = encode i ++ rest ∧ i.Within lim 0 false := by
  unfold read
  split
  · rename_i hempty
    rw [List.isEmpty_iff] at hempty
    subst hempty
    simp only [reduceCtorEq, false_iff]
    rintro ⟨heq, hin⟩
    obtain ⟨b, tail, hb, -⟩ := hin.first
    rw [hb] at heq
    cases heq
  · exact exact_readAt lim (bytes.length + 1) 0 false bytes (Nat.lt_succ_self _) i rest

/-- A well-formed item is read back, whatever follows it. -/
theorem Within.read_encode {lim : Limits} {i : Item} (h : i.Within lim 0 false) (rest : List UInt8) :
    read lim (encode i ++ rest) = .ok (i, rest) :=
  read_eq_ok_iff.2 ⟨rfl, h⟩

/-- Of two well-formed items in front of the same bytes, both are the same: no item is the beginning of another. -/
theorem Within.encode_append_inj {lim : Limits} {i j : Item} (hi : i.Within lim 0 false) (hj : j.Within lim 0 false)
    {rest rest' : List UInt8} (h : encode i ++ rest = encode j ++ rest') : i = j ∧ rest = rest' := by
  have hr := hi.read_encode rest
  rw [h, hj.read_encode rest', Except.ok.injEq, Prod.mk.injEq] at hr
  exact ⟨hr.1.symm, hr.2.symm⟩

/-! ## Depth -/

mutual

/-- An item that is well formed at a depth is so nearer to the top. -/
theorem Within.shallower {lim : Limits} {depth depth' : Nat} (hd : depth' ≤ depth) {inTag : Bool} :
    ∀ {i : Item}, i.Within lim depth inTag → i.Within lim depth' inTag
  | unsigned .., h => h
  | negative .., h => h
  | string .., h => h
  | chunks .., h => h
  | array .., h =>
    ⟨h.1, Nat.lt_of_le_of_lt hd h.2.1, h.2.2.1, h.2.2.2.1, AllWithin.shallower (Nat.succ_le_succ hd) h.2.2.2.2⟩
  | openArray _, h => ⟨h.1, Nat.lt_of_le_of_lt hd h.2.1, h.2.2.1, AllWithin.shallower (Nat.succ_le_succ hd) h.2.2.2⟩
  | map .., h =>
    ⟨h.1, Nat.lt_of_le_of_lt hd h.2.1, h.2.2.1, h.2.2.2.1, PairsWithin.shallower (Nat.succ_le_succ hd) h.2.2.2.2⟩
  | openMap _, h => ⟨h.1, Nat.lt_of_le_of_lt hd h.2.1, h.2.2.1, PairsWithin.shallower (Nat.succ_le_succ hd) h.2.2.2⟩
  | tag _ _ content, h => by
    refine ⟨h.1, fun ht => Nat.lt_of_le_of_lt hd (h.2.1 ht), Within.shallower (i := content) ?_ h.2.2⟩
    split
    · exact Nat.succ_le_succ hd
    · exact hd
  | simple _, h => h
  | half _, h => h
  | single _, h => h
  | double _, h => h

theorem AllWithin.shallower {lim : Limits} {depth depth' : Nat} (hd : depth' ≤ depth) :
    ∀ {items : List Item}, AllWithin lim depth items → AllWithin lim depth' items
  | [], h => h
  | _ :: _, h => ⟨Within.shallower hd h.1, AllWithin.shallower hd h.2⟩

theorem PairsWithin.shallower {lim : Limits} {depth depth' : Nat} (hd : depth' ≤ depth) :
    ∀ {pairs : List (Item × Item)}, PairsWithin lim depth pairs → PairsWithin lim depth' pairs
  | [], h => h
  | (_, _) :: _, h => ⟨⟨Within.shallower hd h.1.1, Within.shallower hd h.1.2⟩, PairsWithin.shallower hd h.2⟩

end

end Item

end SensorWire.Cbor
