import Mathlib
import SensorWire.Proofs.Allocation
import SensorWire.Proofs.RoundTrip

/-!
# Decoding and marshalling normalises

A strict table accepts much that it does not write: wide heads, strings in chunks, numbers that do not fit, truth values above one. What it
holds afterwards is written with the shortest heads, strings in one piece and numbers reduced. So every pair comes out no longer than it
came in, with one exception: a string of 2^32 bytes or more in two chunks can have heads that are shorter by a byte than that of the string
in one piece (`length_string_le`). What comes out is read back as it is, and written again as it is.

Main statement: `decode_then_marshal_normalises`.
-/

namespace SensorWire

open Cbor Item Decoder

/-! ## Text in chunks -/

namespace Utf8

/-- After well-formed text, what follows is read as it is by itself. -/
theorem runes_append {front : List UInt8} (h : isValid front = true) (back : List UInt8) :
    runes (front ++ back) = runes front ++ runes back := by
  unfold isValid at h
  fun_induction runes front with
  | case1 => rfl
  | case2 b rest hb ih =>
    simp only [List.all_cons, Bool.and_eq_true] at h
    rw [List.cons_append, runes.eq_def]
    simp only [hb, if_true, ih h.2, List.cons_append]
  | case4 b hb b1 rest1 htwo ih =>
    simp only [List.all_cons, Bool.and_eq_true] at h
    rw [List.cons_append, runes.eq_def]
    simp only [hb, htwo, if_true, if_false, ih h.2, List.cons_append]
  | case6 b hb b1 htwo b2 rest2 hthree ih =>
    simp only [List.all_cons, Bool.and_eq_true] at h
    rw [List.cons_append, runes.eq_def]
    simp only [hb, htwo, hthree, Bool.false_eq_true, if_true, if_false, ih h.2, List.cons_append]
  | case8 b hb b1 htwo b2 hthree b3 rest3 hfour ih =>
    simp only [List.all_cons, Bool.and_eq_true] at h
    rw [List.cons_append, runes.eq_def]
    simp only [hb, htwo, hthree, hfour, Bool.false_eq_true, if_true, if_false, ih h.2, List.cons_append]
  -- a byte that stands alone is not well formed
  | case3 => simp at h
  | case5 => simp at h
  | case7 => simp at h
  | case9 => simp at h

end Utf8

theorem isUtf8_append {front back : List UInt8} (hfront : IsUtf8 front) (hback : IsUtf8 back) : IsUtf8 (front ++ back) := by
  have hsplit := Utf8.runes_append hfront back
  unfold IsUtf8 Utf8.isValid at *
  rw [hsplit, List.all_append, hfront, hback, Bool.and_self]

/-- What a text item spells is UTF-8 as a whole. -/
theorem Cbor.Item.Spells.isUtf8 {i : Item} {t : Text} (h : i.Spells t) : IsUtf8 t.bytes := by
  unfold Spells at h
  split at h
  · exact h.1 ▸ h.2
  · rename_i pieces
    rw [← h.1]
    have hpieces := h.2
    clear h
    induction pieces with
    | nil => rfl
    | cons p pieces ih =>
      rw [List.forall_mem_cons] at hpieces
      exact isUtf8_append hpieces.1 (ih hpieces.2)
  · exact h.elim

/-! ## Lengths -/

namespace Cbor

namespace Item

variable {kind : StringKind} {pieces : List (Width × List UInt8)}

theorem length_encodeString (kind : StringKind) (w : Width) (content : List UInt8) :
    (encodeString kind w content).length = 1 + w.size + content.length := by
  rw [encodeString, List.length_append, Head.length_encode]

/-- The bytes of the heads of chunks. -/
def headBytes (pieces : List (Width × List UInt8)) : Nat := (pieces.map fun p => 1 + p.1.size).sum

theorem headBytes_cons (p : Width × List UInt8) (pieces : List (Width × List UInt8)) :
    headBytes (p :: pieces) = 1 + p.1.size + headBytes pieces := by
  rw [headBytes, List.map_cons, List.sum_cons, headBytes]

theorem length_chunks (kind : StringKind) (pieces : List (Width × List UInt8)) :
    (chunks kind pieces).encode.length = 2 + headBytes pieces + (pieces.flatMap Prod.snd).length := by
  have hpieces : (pieces.flatMap fun p => encodeString kind p.1 p.2).length = headBytes pieces + (pieces.flatMap Prod.snd).length := by
    induction pieces with
    | nil => rfl
    | cons p pieces ih =>
      rw [List.flatMap_cons, List.flatMap_cons, List.length_append, List.length_append, ih, headBytes_cons, length_encodeString]
      omega
  rw [encode_eq, body, List.length_append, List.length_append, hpieces, head, Head.encode_none]
  simp only [List.length_cons, List.length_nil]
  omega

/-- Chunks with few bytes of heads have little content. -/
theorem length_content_chunks (h : ∀ p ∈ pieces, PieceFits p) :
    (headBytes pieces ≤ 2 → (pieces.flatMap Prod.snd).length ≤ 255 * headBytes pieces) ∧
    (headBytes pieces ≤ 4 → (pieces.flatMap Prod.snd).length ≤ 65535 * headBytes pieces) ∧
    (headBytes pieces ≤ 5 → (pieces.flatMap Prod.snd).length < 2 ^ 32) := by
  induction pieces with
  | nil => simp [headBytes]
  | cons p pieces ih =>
    obtain ⟨w, content⟩ := p
    rw [List.forall_mem_cons] at h
    have hrest := ih h.2
    have hw : w.Holds content.length := h.1.1
    rw [headBytes_cons, List.flatMap_cons, List.length_append]
    generalize headBytes pieces = heads at hrest ⊢
    generalize (pieces.flatMap Prod.snd).length = n at hrest ⊢
    cases w <;> simp only [Width.Holds, Width.size] at hw ⊢ <;> norm_num at hw <;> omega

/-- The shortest encoding of a string is no longer than any other, but that it may be longer by one byte than a string of 2^32 bytes or more
in chunks. -/
theorem length_string_le {i : Item} (hm : i.major = kind.major) (hin : i.Within {} 0 false) :
    (string kind (.shortest i.content.length) i.content).encode.length ≤ i.encode.length ∨
      2 ^ 32 ≤ i.content.length ∧ 2 ^ 32 + 8 ≤ i.encode.length ∧
        (string kind (.shortest i.content.length) i.content).encode.length ≤ i.encode.length + 1 := by
  rcases eq_string_or_chunks hm with ⟨w, content, rfl⟩ | ⟨pieces, rfl⟩
  · left
    have hw : w.Holds content.length := hin.1
    have hsize := Width.size_shortest_le hw (Nat.le_refl _)
    simp only [Item.encode, length_encodeString, Item.content]
    omega
  · obtain ⟨htwo, hfour, hfive⟩ := length_content_chunks hin.2
    rw [length_chunks, Item.content, Item.encode, length_encodeString]
    generalize (pieces.flatMap Prod.snd).length = n at htwo hfour hfive ⊢
    unfold Width.shortest
    split_ifs <;> simp only [Width.size] <;> omega

theorem length_ofNat_le {w : Width} {m n : Nat} (h : w.Holds n) (hm : m ≤ n) :
    (Item.ofNat m).encode.length ≤ (Item.unsigned w n).encode.length := by
  have hsize := Width.size_shortest_le h hm
  rw [encode_eq, encode_eq]
  simp only [ofNat, head, body, List.append_nil, Head.length_encode]
  omega

end Item

end Cbor

/-- A pattern that is quiet stays as it is. -/
theorem Binary.quieted_quieted (bits : UInt32) : quieted (quieted bits) = quieted bits := by
  have hbits : bits.toNat < 2 ^ 32 := bits.toNat_lt
  by_cases hsignal : isSignalling bits = true
  · have hlow : bits.toNat / 2 ^ 22 % 2 = 0 := by simpa using (Bool.and_eq_true_iff.1 hsignal).2
    have hsum : (bits + 0x400000).toNat = bits.toNat + 2 ^ 22 := by
      rw [UInt32.toNat_add]
      exact Nat.mod_eq_of_lt (by simp only [UInt32.reduceToNat]; omega)
    have hhigh : isSignalling (bits + 0x400000) = false := by
      rw [isSignalling, hsum, show (bits.toNat + 2 ^ 22) / 2 ^ 22 % 2 = 1 by omega]
      exact Bool.and_false _
    simp only [quieted, hsignal, if_true, hhigh, Bool.false_eq_true, if_false]
  · simp only [quieted, hsignal, Bool.false_eq_true, if_false]

namespace Slot

variable {s : Slot} {i : Item}

/-- A slot of a whole-number type that took a number is written as one that is no larger. -/
theorem exists_item_filled {limit : Nat} (h : s.capacity? = some limit) (w : Width) (n : Nat) :
    ∃ m ≤ n, (s.filled (.unsigned w n)).item = .ofNat m := by
  have hmod : ∀ k, n % 2 ^ k % 2 ^ k ≤ n := fun k => (Nat.mod_le _ _).trans (Nat.mod_le _ _)
  cases s with
  | uint8 v => exact ⟨_, UInt8.toNat_ofNat'.trans_le (hmod 8), rfl⟩
  | uint16 v => exact ⟨_, UInt16.toNat_ofNat'.trans_le (hmod 16), rfl⟩
  | uint32 v => exact ⟨_, UInt32.toNat_ofNat'.trans_le (hmod 32), rfl⟩
  | uint64 v => exact ⟨_, UInt64.toNat_ofNat'.trans_le (hmod 64), rfl⟩
  | bool v =>
    refine ⟨_, ?_, rfl⟩
    cases n <;> simp [Bool.toNat]
  | _ => cases h

/-- What a slot that took an item is written as is no longer than the item, but for one byte of a very long string. -/
theorem length_item_filled (hs : s.Suits i) (hin : i.Within {} 0 false) :
    (s.filled i).item.encode.length ≤ i.encode.length ∨
      2 ^ 32 + 8 ≤ i.encode.length ∧ (s.filled i).item.encode.length ≤ i.encode.length + 1 := by
  cases hc : s.capacity? with
  | some limit =>
    obtain ⟨w, n, rfl⟩ := eq_unsigned_of_suits hs hc
    obtain ⟨m, hm, hitem⟩ := exists_item_filled hc w n
    rw [hitem]
    exact Or.inl (length_ofNat_le hin hm)
  | none =>
    cases s with
    | simple v =>
      obtain ⟨v, rfl⟩ := hs
      exact Or.inl (Nat.le_refl _)
    | float32 bits =>
      obtain ⟨bits, rfl⟩ := hs
      left
      rw [encode_eq, encode_eq]
      simp [filled, item, head, body, Head.length_encode]
    | float64 bits =>
      obtain ⟨bits, rfl⟩ := hs
      exact Or.inl (Nat.le_refl _)
    | string v =>
      obtain ⟨t, ht⟩ := hs
      exact (length_string_le (spells_iff.1 ht).1 hin).imp_right And.right
    | bytes v => exact (length_string_le (show i.major = StringKind.bytes.major from hs) hin).imp_right And.right
    | _ => cases hc

theorem eq_string_of_filled {v : Text} (h : s.filled i = .string v) : ∃ v', s = .string v' ∧ v.bytes = i.content := by
  have htype := s.type_filled i
  rw [h] at htype
  cases s with
  | string v' =>
    cases h
    exact ⟨v', rfl, rfl⟩
  | _ => cases htype

theorem eq_bytes_of_filled {v : List UInt8} (h : s.filled i = .bytes v) : v = i.content := by
  have htype := s.type_filled i
  rw [h] at htype
  cases s with
  | bytes v' =>
    cases h
    rfl
  | _ => cases htype

theorem eq_simple_of_filled {v : UInt8} (hs : s.Suits i) (h : s.filled i = .simple v) : i = .simple v := by
  have htype := s.type_filled i
  rw [h] at htype
  cases s with
  | simple v' =>
    obtain ⟨v'', rfl⟩ := hs
    cases h
    rfl
  | _ => cases htype

/-- A slot that took an item holds no signalling NaN of single precision. -/
theorem quieted_filled (hs : s.Suits i) : (s.filled i).quieted = s.filled i := by
  have htype := s.type_filled i
  cases hfilled : s.filled i with
  | float32 bits =>
    rw [hfilled] at htype
    cases s with
    | float32 bits' =>
      obtain ⟨bits'', rfl⟩ := hs
      cases hfilled
      exact congrArg float32 (Binary.quieted_quieted bits'')
    | _ => cases htype
  | _ => rfl

end Slot

/-! ## What a field receives -/

namespace Field

variable {f g : Field} {p : Item × Item}

/-- The field takes the pair: it is one for the field, and the field does not refuse its number. -/
structure Takes (f : Field) (p : Item × Item) : Prop where
  fits : f.Fits p
  room : f.overflows p.2 = false

/-- A field that took its pair. -/
theorem Takes.exists_received (h : f.Takes p) :
    ∃ s, f.slot? = some s ∧ s.Suits p.2 ∧ p.2.Within {} 0 false ∧ f.received p.2 = f.store (s.filled p.2) := by
  obtain ⟨s, hslot, hs⟩ := h.fits.value.2
  exact ⟨s, hslot, hs, (h.fits.within 0).2, received_of_not_overflows hslot h.room⟩

theorem key_received (f : Field) (i : Item) : (f.received i).key = f.key := by
  unfold received
  split
  · split_ifs <;> rfl
  · rfl

theorem Takes.writable_received (h : f.Takes p) : (f.received p.2).Writable := by
  obtain ⟨s, -, hs, hin, hreceived⟩ := h.exists_received
  rw [hreceived]
  refine ⟨rfl, fun v hv => ?_⟩
  rw [Slot.eq_simple_of_filled hs (Option.some.inj hv)] at hin
  exact hin

theorem Takes.isText_received (h : f.Takes p) : (f.received p.2).IsText := by
  obtain ⟨s, -, hs, -, hreceived⟩ := h.exists_received
  refine ⟨key_received f p.2 ▸ h.fits.key.2.isUtf8, fun v hv => ?_⟩
  rw [hreceived] at hv
  obtain ⟨v', rfl, hbytes⟩ := Slot.eq_string_of_filled (Option.some.inj hv)
  obtain ⟨t, ht⟩ := hs
  rw [hbytes, show p.2.content = t.bytes from congrArg Text.bytes ht.content_eq]
  exact ht.isUtf8

theorem Takes.addressable_received (h : f.Takes p) (hlen : p.2.encode.length < 2 ^ 63) :
    (f.received p.2).Addressable := by
  obtain ⟨s, -, -, -, hreceived⟩ := h.exists_received
  have hcontent := p.2.length_content_lt.trans hlen
  rw [hreceived]
  refine ⟨fun v hv => ?_, fun v hv => ?_⟩
  · obtain ⟨-, -, hbytes⟩ := Slot.eq_string_of_filled (Option.some.inj hv)
    rw [Text.length, hbytes]
    exact hcontent
  · rw [Slot.eq_bytes_of_filled (Option.some.inj hv)]
    exact hcontent

theorem Takes.quieted_received (h : f.Takes p) : (f.received p.2).quieted = f.received p.2 := by
  obtain ⟨s, -, hs, -, hreceived⟩ := h.exists_received
  rw [hreceived]
  exact congrArg f.store (Slot.quieted_filled hs)

/-- What a field took has the shape of the field. -/
theorem Takes.alike_received (h : f.Takes p) (hlike : f.Alike g) : (f.received p.2).Alike g := by
  obtain ⟨s, hslot, -, -, hreceived⟩ := h.exists_received
  have htype : (f.store (s.filled p.2)).type = f.type := by
    obtain ⟨key, checked, rfl⟩ := exists_of_slot? hslot
    exact s.type_filled p.2
  rw [hreceived]
  exact ⟨hlike.key, hlike.type.trans htype.symm, hlike.checked, hlike.bound⟩

/-- What a field that took its pair is written as is no longer than the pair, but for one byte of a very long string. -/
theorem Takes.length_pair_received (h : f.Takes p) (hkey : f.key.length ≤ maxKeyLength)
    (hne : f.key.bytes ≠ []) :
    (encodePairs [(f.received p.2).pair]).length ≤ (encodePairs [p]).length + (encodePairs [p]).length / (2 ^ 32 + 10) := by
  obtain ⟨s, -, hs, hin, hreceived⟩ := h.exists_received
  have hspelled : p.1.content = f.key.bytes := congrArg Text.bytes h.fits.key.2.content_eq
  have hkeyLength : (Item.ofText f.key).encode.length ≤ p.1.encode.length := by
    have hmajor : p.1.major = StringKind.text.major := (spells_iff.1 h.fits.key.2).1
    rcases length_string_le hmajor (h.fits.within 0).1 with hle | ⟨hlong, -⟩
    · rw [hspelled] at hle
      exact hle
    · rw [hspelled] at hlong
      exact absurd (hlong.trans hkey) (by decide)
  have hcontent := p.1.length_content_lt
  have hpos : 0 < f.key.bytes.length := List.length_pos_iff.2 hne
  have hvalue := Slot.length_item_filled hs hin
  have hpair : (f.received p.2).pair = (.ofText f.key, (s.filled p.2).item) := by
    rw [hreceived]
    rfl
  rw [hspelled] at hcontent
  rw [hpair]
  simp only [encodePairs, List.append_nil, List.length_append]
  omega

end Field

/-! ## What a table receives -/

section Fields

variable {fields : List Field} {pairs : List (Item × Item)}

/-- Where no number is out of range, no field refuses its own. -/
theorem forall₂_of_overflowKeys (hfits : List.Forall₂ Field.Fits fields pairs) (hrange : overflowKeys fields pairs = []) :
    List.Forall₂ Field.Takes fields pairs := by
  induction hfits with
  | nil => exact .nil
  | @cons f p fields pairs hf _ ih =>
    rw [overflowKeys_cons] at hrange
    split_ifs at hrange with ho
    exact .cons ⟨hf, Bool.not_eq_true _ ▸ ho⟩ (ih hrange)

/-- What holds of every field that took its pair holds of all fields that are received. -/
theorem forall_receivedFields {P : Field → Prop} (h : List.Forall₂ Field.Takes fields pairs)
    (hstep : ∀ (f : Field), ∀ p ∈ pairs, f.Takes p → P (f.received p.2)) : ∀ f ∈ receivedFields fields pairs, P f := by
  induction h with
  | nil => simp [receivedFields]
  | @cons f p fields pairs hf _ ih =>
    rw [receivedFields_cons]
    exact List.forall_mem_cons.2
      ⟨hstep f p List.mem_cons_self hf, ih fun f p hp => hstep f p (List.mem_cons_of_mem _ hp)⟩

theorem map_key_receivedFields (h : List.Forall₂ Field.Takes fields pairs) :
    (receivedFields fields pairs).map Field.key = fields.map Field.key := by
  induction h with
  | nil => rfl
  | cons _ _ ih => rw [receivedFields_cons, List.map_cons, List.map_cons, Field.key_received, ih]

theorem alike_receivedFields {fresh : List Field} (h : List.Forall₂ Field.Takes fields pairs)
    (hlike : List.Forall₂ Field.Alike fields fresh) : List.Forall₂ Field.Alike (receivedFields fields pairs) fresh := by
  induction h generalizing fresh with
  | nil => exact hlike
  | cons hf _ ih =>
    cases hlike with
    | cons hg hlike =>
      rw [receivedFields_cons]
      exact .cons (hf.alike_received hg) (ih hlike)

/-- What the fields that took their pairs are written as is longer than the pairs by one byte at most for each very long string. -/
theorem length_pairs_received (h : List.Forall₂ Field.Takes fields pairs)
    (hkeys : ∀ f ∈ fields, f.key.length ≤ maxKeyLength ∧ f.key.bytes ≠ []) :
    (encodePairs ((receivedFields fields pairs).map Field.pair)).length ≤
      (encodePairs pairs).length + (encodePairs pairs).length / (2 ^ 32 + 10) := by
  induction h with
  | nil => exact Nat.zero_le _
  | @cons f p fields pairs hf _ ih =>
    rw [List.forall_mem_cons] at hkeys
    have hpair := hf.length_pair_received hkeys.1.1 hkeys.1.2
    have hrest := ih hkeys.2
    rw [receivedFields_cons, List.map_cons]
    simp only [encodePairs, List.append_nil, List.length_append] at hpair ⊢
    omega

end Fields

/-! ## Decoding and marshalling -/

namespace Table

variable {t : Table} {options : Options} {data : List UInt8} {w : Width} {pairs : List (Item × Item)}

theorem key_ne_nil_of_faultFrom {index : Nat} {seen : List Text} {fields : List Field} (h : faultFrom index seen fields = none) :
    ∀ f ∈ fields, f.key.bytes ≠ [] := by
  induction fields generalizing index seen with
  | nil => simp
  | cons f fields ih =>
    rw [faultFrom] at h
    split_ifs at h with hbound hempty hlong hseen
    refine List.forall_mem_cons.2 ⟨fun hnil => hempty ?_, ih h⟩
    rw [Text.isEmpty, hnil]
    rfl

/-- A strict table that decodes input without an error takes a pair of it for each field. -/
theorem exists_takes (halloc : options.allocLimit ≤ 0) (hstrict : t.strict = true) (hbound : ∀ f ∈ t.fields, f.isBound = true)
    (hok : (t.decode options data).1 = none) :
    ∃ w pairs, Spelled t.fields w pairs data ∧ List.Forall₂ Field.Takes t.fields pairs ∧ t.fields.length ≤ 131072 ∧
      (t.decode options data).2.1 = { t with fields := receivedFields t.fields pairs } := by
  have hcount : t.fields.length ≤ 131072 := by
    obtain ⟨w, pairs, -, hin, -, -, hwanted, -⟩ := exists_pairs_of_finished (t := t) (fun err herr => nomatch hok.symm.trans herr)
    rw [wanted, if_pos hstrict] at hwanted
    exact hwanted.trans_le hin.2.2.2.1
  by_cases hspelled : ∃ w pairs, Spelled t.fields w pairs data
  · obtain ⟨w, pairs, hspelled⟩ := hspelled
    obtain ⟨herr, hafter⟩ := decode_of_spelled halloc hstrict hcount hspelled
    have hrange : overflowKeys t.fields pairs = [] := by
      rw [hok, rangeError] at herr
      split_ifs at herr with hrange
      exact hrange
    exact ⟨w, pairs, hspelled, forall₂_of_overflowKeys hspelled.fits hrange, hcount, hafter⟩
  · obtain ⟨err, herr, -⟩ := rejects_of_not_spelled halloc hstrict hbound hcount fun w pairs h => hspelled ⟨w, pairs, h⟩
    cases hok.symm.trans herr

/-- What a valid table holds after it took pairs can be sent. -/
theorem sendable_received (hvalid : t.fault? = none) (hcount : t.fields.length ≤ 131072) (h : List.Forall₂ Field.Takes t.fields pairs)
    (hlen : ∀ p ∈ pairs, p.2.encode.length < 2 ^ 63) : Sendable { t with fields := receivedFields t.fields pairs } := by
  obtain ⟨hfields, hnodup⟩ := valid_of_faultFrom hvalid
  have hkeys := map_key_receivedFields h
  refine ⟨?_, forall_receivedFields h fun f p _ hf => hf.writable_received,
    forall_receivedFields h fun f p hp hf => hf.addressable_received (hlen p hp), ?_, ?_⟩
  · rw [← List.length_map Field.key, hkeys, List.length_map]
    exact hcount
  · intro f hf
    have hmem : f.key ∈ t.fields.map Field.key := hkeys ▸ List.mem_map_of_mem hf
    obtain ⟨g, hg, hkey⟩ := List.mem_map.1 hmem
    exact hkey ▸ (hfields g hg).2.1
  · rw [hkeys]
    exact hnodup

theorem length_encode_lt_of_mem {p : Item × Item} (hp : p ∈ pairs) : p.2.encode.length < (Item.map w pairs).encode.length := by
  obtain ⟨front, back, rfl⟩ := List.append_of_mem hp
  rw [Item.encode, encodePairs_eq_flatMap, List.flatMap_append, List.flatMap_cons]
  simp only [List.length_append, Head.length_encode]
  omega

/-- The message of a table that took pairs is longer than the map of the pairs by one byte at most for each very long string. -/
theorem length_message_received (hvalid : t.fault? = none) (h : List.Forall₂ Field.Takes t.fields pairs) (hw : w.Holds t.fields.length) :
    (message { t with fields := receivedFields t.fields pairs }).encode.length ≤
      (Item.map w pairs).encode.length + ((Item.map w pairs).encode.length - 1) / (2 ^ 32 + 10) := by
  have hkeys := fun f hf => And.intro ((valid_of_faultFrom hvalid).1 f hf).2.1 (key_ne_nil_of_faultFrom hvalid f hf)
  have hpairs := length_pairs_received h hkeys
  have hcount : (receivedFields t.fields pairs).length = t.fields.length := by
    rw [← List.length_map Field.key, map_key_receivedFields h, List.length_map]
  have hhead := Width.size_shortest_le hw (Nat.le_refl _)
  rw [message, ofPairs, Item.encode, Item.encode, List.length_append, List.length_append, Head.length_encode, Head.length_encode,
    List.length_map, hcount]
  dsimp only
  omega

/-- Decoding and then marshalling normalises. What a valid strict table holds after it decoded input without an error can be marshalled; the
bytes decode into any table of the same shape, strict or not, to the same values, and these are marshalled to the same bytes. The bytes are
no more than those of the input, unless the input is longer than 2^32 + 10 bytes; then they are longer by one byte at most for each part of
that length. -/
theorem decode_then_marshal_normalises (labels : Labels) (options : Options) (halloc : options.allocLimit ≤ 0) (t : Table)
    (hvalid : t.fault? = none) (hstrict : t.strict = true) (data : List UInt8) (hlen : data.length < 2 ^ 63)
    (hok : (t.decode options data).1 = none) :
    ∃ bytes, ((t.decode options data).2.1.marshal labels).1 = .ok bytes ∧
      (data.length ≤ 2 ^ 32 + 10 → bytes.length ≤ data.length) ∧
      bytes.length ≤ data.length + (data.length - 1) / (2 ^ 32 + 10) ∧
      ∀ fresh : Table, List.Forall₂ Field.Alike t.fields fresh.fields →
        (fresh.decode options bytes).1 = none ∧
        (fresh.decode options bytes).2.1 = { fresh with fields := (t.decode options data).2.1.fields } ∧
        ((fresh.decode options bytes).2.1.marshal labels).1 = .ok bytes := by
  have hbound := fun f hf => ((valid_of_faultFrom hvalid).1 f hf).1
  obtain ⟨w, pairs, hspelled, htakes, hcount, hafter⟩ := exists_takes halloc hstrict hbound hok
  have hlengths : ∀ p ∈ pairs, p.2.encode.length < 2 ^ 63 := fun p hp =>
    (length_encode_lt_of_mem hp).trans (hspelled.bytes ▸ hlen)
  have hsend := sendable_received hvalid hcount htakes hlengths
  have hlength := length_message_received hvalid htakes hspelled.width
  have hquiet : (receivedFields t.fields pairs).map Field.quieted = receivedFields t.fields pairs := by
    rw [List.map_congr_left (forall_receivedFields (P := fun f => f.quieted = id f) htakes fun f p _ hf => hf.quieted_received),
      List.map_id]
  rw [← hspelled.bytes] at hlength
  rw [hafter]
  refine ⟨_, marshal_of_writable hsend.writable labels, fun hshort => by omega, hlength, fun fresh hlike => ?_⟩
  obtain ⟨hnone, hback⟩ := hsend.decode_of_isText halloc (alike_receivedFields htakes hlike)
    (forall_receivedFields htakes fun f p _ hf => hf.isText_received)
  rw [hquiet] at hback
  refine ⟨hnone, hback, ?_⟩
  rw [hback]
  exact marshal_of_writable hsend.writable labels

/-- A number too large for its field, a truth value of 5, a text in chunks and a simple value, under wide heads: the bytes come down from
nineteen to fourteen. -/
theorem wide_message_comes_back_short :
    let row (n : UInt8) (b : Bool) (v : Text) (x : UInt8) : List Field :=
      [.holding ⟨[97]⟩ (.uint8 n), .holding ⟨[98]⟩ (.bool b), .holding ⟨[99]⟩ (.string v), .holding ⟨[100]⟩ (.simple x)]
    let t : Table := ⟨row 0 false "" 0, true⟩
    let data : List UInt8 :=
      [0xb8, 0x04, 0x61, 0x61, 0x19, 0x01, 0x02, 0x61, 0x62, 0x05, 0x61, 0x63, 0x7f, 0x61, 0x78, 0xff, 0x61, 0x64, 0xf5]
    let bytes : List UInt8 := [0xa4, 0x61, 0x61, 0x02, 0x61, 0x62, 0x01, 0x61, 0x63, 0x61, 0x78, 0x61, 0x64, 0xf5]
    t.fault? = none ∧ (t.decode {} data).1 = none ∧ ((t.decode {} data).2.1.marshal {}).1 = .ok bytes ∧ bytes.length ≤ data.length ∧
      (t.decode {} bytes).1 = none ∧ (t.decode {} bytes).2.1 = ⟨row 2 true ⟨[120]⟩ 21, true⟩ ∧
      ((t.decode {} bytes).2.1.marshal {}).1 = .ok bytes := by
  intro row t data bytes
  have hvalid : t.fault? = none := by decide
  have hok : (t.decode {} data).1 = none := by decide +kernel
  have hafter : (t.decode {} data).2.1 = ⟨row 2 true ⟨[120]⟩ 21, true⟩ := by decide +kernel
  have hmarshal : ((t.decode {} data).2.1.marshal {}).1 = .ok bytes := by
    rw [hafter]
    decide +kernel
  obtain ⟨bytes', hbytes, hshort, -, hback⟩ := decode_then_marshal_normalises {} {} (by decide) t hvalid rfl data (by decide) hok
  obtain rfl : bytes = bytes' := Except.ok.inj (hmarshal.symm.trans hbytes)
  have hlike : List.Forall₂ Field.Alike t.fields t.fields :=
    .cons ⟨rfl, rfl, rfl, rfl⟩ (.cons ⟨rfl, rfl, rfl, rfl⟩ (.cons ⟨rfl, rfl, rfl, rfl⟩ (.cons ⟨rfl, rfl, rfl, rfl⟩ .nil)))
  obtain ⟨hnone, hsame, hagain⟩ := hback t hlike
  rw [hafter] at hsame
  exact ⟨hvalid, hok, hmarshal, hshort (by decide), hnone, hsame, hagain⟩

/-- Input of 2^32 + 11 bytes that has a byte string in two chunks can come out longer by a byte: the string in one piece needs a head of
nine bytes, and the heads of its chunks and the bytes around them are eight. -/
theorem normal_form_can_be_longer :
    ∃ (t : Table) (data bytes : List UInt8), t.fault? = none ∧ t.strict = true ∧ data.length = 2 ^ 32 + 11 ∧ (t.decode {} data).1 = none ∧
      ((t.decode {} data).2.1.marshal {}).1 = .ok bytes ∧ bytes.length = data.length + 1 := by
  have hexists : ∀ n, ∃ content : List UInt8, content.length = n := fun n => ⟨List.replicate n 0, List.length_replicate⟩
  obtain ⟨content, hcontent⟩ := hexists (2 ^ 32 - 1)
  let t : Table := ⟨[.holding ⟨[97]⟩ (.bytes [])], true⟩
  let pieces : List (Width × List UInt8) := [(.four, content), (.inline, [0])]
  let pairs : List (Item × Item) := [(.string .text .inline [97], .chunks .bytes pieces)]
  have hpieces : ∀ p ∈ pieces, PieceFits p := by
    simp only [pieces, List.forall_mem_cons, PieceFits, hcontent, Width.Holds, Width.size]
    norm_num
  have hspelled : Spelled t.fields .inline pairs (Item.map .inline pairs).encode :=
    ⟨show 1 < 24 by decide,
      .cons ⟨⟨⟨{}, show 1 < 24 by decide, by decide⟩, rfl, by decide⟩, ⟨{}, rfl, hpieces⟩, .bytes [], rfl, rfl⟩ .nil, rfl⟩
  obtain ⟨hnone, hafter⟩ :=
    decode_of_spelled (t := t) (show ({} : Options).allocLimit ≤ 0 by decide) rfl (show 1 ≤ 131072 by decide) hspelled
  have hreceived : receivedFields t.fields pairs = [.holding ⟨[97]⟩ (.bytes (content ++ [0]))] := rfl
  have hwritable : ∀ f ∈ receivedFields t.fields pairs, f.Writable := by
    rw [hreceived, List.forall_mem_singleton]
    refine ⟨rfl, fun v hv => ?_⟩
    cases hv
  have hchunks : (Item.chunks .bytes pieces).encode.length = 2 ^ 32 + 8 := by
    rw [length_chunks]
    simp [pieces, headBytes, Width.size, hcontent]
  have hdata : (Item.map .inline pairs).encode.length = 2 ^ 32 + 11 := by
    have hkey : (Item.string .text .inline [97]).encode.length = 2 := rfl
    rw [Item.encode, List.length_append, Head.length_encode]
    simp [pairs, encodePairs, hkey, hchunks, Width.size]
  have hpiece : (Item.ofBytes (content ++ [0])).encode.length = 2 ^ 32 + 9 := by
    rw [Item.ofBytes, Item.encode, length_encodeString, List.length_append, hcontent]
    simp [Width.shortest, Width.size]
  have hbytes : (message { t with fields := receivedFields t.fields pairs }).encode.length = 2 ^ 32 + 12 := by
    rw [hreceived, message, ofPairs, Item.encode, List.length_append, Head.length_encode]
    simp [encodePairs, Field.pair, Field.slot?, Field.holding, Slot.item, hpiece, Item.ofText, Item.encode, length_encodeString, Width.size,
      Width.shortest, Text.length]
  refine ⟨t, _, _, by decide, rfl, hdata, hnone, ?_, hbytes.trans (congrArg (· + 1) hdata).symm⟩
  rw [hafter]
  exact marshal_of_writable hwritable {}

end Table

end SensorWire
