import Mathlib
import SensorWire.Codec.Table
import SensorWire.Proofs.Decoder

/-!
# What a strict table accepts

A strict table accepts the maps that spell its fields (`Spelled`): a pair for each field in order, with the field's key and an item that
suits its slot. `strictPair` is one step of the walk, and `walkStrict` the run of it over the fields.

Main statement (`strict_decode_accepts_iff`): decoding ends well, or with numbers out of range, exactly for such maps; the keys that the
error lists are those of the fields that have no room for their numbers, and every other field holds the value of its item.
-/

namespace SensorWire

open Cbor Item Decoder

/-! ## The grammar of a table -/

/-- The pair is one for the field: a well-formed item that spells its key, and a well-formed item that suits its slot. -/
structure Field.Fits (f : Field) (p : Item × Item) : Prop where
  key : p.1.WellFormed ∧ p.1.Spells f.key
  value : p.2.WellFormed ∧ ∃ s, f.slot? = some s ∧ s.Suits p.2

/-- The bytes are a map of definite length, of whatever width, with a pair for each field in order. -/
structure Spelled (fields : List Field) (w : Width) (pairs : List (Item × Item)) (data : List UInt8) : Prop where
  width : w.Holds fields.length
  fits : List.Forall₂ Field.Fits fields pairs
  bytes : data = (Item.map w pairs).encode

/-- The fields after each took the value of its pair. -/
def receivedFields (fields : List Field) (pairs : List (Item × Item)) : List Field :=
  List.zipWith (fun f p => f.received p.2) fields pairs

/-- The keys of the fields that have no room for the numbers of their pairs. -/
def overflowKeys (fields : List Field) (pairs : List (Item × Item)) : List Text :=
  ((fields.zip pairs).filter fun fp => fp.1.overflows fp.2.2).map fun fp => fp.1.key

/-- The items that have no other items in them, of the kinds that fields take. -/
def Cbor.Item.Leaf : Item → Prop
  | unsigned .. | string .. | chunks .. | simple _ | single _ | double _ => True
  | _ => False

theorem Cbor.Item.Spells.leaf {i : Item} {t : Text} (h : i.Spells t) : i.Leaf := by
  cases i <;> first | exact h.elim | trivial

theorem Slot.Suits.leaf {s : Slot} {i : Item} (h : s.Suits i) : i.Leaf := by
  cases s with
  | simple v => obtain ⟨v, rfl⟩ := h; trivial
  | float32 bits => obtain ⟨bits, rfl⟩ := h; trivial
  | float64 bits => obtain ⟨bits, rfl⟩ := h; trivial
  | string t =>
    obtain ⟨t, ht⟩ := h
    exact ht.leaf
  | bytes b =>
    rcases eq_string_or_chunks (show i.major = StringKind.bytes.major from h) with ⟨w, content, rfl⟩ | ⟨pieces, rfl⟩ <;> trivial
  | _ =>
    obtain ⟨w, n, rfl⟩ := eq_unsigned_of_major h
    trivial

/-- A well-formed leaf is read wherever it stands. -/
theorem Cbor.Item.Leaf.within {i : Item} (h : i.Leaf) (hi : i.WellFormed) (depth : Nat) (inTag : Bool) :
    i.Within {} depth inTag := by
  obtain ⟨lim, hin⟩ := hi
  cases i with
  | chunks kind pieces => exact ⟨rfl, hin.2⟩
  | unsigned w n => exact hin
  | string kind w content => exact hin
  | simple n => exact hin
  | single bits => trivial
  | double bits => trivial
  | _ => exact h.elim

theorem Field.Fits.within {f : Field} {p : Item × Item} (h : f.Fits p) (depth : Nat) :
    p.1.Within {} depth false ∧ p.2.Within {} depth false := by
  obtain ⟨⟨hkey, hspells⟩, hvalue, s, -, hs⟩ := h
  exact ⟨hspells.leaf.within hkey depth false, hs.leaf.within hvalue depth false⟩

theorem pairsWithin_of_fits {fields : List Field} {pairs : List (Item × Item)} (h : List.Forall₂ Field.Fits fields pairs)
    (depth : Nat) : PairsWithin {} depth pairs := by
  induction h with
  | nil => trivial
  | cons hf _ ih => exact ⟨hf.within depth, ih⟩

/-- What spells no more than 131072 fields is read as a map. -/
theorem Spelled.within {fields : List Field} {w : Width} {pairs : List (Item × Item)} {data : List UInt8}
    (h : Spelled fields w pairs data) (hcount : fields.length ≤ 131072) : (Item.map w pairs).Within {} 0 false := by
  have hlen : fields.length = pairs.length := h.fits.length_eq
  have hcount' : pairs.length ≤ 131072 := hlen ▸ hcount
  exact ⟨hlen ▸ h.width, by decide, by omega, hcount', pairsWithin_of_fits h.fits 1⟩

/-! ## One pair -/

section Pair

variable {d : Decoder} {f : Field} {p : Item × Item} {rest : List UInt8}

/-- A pair stands in front of what is unread, and pairs remain. -/
structure FacesPair (d : Decoder) (p : Item × Item) (rest : List UInt8) : Prop where
  key : Faces d p.1 (p.2.encode ++ rest)
  value : p.2.Within {} 0 false
  more : d.read < d.count
  noLimit : d.options.allocLimit ≤ 0

/-- The decoder after the key of a pair. -/
def afterKey (d : Decoder) (p : Item × Item) (rest : List UInt8) : Decoder :=
  { d with unread := p.2.encode ++ rest, read := d.read + 1 }

theorem FacesPair.strictPair_eq (h : FacesPair d p rest) (hkey : p.1.Spells f.key) :
    (Table.strictPair f).run.run d = (takeValue Table.walkOp f).run.run (afterKey d p rest) := by
  rw [Table.strictPair, (h.key.takeKey h.more hkey Table.walkOp f.key).run_bind]
  simp only [ne_eq, not_true_eq_false, if_false]
  rfl

theorem FacesPair.faces_value (h : FacesPair d p rest) : Faces (afterKey d p rest) p.2 rest := ⟨rfl, h.value⟩

/-- A pair that does not fit its field ends the decoding. -/
theorem FacesPair.strictPair_stops (h : FacesPair d p rest) (hbound : f.isBound = true) (hfits : ¬f.Fits p) :
    Stops (Table.strictPair f) d := by
  by_cases htext : ∃ t, p.1.Spells t
  · obtain ⟨t, ht⟩ := htext
    by_cases hkey : t = f.key
    · subst hkey
      obtain ⟨s, hslot⟩ := Option.isSome_iff_exists.1 hbound
      have hs : ¬s.Suits p.2 := fun hs => hfits ⟨⟨⟨{}, h.key.within⟩, ht⟩, ⟨{}, h.value⟩, s, hslot, hs⟩
      obtain ⟨err, d', hrun, hcode⟩ :=
        (h.faces_value.takeValue_fails h.noLimit hslot hs Table.walkOp).stops (s.refusal_ne_outOfRange p.2)
      exact ⟨err, d', (h.strictPair_eq ht).trans hrun, hcode⟩
    · refine (h.key.takeKey h.more ht Table.walkOp f.key).stops ?_
      simp only [ne_eq, hkey, not_false_eq_true, if_true]
      exact stops_fail (by simp) _
  · exact ((h.key.takeKey_fails h.more (fun t ht => htext ⟨t, ht⟩) Table.walkOp f.key).stops p.1.textFault_ne_outOfRange).bind _

/-- A number that the field has no room for is refused, and the decoding goes on after the pair. -/
theorem FacesPair.strictPair_refuses (h : FacesPair d p rest) (hfits : f.Fits p) (ho : f.overflows p.2 = true) :
    Refuses (Table.strictPair f) d { d with unread := rest, read := d.read + 1 } := by
  obtain ⟨s, hslot, -⟩ := hfits.value.2
  obtain ⟨err, hrun, hcode⟩ := h.faces_value.takeValue_refuses hslot ho Table.walkOp
  exact ⟨err, (h.strictPair_eq hfits.key.2).trans hrun, hcode⟩

/-- Any other pair that fits its field gives the slot its value. -/
theorem FacesPair.strictPair_filled (h : FacesPair d p rest) (hfits : f.Fits p) (ho : f.overflows p.2 = false) :
    ∃ s x, f.slot? = some s ∧
      Gives (Table.strictPair f) d (s.filled p.2) { d with unread := rest, read := d.read + 1, allocated := x } := by
  obtain ⟨s, hslot, hs⟩ := hfits.value.2
  obtain ⟨x, hrun⟩ := h.faces_value.takeValue_filled h.noLimit hslot hs ho Table.walkOp
  exact ⟨s, x, hslot, (h.strictPair_eq hfits.key.2).trans hrun⟩

end Pair

/-! ## The walk -/

/-- The pairs stand in front of all that is unread, one for each that the decoder counts. -/
structure FacesPairs (d : Decoder) (pairs : List (Item × Item)) : Prop where
  unread : d.unread = encodePairs pairs
  within : PairsWithin {} 0 pairs
  remaining : d.count = d.read + pairs.length
  noLimit : d.options.allocLimit ≤ 0

variable {d : Decoder} {f : Field} {fields : List Field} {p : Item × Item} {pairs : List (Item × Item)}

theorem FacesPairs.first (h : FacesPairs d (p :: pairs)) : FacesPair d p (encodePairs pairs) := by
  have hremaining := h.remaining
  rw [List.length_cons] at hremaining
  refine ⟨⟨?_, h.within.1.1⟩, h.within.1.2, by omega, h.noLimit⟩
  rw [h.unread, encodePairs, List.append_assoc]

/-- The pairs that remain after the first one. -/
theorem FacesPairs.rest_of_eq (h : FacesPairs d (p :: pairs)) {d' : Decoder} (hunread : d'.unread = encodePairs pairs)
    (hread : d'.read = d.read + 1) (hcount : d'.count = d.count) (hoptions : d'.options = d.options) : FacesPairs d' pairs := by
  have hremaining := h.remaining
  rw [List.length_cons] at hremaining
  exact ⟨hunread, h.within.2, by omega, hoptions ▸ h.noLimit⟩

theorem FacesPairs.rest (h : FacesPairs d (p :: pairs)) (x : Int64) :
    FacesPairs { d with unread := encodePairs pairs, read := d.read + 1, allocated := x } pairs :=
  h.rest_of_eq rfl rfl rfl rfl

theorem overflowKeys_cons (f : Field) (fields : List Field) (p : Item × Item) (pairs : List (Item × Item)) :
    overflowKeys (f :: fields) (p :: pairs) =
      if f.overflows p.2 then f.key :: overflowKeys fields pairs else overflowKeys fields pairs := by
  simp only [overflowKeys, List.zip_cons_cons, List.filter_cons]
  split <;> rfl

theorem receivedFields_cons (f : Field) (fields : List Field) (p : Item × Item) (pairs : List (Item × Item)) :
    receivedFields (f :: fields) (p :: pairs) = f.received p.2 :: receivedFields fields pairs := rfl

/-- Pairs that fit their fields are all read, and every field receives its value. The decoder then faces the pairs after them. -/
theorem walkStrict_of_fits_append (hfits : List.Forall₂ Field.Fits fields pairs) {after : List (Item × Item)}
    (h : FacesPairs d (pairs ++ after)) :
    ∃ entries d', Table.walkStrict fields d = (⟨entries, overflowKeys fields pairs, [], none⟩, d') ∧
      entries.map Table.Entry.field = receivedFields fields pairs ∧ FacesPairs d' after ∧ d'.trailing = d.trailing := by
  -- the decoder changes from pair to pair, and faces the pairs that remain
  induction hfits generalizing d with
  | nil => exact ⟨[], d, rfl, rfl, h, rfl⟩
  | @cons f p fields pairs hf hfits ih =>
    cases ho : f.overflows p.2 with
    | true =>
      obtain ⟨err, hrun, hcode⟩ := h.first.strictPair_refuses hf ho
      obtain ⟨entries, d', hwalk, hentries, hend⟩ := ih (h.rest d.allocated)
      refine ⟨⟨f, false⟩ :: entries, d', ?_, ?_, hend⟩
      · rw [Table.walkStrict, hrun]
        simp only [hcode, if_true, hwalk, overflowKeys_cons, ho]
      · rw [List.map_cons, hentries, receivedFields_cons, Field.received_of_overflows ho]
    | false =>
      obtain ⟨s, x, hslot, hrun⟩ := h.first.strictPair_filled hf ho
      obtain ⟨entries, d', hwalk, hentries, hend⟩ := ih (h.rest x)
      refine ⟨Table.Entry.store ⟨f, false⟩ (s.filled p.2) :: entries, d', ?_, ?_, hend⟩
      · rw [Table.walkStrict, hrun]
        simp only [hwalk, overflowKeys_cons, ho, Bool.false_eq_true, if_false]
      · rw [List.map_cons, hentries, receivedFields_cons, Field.received_of_not_overflows hslot ho]
        rfl

theorem walkStrict_of_fits (hfits : List.Forall₂ Field.Fits fields pairs) (h : FacesPairs d pairs) :
    ∃ entries d', Table.walkStrict fields d = (⟨entries, overflowKeys fields pairs, [], none⟩, d') ∧
      entries.map Table.Entry.field = receivedFields fields pairs ∧ d'.read = d'.count ∧ d'.unread = [] ∧
      d'.trailing = d.trailing := by
  rw [← List.append_nil pairs] at h
  obtain ⟨entries, d', hwalk, hentries, hdone, htrailing⟩ := walkStrict_of_fits_append hfits h
  exact ⟨entries, d', hwalk, hentries, hdone.remaining.symm, hdone.unread, htrailing⟩

/-- Pairs that do not all fit their fields end the decoding. -/
theorem walkStrict_of_not_fits (hbound : ∀ f ∈ fields, f.isBound = true) (hlen : fields.length = pairs.length)
    (hfits : ¬List.Forall₂ Field.Fits fields pairs) (h : FacesPairs d pairs) :
    ∃ err, (Table.walkStrict fields d).1.error = some err ∧ err.code ≠ .outOfRange := by
  induction fields generalizing pairs d with
  | nil =>
    obtain rfl := List.eq_nil_of_length_eq_zero hlen.symm
    exact absurd .nil hfits
  | cons f fields ih =>
    cases pairs with
    | nil => cases hlen
    | cons p pairs =>
      rw [List.forall_mem_cons] at hbound
      rw [List.forall₂_cons] at hfits
      by_cases hf : f.Fits p
      · have hrest : ¬List.Forall₂ Field.Fits fields pairs := fun hrest => hfits ⟨hf, hrest⟩
        cases ho : f.overflows p.2 with
        | true =>
          obtain ⟨err, hrun, hcode⟩ := h.first.strictPair_refuses hf ho
          obtain ⟨err', hwalk, hcode'⟩ := ih hbound.2 (Nat.succ.inj hlen) hrest (h.rest d.allocated)
          refine ⟨err', ?_, hcode'⟩
          rw [Table.walkStrict, hrun]
          simpa only [hcode, if_true] using hwalk
        | false =>
          obtain ⟨s, x, -, hrun⟩ := h.first.strictPair_filled hf ho
          obtain ⟨err', hwalk, hcode'⟩ := ih hbound.2 (Nat.succ.inj hlen) hrest (h.rest x)
          refine ⟨err', ?_, hcode'⟩
          rw [Table.walkStrict, hrun]
          exact hwalk
      · obtain ⟨err, d', hrun, hcode⟩ := h.first.strictPair_stops hbound.1 hf
        refine ⟨err, ?_, hcode⟩
        rw [Table.walkStrict, hrun]
        simp only [hcode, if_false]

/-! ## Whole messages -/

namespace Table

variable {t : Table} {options : Options} {data : List UInt8}

/-- Decoding ended with an error other than numbers out of range. -/
def Rejects (r : Option Error × Table × List Event) : Prop := ∃ err, r.1 = some err ∧ err.code ≠ .outOfRange

/-- The error of a decode that read everything: the keys of the numbers out of range, if there are any. -/
def rangeError (keys : List Text) : Option Error :=
  if keys = [] then none else some { code := .outOfRange, op := walkOp, keys }

theorem aggregate_strict (entries : List Entry) (keys : List Text) :
    Walk.aggregate ⟨entries, keys, [], none⟩ walkOp = rangeError keys := by
  cases keys <;> rfl

/-- Inside a map that was entered, the decoder faces its pairs. -/
theorem facesPairs_inside (halloc : options.allocLimit ≤ 0) {w : Width} {pairs : List (Item × Item)}
    (hin : PairsWithin {} 0 pairs) (trailing : Nat) : FacesPairs (inside options w pairs trailing) pairs :=
  ⟨rfl, hin, (Nat.zero_add _).symm, halloc⟩

/-- The number of fields of a strict table is the number of pairs that it expects. -/
theorem expected_pairs (hcount : t.fields.length ≤ 131072) (n : Nat) :
    (∀ k, some (t.fields.length : Int) = some k → (n : Int) = k % 0x10000000000000000) ↔ t.fields.length = n := by
  simp only [Option.some.injEq, forall_eq']
  omega

/-- What spells the fields of a strict table is decoded: every field receives its value, and the error lists the numbers out of
range. -/
theorem decode_of_spelled (halloc : options.allocLimit ≤ 0) (hstrict : t.strict = true) (hcount : t.fields.length ≤ 131072)
    {w : Width} {pairs : List (Item × Item)} (h : Spelled t.fields w pairs data) :
    (t.decode options data).1 = rangeError (overflowKeys t.fields pairs) ∧
      (t.decode options data).2.1 = { t with fields := receivedFields t.fields pairs } := by
  have henter := enter_map (h.within hcount) options ((expected_pairs hcount pairs.length).2 h.fits.length_eq) []
  rw [List.append_nil, ← h.bytes] at henter
  obtain ⟨entries, d, hwalk, hentries, hread, hunread, htrailing⟩ :=
    walkStrict_of_fits h.fits (facesPairs_inside (w := w) halloc (pairsWithin_of_fits h.fits 0) 0)
  obtain ⟨d', hleave⟩ := gives_leave hread hunread htrailing
  simp only [decode, hstrict, if_true, henter, walk, List.length_nil, hwalk, show leave.run.run d = (.ok (), d') from hleave]
  refine ⟨aggregate_strict entries _, ?_⟩
  rw [← hentries]
  rfl

/-- Input that spells the fields of a strict table in no way is rejected. -/
theorem rejects_of_not_spelled (halloc : options.allocLimit ≤ 0) (hstrict : t.strict = true)
    (hbound : ∀ f ∈ t.fields, f.isBound = true) (hcount : t.fields.length ≤ 131072)
    (h : ∀ w pairs, ¬Spelled t.fields w pairs data) : Rejects (t.decode options data) := by
  rcases enter_cases options (some (t.fields.length : Int)) data with ⟨w, pairs, rest, rfl, hin, hexpected⟩ | ⟨err, d, henter, hcode⟩
  · have henter := enter_map hin options hexpected rest
    have hlen := (expected_pairs hcount pairs.length).1 hexpected
    have hfaces := facesPairs_inside (w := w) halloc (PairsWithin.shallower (Nat.zero_le 1) hin.2.2.2.2) rest.length
    by_cases hfits : List.Forall₂ Field.Fits t.fields pairs
    · -- every pair fits, so something follows the map
      have hrest : rest.length ≠ 0 := by
        intro hrest
        obtain rfl := List.eq_nil_of_length_eq_zero hrest
        exact h w pairs ⟨hlen ▸ hin.1, hfits, List.append_nil _⟩
      obtain ⟨entries, d, hwalk, -, -, -, htrailing⟩ := walkStrict_of_fits hfits hfaces
      obtain ⟨err, d', hleave, hcode⟩ := leave_stops (d := d) (by rw [htrailing]; exact hrest)
      refine ⟨err, ?_, hcode⟩
      simp only [decode, hstrict, if_true, henter, walk, hwalk, hleave]
    · obtain ⟨err, hwalk, hcode⟩ := walkStrict_of_not_fits hbound hlen hfits hfaces
      refine ⟨err, ?_, hcode⟩
      simp only [decode, hstrict, if_true, henter, walk, hwalk]
  · refine ⟨err, ?_, hcode⟩
    simp only [decode, hstrict, if_true, henter]

/-- Decoding into a strict table ends well, or with numbers out of range, exactly for the bytes that spell its fields. The error lists
the keys of the fields that have no room for their numbers, and the other fields hold the values of their items. -/
theorem strict_decode_accepts_iff (options : Options) (halloc : options.allocLimit ≤ 0) (t : Table) (hstrict : t.strict = true)
    (hbound : ∀ f ∈ t.fields, f.isBound = true) (hcount : t.fields.length ≤ 131072) (data : List UInt8) :
    let r := t.decode options data
    ((r.1 = none ∨ ∃ err, r.1 = some err ∧ err.code = .outOfRange) ↔ ∃ w pairs, Spelled t.fields w pairs data) ∧
    ∀ w pairs, Spelled t.fields w pairs data →
      (let keys := overflowKeys t.fields pairs
       r.1 = if keys = [] then none else some { code := .outOfRange, op := walkOp, keys }) ∧
      r.2.1 = { t with fields := List.zipWith (fun f p => f.received p.2) t.fields pairs } := by
  intro r
  refine ⟨⟨?_, ?_⟩, fun w pairs h => decode_of_spelled halloc hstrict hcount h⟩
  · intro haccepted
    by_contra hnot
    push Not at hnot
    obtain ⟨err, herr, hcode⟩ := rejects_of_not_spelled halloc hstrict hbound hcount hnot
    rcases haccepted with hnone | ⟨err', herr', hcode'⟩
    · cases hnone.symm.trans herr
    · cases herr'.symm.trans herr
      exact hcode hcode'
  · rintro ⟨w, pairs, h⟩
    have hr := (decode_of_spelled halloc hstrict hcount h).1
    rw [rangeError] at hr
    split at hr
    · exact Or.inl hr
    · exact Or.inr ⟨_, hr, rfl⟩

/-- Two numbers too large for their fields: the first field takes the low bits, and the checked one refuses its number. -/
theorem strict_decode_two_large_numbers :
    let t : Table := ⟨[.holding ⟨[97]⟩ (.uint8 0), (Field.holding ⟨[98]⟩ (.uint8 7)).strictly], true⟩
    let data : List UInt8 := [0xa2, 0x61, 0x61, 0x19, 0x01, 0x02, 0x61, 0x62, 0x19, 0x01, 0x2c]
    (∀ f ∈ t.fields, f.isBound = true) ∧ t.fields.length ≤ 131072 ∧
      (t.decode {} data).1 = some { code := .outOfRange, op := walkOp, keys := [⟨[98]⟩] } ∧
      (t.decode {} data).2.1 = ⟨[.holding ⟨[97]⟩ (.uint8 2), (Field.holding ⟨[98]⟩ (.uint8 7)).strictly], true⟩ := by
  intro t data
  have hbound : ∀ f ∈ t.fields, f.isBound = true := by decide
  have hspelled : Spelled t.fields .inline
      [(.string .text .inline [97], .unsigned .two 258), (.string .text .inline [98], .unsigned .two 300)] data :=
    ⟨show 2 < 24 by decide,
      .cons ⟨⟨⟨{}, show 1 < 24 by decide, by decide⟩, rfl, by decide⟩, ⟨{}, show 258 < 65536 by decide⟩, .uint8 0, rfl, rfl⟩
        (.cons ⟨⟨⟨{}, show 1 < 24 by decide, by decide⟩, rfl, by decide⟩, ⟨{}, show 300 < 65536 by decide⟩, .uint8 7, rfl, rfl⟩ .nil),
      by decide⟩
  have h := (strict_decode_accepts_iff {} (by decide) t rfl hbound (by decide) data).2 _ _ hspelled
  exact ⟨hbound, by decide, h.1, h.2⟩

/-- A text whose character is split between two chunks is no key, though its content is UTF-8. -/
theorem split_character_is_rejected :
    let key : Item := .chunks .text [(.inline, [0xc3]), (.inline, [0xa9])]
    let data := (Item.map .inline [(key, .unsigned .inline 1)]).encode
    let t : Table := ⟨[.holding ⟨[0xc3, 0xa9]⟩ (.uint8 0)], true⟩
    key.content = [0xc3, 0xa9] ∧ IsUtf8 key.content ∧ data = [0xa1, 0x7f, 0x61, 0xc3, 0x61, 0xa9, 0xff, 0x01] ∧
      (t.decode {} data).1.map Error.code = some .malformedInput := by
  refine ⟨rfl, by decide, by decide, ?_⟩
  decide +kernel

end Table

end SensorWire
