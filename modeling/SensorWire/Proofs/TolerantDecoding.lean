import Mathlib
import SensorWire.Proofs.StrictDecoding

/-!
# Pairs in the order of a tolerant table

A table that is not strict looks every key up. When the pairs of a map come in the order of the fields and no two fields have the same
key, each pair meets its own field, so the walk does what the walk of a strict table does.

Main statements: `decode_tolerant_of_spelled`, and `decode_tolerant_of_not_fits` for keys that are right with values that are not.
-/

namespace SensorWire

open Cbor Item Decoder

namespace Decoder

variable {α : Type} {m : Decode α} {d d' : Decoder}

/-! ## Errors that are caught -/

theorem run_tryCatch (m : Decode α) (handler : Error → Decode α) (d : Decoder) :
    (tryCatch m handler).run.run d = match m.run.run d with
      | (.ok a, d') => (.ok a, d')
      | (.error err, d') => (handler err).run.run d' := by
  change (ExceptT.tryCatch m handler).run.run d = _
  simp only [ExceptT.tryCatch, ExceptT.run, ExceptT.mk, StateT.run_bind]
  generalize StateT.run m d = r
  rcases r with ⟨_ | _, _⟩ <;> rfl

theorem Gives.tryCatch {a : α} (h : Gives m d a d') (handler : Error → Decode α) : Gives (tryCatch m handler) d a d' := by
  rw [Gives, run_tryCatch, h]

/-- A refusal is made into a value. -/
theorem Refuses.tryCatch (h : Refuses m d d') (a : α) :
    Gives (tryCatch m fun err => if err.code = .outOfRange then return a else throw err) d a d' := by
  obtain ⟨err, hrun, hcode⟩ := h
  rw [Gives, run_tryCatch, hrun]
  simp only [hcode, if_true]
  rfl

/-- Other errors are passed on. -/
theorem Fails.tryCatch {code : Code} (h : Fails m d code) (hcode : code ≠ .outOfRange) (a : α) :
    Fails (tryCatch m fun err => if err.code = .outOfRange then return a else throw err) d code := by
  obtain ⟨err, d', hrun, rfl, hkeys⟩ := h
  refine ⟨err, d', ?_, rfl, hkeys⟩
  rw [run_tryCatch, hrun]
  simp only [hcode, if_false]
  rfl

end Decoder

/-! ## One pair -/

/-- A key of open length, or one that is short enough to be looked up. -/
def Cbor.Item.ShortKey (i : Item) : Prop := i.head.width = none ∨ i.head.arg ≤ maxKeyLength

section Key

variable {d : Decoder} {i : Item} {rest : List UInt8} {t : Text}

/-- A key that is not too long to be looked up is taken as any other. -/
theorem Decoder.Faces.takeTolerantKey_eq_takeKey (h : Faces d i rest) (hmore : d.read < d.count) (hshort : i.major = .text → i.ShortKey)
    (op : Text) :
    (Decoder.takeTolerantKey op).run.run d = (Decoder.takeKey op "" >>= fun k => pure (PairKey.key k)).run.run d := by
  rw [Decoder.takeTolerantKey, (gives_get d).run_bind]
  simp only [Decoder.more, hmore, decide_true, Bool.not_true, Bool.false_eq_true, if_false]
  by_cases hmajor : i.major = .text
  · have hexpect := h.expect op "" "text string key"
    rw [hmajor] at hexpect
    rw [hexpect.run_bind, (h.peekHead op "").run_bind]
    simp only [show i.head.width = none ∨ i.head.arg ≤ maxKeyLength from hshort hmajor, if_true]
  · -- both fail at the type of the key
    obtain ⟨err, d', hrun, -⟩ := h.expect_fails hmajor op "" "text string key"
    have htake : (Decoder.takeKey op "").run.run d = (.error err, d') := by
      rw [Decoder.takeKey, (gives_get d).run_bind]
      simp only [Decoder.more, hmore, decide_true, Bool.not_true, Bool.false_eq_true, if_false]
      rw [run_bind, hrun]
    rw [run_bind, hrun, run_bind, htake]

theorem Decoder.Faces.takeTolerantKey (h : Faces d i rest) (hmore : d.read < d.count) (hshort : i.ShortKey) (ht : i.Spells t)
    (op : Text) : Gives (Decoder.takeTolerantKey op) d (.key t) { d with unread := rest, read := d.read + 1 } :=
  (h.takeTolerantKey_eq_takeKey hmore (fun _ => hshort) op).trans ((h.takeKey hmore ht op "").bind (gives_pure _ _))

theorem Decoder.Faces.takeTolerantKey_fails (h : Faces d i rest) (hmore : d.read < d.count)
    (hshort : i.major = .text → i.ShortKey) (ht : ∀ t, ¬i.Spells t) (op : Text) :
    Fails (Decoder.takeTolerantKey op) d i.textFault := by
  obtain ⟨err, d', hrun, herr⟩ := (h.takeKey_fails hmore ht op "").bind fun k => pure (PairKey.key k)
  exact ⟨err, d', (h.takeTolerantKey_eq_takeKey hmore hshort op).trans hrun, herr⟩

/-- Taking the next item under no table's key. -/
theorem Decoder.Faces.gives_skipUnknown (h : Faces d i rest) (op key : Text) :
    Gives (skipUnknown op key) d ()
      { d with
        unread := rest, trace := d.trace ++ [d.options.labels.mark { operation := .decode, category := .unknownKey, key }] } := by
  have hemit : Gives (emit { operation := .decode, category := .unknownKey, key }) d ()
      { d with trace := d.trace ++ [d.options.labels.mark { operation := .decode, category := .unknownKey, key }] } := rfl
  have hfaces : Faces { d with trace := d.trace ++ [d.options.labels.mark { operation := .decode, category := .unknownKey, key }] } i
      rest := ⟨h.unread, h.within⟩
  exact hemit.bind (hfaces.skip op key)

/-- A key that is too long to be looked up is gone past, and its value skipped. -/
theorem Decoder.Faces.takeTolerantKey_long (h : Faces d i rest) (hmore : d.read < d.count) (hmajor : i.major = .text)
    (hlong : ¬i.ShortKey) (op : Text) :
    (Decoder.takeTolerantKey op).run.run d =
      (skipUnknown op (Text.ofString s!"<{i.head.arg}-byte key>") >>= fun _ =>
        pure (PairKey.skipped (Text.ofString s!"<{i.head.arg}-byte key>"))).run.run { d with unread := rest, read := d.read + 1 } := by
  have hexpect := h.expect op "" "text string key"
  rw [hmajor] at hexpect
  rw [Decoder.takeTolerantKey, (gives_get d).run_bind]
  simp only [Decoder.more, hmore, decide_true, Bool.not_true, Bool.false_eq_true, if_false]
  rw [hexpect.run_bind, (h.peekHead op "").run_bind]
  simp only [show ¬(i.head.width = none ∨ i.head.arg ≤ maxKeyLength) from hlong, if_false]
  rw [(h.skip op "").run_bind, (gives_modify _ _).run_bind]

end Key

section Pair

variable {d : Decoder} {p : Item × Item} {rest : List UInt8} {t : Text} {entries : List Table.Entry} {e : Table.Entry} {s : Slot}

/-- A pair whose key is found gives the field's slot its value. -/
theorem FacesPair.tolerantPair_filled (h : FacesPair d p rest) (hshort : p.1.ShortKey) (ht : p.1.Spells t)
    (hfind : (entries.find? fun e => e.field.key == t) = some e) (hslot : e.field.slot? = some s) (hs : s.Suits p.2)
    (ho : e.field.overflows p.2 = false) :
    ∃ x, Gives (Table.tolerantPair entries) d (.stored t (s.filled p.2))
      { d with unread := rest, read := d.read + 1, allocated := x } := by
  obtain ⟨x, htake⟩ := h.faces_value.takeValue_filled h.noLimit hslot hs ho Table.walkOp
  refine ⟨x, (h.key.takeTolerantKey h.more hshort ht Table.walkOp).bind ?_⟩
  simp only [hfind]
  refine Gives.tryCatch (htake.bind ?_) _
  exact gives_pure _ _

/-- A number that the field has no room for is passed over. -/
theorem FacesPair.tolerantPair_refuses (h : FacesPair d p rest) (hshort : p.1.ShortKey) (ht : p.1.Spells t)
    (hfind : (entries.find? fun e => e.field.key == t) = some e) (hslot : e.field.slot? = some s)
    (ho : e.field.overflows p.2 = true) :
    Gives (Table.tolerantPair entries) d (.outOfRange t) { d with unread := rest, read := d.read + 1 } := by
  refine (h.key.takeTolerantKey h.more hshort ht Table.walkOp).bind ?_
  simp only [hfind]
  exact ((h.faces_value.takeValue_refuses hslot ho Table.walkOp).bind _).tryCatch _

/-- A pair with a key that is no text ends the decoding. -/
theorem FacesPair.tolerantPair_fails_key (h : FacesPair d p rest) (hshort : p.1.major = .text → p.1.ShortKey)
    (ht : ∀ t, ¬p.1.Spells t) : Fails (Table.tolerantPair entries) d p.1.textFault :=
  (h.key.takeTolerantKey_fails h.more hshort ht Table.walkOp).bind _

/-- A pair with a value that does not suit the field of its key ends the decoding. -/
theorem FacesPair.tolerantPair_fails_value (h : FacesPair d p rest) (hshort : p.1.ShortKey) (ht : p.1.Spells t)
    (hfind : (entries.find? fun e => e.field.key == t) = some e) (hslot : e.field.slot? = some s) (hs : ¬s.Suits p.2) :
    Fails (Table.tolerantPair entries) d (s.refusal p.2) := by
  refine (h.key.takeTolerantKey h.more hshort ht Table.walkOp).fails ?_
  simp only [hfind]
  exact ((h.faces_value.takeValue_fails h.noLimit hslot hs Table.walkOp).bind _).tryCatch (s.refusal_ne_outOfRange p.2) _

end Pair

/-! ## The walk -/

namespace Table

variable {d : Decoder} {f : Field} {fields : List Field} {pairs : List (Item × Item)} {seen rest : List Entry}

/-- The first field whose key no earlier one has is the one that its key finds. -/
theorem find?_own (rest : List Entry) (h : ∀ e ∈ seen, e.field.key ≠ f.key) :
    ((seen ++ ⟨f, false⟩ :: rest).find? fun e => e.field.key == f.key) = some ⟨f, false⟩ := by
  rw [List.find?_append, List.find?_eq_none.2 fun e he => by simpa using h e he]
  simp

theorem storeEntry_own (h : ∀ e ∈ seen, e.field.key ≠ f.key) (s : Slot) :
    storeEntry f.key s (seen ++ ⟨f, false⟩ :: rest) = seen ++ Entry.store ⟨f, false⟩ s :: rest := by
  induction seen with
  | nil => simp [storeEntry]
  | cons e seen ih =>
    rw [List.forall_mem_cons] at h
    rw [List.cons_append, storeEntry, if_neg (by simpa using h.1), ih h.2, List.cons_append]

/-- The keys of the fields that were walked past and of those that remain, all different. -/
def KeysDiffer (seen : List Entry) (fields : List Field) : Prop :=
  (seen.map (fun e => e.field.key) ++ fields.map Field.key).Nodup

theorem KeysDiffer.own (h : KeysDiffer seen (f :: fields)) : ∀ e ∈ seen, e.field.key ≠ f.key := by
  intro e he
  exact (List.nodup_append.1 h).2.2 _ (List.mem_map_of_mem he) _ (List.mem_map_of_mem (List.mem_cons_self ..))

theorem KeysDiffer.next (h : KeysDiffer seen (f :: fields)) {e : Entry} (he : e.field.key = f.key) :
    KeysDiffer (seen ++ [e]) fields := by
  rw [KeysDiffer, List.map_append, List.map_cons, List.map_nil, he, List.append_assoc]
  exact h

/-- Pairs that fit the fields in their order are all read, and every field receives its value. -/
theorem walkTolerant_of_fits (seen : List Entry) (hfits : List.Forall₂ Field.Fits fields pairs) (hshort : ∀ p ∈ pairs, p.1.ShortKey)
    (hkeys : KeysDiffer seen fields) (h : FacesPairs d pairs) (refused : List Text) :
    ∃ entries d', walkTolerant pairs.length ⟨seen ++ fields.map (⟨·, false⟩), refused, [], none⟩ d =
        (⟨seen ++ entries, refused ++ overflowKeys fields pairs, [], none⟩, d') ∧
      entries.map Entry.field = receivedFields fields pairs ∧ d'.read = d'.count ∧ d'.unread = [] ∧
      d'.trailing = d.trailing := by
  -- the walk looks a key up in all entries: those before the field keep other keys, so it finds the field's own
  induction hfits generalizing d seen refused with
  | nil => exact ⟨[], d, by simp [walkTolerant, overflowKeys], rfl, h.remaining.symm, h.unread, rfl⟩
  | @cons f p fields pairs hf hfits ih =>
    rw [List.forall_mem_cons] at hshort
    obtain ⟨s, hslot, hs⟩ := hf.value.2
    have hfind := find?_own (fields.map (⟨·, false⟩)) hkeys.own
    cases ho : f.overflows p.2 with
    | true =>
      have hrun := h.first.tolerantPair_refuses hshort.1 hf.key.2 hfind hslot ho
      obtain ⟨entries, d', hwalk, hentries, hend⟩ :=
        ih _ hshort.2 (hkeys.next (e := ⟨f, false⟩) rfl) (h.rest d.allocated) (refused ++ [f.key])
      refine ⟨⟨f, false⟩ :: entries, d', ?_, ?_, hend⟩
      · rw [List.length_cons, walkTolerant, List.map_cons, hrun]
        simp only [List.append_assoc, List.singleton_append] at hwalk
        simp only [hwalk, overflowKeys_cons, ho, if_true]
      · rw [List.map_cons, hentries, receivedFields_cons, Field.received_of_overflows ho]
    | false =>
      obtain ⟨x, hrun⟩ := h.first.tolerantPair_filled hshort.1 hf.key.2 hfind hslot hs ho
      obtain ⟨entries, d', hwalk, hentries, hend⟩ :=
        ih _ hshort.2 (hkeys.next (e := Entry.store ⟨f, false⟩ (s.filled p.2)) rfl) (h.rest x) refused
      refine ⟨Entry.store ⟨f, false⟩ (s.filled p.2) :: entries, d', ?_, ?_, hend⟩
      · rw [List.length_cons, walkTolerant, List.map_cons, hrun]
        simp only [List.append_assoc, List.singleton_append] at hwalk
        simp only [storeEntry_own hkeys.own, hwalk, overflowKeys_cons, ho, Bool.false_eq_true, if_false]
      · rw [List.map_cons, hentries, receivedFields_cons, Field.received_of_not_overflows hslot ho]
        rfl

/-- Pairs with no other keys than those of the fields in their order, which do not all fit, end the decoding. -/
theorem walkTolerant_of_not_fits (seen : List Entry) (hbound : ∀ f ∈ fields, f.isBound = true)
    (hown : List.Forall₂ (fun f p => ∀ t, p.1.Spells t → t = f.key) fields pairs) (hshort : ∀ p ∈ pairs, p.1.ShortKey)
    (hfits : ¬List.Forall₂ Field.Fits fields pairs) (hkeys : KeysDiffer seen fields) (h : FacesPairs d pairs)
    (refused : List Text) :
    ∃ err, (walkTolerant pairs.length ⟨seen ++ fields.map (⟨·, false⟩), refused, [], none⟩ d).1.error = some err := by
  induction hown generalizing d seen refused with
  | nil => exact absurd .nil hfits
  | @cons f p fields pairs hf hown ih =>
    rw [List.forall_mem_cons] at hshort hbound
    rw [List.forall₂_cons] at hfits
    obtain ⟨s, hslot⟩ := Option.isSome_iff_exists.1 hbound.1
    have hfind := find?_own (fields.map (⟨·, false⟩)) hkeys.own
    rw [List.length_cons, walkTolerant, List.map_cons]
    by_cases hp : f.Fits p
    · have hrest : ¬List.Forall₂ Field.Fits fields pairs := fun hrest => hfits ⟨hp, hrest⟩
      obtain ⟨s, hslot, hs⟩ := hp.value.2
      cases ho : f.overflows p.2 with
      | true =>
        have hrun := h.first.tolerantPair_refuses hshort.1 hp.key.2 hfind hslot ho
        obtain ⟨err, herr⟩ :=
          ih _ hbound.2 hshort.2 hrest (hkeys.next (e := ⟨f, false⟩) rfl) (h.rest d.allocated) (refused ++ [f.key])
        rw [hrun]
        simp only [List.append_assoc, List.singleton_append] at herr
        exact ⟨err, herr⟩
      | false =>
        obtain ⟨x, hrun⟩ := h.first.tolerantPair_filled hshort.1 hp.key.2 hfind hslot hs ho
        obtain ⟨err, herr⟩ :=
          ih _ hbound.2 hshort.2 hrest (hkeys.next (e := Entry.store ⟨f, false⟩ (s.filled p.2)) rfl) (h.rest x) refused
        rw [hrun]
        simp only [List.append_assoc, List.singleton_append] at herr
        simp only [storeEntry_own hkeys.own]
        exact ⟨err, herr⟩
    · have hfails : ∃ code, Fails (tolerantPair (seen ++ (⟨f, false⟩ : Entry) :: fields.map fun f => (⟨f, false⟩ : Entry))) d code := by
        by_cases htext : ∃ t, p.1.Spells t
        · obtain ⟨t, ht⟩ := htext
          obtain rfl := hf t ht
          refine ⟨_, h.first.tolerantPair_fails_value hshort.1 ht hfind hslot fun hs => hp ?_⟩
          exact ⟨⟨⟨{}, h.within.1.1⟩, ht⟩, ⟨{}, h.within.1.2⟩, s, hslot, hs⟩
        · exact ⟨_, h.first.tolerantPair_fails_key (fun _ => hshort.1) fun t ht => htext ⟨t, ht⟩⟩
      obtain ⟨code, err, d', hrun, -⟩ := hfails
      rw [hrun]
      exact ⟨err, rfl⟩

/-! ## Whole messages -/

variable {t : Table} {options : Options} {data : List UInt8} {w : Width}

/-- What spells the fields of a table is decoded as by a strict one. -/
theorem decode_tolerant_of_spelled (halloc : options.allocLimit ≤ 0) (hstrict : t.strict = false)
    (hcount : t.fields.length ≤ 131072) (hkeys : (t.fields.map Field.key).Nodup) (hshort : ∀ p ∈ pairs, p.1.ShortKey)
    (h : Spelled t.fields w pairs data) :
    (t.decode options data).1 = rangeError (overflowKeys t.fields pairs) ∧
      (t.decode options data).2.1 = { t with fields := receivedFields t.fields pairs } := by
  have henter := enter_map (h.within hcount) options (fun n (hn : none = some n) => nomatch hn) []
  rw [List.append_nil, ← h.bytes] at henter
  obtain ⟨entries, d, hwalk, hentries, hread, hunread, htrailing⟩ := walkTolerant_of_fits [] h.fits hshort hkeys
    (facesPairs_inside (w := w) halloc (pairsWithin_of_fits h.fits 0) 0) []
  obtain ⟨d', hleave⟩ := gives_leave hread hunread htrailing
  have hwalk' : t.walk (inside options w pairs 0) = (⟨entries, overflowKeys t.fields pairs, [], none⟩, d) := by
    rw [walk, hstrict]
    exact hwalk
  simp only [decode, hstrict, Bool.false_eq_true, if_false, henter, List.length_nil, hwalk',
    show leave.run.run d = (.ok (), d') from hleave]
  refine ⟨aggregate_strict entries _, ?_⟩
  rw [← hentries]
  rfl

/-- A map with no other keys than those of the fields in their order, whose pairs do not all fit, is not decoded. -/
theorem decode_tolerant_of_not_fits (halloc : options.allocLimit ≤ 0) (hstrict : t.strict = false)
    (hbound : ∀ f ∈ t.fields, f.isBound = true) (hkeys : (t.fields.map Field.key).Nodup)
    (hin : (Item.map w pairs).Within {} 0 false)
    (hown : List.Forall₂ (fun f p => ∀ text, p.1.Spells text → text = f.key) t.fields pairs) (hshort : ∀ p ∈ pairs, p.1.ShortKey)
    (hfits : ¬List.Forall₂ Field.Fits t.fields pairs) : ∃ err, (t.decode options (Item.map w pairs).encode).1 = some err := by
  have henter := enter_map hin options (fun n (hn : none = some n) => nomatch hn) []
  rw [List.append_nil] at henter
  obtain ⟨err, herr⟩ := walkTolerant_of_not_fits [] hbound hown hshort hfits hkeys
    (facesPairs_inside (w := w) halloc (PairsWithin.shallower (Nat.zero_le 1) hin.2.2.2.2) 0) []
  have hwalk : (t.walk (inside options w pairs 0)).1.error = some err := by
    rw [walk, hstrict]
    exact herr
  refine ⟨err, ?_⟩
  simp only [decode, hstrict, Bool.false_eq_true, if_false, henter, List.length_nil, hwalk]

end Table

end SensorWire
