import Mathlib
import SensorWire.Proofs.RoundTrip

/-!
# What a tolerant table makes of a map

A table that is not strict takes the pairs of a map from left to right, whatever their keys. `Account` is the account of it that knows no
decoder: the fields so far, and which keys were assigned, out of range or skipped. `Account.add` takes one pair into account, or says with
which code the pair ends the decoding. A walk keeps to the account (`Walk.Keeps`) pair by pair, and so for all pairs.

Main statement: `tolerant_decode_eq_account`.
-/

namespace SensorWire

open Cbor Item Decoder

/-! ## The account of a map -/

/-- What the key of a pair is: a text of definite length that is too long to be looked up is skipped under a name that tells its length,
and any other text must be UTF-8, chunk by chunk. -/
def Cbor.Item.pairKey : Item → Except Code PairKey
  | string .text _ content =>
    if maxKeyLength < content.length then .ok (.skipped (Text.ofString s!"<{content.length}-byte key>"))
    else if Utf8.isValid content then .ok (.key ⟨content⟩)
    else .error .malformedInput
  | chunks .text pieces =>
    if pieces.all fun p => Utf8.isValid p.2 then .ok (.key ⟨pieces.flatMap Prod.snd⟩) else .error .malformedInput
  | _ => .error .unexpectedWireType

namespace Cbor.Item

variable {i : Item}

theorem pairKey_eq_key {t : Text} (h : i.pairKey = .ok (.key t)) : i.ShortKey ∧ i.Spells t := by
  unfold pairKey at h
  split at h
  · split_ifs at h with hlong hvalid
    · cases h
    · cases h
      exact ⟨Or.inr (Nat.not_lt.1 hlong), rfl, hvalid⟩
  · split_ifs at h with hvalid
    cases h
    exact ⟨Or.inl rfl, rfl, List.all_eq_true.1 hvalid⟩
  · cases h

theorem pairKey_eq_skipped {name : Text} (h : i.pairKey = .ok (.skipped name)) :
    i.major = .text ∧ ¬i.ShortKey ∧ name = Text.ofString s!"<{i.head.arg}-byte key>" := by
  unfold pairKey at h
  split at h
  · split_ifs at h with hlong
    · cases h
      exact ⟨rfl, fun hshort => hshort.elim nofun (Nat.not_le.2 hlong), rfl⟩
    · cases h
  · split_ifs at h
    cases h
  · cases h

theorem pairKey_eq_error {code : Code} (h : i.pairKey = .error code) :
    (i.major = .text → i.ShortKey) ∧ (∀ t, ¬i.Spells t) ∧ code = i.textFault := by
  unfold pairKey at h
  split at h
  · split_ifs at h with hlong hvalid
    cases h
    exact ⟨fun _ => Or.inr (Nat.not_lt.1 hlong), fun t ht => hvalid ht.2, rfl⟩
  · split_ifs at h with hvalid
    cases h
    exact ⟨fun _ => Or.inl rfl, fun t ht => hvalid (List.all_eq_true.2 ht.2), rfl⟩
  · rename_i hstring hchunks
    cases h
    have hmajor : i.major ≠ .text := fun hm => by
      rcases eq_string_or_chunks (show i.major = StringKind.text.major from hm) with ⟨w, content, rfl⟩ | ⟨pieces, rfl⟩
      · exact hstring w content rfl
      · exact hchunks pieces rfl
    exact ⟨fun hm => absurd hm hmajor, fun t ht => hmajor (spells_iff.1 ht).1, (if_neg hmajor).symm⟩

end Cbor.Item

instance Slot.decidableSuits (s : Slot) (i : Item) : Decidable (s.Suits i) :=
  match s with
  | uint8 _ | uint16 _ | uint32 _ | uint64 _ | bool _ => decEq i.major .unsigned
  | simple _ => decidable_of_iff ((i matches .simple _) = true) (by cases i <;> simp [Suits])
  | float32 _ => decidable_of_iff ((i matches .single _) = true) (by cases i <;> simp [Suits])
  | float64 _ => decidable_of_iff ((i matches .double _) = true) (by cases i <;> simp [Suits])
  | string _ => decidable_of_iff (i.major = .text ∧ i.text.isOk = true) (by
      simp only [Suits, spells_iff, exists_and_left]
      cases i.text <;> simp [Except.isOk, Except.toBool])
  | bytes _ => decEq i.major .bytes

/-- The account of the pairs so far. -/
structure Account where
  fields : List Field
  /-- The keys of the pairs that were stored. -/
  assigned : List Text := []
  /-- The keys of the numbers that a checked field has no room for. -/
  outOfRange : List Text := []
  /-- The names of the pairs that no field wants. -/
  skipped : List Text := []
  deriving DecidableEq, Repr

namespace Account

/-- The account with a value in the field of a key. -/
def assign (g : Account) (key : Text) (s : Slot) : Account :=
  { g with fields := g.fields.map fun f => if f.key = key then f.store s else f, assigned := g.assigned ++ [key] }

/-- The account with the value of a pair that is for a field. -/
def receive (g : Account) (f : Field) (i : Item) : Except Code Account :=
  match f.slot? with
  | none => .error .unsupportedFieldType
  | some s =>
    if f.overflows i then .ok { g with outOfRange := g.outOfRange ++ [f.key] }
    else if s.Suits i then .ok (g.assign f.key (s.filled i))
    else .error (s.refusal i)

/-- The account with one more pair, or the code of the error that the pair is. -/
def add (g : Account) (p : Item × Item) : Except Code Account :=
  match p.1.pairKey with
  | .error code => .error code
  | .ok (.skipped name) => .ok { g with skipped := g.skipped ++ [name] }
  | .ok (.key key) => match g.fields.find? fun f => f.key == key with
    | none => .ok { g with skipped := g.skipped ++ [key] }
    | some f => g.receive f p.2

/-- The error of a map that was read to its end: the numbers out of range if there are any, and else what was skipped. -/
def error? (g : Account) : Option Error :=
  if g.outOfRange ≠ [] then some { code := .outOfRange, op := Table.walkOp, keys := g.outOfRange }
  else if g.skipped ≠ [] then some { code := .unrecognizedKey, op := Table.walkOp, keys := g.skipped }
  else none

/-- The fields without the text and bytes that were stored. -/
def released (g : Account) : List Field := g.fields.map fun f => if f.key ∈ g.assigned then f.release else f

variable {g g' : Account} {p : Item × Item} {pairs : List (Item × Item)} {f : Field} {n : Nat}

@[simp] theorem map_key_assign (g : Account) (key : Text) (s : Slot) : (g.assign key s).fields.map Field.key = g.fields.map Field.key := by
  rw [assign, List.map_map]
  refine List.map_congr_left fun f _ => ?_
  dsimp only [Function.comp_apply]
  split <;> rfl

end Account

/-! ## One pair -/

section Pair

variable {d : Decoder} {p : Item × Item} {rest : List UInt8} {entries : List Table.Entry}

theorem FacesPair.gives_skipUnknown (h : FacesPair d p rest) (op key : Text) :
    ∃ trace, Gives (skipUnknown op key) (afterKey d p rest) () { d with unread := rest, read := d.read + 1, trace } :=
  ⟨_, h.faces_value.gives_skipUnknown op key⟩

/-- A key that is too long to be looked up is skipped with its value. -/
theorem FacesPair.takeTolerantKey_long (h : FacesPair d p rest) (hmajor : p.1.major = .text) (hlong : ¬p.1.ShortKey) (op : Text) :
    ∃ trace, Gives (takeTolerantKey op) d (.skipped (Text.ofString s!"<{p.1.head.arg}-byte key>"))
      { d with unread := rest, read := d.read + 1, trace } := by
  obtain ⟨trace, hskip⟩ := h.gives_skipUnknown op (Text.ofString s!"<{p.1.head.arg}-byte key>")
  exact ⟨trace, (h.key.takeTolerantKey_long h.more hmajor hlong op).trans (hskip.bind (gives_pure _ _))⟩

end Pair

/-! ## The walk -/

namespace Table

/-- A walk with what became of a pair. -/
def Walk.take (w : Walk) : Pair → Walk
  | .stored key s => { w with entries := storeEntry key s w.entries }
  | .unknown key => { w with unknown := w.unknown ++ [key] }
  | .outOfRange key => { w with outOfRange := w.outOfRange ++ [key] }

/-- A walk that has met no error, and has come to what an account says. -/
structure Walk.Keeps (w : Walk) (g : Account) : Prop where
  fields : w.entries.map Entry.field = g.fields
  released : ∀ e ∈ w.entries, e.released = if e.field.key ∈ g.assigned then e.field.release else e.field
  outOfRange : w.outOfRange = g.outOfRange
  unknown : w.unknown = g.skipped
  error : w.error = none
  bound : ∀ f ∈ g.fields, f.isBound = true
  keysDiffer : (g.fields.map Field.key).Nodup

variable {w : Walk} {g g' : Account} {d d' : Decoder} {p : Item × Item} {pairs : List (Item × Item)} {rest : List UInt8} {key : Text}

theorem Walk.Keeps.find? (h : w.Keeps g) (key : Text) :
    (g.fields.find? fun f => f.key == key) = (w.entries.find? fun e => e.field.key == key).map Entry.field := by
  rw [← h.fields, List.find?_map]
  rfl

/-- With keys that differ, storing in the first entry of a key is storing in every one. -/
theorem storeEntry_eq_map {entries : List Entry} (h : (entries.map fun e => e.field.key).Nodup) (key : Text) (s : Slot) :
    storeEntry key s entries = entries.map fun e => if e.field.key = key then e.store s else e := by
  induction entries with
  | nil => rfl
  | cons e entries ih =>
    rw [List.map_cons, List.nodup_cons] at h
    rw [storeEntry, List.map_cons]
    by_cases hkey : e.field.key = key
    · have hrest : ∀ e' ∈ entries, (if e'.field.key = key then e'.store s else e') = e' := by
        intro e' he'
        rw [if_neg]
        rintro rfl
        exact h.1 (hkey ▸ List.mem_map_of_mem he')
      rw [if_pos hkey, if_pos (by simpa using hkey), List.map_congr_left hrest, List.map_id']
    · rw [if_neg hkey, if_neg (by simpa using hkey), ih h.2]

theorem Entry.released_store (e : Entry) (s : Slot) : (e.store s).released = (e.store s).field.release := by
  cases s <;> simp [Entry.released, Entry.store, Field.release, Field.store, Slot.isHeap, Slot.release]

/-- Storing a value keeps to the account that assigns it. -/
theorem Walk.Keeps.stored (h : w.Keeps g) (key : Text) (s : Slot) : (w.take (.stored key s)).Keeps (g.assign key s) := by
  have hkeys : (w.entries.map fun e => e.field.key).Nodup := by
    have := h.keysDiffer
    rw [← h.fields, List.map_map] at this
    exact this
  have hentries : (w.take (.stored key s)).entries = w.entries.map fun e => if e.field.key = key then e.store s else e :=
    storeEntry_eq_map hkeys key s
  refine ⟨?_, ?_, h.outOfRange, h.unknown, h.error, ?_, ?_⟩
  · rw [hentries, List.map_map, Account.assign, ← h.fields, List.map_map]
    refine List.map_congr_left fun e _ => ?_
    dsimp only [Function.comp_apply]
    split <;> rfl
  · rw [hentries]
    refine List.forall_mem_map.2 fun e he => ?_
    have hassigned : ∀ k, k ∈ (g.assign key s).assigned ↔ k ∈ g.assigned ∨ k = key := by simp [Account.assign]
    by_cases hkey : e.field.key = key
    · have hmem : (e.store s).field.key ∈ (g.assign key s).assigned := (hassigned _).2 (Or.inr hkey)
      rw [if_pos hkey, if_pos hmem, e.released_store]
    · simp only [hassigned, hkey, if_false, or_false]
      exact h.released e he
  · refine List.forall_mem_map.2 fun f hf => ?_
    split
    · rfl
    · exact h.bound f hf
  · rw [Account.map_key_assign]
    exact h.keysDiffer

theorem Walk.Keeps.unknownKey (h : w.Keeps g) (name : Text) :
    (w.take (.unknown name)).Keeps { g with skipped := g.skipped ++ [name] } :=
  ⟨h.fields, h.released, h.outOfRange, congrArg (· ++ [name]) h.unknown, h.error, h.bound, h.keysDiffer⟩

theorem Walk.Keeps.refused (h : w.Keeps g) (key : Text) :
    (w.take (.outOfRange key)).Keeps { g with outOfRange := g.outOfRange ++ [key] } :=
  ⟨h.fields, h.released, congrArg (· ++ [key]) h.outOfRange, h.unknown, h.error, h.bound, h.keysDiffer⟩

/-- A pair ends in what the account says of it: with the error of a code, or in a walk that keeps to the next account. -/
def Walk.Follows (w : Walk) (d : Decoder) (rest : List UInt8) : Except Code Account → Prop
  | .ok g => ∃ pair x trace, Gives (tolerantPair w.entries) d pair
      { d with unread := rest, read := d.read + 1, allocated := x, trace } ∧ (w.take pair).Keeps g
  | .error code => Fails (tolerantPair w.entries) d code

theorem Walk.Keeps.aggregate (h : w.Keeps g) : w.aggregate walkOp = g.error? := by
  rw [Walk.aggregate, Account.error?, h.outOfRange, h.unknown]
  simp

variable {t : Table} {options : Options} {data : List UInt8} {width : Width}

end Table

end SensorWire
