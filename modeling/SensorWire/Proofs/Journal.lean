import Mathlib
import SensorWire.Proofs.Account
import SensorWire.Proofs.Budget

/-!
# The journal of a decode

Whatever its kind, a table makes one of three things of a pair (`Verdict`): it stores the value in a field, it refuses a number out of
range, or it skips the pair. `Table.verdict?` tells which from the pair alone, or that the pair ends the decoding. The journal of a decode
(`Table.journal`) is the list of its verdicts, up to the first pair that ends the decoding or that the budget does not afford. It is found
from the pairs ahead of the decoder, without decoding.

A decoder that goes past pairs with such verdicts (`Passes`) is charged their costs and traces their events.
-/

namespace SensorWire

open Cbor Item Decoder

/-- What a table makes of a pair. A field is told by its place in the table. -/
inductive Verdict where
  | stored (place : Nat) (s : Slot)
  | refused (key : Text)
  | skipped (name : Text)
  deriving DecidableEq, Repr

namespace Verdict

/-- The bytes that a pair takes from the budget. -/
def cost : Verdict → Nat
  | stored _ s => s.cost
  | _ => 0

/-- The events of a pair: one for a pair that is skipped. -/
def events (labels : Labels) : Verdict → List Event
  | skipped name => [labels.mark { operation := .decode, category := .unknownKey, key := name }]
  | _ => []

/-- The slot that a pair puts in a place. -/
def slotAt? (k : Nat) : Verdict → Option Slot
  | stored place s => if place = k then some s else none
  | _ => none

end Verdict

/-- The slots that pairs put in a place, the first one first. -/
def storedAt (k : Nat) (verdicts : List Verdict) : List Slot := verdicts.filterMap (Verdict.slotAt? k)

instance Cbor.Item.decidableSpells (i : Item) (t : Text) : Decidable (i.Spells t) :=
  decidable_of_iff (i.major = .text ∧ i.text.toOption = some t) (by
    rw [spells_iff]
    cases i.text <;> simp [Except.toOption])

/-- What a field makes of the value of a pair: nothing, if the field has no slot or the value does not suit it. -/
def Field.verdict? (f : Field) (place : Nat) (i : Item) : Option Verdict :=
  match f.slot? with
  | none => none
  | some s =>
    if f.overflows i then some (.refused f.key)
    else if s.Suits i then some (.stored place (s.filled i))
    else none

namespace Table

/-- The place of the first field with a key; past the last field if there is none. -/
def place (t : Table) (key : Text) : Nat := t.fields.findIdx fun f => f.key == key

/-- What a table makes of the pair that comes after so many others, if it does not end the decoding. -/
def verdict? (t : Table) (n : Nat) (p : Item × Item) : Option Verdict :=
  if t.strict then
    match t.fields[n]? with
    | none => none
    | some f => if p.1.Spells f.key then f.verdict? n p.2 else none
  else match p.1.pairKey with
    | .error _ => none
    | .ok (.skipped name) => some (.skipped name)
    | .ok (.key key) => match t.fields[t.place key]? with
      | none => some (.skipped key)
      | some f => f.verdict? (t.place key) p.2

/-- What a table makes of pairs from left to right, up to the first one that ends the decoding: `allocated` bytes of the budget are taken
before them. -/
def journalFrom (t : Table) (limit : Int64) (n : Nat) (allocated : Int64) : List (Item × Item) → List Verdict
  | [] => []
  | p :: pairs => match t.verdict? n p with
    | none => []
    | some v =>
      if Affords limit allocated v.cost then v :: t.journalFrom limit (n + 1) (allocated + Int64.ofNat v.cost) pairs
      else []

end Table

/-- The pairs in front of bytes, no more than a number of them. -/
def pairsOf : Nat → List UInt8 → List (Item × Item)
  | 0, _ => []
  | n + 1, bytes => match Item.read {} bytes with
    | .error _ => []
    | .ok (key, rest) => match Item.read {} rest with
      | .error _ => []
      | .ok (value, rest) => (key, value) :: pairsOf n rest

/-- The pairs that a decoder has in front of it. -/
def Decoder.ahead (d : Decoder) : List (Item × Item) := pairsOf (d.count - d.read) d.unread

/-- The journal of reading the fields of a table from a decoder. -/
def Table.journal (t : Table) (d : Decoder) : List Verdict := t.journalFrom d.options.allocLimit 0 d.allocated d.ahead

/-! ## The pairs ahead -/

/-- A pair stands in front of what is unread, and pairs remain. -/
structure AtPair (d : Decoder) (p : Item × Item) (rest : List UInt8) : Prop where
  key : Faces d p.1 (p.2.encode ++ rest)
  value : p.2.Within {} 0 false
  more : d.read < d.count

namespace AtPair

variable {d : Decoder} {p : Item × Item} {rest : List UInt8}

theorem faces_value (h : AtPair d p rest) : Faces (afterKey d p rest) p.2 rest := ⟨rfl, h.value⟩

/-- The pair is the first of those ahead, and the others come after it. -/
theorem ahead_eq (h : AtPair d p rest) : d.ahead = p :: pairsOf (d.count - (d.read + 1)) rest := by
  have hmore := h.more
  obtain ⟨n, hn⟩ : ∃ n, d.count - d.read = n + 1 := ⟨d.count - d.read - 1, by omega⟩
  rw [ahead, hn, pairsOf, h.key.unread, h.key.within.read_encode]
  simp only [h.value.read_encode]
  rw [show d.count - (d.read + 1) = n by omega]

end AtPair

namespace Decoder

variable {d d' : Decoder} {p : Item × Item} {pairs : List (Item × Item)} {verdicts : List Verdict}

theorem exists_atPair_of_ahead (h : d.ahead = p :: pairs) : ∃ rest, AtPair d p rest := by
  unfold ahead at h
  cases hn : d.count - d.read with
  | zero =>
    rw [hn, pairsOf] at h
    cases h
  | succ n =>
    rw [hn, pairsOf] at h
    split at h
    · cases h
    · rename_i key rest hkey
      split at h
      · cases h
      · rename_i value rest' hvalue
        obtain ⟨hunread, hin⟩ := read_eq_ok_iff.1 hkey
        obtain ⟨rfl, hin'⟩ := read_eq_ok_iff.1 hvalue
        cases h
        exact ⟨rest', ⟨hunread, hin⟩, hin', by omega⟩

theorem pairsOf_encodePairs (h : PairsWithin {} 0 pairs) : pairsOf pairs.length (encodePairs pairs) = pairs := by
  induction pairs with
  | nil => rfl
  | cons p pairs ih =>
    rw [List.length_cons, pairsOf, encodePairs, List.append_assoc, h.1.1.read_encode]
    simp only [h.1.2.read_encode, ih h.2]

/-- Inside a map that was entered, all its pairs are ahead. -/
theorem ahead_inside (h : PairsWithin {} 0 pairs) (options : Options) (w : Width) (trailing : Nat) :
    (inside options w pairs trailing).ahead = pairs :=
  pairsOf_encodePairs h

/-- Input that is not entered leaves a decoder with nothing in it but the error. -/
theorem of_enter_error {options : Options} {expected : Option Int} {data : List UInt8} {err : Error} {d : Decoder}
    (h : enter options expected data = (.error err, d)) :
    err.code ≠ .outOfRange ∧ err.keys = [] ∧ d = { options, trace := [options.labels.mark (err.event .decode)] } := by
  have hfail : ∀ {e : Error}, e.code ≠ .outOfRange → e.keys = [] → (fail e : Decode Unit).run.run { options } = (.error err, d) →
      err.code ≠ .outOfRange ∧ err.keys = [] ∧ d = { options, trace := [options.labels.mark (err.event .decode)] } := by
    intro e hcode hkeys hrun
    cases hrun
    exact ⟨hcode, hkeys, rfl⟩
  unfold enter at h
  dsimp only at h
  split at h
  · exact hfail (by simp) rfl h
  · split at h
    · exact hfail (by simp) rfl h
    · split at h
      · rename_i hchecked
        cases h
        split_ifs at hchecked
        · exact hfail (by simp) rfl hchecked
        · exact hfail (by simp) rfl hchecked
        · split at hchecked
          · split_ifs at hchecked
            · exact hfail (by simp) rfl hchecked
            · cases hchecked
          · cases hchecked
      · cases h

/-- The decoder after a pair. -/
def past (d : Decoder) (v : Verdict) (rest : List UInt8) : Decoder :=
  { d with
    unread := rest, read := d.read + 1, allocated := d.allocated + Int64.ofNat v.cost,
    trace := d.trace ++ v.events d.options.labels }

/-- The decoder goes past pairs with such verdicts. -/
inductive Passes : Decoder → List Verdict → Decoder → Prop
  | nil (d : Decoder) : Passes d [] d
  | cons {d d' : Decoder} {p : Item × Item} {rest : List UInt8} {v : Verdict} {verdicts : List Verdict} (at_pair : AtPair d p rest)
      (rest : Passes (d.past v rest) verdicts d') : Passes d (v :: verdicts) d'

namespace Passes

theorem read (h : Passes d verdicts d') : d'.read = d.read + verdicts.length := by
  induction h with
  | nil => rfl
  | cons _ _ ih =>
    rw [ih, List.length_cons]
    simp only [past]
    omega

theorem kept (h : Passes d verdicts d') :
    d'.count = d.count ∧ d'.size = d.size ∧ d'.trailing = d.trailing ∧ d'.options = d.options := by
  induction h with
  | nil => exact ⟨rfl, rfl, rfl, rfl⟩
  | cons _ _ ih => exact ih

theorem trace (h : Passes d verdicts d') : d'.trace = d.trace ++ verdicts.flatMap (Verdict.events d.options.labels) := by
  induction h with
  | nil => simp
  | cons _ _ ih =>
    rw [ih, List.flatMap_cons, ← List.append_assoc]
    rfl

theorem allocated (h : Passes d verdicts d') : d'.allocated = d.allocated + Int64.ofNat (verdicts.map Verdict.cost).sum := by
  induction h with
  | nil => exact (Int64.add_zero _).symm
  | cons _ _ ih =>
    rw [ih, List.map_cons, List.sum_cons, Int64.ofNat_add, ← Int64.add_assoc]
    rfl

theorem ahead (h : Passes d verdicts d') : d'.ahead = d.ahead.drop verdicts.length := by
  induction h with
  | nil => rfl
  | cons hp _ ih =>
    rw [ih, hp.ahead_eq]
    rfl

/-- What follows the pairs ahead stays where it is. -/
theorem unread (h : Passes d verdicts d') {after : List UInt8} (hd : d.unread = encodePairs d.ahead ++ after) :
    d'.unread = encodePairs d'.ahead ++ after := by
  induction h with
  | nil => exact hd
  | @cons d d' p rest v verdicts hp _ ih =>
    refine ih ?_
    rw [hp.ahead_eq, hp.key.unread, encodePairs, List.append_assoc, List.append_assoc, List.append_cancel_left_eq,
      List.append_cancel_left_eq] at hd
    exact hd

end Passes

end Decoder

end SensorWire
