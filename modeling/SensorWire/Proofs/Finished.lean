import Mathlib
import SensorWire.Proofs.Encoder
import SensorWire.Proofs.Item

/-!
# Finished messages

What the bytes of a finished message are. The pairs that calls put, and the elements that they append to each array, are read off the
calls alone (`Action.puts`, `Action.elements`). A head of an array that comes while elements of an earlier array are owed is let
through, and the elements owed are forgotten: such a run is `Interrupted`.

Main statement (`finished_wellFormed_iff`): the bytes of a finished message are a well-formed item exactly if the run was not
interrupted, and then they are the map of the pairs that were put.

That an interrupted run leaves no item is a matter of counting places. A map of `n` pairs opens `2 n` places for items, an array of
`n` elements opens `n`, and every item fills one. Reading an item takes parts off the front that leave no place open
(`Fills`), and an interrupted run leaves open as many places as elements were forgotten.
-/

namespace SensorWire

open Cbor Item

/-! ## Scalars -/

namespace Cbor.Item

/-- A number, a simple value or a string, with the shortest head. -/
def Plain : Item → Prop
  | unsigned w n => n < 2 ^ 64 ∧ w = .shortest n
  | string _ w content => w = .shortest content.length
  | simple n => n < 24 ∨ 32 ≤ n
  | single _ => True
  | double _ => True
  | _ => False

theorem plain_ofText (t : Text) : (ofText t).Plain := rfl

/-- A plain item that takes fewer than 2^63 bytes is well formed within any limits. -/
theorem Plain.within {i : Item} (h : i.Plain) (hlen : (encode i).length < 2 ^ 63) (lim : Limits) (depth : Nat) (inTag : Bool) :
    i.Within lim depth inTag := by
  cases i with
  | unsigned w n =>
    obtain ⟨hn, rfl⟩ := h
    exact Width.holds_shortest hn
  | string kind w content =>
    obtain rfl : w = .shortest content.length := h
    have hlt : content.length < 2 ^ 63 := by
      rw [encode_eq, List.length_append] at hlen
      exact Nat.lt_of_le_of_lt (Nat.le_add_left _ _) hlen
    exact ⟨Width.holds_shortest (Nat.lt_trans hlt (by norm_num)), hlt⟩
  | simple n => exact h
  | single bits => trivial
  | double bits => trivial
  | _ => exact h.elim

end Cbor.Item

theorem Cbor.Item.plain_ofNat {n : Nat} (h : n < 2 ^ 64) : (Item.ofNat n).Plain := ⟨h, rfl⟩

/-- The value that an action writes is plain. -/
def Action.Plain : Action → Prop
  | .pair _ _ value => value.Plain
  | .element _ value => value.Plain
  | _ => True

theorem Action.plain_simple (key : Text) (v : UInt8) : (Action.simple key v).Plain := by
  unfold Action.simple
  split
  · trivial
  · rename_i h
    simp only [reservedSimple, Bool.and_eq_true, decide_eq_true_eq, not_and, not_lt] at h
    by_cases hv : v < 24
    · exact Or.inl hv
    · exact Or.inr (h (Nat.not_lt.1 hv))

/-- Calls write plain values. -/
theorem Encoder.Call.plain_action (c : Encoder.Call) : c.action.Plain := by
  have small : ∀ {n m : Nat}, n < m → m ≤ 2 ^ 64 → (Item.ofNat n).Plain := fun h hm => Item.plain_ofNat (Nat.lt_of_lt_of_le h hm)
  cases c with
  | uint8 key v => exact small v.toNat_lt (by norm_num)
  | uint16 key v => exact small v.toNat_lt (by norm_num)
  | uint32 key v => exact small v.toNat_lt (by norm_num)
  | uint64 key v => exact small v.toNat_lt (by norm_num)
  | bool key v => exact small (Bool.toNat_lt v) (by norm_num)
  | simple key v => exact Action.plain_simple key v
  | float32 key bits => trivial
  | float64 key bits => trivial
  | text key v => exact plain_ofText v
  | bytes key v => exact rfl
  | arrayHead key n =>
    simp only [action, Action.arrayHead]
    split <;> trivial
  | elementFloat64 bits => trivial
  | elementFloat32 bits => trivial
  | elementUInt64 v => exact small v.toNat_lt (by norm_num)
  | field f =>
    obtain ⟨key, binding, checked⟩ := f
    cases binding with
    | unbound t => trivial
    | bound s =>
      cases s with
      | uint8 v => exact small v.toNat_lt (by norm_num)
      | uint16 v => exact small v.toNat_lt (by norm_num)
      | uint32 v => exact small v.toNat_lt (by norm_num)
      | uint64 v => exact small v.toNat_lt (by norm_num)
      | bool v => exact small (Bool.toNat_lt v) (by norm_num)
      | simple v => exact Action.plain_simple key v
      | string v => exact plain_ofText v
      | bytes v => exact rfl
      | float32 bits => trivial
      | float64 bits => trivial
  | finish => trivial

/-! ## Places for items -/

/-- What messages are made of: whole items, and the heads of containers, whose members follow. -/
inductive Part where
  | item (i : Item)
  | array (n : Nat)
  | map (n : Nat)

namespace Part

/-- The bytes of a part. -/
def bytes : Part → List UInt8
  | item i => i.encode
  | array n => (Head.shortest .array n).encode
  | map n => (Head.shortest .map n).encode

/-- The places that a part fills, less those that it opens. -/
def places : Part → Int
  | item _ => 1
  | array n => 1 - n
  | map n => 1 - 2 * n

/-- The item is read back wherever it stands, and the head is read back. -/
def Valid : Part → Prop
  | item i => ∀ lim depth inTag, i.Within lim depth inTag
  | array n => n < 2 ^ 64
  | map n => n < 2 ^ 64

/-- The bytes of parts in a row. -/
def spell (parts : List Part) : List UInt8 := parts.flatMap bytes

/-- The places that parts in a row fill, less those that they open. -/
def sum (parts : List Part) : Int := (parts.map places).sum

theorem spell_cons (p : Part) (parts : List Part) : spell (p :: parts) = p.bytes ++ spell parts := rfl

theorem spell_append (as bs : List Part) : spell (as ++ bs) = spell as ++ spell bs := List.flatMap_append

theorem sum_cons (p : Part) (parts : List Part) : sum (p :: parts) = p.places + sum parts := by
  rw [sum, List.map_cons, List.sum_cons, sum]

theorem sum_append (as bs : List Part) : sum (as ++ bs) = sum as + sum bs := by
  rw [sum, List.map_append, List.sum_append, sum, sum]

theorem Valid.bytes_ne_nil {p : Part} (h : p.Valid) : p.bytes ≠ [] := by
  cases p with
  | item i =>
    obtain ⟨b, tail, hb, -⟩ := Within.first (h {} 0 false)
    simp [bytes, hb]
  | array n => exact (Head.shortest .array n).encode_ne_nil
  | map n => exact (Head.shortest .map n).encode_ne_nil

/-- Bytes that end leave no part. -/
theorem eq_nil_of_spell {parts : List Part} (h : ∀ p ∈ parts, p.Valid) (hs : spell parts = []) : parts = [] := by
  cases parts with
  | nil => rfl
  | cons p parts =>
    rw [spell_cons, List.append_eq_nil_iff] at hs
    exact absurd hs.1 (h p (List.mem_cons_self ..)).bytes_ne_nil

end Part

/-- A reader that takes whole parts off the front, which fill so many places, up to a length of input. -/
def Fills {α : Type} (one : Reader α) (filled : Int) (bound : Nat) : Prop :=
  ∀ parts : List Part, (∀ p ∈ parts, p.Valid) → (Part.spell parts).length < bound →
    ∀ a rest, one (Part.spell parts) = .ok (a, rest) →
      ∃ left, left <:+ parts ∧ rest = Part.spell left ∧ Part.sum parts = filled + Part.sum left

section Fills

variable {α β : Type} {first : Reader α} {second : Reader β} {m n : Int} {bound : Nat}

theorem length_spell_suffix {left parts : List Part} (h : left <:+ parts) :
    (Part.spell left).length ≤ (Part.spell parts).length := by
  obtain ⟨taken, rfl⟩ := h
  rw [Part.spell_append, List.length_append]
  omega

/-- Two readers in a row fill the places of both. -/
theorem fills_readBoth (hA : Fills first m bound) (hB : Fills second n bound) : Fills (readBoth first second) (m + n) bound := by
  intro parts hvalid hlen p rest hread
  simp only [readBoth, bind_eq_ok_iff, Prod.exists] at hread
  obtain ⟨a, tail, ha, b, tail', hb, hr⟩ := hread
  cases hr
  obtain ⟨left, hleft, rfl, hsum⟩ := hA parts hvalid hlen a tail ha
  obtain ⟨left', hleft', rfl, hsum'⟩ := hB left (fun p hp => hvalid p (hleft.subset hp))
    (Nat.lt_of_le_of_lt (length_spell_suffix hleft) hlen) b _ hb
  exact ⟨left', hleft'.trans hleft, rfl, by omega⟩

/-- A reader applied so many times fills as many times the places. -/
theorem fills_readMany (h : Fills first m bound) (k : Nat) : Fills (readMany first k) (k * m) bound := by
  induction k with
  | zero =>
    intro parts _ _ as rest hread
    cases hread
    exact ⟨parts, List.suffix_refl _, rfl, by push_cast; omega⟩
  | succ k ih =>
    intro parts hvalid hlen as rest hread
    simp only [readMany, bind_eq_ok_iff, Prod.exists] at hread
    obtain ⟨a, tail, ha, as', tail', has, hr⟩ := hread
    cases hr
    obtain ⟨left, hleft, rfl, hsum⟩ := h parts hvalid hlen a tail ha
    obtain ⟨left', hleft', rfl, hsum'⟩ := ih left (fun p hp => hvalid p (hleft.subset hp))
      (Nat.lt_of_le_of_lt (length_spell_suffix hleft) hlen) as' _ has
    refine ⟨left', hleft'.trans hleft, rfl, ?_⟩
    rw [hsum, hsum']
    push_cast
    ring

/-- A container whose head says how many members it has is read by reading so many. -/
theorem readMany_of_readContainer {lim : Limits} {limit : Nat} {overfull : Fault} {closed : Width → List α → Item}
    {opened : List α → Item} {major : Major} {w : Width} {k : Nat} {bytes rest : List UInt8} {i : Item}
    (h : readContainer lim first limit overfull closed opened ⟨major, some w, k⟩ bytes = .ok (i, rest)) :
    ∃ members, readMany first k bytes = .ok (members, rest) := by
  simp only [readContainer] at h
  split at h
  · exact absurd h (throw_ne_ok _ _)
  · split at h
    · exact absurd h (throw_ne_ok _ _)
    · simp only [bind_eq_ok_iff, Prod.exists] at h
      obtain ⟨members, rest', hmany, hr⟩ := h
      cases hr
      exact ⟨members, hmany⟩

end Fills

/-- Reading an item fills one place. -/
theorem fills_readAt (lim : Limits) (fuel depth : Nat) (inTag : Bool) : Fills (readAt lim fuel depth inTag) 1 fuel := by
  induction fuel generalizing depth inTag with
  | zero => exact fun parts _ hlen => absurd hlen (Nat.not_lt_zero _)
  | succ fuel ih =>
    intro parts hvalid hlen i rest hread
    cases parts with
    | nil => cases hread
    | cons p parts =>
      have hp := hvalid p (List.mem_cons_self ..)
      have hparts : ∀ q ∈ parts, q.Valid := fun q hq => hvalid q (List.mem_cons_of_mem p hq)
      have htail : (Part.spell parts).length < fuel := by
        have := List.length_pos_iff.2 hp.bytes_ne_nil
        rw [Part.spell_cons, List.length_append] at hlen
        omega
      -- the head of a container is read by itself, and its members are read after it
      have hhead : ∀ major k, major = .array ∨ major = .map → k < 2 ^ 64 → p.bytes = (Head.shortest major k).encode →
          readAfter lim (readAt lim fuel) depth inTag (Head.shortest major k) (Part.spell parts) = .ok (i, rest) := by
        intro major k hmajor hk hbytes
        have hread' : readHead (Part.spell (p :: parts)) = .ok (Head.shortest major k, Part.spell parts) := by
          refine readHead_eq_ok_iff.2 ⟨by rw [Part.spell_cons, hbytes], Head.valid_shortest major hk, ?_⟩
          rintro ⟨hprim, -⟩
          rcases hmajor with rfl | rfl <;> cases hprim
        simpa [readAt, hread', bind, Except.bind] using hread
      cases p with
      | item j =>
        have hj := (exact_readAt lim (fuel + 1) depth inTag _ hlen j (Part.spell parts)).2 ⟨rfl, hp lim depth inTag⟩
        rw [hj] at hread
        cases hread
        exact ⟨parts, List.suffix_cons .., rfl, Part.sum_cons ..⟩
      | array k =>
        have hafter := hhead .array k (Or.inl rfl) hp rfl
        simp only [readAfter, Head.shortest] at hafter
        split at hafter
        · cases hafter
        · obtain ⟨members, hmany⟩ := readMany_of_readContainer hafter
          obtain ⟨left, hleft, rfl, hsum⟩ := fills_readMany (ih (depth + 1) false) k parts hparts htail members rest hmany
          refine ⟨left, hleft.trans (List.suffix_cons ..), rfl, ?_⟩
          rw [Part.sum_cons, hsum, Part.places]
          ring
      | map k =>
        have hafter := hhead .map k (Or.inr rfl) hp rfl
        simp only [readAfter, Head.shortest] at hafter
        split at hafter
        · cases hafter
        · obtain ⟨members, hmany⟩ := readMany_of_readContainer hafter
          obtain ⟨left, hleft, rfl, hsum⟩ :=
            fills_readMany (fills_readBoth (ih (depth + 1) false) (ih (depth + 1) false)) k parts hparts htail members rest hmany
          refine ⟨left, hleft.trans (List.suffix_cons ..), rfl, ?_⟩
          rw [Part.sum_cons, hsum, Part.places]
          ring

/-- Parts whose bytes are one well-formed item fill one place. -/
theorem sum_eq_one_of_wellFormed {parts : List Part} (hvalid : ∀ p ∈ parts, p.Valid) {i : Item} (hi : i.WellFormed)
    (h : Part.spell parts = i.encode) : Part.sum parts = 1 := by
  obtain ⟨lim, hin⟩ := hi
  have hread := (exact_readAt lim ((Part.spell parts).length + 1) 0 false _ (Nat.lt_succ_self _) i []).2
    ⟨by rw [h, List.append_nil], hin⟩
  obtain ⟨left, hleft, hnil, hsum⟩ := fills_readAt lim _ 0 false parts hvalid (Nat.lt_succ_self _) i [] hread
  obtain rfl := Part.eq_nil_of_spell (fun p hp => hvalid p (hleft.subset hp)) hnil.symm
  simpa [Part.sum] using hsum

/-! ## What calls put -/

namespace Action

/-- The elements that actions append before anything else. -/
def elements : List Action → List Item
  | element _ value :: actions => value :: elements actions
  | _ => []

/-- The pairs that actions put, where an array has the elements that follow its head. -/
def puts : List Action → List (Text × Item)
  | [] => []
  | pair _ key value :: actions => (key, value) :: puts actions
  | array key _ :: actions => (key, .ofList (elements actions)) :: puts actions
  | _ :: actions => puts actions

/-- The parts that an action writes. -/
def parts : Action → List Part
  | pair _ key value => [.item (.ofText key), .item value]
  | array key n => [.item (.ofText key), .array n]
  | element _ value => [.item value]
  | _ => []

/-- An array head of so many elements has a length of 64 bits. -/
def Short : Action → Prop
  | array _ n => n < 2 ^ 64
  | _ => True

end Action

namespace Draft

/-- One action without a fatal error. -/
inductive Writes (g : Draft) : Action → Draft → Prop where
  | pair (op key : Text) (value : Item) (h : g.owed = 0) :
    Writes g (.pair op key value) { g with bytes := g.bytes ++ (ofText key).encode ++ value.encode, pairs := g.pairs + 1 }
  | array (key : Text) (n : Nat) :
    Writes g (.array key n)
      { g with bytes := g.bytes ++ (ofText key).encode ++ (Head.shortest .array n).encode, pairs := g.pairs + 1, owed := n }
  | element (op : Text) (value : Item) (h : g.owed ≠ 0) :
    Writes g (.element op value) { g with bytes := g.bytes ++ value.encode, owed := g.owed - 1 }
  | close (ho : g.owed = 0) (hp : g.pairs = g.declared) : Writes g .close g

/-- An action after which there is no fatal error. -/
theorem writes_of_act {g : Draft} {a : Action} (h : (g.act a).2.fatal = none) : g.Writes a (g.act a).2 := by
  have hg : g.fatal = none := not_fatal_of_run (show (g.run [a]).fatal = none from h)
  rw [act_of_not_fatal hg] at h ⊢
  cases a with
  | refused err => cases h
  | pair op key value =>
    simp only [perform] at h ⊢
    split_ifs at h ⊢ with ho
    · cases h
    · exact .pair op key value (Nat.eq_zero_of_not_pos ho)
  | array key n => exact .array key n
  | element op value =>
    simp only [perform] at h ⊢
    split_ifs at h ⊢ with ho
    · cases h
    · exact .element op value ho
  | close =>
    simp only [perform] at h ⊢
    split_ifs at h ⊢ with ho hp
    · cases h
    · cases h
    · exact .close (not_not.1 ho) (not_not.1 hp)

/-- Some head of an array comes while elements of an earlier array are owed. -/
def Interrupted (g : Draft) (actions : List Action) : Prop :=
  ∃ before key n after, actions = before ++ .array key n :: after ∧ (g.run before).owed ≠ 0

theorem interrupted_cons {g : Draft} {a : Action} {actions : List Action} :
    g.Interrupted (a :: actions) ↔ (∃ key n, a = .array key n ∧ g.owed ≠ 0) ∨ (g.act a).2.Interrupted actions := by
  constructor
  · rintro ⟨before, key, n, after, heq, ho⟩
    cases before with
    | nil =>
      cases heq
      exact Or.inl ⟨key, n, rfl, ho⟩
    | cons b before =>
      cases heq
      exact Or.inr ⟨before, key, n, after, rfl, ho⟩
  · rintro (⟨key, n, rfl, ho⟩ | ⟨before, key, n, after, rfl, ho⟩)
    · exact ⟨[], key, n, actions, rfl, ho⟩
    · exact ⟨a :: before, key, n, after, rfl, ho⟩

/-- How many elements an action lets be forgotten. -/
def forgets (g : Draft) : Action → Nat
  | .array _ _ => g.owed
  | _ => 0

/-- How many elements actions in a row let be forgotten. -/
def forgotten (g : Draft) : List Action → Nat
  | [] => 0
  | a :: actions => g.forgets a + (g.act a).2.forgotten actions

/-- Elements are forgotten in the interrupted runs. -/
theorem forgotten_eq_zero_iff {g : Draft} {actions : List Action} : g.forgotten actions = 0 ↔ ¬g.Interrupted actions := by
  induction actions generalizing g with
  | nil => simp [forgotten, Interrupted]
  | cons a actions ih =>
    rw [interrupted_cons, not_or, ← ih]
    cases a <;> simp [forgotten, forgets]

/-- One action adds its parts. They fill two places for a pair and one for an element, but for the elements that are owed next or
were forgotten. -/
theorem Writes.parts {g g' : Draft} {a : Action} (h : g.Writes a g') :
    g'.bytes = g.bytes ++ Part.spell a.parts ∧ g'.declared = g.declared ∧
      Part.sum a.parts + g.forgets a + g'.owed + 2 * g.pairs = 2 * g'.pairs + g.owed := by
  cases h with
  | pair op key value ho =>
    refine ⟨by simp [Action.parts, Part.spell, Part.bytes], rfl, ?_⟩
    simp [Action.parts, Part.sum, Part.places, forgets]
    omega
  | array key n =>
    refine ⟨by simp [Action.parts, Part.spell, Part.bytes], rfl, ?_⟩
    simp [Action.parts, Part.sum, Part.places, forgets]
    omega
  | element op value ho =>
    refine ⟨by simp [Action.parts, Part.spell, Part.bytes], rfl, ?_⟩
    simp [Action.parts, Part.sum, Part.places, forgets]
    omega
  | close ho hp =>
    refine ⟨by simp [Action.parts, Part.spell], rfl, ?_⟩
    simp [Action.parts, Part.sum, forgets]
    omega

/-- A run without a fatal error adds the parts of its actions. -/
theorem run_parts {g : Draft} {actions : List Action} (h : (g.run actions).fatal = none) :
    (g.run actions).bytes = g.bytes ++ Part.spell (actions.flatMap Action.parts) ∧ (g.run actions).declared = g.declared ∧
      Part.sum (actions.flatMap Action.parts) + g.forgotten actions + (g.run actions).owed + 2 * g.pairs =
        2 * (g.run actions).pairs + g.owed := by
  induction actions generalizing g with
  | nil => exact ⟨by simp [run, Part.spell], rfl, by simp [run, Part.sum, forgotten]; omega⟩
  | cons a actions ih =>
    rw [run_cons] at h
    obtain ⟨hbytes, hdeclared, hsum⟩ := ih h
    obtain ⟨hbytes', hdeclared', hsum'⟩ := (writes_of_act (not_fatal_of_run h)).parts
    rw [run_cons, hbytes, hbytes', hdeclared, hdeclared', List.flatMap_cons, Part.spell_append, Part.sum_append, forgotten]
    refine ⟨List.append_assoc .., rfl, ?_⟩
    push_cast
    omega

/-- Every pair takes a byte. -/
theorem pairs_run_le {g : Draft} {actions : List Action} (h : (g.run actions).fatal = none) :
    (g.run actions).pairs + g.bytes.length ≤ g.pairs + (g.run actions).bytes.length := by
  induction actions generalizing g with
  | nil => exact Nat.le_refl _
  | cons a actions ih =>
    rw [run_cons] at h ⊢
    have hrest := ih h
    have hact := writes_of_act (not_fatal_of_run h)
    suffices (g.act a).2.pairs + g.bytes.length ≤ g.pairs + (g.act a).2.bytes.length by omega
    have hkey : ∀ key, 0 < (ofText key).encode.length := fun key => by
      rw [encode_eq, List.length_append]
      exact Nat.add_pos_left (List.length_pos_iff.2 (Head.encode_ne_nil _)) _
    generalize (g.act a).2 = g' at *
    cases hact with
    | pair op key value ho =>
      have := hkey key
      simp only [List.length_append]
      omega
    | array key n =>
      have := hkey key
      simp only [List.length_append]
      omega
    | element op value ho => simp only [List.length_append]; omega
    | close ho hp => exact Nat.le_refl _

/-- A run without a fatal error that is not interrupted and owes nothing at its end: it adds the elements that it first owed, and then
the pairs that were put. -/
theorem run_puts {g : Draft} {actions : List Action} (h : (g.run actions).fatal = none) (howed : (g.run actions).owed = 0)
    (hn : ¬g.Interrupted actions) :
    (Action.elements actions).length = g.owed ∧ (g.run actions).pairs = g.pairs + (Action.puts actions).length ∧
      (g.run actions).bytes = g.bytes ++ encodeAll (Action.elements actions) ++
        encodePairs ((Action.puts actions).map fun p => (ofText p.1, p.2)) := by
  induction actions generalizing g with
  | nil => exact ⟨howed.symm, rfl, by simp [run, Action.elements, Action.puts, encodeAll, encodePairs]⟩
  | cons a actions ih =>
    rw [interrupted_cons, not_or] at hn
    rw [run_cons] at h howed
    obtain ⟨hlen, hpairs, hbytes⟩ := ih h howed hn.2
    have hact := writes_of_act (not_fatal_of_run h)
    rw [run_cons, hpairs, hbytes]
    clear hpairs hbytes ih howed h
    generalize (g.act a).2 = g' at *
    cases hact with
    | pair op key value ho =>
      obtain hnil := List.eq_nil_of_length_eq_zero (hlen.trans ho)
      refine ⟨ho.symm, by simp [Action.puts]; omega, ?_⟩
      simp [Action.elements, Action.puts, hnil, encodeAll, encodePairs]
    | array key n =>
      have ho : g.owed = 0 := not_not.1 fun ho => hn.1 ⟨key, n, rfl, ho⟩
      refine ⟨ho.symm, by simp [Action.puts]; omega, ?_⟩
      obtain rfl : (Action.elements actions).length = n := hlen
      simp [Action.elements, Action.puts, encodeAll, encodePairs, ofList, encode, Head.shortest]
    | element op value ho =>
      refine ⟨?_, rfl, ?_⟩
      · have : (Action.elements actions).length = g.owed - 1 := hlen
        simp only [Action.elements, List.length_cons]
        omega
      · simp [Action.elements, Action.puts, encodeAll]
    | close ho hp =>
      have hnil := List.eq_nil_of_length_eq_zero (hlen.trans ho)
      exact ⟨ho.symm, rfl, by simp [Action.elements, Action.puts, hnil]⟩

end Draft

/-! ## The map of the pairs -/

/-- What one member of a list writes is no longer than what all write. -/
theorem length_le_flatMap_of_mem {α : Type} (write : α → List UInt8) {l : List α} {a : α} (h : a ∈ l) :
    (write a).length ≤ (l.flatMap write).length := by
  obtain ⟨before, after, rfl⟩ := List.append_of_mem h
  simp only [List.flatMap_append, List.flatMap_cons, List.length_append]
  omega

/-- A plain item, or an array of plain items. -/
def Cbor.Item.Flat (i : Item) : Prop := i.Plain ∨ ∃ items, i = ofList items ∧ ∀ j ∈ items, j.Plain

/-- Limits that no item of fewer than 2^63 bytes exceeds but by its depth. -/
def Cbor.Limits.flat : Limits := { depth := 2, elements := 2 ^ 63, pairs := 2 ^ 63 }

theorem Cbor.Item.Flat.within {i : Item} (h : Item.Flat i) (hlen : i.encode.length < 2 ^ 63) : i.Within .flat 1 false := by
  rcases h with h | ⟨items, rfl, h⟩
  · exact h.within hlen _ _ _
  · have hbody : (items.flatMap encode).length < 2 ^ 63 := by
      rw [encode_eq, List.length_append] at hlen
      exact Nat.lt_of_le_of_lt (Nat.le_add_left _ _) hlen
    have hin : ∀ j ∈ items, j.Within .flat 2 false := fun j hj =>
      (h j hj).within (Nat.lt_of_le_of_lt (length_le_flatMap_of_mem encode hj) hbody) _ _ _
    have hitems : items.length < 2 ^ 63 := by
      refine Nat.lt_of_le_of_lt (length_le_flatMap fun j hj => ?_) hbody
      obtain ⟨b, tail, hb, -⟩ := (hin j hj).first
      exact hb ▸ List.cons_ne_nil b tail
    exact ⟨Width.holds_shortest (Nat.lt_trans hitems (by norm_num)), Nat.lt_succ_self 1, hitems, Nat.le_of_lt hitems,
      allWithin_iff.2 hin⟩

/-- A map of texts to flat items that takes fewer than 2^63 bytes is well formed. -/
theorem wellFormed_ofPairs {pairs : List (Text × Item)} (h : ∀ p ∈ pairs, Item.Flat p.2)
    (hlen : (ofPairs (pairs.map fun p => (ofText p.1, p.2))).encode.length < 2 ^ 63) :
    (ofPairs (pairs.map fun p => (ofText p.1, p.2))).WellFormed := by
  have hbody : ((pairs.map fun p => (ofText p.1, p.2)).flatMap fun p => encode p.1 ++ encode p.2).length < 2 ^ 63 := by
    rw [encode_eq, List.length_append] at hlen
    exact Nat.lt_of_le_of_lt (Nat.le_add_left _ _) hlen
  have hin : ∀ p ∈ pairs.map fun p => (ofText p.1, p.2), p.1.Within .flat 1 false ∧ p.2.Within .flat 1 false := by
    intro p hp
    have hle := Nat.lt_of_le_of_lt (length_le_flatMap_of_mem _ hp) hbody
    rw [List.length_append] at hle
    obtain ⟨⟨key, value⟩, hmem, rfl⟩ := List.mem_map.1 hp
    dsimp only at hle
    exact ⟨(plain_ofText key).within (by omega) _ _ _, (h _ hmem).within (by dsimp only; omega)⟩
  have hpairs : (pairs.map fun p => (ofText p.1, p.2)).length < 2 ^ 63 := by
    refine Nat.lt_of_le_of_lt (length_le_flatMap fun p hp => ?_) hbody
    obtain ⟨b, tail, hb, -⟩ := (hin p hp).1.first
    simp [hb]
  exact ⟨.flat, Width.holds_shortest (Nat.lt_trans hpairs (by norm_num)), Nat.succ_pos 1, hpairs, Nat.le_of_lt hpairs,
    pairsWithin_iff.2 hin⟩

namespace Action

theorem plain_of_mem_elements {actions : List Action} (h : ∀ a ∈ actions, a.Plain) {i : Item} (hi : i ∈ elements actions) :
    i.Plain := by
  fun_induction elements actions with
  | case1 op value actions ih =>
    rw [List.forall_mem_cons] at h
    rcases List.mem_cons.1 hi with rfl | hi
    · exact h.1
    · exact ih h.2 hi
  | case2 actions _ => cases hi

/-- Calls put flat items. -/
theorem flat_of_mem_puts {actions : List Action} (h : ∀ a ∈ actions, a.Plain) {p : Text × Item} (hp : p ∈ puts actions) :
    Item.Flat p.2 := by
  fun_induction puts actions with
  | case1 => cases hp
  | case2 op key value actions ih =>
    rw [List.forall_mem_cons] at h
    rcases List.mem_cons.1 hp with rfl | hp
    · exact Or.inl h.1
    · exact ih h.2 hp
  | case3 key n actions ih =>
    rw [List.forall_mem_cons] at h
    rcases List.mem_cons.1 hp with rfl | hp
    · exact Or.inr ⟨_, rfl, fun i hi => plain_of_mem_elements h.2 hi⟩
    · exact ih h.2 hp
  | case4 a actions _ _ ih => exact ih (List.forall_mem_cons.1 h).2 hp

/-- The parts that short plain actions write are valid when they take fewer than 2^63 bytes. -/
theorem valid_parts {actions : List Action} (h : ∀ a ∈ actions, a.Plain ∧ a.Short)
    (hlen : (Part.spell (actions.flatMap parts)).length < 2 ^ 63) : ∀ p ∈ actions.flatMap parts, p.Valid := by
  intro p hp
  have hle : p.bytes.length < 2 ^ 63 := Nat.lt_of_le_of_lt (length_le_flatMap_of_mem Part.bytes hp) hlen
  obtain ⟨a, ha, hpa⟩ := List.mem_flatMap.1 hp
  obtain ⟨hplain, hshort⟩ := h a ha
  have hitem : ∀ {i : Item}, i.Plain → p = .item i → p.Valid := by
    rintro i hi rfl lim depth inTag
    exact hi.within hle lim depth inTag
  cases a with
  | refused err => cases hpa
  | pair op key value =>
    rcases List.mem_pair.1 hpa with hp | hp
    · exact hitem (plain_ofText key) hp
    · exact hitem hplain hp
  | array key n =>
    rcases List.mem_pair.1 hpa with hp | rfl
    · exact hitem (plain_ofText key) hp
    · exact hshort
  | element op value => exact hitem hplain (List.mem_singleton.1 hpa)
  | close => cases hpa

end Action

/-! ## Complete drafts -/

namespace Draft

/-- A draft with nothing missing: no fatal error, no element owed, and the pairs that were declared. -/
structure Complete (g : Draft) : Prop where
  fatal : g.fatal = none
  owed : g.owed = 0
  pairs : g.pairs = g.declared

variable {count : Nat} {actions : List Action}

/-- The map of the pairs that actions put. -/
def message (actions : List Action) : Item := ofPairs ((Action.puts actions).map fun p => (ofText p.1, p.2))

/-- A complete draft that was not interrupted is the map of the pairs put. -/
theorem Complete.message (h : ((start count).run actions).Complete) (hplain : ∀ a ∈ actions, a.Plain)
    (hlen : ((start count).run actions).bytes.length < 2 ^ 63) (hn : ¬(start count).Interrupted actions) :
    (message actions).WellFormed ∧ ((start count).run actions).bytes = (message actions).encode ∧
      (Action.puts actions).length = count := by
  obtain ⟨hnil, hpairs, hbytes⟩ := run_puts h.fatal h.owed hn
  obtain ⟨-, hdeclared, -⟩ := run_parts h.fatal
  have hcount : (Action.puts actions).length = count := by
    rw [h.pairs, hdeclared] at hpairs
    exact (hpairs.trans (Nat.zero_add _)).symm
  have hencode : ((start count).run actions).bytes = (Draft.message actions).encode := by
    rw [hbytes, List.eq_nil_of_length_eq_zero hnil]
    simp [Draft.message, start, ofPairs, encode, encodeAll, Head.shortest, hcount]
  exact ⟨wellFormed_ofPairs (fun p hp => Action.flat_of_mem_puts hplain hp) (hencode ▸ hlen), hencode, hcount⟩

/-- A complete draft that is a well-formed item was not interrupted: its parts leave no place open, so nothing was forgotten. -/
theorem Complete.not_interrupted (h : ((start count).run actions).Complete) (hshort : ∀ a ∈ actions, a.Plain ∧ a.Short)
    (hlen : ((start count).run actions).bytes.length < 2 ^ 63) {i : Item} (hi : i.WellFormed)
    (hbytes : ((start count).run actions).bytes = i.encode) : ¬(start count).Interrupted actions := by
  obtain ⟨hparts, hdeclared, hsum⟩ := run_parts h.fatal
  have hpairs := pairs_run_le h.fatal
  have hcount : ((start count).run actions).pairs = count := h.pairs.trans hdeclared
  have hzero : (start count).pairs = 0 ∧ (start count).owed = 0 := ⟨rfl, rfl⟩
  have hspell : Part.spell (.map count :: actions.flatMap Action.parts) = i.encode := by
    rw [Part.spell_cons, ← hbytes, hparts]
    rfl
  have hvalid : ∀ p ∈ Part.map count :: actions.flatMap Action.parts, p.Valid := by
    rw [List.forall_mem_cons]
    refine ⟨show count < 2 ^ 64 by omega, Action.valid_parts hshort ?_⟩
    rw [hparts, List.length_append] at hlen
    omega
  have hone := sum_eq_one_of_wellFormed hvalid hi hspell
  rw [Part.sum_cons, Part.places] at hone
  have howed := h.owed
  rw [← forgotten_eq_zero_iff]
  omega

/-- In a run that was not interrupted and owes nothing, every array gets the elements that its head says. -/
theorem length_elements {g : Draft} {before after : List Action} {key : Text} {n : Nat}
    (hfatal : (g.run (before ++ .array key n :: after)).fatal = none)
    (howed : (g.run (before ++ .array key n :: after)).owed = 0)
    (hn : ¬g.Interrupted (before ++ .array key n :: after)) : (Action.elements after).length = n := by
  rw [run_append, run_cons] at hfatal howed
  have hafter : ¬((g.run before).act (.array key n)).2.Interrupted after := by
    rintro ⟨before', key', n', after', rfl, ho⟩
    refine hn ⟨before ++ .array key n :: before', key', n', after', by simp, ?_⟩
    rw [run_append, run_cons]
    exact ho
  have hlen := (run_puts hfatal howed hafter).1
  have hwrites := writes_of_act (not_fatal_of_run hfatal)
  generalize ((g.run before).act (.array key n)).2 = g' at *
  cases hwrites
  exact hlen

end Draft

/-! ## Finished encoders -/

namespace Encoder

/-- The head of an array comes from the call that puts one. -/
theorem Call.action_eq_array {c : Call} {key : Text} {n : Nat} (h : c.action = .array key n) : c = .arrayHead key n := by
  have hsimple : ∀ (key' : Text) (v : UInt8), Action.simple key' v ≠ .array key n := by
    intro key' v
    unfold Action.simple
    split <;> exact fun h => nomatch h
  cases c with
  | simple key' v => exact absurd h (hsimple key' v)
  | arrayHead key' k =>
    simp only [action, Action.arrayHead] at h
    split at h
    · cases h
    · rename_i hk
      cases h
      rw [Int.toNat_of_nonneg (Int.not_lt.1 hk)]
  | field f =>
    obtain ⟨key', binding, checked⟩ := f
    cases binding with
    | unbound t => cases h
    | bound s =>
      cases s with
      | simple v => exact absurd h (hsimple key' v)
      | _ => cases h
  | _ => cases h

/-- Some head of an array is put while elements of an earlier array are owed. -/
def Interrupted (e : Encoder) (calls : List Call) : Prop :=
  ∃ before key n after, calls = before ++ .arrayHead key n :: after ∧ (e.run before).owed ≠ 0

variable {buffer : List UInt8} {e : Encoder} {g : Draft}

/-- A head of an array that does not end a run with a fatal error is not negative. -/
theorem action_arrayHead_of_run {before after : List Call} {key : Text} {n : Int}
    (h : (g.run ((before ++ Call.arrayHead key n :: after).map Call.action)).fatal = none) :
    (Call.arrayHead key n).action = .array key n.toNat ∧ 0 ≤ n := by
  rw [List.map_append, Draft.run_append, List.map_cons, Draft.run_cons] at h
  have hact := Draft.writes_of_act (Draft.not_fatal_of_run h)
  simp only [Call.action, Action.arrayHead] at hact ⊢
  split_ifs at hact ⊢ with hn
  · cases hact
  · exact ⟨rfl, Int.not_lt.1 hn⟩

/-- An encoder is interrupted when its draft is. -/
theorem Carries.interrupted_iff (h : Carries buffer e g) {calls : List Call}
    (hfatal : (g.run (calls.map Call.action)).fatal = none) : e.Interrupted calls ↔ g.Interrupted (calls.map Call.action) := by
  constructor
  · rintro ⟨before, key, n, after, rfl, ho⟩
    refine ⟨before.map Call.action, key, n.toNat, after.map Call.action, ?_, (h.run before).owed ▸ ho⟩
    rw [List.map_append, List.map_cons, (action_arrayHead_of_run hfatal).1]
  · rintro ⟨before, key, n, after, heq, ho⟩
    obtain ⟨before', rest, rfl, rfl, hrest⟩ := List.map_eq_append_iff.1 heq
    obtain ⟨c, after', rfl, hc, rfl⟩ := List.map_eq_cons_iff.1 hrest
    obtain rfl := Call.action_eq_array hc
    exact ⟨before', key, n, after', rfl, (h.run before').owed.symm ▸ ho⟩

/-- An encoder that finishes carries a complete draft and has written all of it. -/
theorem Carries.of_finish (h : Carries buffer e g) {size : Nat} (hfinish : e.finish.1 = .ok size) :
    g.Complete ∧ e.out = g.bytes ∧ g.bytes.length = size ∧ size ≤ buffer.length := by
  obtain ⟨hcarries, hreport⟩ := h.act .close
  simp only [Encoder.act] at hcarries hreport
  rw [finish_fst] at hfinish
  cases hclose : e.close.1 with
  | some err => rw [hclose] at hfinish; cases hfinish
  | none =>
    rw [hclose, Except.ok.injEq] at hfinish
    rw [hclose, report, eq_comm, Option.or_eq_none_iff] at hreport
    obtain ⟨hdraft, hroom⟩ := hreport
    have hcomplete : g.Complete ∧ (g.act .close).2 = g := by
      cases hf : g.fatal with
      | some err => rw [Draft.act_of_fatal hf] at hdraft; cases hdraft
      | none =>
        rw [Draft.act_of_not_fatal hf] at hdraft ⊢
        simp only [Draft.perform] at hdraft ⊢
        split_ifs at hdraft ⊢ with ho hp
        · cases hdraft
        · cases hdraft
        · exact ⟨⟨hf, not_not.1 ho, not_not.1 hp⟩, rfl⟩
    obtain ⟨hcomplete, hsame⟩ := hcomplete
    rw [hsame] at hcarries hroom
    have hle : g.bytes.length ≤ buffer.length := by
      rw [shortage] at hroom
      split at hroom
      · cases hroom
      · rename_i hlt
        exact Nat.not_lt.1 hlt
    have hall : ∀ {e' : Encoder}, Carries buffer e' g → e'.out = g.bytes := by
      intro e' h'
      apply h'.fits
      rw [Bool.eq_false_iff]
      exact mt h'.overflow_iff.1 (Nat.not_lt.2 hle)
    rw [hall hcarries] at hfinish
    exact ⟨hcomplete, hall h, hfinish, hfinish ▸ hle⟩

/-- The action of a call that puts the head of an array of fewer than 2^63 elements is short. -/
theorem Call.short_action {c : Call} (h : ∀ key n, c = .arrayHead key n → n < 2 ^ 63) : c.action.Short := by
  cases hact : c.action with
  | array key n =>
    have := h key n (Call.action_eq_array hact)
    exact show n < 2 ^ 64 by omega
  | _ => trivial

/-- The bytes of a finished message are a well-formed item exactly if no head of an array was put while elements were owed. Then they
are the map of the pairs put, as many as declared, in which every array has the elements that its head says. -/
theorem finished_wellFormed_iff (labels : Labels) (buffer : List UInt8) (hbuffer : buffer.length < 2 ^ 63) (count : Int)
    (hcount : 0 ≤ count) (calls : List Call) (hcalls : ∀ key n, Call.arrayHead key n ∈ calls → n < 2 ^ 63) (size : Nat)
    (hfinish : ((startIn labels buffer count).2.run calls).finish.1 = .ok size) :
    let e := (startIn labels buffer count).2
    let pairs := Action.puts (calls.map Call.action)
    let message := Item.ofPairs (pairs.map fun p => (.ofText p.1, p.2))
    (e.run calls).out.length = size ∧
    ((∃ i : Item, i.WellFormed ∧ (e.run calls).out = i.encode) ↔ ¬e.Interrupted calls) ∧
    (¬e.Interrupted calls →
      message.WellFormed ∧ (e.run calls).out = message.encode ∧ (pairs.length : Int) = count ∧
      ∀ before key n after, calls = before ++ .arrayHead key n :: after →
        ((Action.elements (after.map Call.action)).length : Int) = n) := by
  intro e pairs message
  have hstart : Carries buffer e (.start count.toNat) := (carries_startIn labels buffer hcount).1
  obtain ⟨hcomplete, hout, hsize, hroom⟩ := (hstart.run calls).of_finish hfinish
  have hlen : ((Draft.start count.toNat).run (calls.map Call.action)).bytes.length < 2 ^ 63 := by omega
  have hshort : ∀ a ∈ calls.map Call.action, a.Plain ∧ a.Short := by
    intro a ha
    obtain ⟨c, hc, rfl⟩ := List.mem_map.1 ha
    exact ⟨c.plain_action, Call.short_action fun key n h => hcalls key n (h ▸ hc)⟩
  rw [hstart.interrupted_iff hcomplete.fatal, hout]
  have hmap := hcomplete.message (fun a ha => (hshort a ha).1) hlen
  refine ⟨hsize, ⟨?_, fun hn => ⟨message, (hmap hn).1, (hmap hn).2.1⟩⟩, fun hn => ⟨(hmap hn).1, (hmap hn).2.1, ?_, ?_⟩⟩
  · rintro ⟨i, hi, hbytes⟩
    exact hcomplete.not_interrupted hshort hlen hi hbytes
  · rw [(hmap hn).2.2]
    exact Int.toNat_of_nonneg hcount
  · rintro before key n after rfl
    obtain ⟨hact, hn0⟩ := action_arrayHead_of_run hcomplete.fatal
    obtain ⟨hfatal, howed, -⟩ := hcomplete
    rw [List.map_append, List.map_cons, hact] at hfatal howed hn
    rw [Draft.length_elements hfatal howed hn]
    exact Int.toNat_of_nonneg hn0

/-- Two heads of arrays in a row, of two elements and of none: the message is finished, and its bytes are no item. -/
theorem finished_after_interrupted_array :
    let e := (start {} 64 2).2.run [.arrayHead ⟨[97]⟩ 2, .arrayHead ⟨[98]⟩ 0]
    e.finish.1 = .ok 7 ∧ e.out = [0xa2, 0x61, 0x61, 0x82, 0x61, 0x62, 0x80] ∧ ¬∃ i : Item, i.WellFormed ∧ e.out = i.encode := by
  refine ⟨by rfl, by decide, ?_⟩
  have h := finished_wellFormed_iff {} (List.replicate 64 0) (by decide) 2 (by decide) [.arrayHead ⟨[97]⟩ 2, .arrayHead ⟨[98]⟩ 0]
    (by intro key n h; simp at h; omega) 7 (by rfl)
  exact fun hi => h.2.1.1 hi ⟨[.arrayHead ⟨[97]⟩ 2], ⟨[98]⟩, 0, [], rfl, by decide⟩

end Encoder

end SensorWire
