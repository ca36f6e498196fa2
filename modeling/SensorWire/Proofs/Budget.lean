import Mathlib
import SensorWire.Proofs.Decoder

/-!
# What a value costs

Text and bytes that a slot takes are charged to the allocation budget: their length, and one byte more for text, unless they are empty
(`Slot.cost`). A string of definite length is charged before it is read, and one in chunks after it; both come to the same charge and, when
the budget does not afford it (`Affords`), to the same failure. A decoder with no whole item in front is `Blocked`, and every reader stops
there.

Main statements: `takeValue` under any limit (`takeValue_afforded`, `takeValue_unaffordable`, `takeValue_stops`, `halts_takeValue`).
-/

namespace SensorWire

open Cbor Item

/-- The bytes that a string of a length takes from the budget. -/
def stringCost (extra n : Nat) : Nat := if n = 0 then 0 else n + extra

/-- The bytes that the value of a slot takes from the budget: those of text and of byte strings, and one for the end of a text. -/
def Slot.cost : Slot → Nat
  | string v => stringCost 1 v.length
  | bytes v => stringCost 0 v.length
  | _ => 0

namespace Decoder

/-- A limit leaves room for so many more bytes. Where there is nothing to charge there is always room. -/
def Affords (limit allocated : Int64) (n : Nat) : Prop := n = 0 ∨ ¬(0 < limit ∧ limit < allocated + Int64.ofNat n)

instance (limit allocated : Int64) (n : Nat) : Decidable (Affords limit allocated n) := inferInstanceAs (Decidable (_ ∨ _))

theorem affords_zero (limit allocated : Int64) : Affords limit allocated 0 := Or.inl rfl

variable {d : Decoder} {i : Item} {rest : List UInt8}

/-- A step that charges nothing. -/
theorem Gives.uncharged {α : Type} {m : Decode α} {a : α} {cost : Nat} (h : Gives m d a { d with unread := rest }) (hcost : cost = 0) :
    Gives m d a { d with unread := rest, allocated := d.allocated + Int64.ofNat cost } := by
  rw [hcost, show d.allocated + Int64.ofNat 0 = d.allocated from Int64.add_zero _]
  exact h

/-! ## Strings -/

section Strings

variable {kind : StringKind} {extra : Nat}

theorem charge_afforded {n : Nat} (h : Affords d.options.allocLimit d.allocated n) (hn : 0 < n) (op key : Text) :
    Gives (charge op key (Int64.ofNat n)) d () { d with allocated := d.allocated + Int64.ofNat n } := by
  have hroom := h.resolve_left (Nat.ne_of_gt hn)
  refine (gives_get d).bind ?_
  simp only [hroom, if_false]
  rfl

theorem charge_unaffordable {n : Nat} (h : ¬Affords d.options.allocLimit d.allocated n) (op key : Text) :
    Fails (charge op key (Int64.ofNat n)) d .allocationFailure := by
  have hroom := not_not.1 (not_or.1 h).2
  refine (gives_get d).fails ?_
  simp only [hroom, and_self, if_true]
  exact fails_fail rfl d

/-- A string of definite length that is not empty is charged before it is read. -/
theorem Faces.chargeString_eq_charge {w : Width} {content : List UInt8} (h : Faces d (.string kind w content) rest)
    (hpos : 0 < content.length) (op key : Text) (want : String) :
    (Decoder.chargeString op key kind want extra).run.run d =
      (charge op key (Int64.ofNat (content.length + extra)) >>= fun _ => pure false).run.run d := by
  have hlen : ¬d.unread.length < content.length := by
    rw [h.unread, encode_eq, body]
    simp only [List.length_append]
    omega
  have hexpect : Gives (Decoder.expect op key kind.major want) d () d := h.expect op key want
  rw [Decoder.chargeString, hexpect.run_bind, (h.peekHead op key).run_bind]
  simp only [head, reduceCtorEq, if_false, hpos, if_true]
  rw [(gives_get d).run_bind]
  simp only [hlen, if_false]

theorem Faces.chargeString_afforded {w : Width} {content : List UInt8} (h : Faces d (.string kind w content) rest)
    (haffords : Affords d.options.allocLimit d.allocated (stringCost extra content.length)) (op key : Text) (want : String) :
    Gives (Decoder.chargeString op key kind want extra) d false
      { d with allocated := d.allocated + Int64.ofNat (stringCost extra content.length) } := by
  rcases Nat.eq_zero_or_pos content.length with hzero | hpos
  · have hexpect : Gives (Decoder.expect op key kind.major want) d () d := h.expect op key want
    have hfree : Gives (Decoder.chargeString op key kind want extra) d false { d with unread := d.unread } := by
      refine hexpect.bind ((h.peekHead op key).bind ?_)
      simp only [head, reduceCtorEq, if_false, hzero, Nat.lt_irrefl]
      exact gives_pure false d
    exact hfree.uncharged (if_pos hzero)
  · rw [show stringCost extra content.length = content.length + extra from if_neg (Nat.ne_of_gt hpos)] at haffords ⊢
    exact (h.chargeString_eq_charge hpos op key want).trans ((charge_afforded haffords (by omega) op key).bind (gives_pure false _))

theorem Faces.chargeString_unaffordable {w : Width} {content : List UInt8} (h : Faces d (.string kind w content) rest)
    (haffords : ¬Affords d.options.allocLimit d.allocated (stringCost extra content.length)) (op key : Text) (want : String) :
    Fails (Decoder.chargeString op key kind want extra) d .allocationFailure := by
  rcases Nat.eq_zero_or_pos content.length with hzero | hpos
  · rw [hzero] at haffords
    exact absurd (affords_zero _ _) haffords
  · rw [show stringCost extra content.length = content.length + extra from if_neg (Nat.ne_of_gt hpos)] at haffords
    obtain ⟨err, d', hrun, herr⟩ := (charge_unaffordable haffords op key).bind fun _ => (pure false : Decode Bool)
    exact ⟨err, d', (h.chargeString_eq_charge hpos op key want).trans hrun, herr⟩

/-- A string in chunks is not charged before it is read. -/
theorem Faces.chargeString_chunks {pieces : List (Width × List UInt8)} (h : Faces d (.chunks kind pieces) rest) (op key : Text)
    (want : String) : Gives (Decoder.chargeString op key kind want extra) d true d := by
  have hexpect : Gives (Decoder.expect op key kind.major want) d () d := h.expect op key want
  refine hexpect.bind ((h.peekHead op key).bind ?_)
  simp only [head, if_true]
  exact gives_pure true d

/-- The step that reads a string and charges it, before or after, as text and byte strings are read alike. -/
def takeString {α : Type} (op key : Text) (kind : StringKind) (want : String) (extra : Nat) (view : Item → Except Fault α)
    (bytes : α → List UInt8) : Decode α := do
  let isOpen ← chargeString op key kind want extra
  let a ← next op key view
  if isOpen ∧ !(bytes a).isEmpty then charge op key (Int64.ofNat ((bytes a).length + extra))
  return a

theorem takeText_eq_takeString (op key : Text) : takeText op key = takeString op key .text "text string" 1 Item.text Text.bytes := rfl

theorem takeBytes_eq_takeString (op key : Text) :
    takeBytes op key = takeString op key .bytes "byte string" 0 (fun i => .ok i.content) id := rfl

variable {α : Type} {view : Item → Except Fault α} {bytes : α → List UInt8} {a : α}

theorem Faces.takeString_afforded (h : Faces d i rest) (kind : StringKind) (hm : i.major = kind.major) (hview : view i = .ok a)
    (hbytes : bytes a = i.content) (haffords : Affords d.options.allocLimit d.allocated (stringCost extra i.content.length))
    (op key : Text) (want : String) :
    Gives (takeString op key kind want extra view bytes) d a
      { d with unread := rest, allocated := d.allocated + Int64.ofNat (stringCost extra i.content.length) } := by
  rcases eq_string_or_chunks hm with ⟨w, content, rfl⟩ | ⟨pieces, rfl⟩
  · have hfaces : Faces { d with allocated := d.allocated + Int64.ofNat (stringCost extra content.length) } (.string kind w content) rest :=
      ⟨h.unread, h.within⟩
    refine (h.chargeString_afforded haffords op key want).bind ((hfaces.next hview op key).bind ?_)
    simp only [Bool.false_eq_true, false_and, if_false]
    exact gives_pure a _
  · refine (h.chargeString_chunks op key want).bind ((h.next hview op key).bind ?_)
    rw [hbytes]
    cases hcontent : (Item.chunks kind pieces).content with
    | nil => simp [stringCost, gives_pure]
    | cons b tail =>
      rw [hcontent] at haffords
      simp only [List.isEmpty_cons, Bool.not_false, and_self, if_true]
      have hcharge := charge_afforded (d := { d with unread := rest }) haffords (Nat.lt_add_right extra (Nat.succ_pos _)) op key
      exact hcharge.bind (gives_pure a _)

theorem Faces.takeString_unaffordable (h : Faces d i rest) (kind : StringKind) (hm : i.major = kind.major) (hview : view i = .ok a)
    (hbytes : bytes a = i.content) (haffords : ¬Affords d.options.allocLimit d.allocated (stringCost extra i.content.length))
    (op key : Text) (want : String) : Fails (takeString op key kind want extra view bytes) d .allocationFailure := by
  rcases eq_string_or_chunks hm with ⟨w, content, rfl⟩ | ⟨pieces, rfl⟩
  · exact (h.chargeString_unaffordable haffords op key want).bind _
  · refine (h.chargeString_chunks op key want).fails ((h.next hview op key).fails ?_)
    rw [hbytes]
    cases hcontent : (Item.chunks kind pieces).content with
    | nil =>
      rw [hcontent] at haffords
      exact absurd (affords_zero _ _) haffords
    | cons b tail =>
      rw [hcontent] at haffords
      simp only [List.isEmpty_cons, Bool.not_false, and_self, if_true]
      exact Fails.bind (charge_unaffordable (d := { d with unread := rest }) haffords op key) _

/-- What is no string of the kind stops the decoding, whatever was charged for it. -/
theorem Faces.takeString_stops (h : Faces d i rest) (kind : StringKind) (hview : i.major = kind.major → ∃ f, view i = .error f)
    (op key : Text) (want : String) : Stops (takeString op key kind want extra view bytes) d := by
  by_cases hm : i.major = kind.major
  · obtain ⟨f, hf⟩ := hview hm
    rcases eq_string_or_chunks hm with ⟨w, content, rfl⟩ | ⟨pieces, rfl⟩
    · by_cases haffords : Affords d.options.allocLimit d.allocated (stringCost extra content.length)
      · have hfaces :
            Faces { d with allocated := d.allocated + Int64.ofNat (stringCost extra content.length) } (.string kind w content) rest :=
          ⟨h.unread, h.within⟩
        exact (h.chargeString_afforded haffords op key want).stops (((hfaces.next_fails hf op key).stops (by decide)).bind _)
      · exact ((h.chargeString_unaffordable haffords op key want).stops (by decide)).bind _
    · exact (h.chargeString_chunks op key want).stops (((h.next_fails hf op key).stops (by decide)).bind _)
  · exact (((h.expect_fails hm op key want).bind _).stops (by decide)).bind _

end Strings

/-! ## Values -/

section Values

variable {f : Field} {s : Slot}

theorem cost_eq_zero_of_capacity? {limit : Nat} (h : s.capacity? = some limit) (i : Item) : (s.filled i).cost = 0 := by
  cases s <;> cases h <;> cases i <;> rfl

/-- An item that suits the slot, and that neither the field nor the budget refuses, fills it and is charged. -/
theorem Faces.takeValue_afforded (h : Faces d i rest) (hslot : f.slot? = some s) (hs : s.Suits i) (ho : f.overflows i = false)
    (haffords : Affords d.options.allocLimit d.allocated (s.filled i).cost) (op : Text) :
    Gives (takeValue op f) d (s.filled i)
      { d with unread := rest, allocated := d.allocated + Int64.ofNat (s.filled i).cost } := by
  obtain ⟨key, checked, rfl⟩ := Field.exists_of_slot? hslot
  cases hc : s.capacity? with
  | some limit =>
    obtain ⟨w, n, rfl⟩ := eq_unsigned_of_suits hs hc
    exact (h.takeValue_number hc ho op).uncharged (cost_eq_zero_of_capacity? hc _)
  | none =>
    cases s with
    | simple v =>
      obtain ⟨v, rfl⟩ := hs
      exact Gives.uncharged ((h.takeSimple op key).bind (gives_pure _ _)) rfl
    | float32 bits =>
      obtain ⟨bits, rfl⟩ := hs
      exact Gives.uncharged ((h.takeFloat32 op key).bind (gives_pure _ _)) rfl
    | float64 bits =>
      obtain ⟨bits, rfl⟩ := hs
      exact Gives.uncharged ((h.takeFloat64 op key).bind (gives_pure _ _)) rfl
    | string v =>
      obtain ⟨t, ht⟩ := hs
      obtain ⟨hmajor, htext⟩ := spells_iff.1 ht
      obtain rfl : (⟨i.content⟩ : Text) = t := ht.content_eq
      refine Gives.bind ?_ (gives_pure _ _)
      rw [takeText_eq_takeString]
      exact h.takeString_afforded .text hmajor htext rfl haffords op key _
    | bytes v =>
      refine Gives.bind ?_ (gives_pure _ _)
      rw [takeBytes_eq_takeString]
      refine h.takeString_afforded .bytes hs ?_ ?_ haffords op key _ <;> rfl
    | _ => cases hc

/-- A value that the budget does not afford ends the decoding. -/
theorem Faces.takeValue_unaffordable (h : Faces d i rest) (hslot : f.slot? = some s) (hs : s.Suits i)
    (haffords : ¬Affords d.options.allocLimit d.allocated (s.filled i).cost) (op : Text) :
    Fails (takeValue op f) d .allocationFailure := by
  obtain ⟨key, checked, rfl⟩ := Field.exists_of_slot? hslot
  cases s with
  | string v =>
    obtain ⟨t, ht⟩ := hs
    obtain ⟨hmajor, htext⟩ := spells_iff.1 ht
    obtain rfl : (⟨i.content⟩ : Text) = t := ht.content_eq
    refine Fails.bind ?_ _
    rw [takeText_eq_takeString]
    exact h.takeString_unaffordable .text hmajor htext rfl haffords op key _
  | bytes v =>
    refine Fails.bind ?_ _
    rw [takeBytes_eq_takeString]
    refine h.takeString_unaffordable .bytes hs (a := i.content) ?_ ?_ haffords op key _ <;> rfl
  | simple v => obtain ⟨v, rfl⟩ := hs; exact absurd (affords_zero _ _) haffords
  | float32 bits => obtain ⟨bits, rfl⟩ := hs; exact absurd (affords_zero _ _) haffords
  | float64 bits => obtain ⟨bits, rfl⟩ := hs; exact absurd (affords_zero _ _) haffords
  | _ =>
    rw [cost_eq_zero_of_capacity? rfl] at haffords
    exact absurd (affords_zero _ _) haffords

/-- An item that does not suit the slot ends the decoding under any limit. -/
theorem Faces.takeValue_stops (h : Faces d i rest) (hslot : f.slot? = some s) (hs : ¬s.Suits i) (op : Text) :
    Stops (takeValue op f) d := by
  obtain ⟨key, checked, rfl⟩ := Field.exists_of_slot? hslot
  cases s with
  | simple v => exact ((h.takeSimple_fails (fun v hi => hs ⟨v, hi⟩) op key).stops (by decide)).bind _
  | float32 bits => exact ((h.takeFloat32_fails (fun bits hi => hs ⟨bits, hi⟩) op key).stops (by decide)).bind _
  | float64 bits => exact ((h.takeFloat64_fails (fun bits hi => hs ⟨bits, hi⟩) op key).stops (by decide)).bind _
  | string v =>
    refine Stops.bind ?_ _
    rw [takeText_eq_takeString]
    refine h.takeString_stops .text (fun hmajor => ?_) op key _
    cases htext : i.text with
    | ok t => exact absurd ⟨t, spells_iff.2 ⟨hmajor, htext⟩⟩ hs
    | error f => exact ⟨f, rfl⟩
  | bytes v => exact ((h.takeBytes_fails hs op key).stops (by decide)).bind _
  | _ => exact ((h.takeUnsigned_fails hs op key).stops (by decide)).bind _

theorem takeValue_unbound (hslot : f.slot? = none) (op : Text) (d : Decoder) : Stops (takeValue op f) d := by
  obtain ⟨key, binding, checked⟩ := f
  cases binding with
  | bound s => cases hslot
  | unbound t => exact stops_fail (by simp) d

end Values

/-! ## Nothing to read -/

/-- No whole item stands in front of what is unread. -/
def Blocked (d : Decoder) : Prop := ∀ i rest, ¬Faces d i rest

section Blocked

variable {α β : Type} {m : Decode α}

/-- A step that needs an item. -/
def Halts (m : Decode α) : Prop := ∀ d, Blocked d → Stops m d

/-- A step that takes no item. -/
def Waits (m : Decode α) : Prop := ∀ d, Blocked d → Stops m d ∨ ∃ a d', Gives m d a d' ∧ Blocked d'

theorem Halts.bind (h : Halts m) (f : α → Decode β) : Halts (m >>= f) := fun d hd => (h d hd).bind f

theorem Waits.bind {f : α → Decode β} (h : Waits m) (hf : ∀ a, Halts (f a)) : Halts (m >>= f) := by
  intro d hd
  rcases h d hd with hstops | ⟨a, d', hgives, hd'⟩
  · exact hstops.bind f
  · exact hgives.stops (hf a d' hd')

theorem Waits.seq {f : α → Decode β} (h : Waits m) (hf : ∀ a, Waits (f a)) : Waits (m >>= f) := by
  intro d hd
  rcases h d hd with hstops | ⟨a, d', hgives, hd'⟩
  · exact Or.inl (hstops.bind f)
  · rcases hf a d' hd' with hstops | ⟨b, d'', hgives', hd''⟩
    · exact Or.inl (hgives.stops hstops)
    · exact Or.inr ⟨b, d'', hgives.bind hgives', hd''⟩

theorem waits_pure (a : α) : Waits (pure a : Decode α) := fun d hd => Or.inr ⟨a, d, gives_pure a d, hd⟩

theorem waits_get : Waits (get : Decode Decoder) := fun d hd => Or.inr ⟨d, d, gives_get d, hd⟩

theorem halts_fail {err : Error} (h : err.code ≠ .outOfRange) : Halts (fail err : Decode α) := fun d _ => stops_fail h d

theorem waits_fail {err : Error} (h : err.code ≠ .outOfRange) : Waits (fail err : Decode α) := fun d _ => Or.inl (stops_fail h d)

variable (op key : Text)

theorem waits_peek : Waits (peek op key) := by
  refine waits_get.seq fun d => ?_
  cases d.unread with
  | nil => exact waits_fail (by simp)
  | cons b tail => exact waits_pure _

theorem waits_peekHead : Waits (peekHead op key) := by
  refine waits_get.seq fun d => ?_
  cases Head.read d.unread with
  | error f => exact waits_fail (by simp)
  | ok r => exact waits_pure _

theorem waits_expect (major : Major) (want : String) : Waits (expect op key major want) := by
  refine (waits_peek op key).seq fun ⟨b, tail⟩ => ?_
  dsimp only
  split
  · exact waits_fail (by simp)
  · exact waits_pure ()

theorem waits_charge (n : Int64) : Waits (charge op key n) := by
  intro d hd
  by_cases hroom : 0 < d.options.allocLimit ∧ d.options.allocLimit < d.allocated + n
  · refine Or.inl ((gives_get d).stops ?_)
    simp only [hroom, and_self, if_true]
    exact stops_fail (by simp) d
  · refine Or.inr ⟨(), { d with allocated := d.allocated + n }, (gives_get d).bind ?_, fun i rest hi => hd i rest ⟨hi.unread, hi.within⟩⟩
    simp only [hroom, if_false]
    rfl

theorem waits_chargeString (kind : StringKind) (want : String) (extra : Nat) : Waits (chargeString op key kind want extra) := by
  refine (waits_expect op key kind.major want).seq fun _ => (waits_peekHead op key).seq fun ⟨h, rest⟩ => ?_
  dsimp only
  split
  · exact waits_pure true
  · split
    · refine waits_get.seq fun d => ?_
      split
      · exact (waits_fail (by simp)).seq fun _ => waits_pure false
      · exact (waits_charge op key _).seq fun _ => waits_pure false
    · exact waits_pure false

theorem halts_next (view : Item → Except Fault α) : Halts (next op key view) := by
  intro d hd
  refine (gives_get d).stops ?_
  cases hread : Item.read {} d.unread with
  | error f => exact stops_fail (by simp) d
  | ok r => exact absurd ⟨(read_eq_ok_iff.1 hread).1, (read_eq_ok_iff.1 hread).2⟩ (hd r.1 r.2)

theorem halts_takeKey : Halts (takeKey op key) := by
  refine waits_get.bind fun d => ?_
  split
  · exact waits_get.bind fun d => halts_fail (by simp)
  · exact (waits_expect op key .text _).bind fun _ => (halts_next op key _).bind _

theorem halts_takeTolerantKey : Halts (takeTolerantKey op) := by
  refine waits_get.bind fun d => ?_
  split
  · exact waits_get.bind fun d => halts_fail (by simp)
  · refine (waits_expect op "" .text _).bind fun _ => (waits_peekHead op "").bind fun ⟨h, rest⟩ => ?_
    dsimp only
    split
    · exact (halts_takeKey op "").bind _
    · exact (halts_next op "" _).bind _

/-- The bytes of a simple value are a whole item. -/
theorem faces_simple {d : Decoder} {b : UInt8} {tail : List UInt8} (hunread : d.unread = b :: tail)
    (hmajor : Major.ofByte b = .primitive) :
    (b.toNat % 32 < 24 → ¬Blocked d) ∧ ∀ v rest, b.toNat % 32 = 24 → tail = v :: rest → ¬v < 32 → ¬Blocked d := by
  have hinitial := Head.initial_ofByte b
  rw [hmajor] at hinitial
  constructor
  · intro hinfo hblocked
    have hv : (UInt8.ofNat (b.toNat % 32)).toNat = b.toNat % 32 := by
      rw [UInt8.toNat_ofNat']
      omega
    have hlt : UInt8.ofNat (b.toNat % 32) < 24 := by
      rw [UInt8.lt_iff_toNat_lt, hv]
      exact hinfo
    refine hblocked (.simple (UInt8.ofNat (b.toNat % 32))) tail ⟨?_, Or.inl hlt⟩
    rw [encode_eq, head_simple_of_lt hlt, hv, hunread, Head.encode_some]
    simp [Width.size, Width.info, bigEndian, body, hinitial]
  · rintro v rest hinfo rfl hv hblocked
    have hge : 32 ≤ v := UInt8.not_lt.1 hv
    rw [hinfo] at hinitial
    refine hblocked (.simple v) rest ⟨?_, Or.inr hge⟩
    rw [encode_eq, head_simple_of_le (UInt8.le_trans (by decide) hge), hunread, Head.encode_some]
    simp [Width.size, Width.info, bigEndian, body, hinitial]

theorem halts_takeSimple : Halts (takeSimple op key) := by
  intro d hd
  cases hunread : d.unread with
  | nil =>
    refine Stops.bind (Stops.bind ((gives_get d).stops ?_) _) _
    rw [hunread]
    exact stops_fail (by simp) d
  | cons b tail =>
    have hpeek : Gives (peek op key) d (b, tail) d := by
      refine (gives_get d).bind ?_
      rw [hunread]
      exact gives_pure _ d
    by_cases hmajor : Major.ofByte b = .primitive
    · obtain ⟨hshort, hlong⟩ := faces_simple hunread hmajor
      have hexpect : Gives (expect op key .primitive "simple value") d () d := by
        refine hpeek.bind ?_
        simp only [hmajor, ne_eq, not_true_eq_false, if_false]
        exact gives_pure () d
      refine hexpect.stops (hpeek.stops ?_)
      dsimp only
      split
      · rename_i hinfo
        exact absurd hd (hshort hinfo)
      · split
        · rename_i hinfo
          split
          · exact stops_fail (by simp) d
          · rename_i v rest
            split
            · exact stops_fail (by simp) d
            · rename_i hv
              exact absurd hd (hlong v rest hinfo rfl hv)
        · exact stops_fail (by simp) d
    · refine Stops.bind (hpeek.stops ?_) _
      simp only [hmajor, ne_eq, not_false_eq_true, if_true]
      exact stops_fail (by simp) d

theorem halts_takeString {extra : Nat} (kind : StringKind) (want : String) (view : Item → Except Fault α) (bytes : α → List UInt8) :
    Halts (takeString op key kind want extra view bytes) :=
  (waits_chargeString op key kind want extra).bind fun _ => (halts_next op key view).bind _

theorem halts_takeNumber (f : Field) (s : Slot) (limit : Nat) (refused : Nat → Detail) : Halts (takeNumber op f s limit refused) :=
  ((waits_expect op f.key .unsigned _).bind fun _ => halts_next op f.key _).bind _

/-- A number of one size is told by its first byte. -/
theorem halts_takeFloat (first : UInt8) (want : String) (view : Item → Except Fault α) :
    Halts (do
      let (b, _) ← peek op key
      if b ≠ first then unexpected op key want b else next op key view) := by
  refine (waits_peek op key).bind fun ⟨b, tail⟩ => ?_
  dsimp only
  split
  · exact halts_fail (by simp)
  · exact halts_next op key view

theorem halts_takeValue (f : Field) : Halts (takeValue op f) := by
  obtain ⟨key, binding, checked⟩ := f
  cases binding with
  | unbound t => exact halts_fail (by simp)
  | bound s =>
    cases s with
    | simple v => exact (halts_takeSimple op key).bind _
    | float32 bits => exact (halts_takeFloat op key 0xfa "float32" _).bind _
    | float64 bits => exact (halts_takeFloat op key 0xfb "float64" _).bind _
    | string v => exact (halts_takeString op key .text "text string" Item.text Text.bytes).bind _
    | bytes v => exact (halts_takeString op key .bytes "byte string" (fun i => .ok i.content) id).bind _
    | _ => exact halts_takeNumber op _ _ _ _

end Blocked

end Decoder

end SensorWire
