import Mathlib
import SensorWire.Message.Codec
import SensorWire.Proofs.Cursor
import SensorWire.Proofs.Kinds

/-!
# Strict and lenient decoding agree

Input that a strict decode takes is taken by a lenient one, with the same outcome. `Covered` says that a step gives whatever another one
gives: the names of operations, which only errors carry, make no difference to what is given. `Reads` is what a strict decode of fields
does when nothing goes wrong: a pair for each field in order. The two walks that look keys up do the same on such pairs.

Main statement: `lenient_decode_agrees`.
-/

namespace SensorWire

open Cbor Item

namespace Decoder

/-! ## The names of operations -/

/-- Whatever the first step gives, the second gives too. -/
def Covered {α : Type} (m m' : Decode α) : Prop := ∀ d a d', Gives m d a d' → Gives m' d a d'

section Covered

variable {α β : Type} {m m' : Decode α}

theorem Covered.refl (m : Decode α) : Covered m m := fun _ _ _ h => h

theorem covered_fail (err : Error) (m : Decode α) : Covered (fail err) m := fun _ _ _ h => absurd h (not_gives_fail err)

theorem Covered.bind {f f' : α → Decode β} (h : Covered m m') (hf : ∀ a, Covered (f a) (f' a)) : Covered (m >>= f) (m' >>= f') := by
  intro d b d' hgives
  obtain ⟨a, d₁, hm, hrest⟩ := hgives.of_bind
  exact (h d a d₁ hm).bind (hf a d₁ b d' hrest)

theorem Covered.ite {c : Prop} [Decidable c] {l l' : Decode α} (h : Covered m m') (h' : Covered l l') :
    Covered (if c then m else l) (if c then m' else l') := by
  split
  · exact h
  · exact h'

variable (op op' key : Text)

theorem covered_peek : Covered (peek op key) (peek op' key) := by
  refine (Covered.refl get).bind fun d => ?_
  cases d.unread with
  | nil => exact covered_fail _ _
  | cons b rest => exact .refl _

theorem covered_next (view : Item → Except Fault α) : Covered (next op key view) (next op' key view) := by
  refine (Covered.refl get).bind fun d => ?_
  cases Item.read {} d.unread with
  | error f => exact covered_fail _ _
  | ok r =>
    obtain ⟨i, rest⟩ := r
    dsimp only
    cases view i with
    | error f => exact covered_fail _ _
    | ok a => exact .refl _

theorem covered_expect (major : Major) (want : String) : Covered (expect op key major want) (expect op' key major want) :=
  (covered_peek op op' key).bind fun _ => .ite (covered_fail _ _) (.refl _)

theorem covered_peekHead : Covered (peekHead op key) (peekHead op' key) := by
  refine (Covered.refl get).bind fun d => ?_
  cases Head.read d.unread with
  | error f => exact covered_fail _ _
  | ok r => exact .refl _

theorem covered_charge (n : Int64) : Covered (charge op key n) (charge op' key n) :=
  (Covered.refl get).bind fun _ => .ite (covered_fail _ _) (.refl _)

theorem covered_takeUnsigned : Covered (takeUnsigned op key) (takeUnsigned op' key) :=
  (covered_expect op op' key _ _).bind fun _ => covered_next op op' key _

theorem covered_takeSimple : Covered (takeSimple op key) (takeSimple op' key) := by
  refine (covered_expect op op' key _ _).bind fun _ => (covered_peek op op' key).bind fun (b, rest) => ?_
  refine .ite (.refl _) (.ite ?_ (covered_fail _ _))
  cases rest with
  | nil => exact covered_fail _ _
  | cons v rest => exact .ite (covered_fail _ _) (.refl _)

theorem covered_takeFloat32 : Covered (takeFloat32 op key) (takeFloat32 op' key) :=
  (covered_peek op op' key).bind fun _ => .ite (covered_fail _ _) (covered_next op op' key _)

theorem covered_takeFloat64 : Covered (takeFloat64 op key) (takeFloat64 op' key) :=
  (covered_peek op op' key).bind fun _ => .ite (covered_fail _ _) (covered_next op op' key _)

theorem covered_chargeString (kind : StringKind) (want : String) (extra : Nat) :
    Covered (chargeString op key kind want extra) (chargeString op' key kind want extra) := by
  refine (covered_expect op op' key _ _).bind fun _ => (covered_peekHead op op' key).bind fun _ => ?_
  refine .ite (.refl _) (.ite ?_ (.refl _))
  refine (Covered.refl get).bind fun _ => .ite ?_ ?_
  · exact (covered_fail _ _).bind fun _ => .refl _
  · exact (covered_charge op op' key _).bind fun _ => .refl _

/-- The step that charges a string of open length once it is read. -/
theorem covered_chargeOpen (c : Prop) [Decidable c] (n : Int64) (a : α) :
    Covered (if c then do charge op key n; pure a else pure a) (if c then do charge op' key n; pure a else pure a) :=
  .ite ((covered_charge op op' key n).bind fun _ => .refl _) (.refl _)

theorem covered_takeText : Covered (takeText op key) (takeText op' key) :=
  (covered_chargeString op op' key _ _ _).bind fun _ => (covered_next op op' key _).bind fun _ => covered_chargeOpen op op' key _ _ _

theorem covered_takeBytes : Covered (takeBytes op key) (takeBytes op' key) :=
  (covered_chargeString op op' key _ _ _).bind fun _ => (covered_next op op' key _).bind fun _ => covered_chargeOpen op op' key _ _ _

theorem covered_takeNumber (f : Field) (s : Slot) (limit : Nat) (refused : Nat → Detail) :
    Covered (takeNumber op f s limit refused) (takeNumber op' f s limit refused) :=
  (covered_takeUnsigned op op' f.key).bind fun _ => .ite nofun (.refl _)

/-- The value of a field, whatever operation takes it. -/
theorem covered_takeValue (f : Field) : Covered (takeValue op f) (takeValue op' f) := by
  obtain ⟨key, binding, checked⟩ := f
  cases binding with
  | unbound t => exact covered_fail _ _
  | bound s => cases s with
    | uint8 _ | uint16 _ | uint32 _ | uint64 _ | bool _ => exact covered_takeNumber op op' _ _ _ _
    | simple _ => exact (covered_takeSimple op op' key).bind fun _ => .refl _
    | float32 _ => exact (covered_takeFloat32 op op' key).bind fun _ => .refl _
    | float64 _ => exact (covered_takeFloat64 op op' key).bind fun _ => .refl _
    | string _ => exact (covered_takeText op op' key).bind fun _ => .refl _
    | bytes _ => exact (covered_takeBytes op op' key).bind fun _ => .refl _

end Covered

/-! ## Keys -/

variable {d d' : Decoder} {op key t : Text}

/-- A key that was taken stood in front, and pairs remained. -/
theorem Gives.of_takeKey (h : Gives (takeKey op key) d t d') :
    ∃ i rest, Faces d i rest ∧ d.read < d.count ∧ i.Spells t ∧ d' = { d with unread := rest, read := d.read + 1 } := by
  obtain ⟨s, d₁, hget, hmore⟩ := h.of_bind
  obtain ⟨rfl, rfl⟩ := hget.of_get
  split at hmore
  · obtain ⟨s, d₂, -, hfail⟩ := hmore.of_bind
    exact absurd hfail (not_gives_fail _)
  · rename_i hm
    obtain ⟨u, d₂, hexpect, hrest⟩ := hmore.of_bind
    obtain ⟨⟨b, tail, hb, hmajor⟩, rfl⟩ := hexpect.of_expect
    obtain ⟨k, d₃, hnext, hrest⟩ := hrest.of_bind
    obtain ⟨i, rest, hi, htext, rfl⟩ := hnext.of_next
    obtain ⟨u, d₄, hmodify, hpure⟩ := hrest.of_bind
    obtain rfl := hmodify.of_modify
    obtain ⟨rfl, rfl⟩ := hpure.of_pure
    refine ⟨i, rest, hi, by simpa [Decoder.more] using hm, spells_iff.2 ⟨?_, htext⟩, rfl⟩
    obtain ⟨b', tail', hb', hm'⟩ := hi.within.first
    rw [hi.unread, hb', List.cons_append, List.cons.injEq] at hb
    rw [← hm', hb.1, hmajor]

/-- Leaving a map means that all pairs were read. -/
theorem Gives.of_leave {u : Unit} (h : Gives leave d u d') : d.read = d.count := by
  obtain ⟨s, d₁, hget, hcheck⟩ := h.of_bind
  obtain ⟨rfl, rfl⟩ := hget.of_get
  split at hcheck
  · exact absurd hcheck (not_gives_fail _)
  · rename_i hall
    rw [not_or, not_not] at hall
    exact hall.1

/-- Entering with a number of pairs that is right is entering with any. -/
theorem enter_none_of_enter {options : Options} {expected : Option Int} {data : List UInt8}
    (h : enter options expected data = (.ok (), d)) : enter options none data = (.ok (), d) := by
  obtain ⟨w, pairs, rest, rfl, hin, rfl⟩ := eq_inside_of_enter h
  exact enter_map hin options (fun n (hn : none = some n) => nomatch hn) rest

theorem wholeItems_of_enter {options : Options} {expected : Option Int} {data : List UInt8}
    (h : enter options expected data = (.ok (), d)) : WholeItems d.unread := by
  obtain ⟨w, pairs, rest, -, hin, rfl⟩ := eq_inside_of_enter h
  exact .pairs (PairsWithin.shallower (Nat.zero_le 1) hin.2.2.2.2)

end Decoder

open Decoder

/-- A key of definite length is as long as its text. -/
theorem Cbor.Item.Spells.shortKey {i : Item} {t : Text} (h : i.Spells t) (ht : t.length ≤ maxKeyLength) : i.ShortKey := by
  cases i with
  | string kind w content =>
    cases kind with
    | bytes => exact h.elim
    | text => exact Or.inr (show content.length ≤ _ from h.1 ▸ ht)
  | chunks kind pieces => exact Or.inl rfl
  | _ => exact h.elim

/-- What takes a key in order, takes it by looking it up. -/
theorem Decoder.Gives.takeTolerantKey {d d' : Decoder} {op key t : Text} (h : Gives (takeKey op key) d t d')
    (ht : t.length ≤ maxKeyLength) (op' : Text) : Gives (takeTolerantKey op') d (.key t) d' := by
  obtain ⟨i, rest, hi, hmore, hspells, rfl⟩ := h.of_takeKey
  exact hi.takeTolerantKey hmore (hspells.shortKey ht) hspells op'

/-! ## Fields in order -/

namespace Table

/-- A pair for each field in order, with the slots that they give. -/
inductive Reads : List Field → Decoder → List Slot → Decoder → Prop
  | nil (d : Decoder) : Reads [] d [] d
  | cons {f : Field} {fields : List Field} {s : Slot} {slots : List Slot} {d d₁ d' : Decoder} :
    Gives (strictPair f) d s d₁ → Reads fields d₁ slots d' → Reads (f :: fields) d (s :: slots) d'

/-- The fields with the slots that were read, as entries of a walk. -/
def stored (fields : List Field) (slots : List Slot) : List Entry := List.zipWith (fun f s => Entry.store ⟨f, false⟩ s) fields slots

variable {f : Field} {fields : List Field} {s : Slot} {slots : List Slot} {d d' : Decoder} {w : Walk}

/-- A pair that a strict table takes: its own key, and then its value. -/
theorem of_strictPair (h : Gives (strictPair f) d s d') :
    ∃ d₁, Gives (takeKey walkOp f.key) d f.key d₁ ∧ Gives (takeValue walkOp f) d₁ s d' := by
  obtain ⟨key, d₁, hkey, hvalue⟩ := h.of_bind
  split at hvalue
  · exact absurd hvalue (not_gives_fail _)
  · rename_i hsame
    obtain rfl := not_not.1 hsame
    exact ⟨d₁, hkey, hvalue⟩

/-- A strict walk that meets no error and no number out of range reads a pair for each field. -/
theorem reads_of_walkStrict (h : walkStrict fields d = (w, d')) (herr : w.error = none) (hrange : w.outOfRange = []) :
    ∃ slots, Reads fields d slots d' ∧ w = ⟨stored fields slots, [], [], none⟩ := by
  induction fields generalizing d w with
  | nil =>
    cases h
    exact ⟨[], .nil _, rfl⟩
  | cons f fields ih =>
    rw [walkStrict] at h
    rcases hpair : (strictPair f).run.run d with ⟨err | s, d₁⟩
    · simp only [hpair] at h
      split at h
      · cases h
        cases hrange
      · cases h
        cases herr
    · simp only [hpair] at h
      cases h
      obtain ⟨slots, hreads, hwalk⟩ := ih (d := d₁) rfl herr hrange
      refine ⟨s :: slots, .cons hpair hreads, ?_⟩
      rw [hwalk]
      rfl

/-- What was read counts a key for each field. -/
theorem Reads.advances (h : Reads fields d slots d') (hd : WholeItems d.unread) :
    WholeItems d'.unread ∧ d'.read = d.read + fields.length ∧ d'.count = d.count := by
  induction h with
  | nil d => exact ⟨hd, rfl, rfl⟩
  | @cons f fields s slots d d₁ d' hpair _ ih =>
    obtain ⟨d₀, hkey, hvalue⟩ := of_strictPair hpair
    have hafter := (sound_takeKey hd walkOp f.key).gives hkey
    have hstay := (sound_takeValue hafter.whole walkOp f).gives hvalue
    obtain ⟨i, rest, -, -, -, rfl⟩ := hkey.of_takeKey
    have hread : d₁.read = d.read + 1 := Nat.le_antisymm hstay.read_le_add hstay.read_le
    obtain ⟨hwhole, hmore, hcount⟩ := ih hstay.whole
    exact ⟨hwhole, by rw [hmore, hread, List.length_cons]; omega, hcount.trans hstay.count⟩

/-- A walk that looks keys up does the same. -/
theorem Reads.walkTolerant (h : Reads fields d slots d') (seen : List Entry) (hkeys : KeysDiffer seen fields)
    (hshort : ∀ f ∈ fields, f.key.length ≤ maxKeyLength) :
    walkTolerant fields.length ⟨seen ++ fields.map (⟨·, false⟩), [], [], none⟩ d =
      (⟨seen ++ stored fields slots, [], [], none⟩, d') := by
  induction h generalizing seen with
  | nil d => rfl
  | @cons f fields s slots d d₁ d' hpair _ ih =>
    rw [List.forall_mem_cons] at hshort
    obtain ⟨d₀, hkey, hvalue⟩ := of_strictPair hpair
    have hgives : Gives (tolerantPair (seen ++ (f :: fields).map (⟨·, false⟩))) d (.stored f.key s) d₁ := by
      refine (hkey.takeTolerantKey hshort.1 walkOp).bind ?_
      simp only [List.map_cons, find?_own _ hkeys.own]
      refine Gives.tryCatch (hvalue.bind ?_) _
      exact gives_pure _ _
    have hrest := ih (seen ++ [Entry.store ⟨f, false⟩ s]) (hkeys.next rfl) hshort.2
    simp only [List.append_assoc, List.singleton_append] at hrest
    rw [List.length_cons, Table.walkTolerant, hgives]
    simp only [List.map_cons, storeEntry_own hkeys.own, hrest]
    rfl

/-- The walk of a strict table without an error to report. -/
theorem reads_of_walk {t : Table} (hstrict : t.strict = true) (hwalk : t.walk d = (w, d')) (herr : w.error = none)
    (hnone : w.aggregate walkOp = none) : ∃ slots, Reads t.fields d slots d' ∧ w = ⟨stored t.fields slots, [], [], none⟩ := by
  rw [walk, if_pos hstrict] at hwalk
  refine reads_of_walkStrict hwalk herr ?_
  by_contra hrange
  simp [Walk.aggregate, hrange] at hnone

section Decode

variable {t : Table} {options : Options} {data : List UInt8}

/-- The number of pairs that a table expects. -/
def expected (t : Table) : Option Int := if t.strict then some t.fields.length else none

/-- Decoding is entering, walking and leaving. -/
theorem decode_of_walk {w : Walk} {d₁ : Decoder} (henter : enter options t.expected data = (.ok (), d)) (hwalk : t.walk d = (w, d₁))
    (herr : w.error = none) (hleave : Gives leave d₁ () d') :
    t.decode options data = (w.aggregate walkOp, { t with fields := w.fields false }, d'.trace) := by
  rw [expected] at henter
  simp only [decode, henter, hwalk, herr, show leave.run.run d₁ = (.ok (), d') from hleave]

theorem walk_of_decode (h : (t.decode options data).1 = none) :
    ∃ d w d₁ d', enter options t.expected data = (.ok (), d) ∧ t.walk d = (w, d₁) ∧ w.error = none ∧ w.aggregate walkOp = none ∧
      Gives leave d₁ () d' := by
  rw [decode, ← expected] at h
  rcases henter : enter options t.expected data with ⟨err | _, d⟩
  · simp only [henter, reduceCtorEq] at h
  rcases hwalk : t.walk d with ⟨w, d₁⟩
  cases herr : w.error with
  | some err => simp only [henter, hwalk, herr, reduceCtorEq] at h
  | none =>
    rcases hleave : leave.run.run d₁ with ⟨err | _, d'⟩
    · simp only [henter, hwalk, herr, hleave, reduceCtorEq] at h
    simp only [henter, hwalk, herr, hleave] at h
    exact ⟨d, w, d₁, d', rfl, hwalk, herr, h, hleave⟩

/-- What a strict decode takes without an error, a decode by the keys takes in the same way. -/
theorem decode_tolerant_of_strict (hkeys : (t.fields.map Field.key).Nodup) (hshort : ∀ f ∈ t.fields, f.key.length ≤ maxKeyLength)
    (h : ({ t with strict := true }.decode options data).1 = none) :
    ∃ fields trace, { t with strict := true }.decode options data = (none, ⟨fields, true⟩, trace) ∧
      { t with strict := false }.decode options data = (none, ⟨fields, false⟩, trace) := by
  obtain ⟨d, w, d₁, d', henter, hwalk, herr, hnone, hleave⟩ := walk_of_decode h
  obtain ⟨slots, hreads, rfl⟩ := reads_of_walk rfl hwalk herr hnone
  -- all pairs were read, one for each field, so the walk by the keys has as many to read
  have hcount : d.count - d.read = t.fields.length := by
    obtain ⟨-, hread, hsame⟩ := hreads.advances (wholeItems_of_enter henter)
    have hall := hleave.of_leave
    dsimp only at hread
    omega
  have htolerant : Table.walk { t with strict := false } d = (⟨stored t.fields slots, [], [], none⟩, d₁) := by
    rw [walk, if_neg Bool.false_ne_true, hcount]
    exact hreads.walkTolerant [] hkeys hshort
  refine ⟨_, _, decode_of_walk henter hwalk rfl hleave, ?_⟩
  exact decode_of_walk (enter_none_of_enter henter) htolerant rfl hleave

end Decode

/-- The fields of a strict table, when there is no error to report. -/
theorem reads_of_decodeFields {t t' : Table} (hstrict : t.strict = true) (h : t.decodeFields d = (none, t', d')) :
    ∃ slots, Reads t.fields d slots d' ∧ t' = { t with fields := (stored t.fields slots).map Entry.field } := by
  rw [decodeFields] at h
  rcases hwalk : t.walk d with ⟨w, d₁⟩
  cases herr : w.error with
  | some err => simp only [hwalk, herr, Prod.mk.injEq, reduceCtorEq, false_and] at h
  | none =>
    simp only [hwalk, herr, Prod.mk.injEq] at h
    obtain ⟨hnone, rfl, rfl⟩ := h
    obtain ⟨slots, hreads, rfl⟩ := reads_of_walk hstrict hwalk herr hnone
    exact ⟨slots, hreads, rfl⟩

theorem lookup?_own {seen rest : List Field} (h : ∀ g ∈ seen, g.key ≠ f.key) :
    ((seen ++ f :: rest).find? fun g => g.key == f.key) = some f := by
  rw [List.find?_append, List.find?_eq_none.2 fun g hg => by simpa using h g hg]
  simp

theorem updateFirst_own {seen rest : List Field} (h : ∀ g ∈ seen, g.key ≠ f.key) (update : Field → Field) :
    updateFirst f.key update (seen ++ f :: rest) = seen ++ update f :: rest := by
  induction seen with
  | nil => simp [updateFirst]
  | cons g seen ih =>
    rw [List.forall_mem_cons] at h
    rw [List.cons_append, updateFirst, if_neg (by simpa using h.1), ih h.2, List.cons_append]

end Table

/-! ## Samples -/

namespace Message

variable {room n : Nat} {s s' : Sampling} {d d' : Decoder} {fields : List Field} {slots : List Slot}

/-- A sampling with other fields in its message. -/
def Sampling.withFields (s : Sampling) (fields : List Field) : Sampling :=
  { s with message := { s.message with table := { s.message.table with fields } } }

/-- Fields that were read in order are read the same when keys may come in any order. -/
theorem takeInAnyOrder_of_reads (h : Table.Reads fields d slots d') (seen : List Field)
    (hfields : s.message.table.fields = seen ++ fields) (hkeys : ((seen ++ fields).map Field.key).Nodup)
    (hshort : ∀ f ∈ fields, f.key.length ≤ maxKeyLength) (hnot : ∀ f ∈ fields, f.key ≠ samplesKey) :
    takeInAnyOrder room (fields.length + n) [] s d =
      takeInAnyOrder room n [] (s.withFields (seen ++ (Table.stored fields slots).map Table.Entry.field)) d' := by
  induction h generalizing seen s with
  | nil d =>
    have hsame : s.withFields (seen ++ (Table.stored [] []).map Table.Entry.field) = s := by
      rw [Sampling.withFields, Table.stored, List.zipWith_nil_left, List.map_nil, ← hfields]
    rw [hsame, List.length_nil, Nat.zero_add]
  | @cons f fields slot slots d d₁ d' hpair hreads ih =>
    rw [List.forall_mem_cons] at hshort hnot
    obtain ⟨d₀, hkey, hvalue⟩ := Table.of_strictPair hpair
    have hother : ∀ g ∈ seen, g.key ≠ f.key := by
      rw [List.map_append, List.map_cons] at hkeys
      intro g hg
      exact (List.nodup_append.1 hkeys).2.2 _ (List.mem_map_of_mem hg) _ (List.mem_cons_self ..)
    have htolerant := hkey.takeTolerantKey hshort.1 "TolerantKey"
    have hlookup : s.message.table.lookup? f.key = some f := by
      rw [Table.lookup?, hfields]
      exact Table.lookup?_own hother
    have hvalue' := covered_takeValue Table.walkOp "Value" f _ _ _ hvalue
    have hstore : s.message.table.store f.key slot =
        { s.message.table with fields := seen ++ f.store slot :: fields } := by
      rw [Table.store, Table.update, hfields, Table.updateFirst_own hother]
    have hrest := ih (seen ++ [f.store slot]) (s := s.withFields (seen ++ f.store slot :: fields)) (by simp [Sampling.withFields])
      (by simpa [Field.store] using hkeys) hshort.2 hnot.2
    rw [List.length_cons, Nat.add_right_comm, takeInAnyOrder, htolerant]
    simp only [hnot.1, if_false, hlookup, show (takeValue "Value" f).run.run d₀ = (.ok slot, d₁) from hvalue', hstore]
    simpa [Sampling.withFields, Table.stored, Table.Entry.store] using hrest

/-- Reading samples counts no key. -/
theorem advances_takeSamples (n : Nat) {d : Decoder} (h : WholeItems d.unread) : Advances 0 d (takeSamples n d).2.2 := by
  induction n generalizing d with
  | zero => exact .refl h
  | succ n ih =>
    have hone := (sound_takeFloat64 h "NextFloat64" "").advances
    rw [takeSamples]
    rcases htake : (takeFloat64 "NextFloat64" "").run.run d with ⟨err | bits, d₁⟩
    · rw [htake] at hone
      exact hone
    · rw [htake] at hone
      exact hone.trans (ih hone.whole)

theorem advances_takeSignal (h : WholeItems d.unread) : Advances 0 d (takeSignal room n s d).2.2 := by
  unfold takeSignal
  dsimp only
  split
  · exact .refl h
  · split
    · have hsamples := advances_takeSamples n h
      split <;> simp_all
    · have hcharge := (sound_charge h "Charge" samplesKey (Int64.ofNat (8 * n))).advances
      rcases hrun : (charge "Charge" samplesKey (Int64.ofNat (8 * n))).run.run d with ⟨err | _, d₁⟩
      · rw [hrun] at hcharge
        exact hcharge
      · rw [hrun] at hcharge
        have hsamples := hcharge.trans (advances_takeSamples n hcharge.whole)
        dsimp only
        split <;> simp_all

/-- The steps of a strict decode of a message with samples when nothing goes wrong. -/
theorem gives_of_takeInOrder (h : takeInOrder room s d = (none, s', d')) :
    ∃ table d₁ d₂ d₃, s.message.table.decodeFields d = (none, table, d₁) ∧ Gives (takeKey "Key" "") d₁ samplesKey d₂ ∧
      Gives (takeArrayHead "ArrayValue" samplesKey) d₂ (sampleCount { s.message with table }) d₃ ∧
      takeSignal room (sampleCount { s.message with table }) { s with message := { s.message with table } } d₃ = (none, s', d') := by
  unfold takeInOrder at h
  rcases hfields : s.message.table.decodeFields d with ⟨_ | err, table, d₁⟩
  · simp only [hfields] at h
    split at h
    · cases h
    · rcases hkey : (takeKey "Key" "").run.run d₁ with ⟨err | key, d₂⟩
      · simp only [hkey] at h
        cases h
      · simp only [hkey] at h
        split at h
        · cases h
        · rename_i hsame
          obtain rfl := not_not.1 hsame
          rcases harray : (takeArrayHead "ArrayValue" samplesKey).run.run d₂ with ⟨err | n, d₃⟩
          · simp only [harray] at h
            cases h
          · simp only [harray] at h
            split at h
            · cases h
            · rename_i hcount
              obtain rfl := not_not.1 hcount
              exact ⟨table, d₁, d₂, d₃, rfl, hkey, harray, h⟩
  · simp only [hfields] at h
    cases h

/-- What a strict decode of a message with samples does when nothing goes wrong. -/
theorem reads_of_takeInOrder (hstrict : s.message.table.strict = true) (h : takeInOrder room s d = (none, s', d')) :
    ∃ slots n d₁ d₂ d₃, Table.Reads s.message.table.fields d slots d₁ ∧ Gives (takeKey "Key" "") d₁ samplesKey d₂ ∧
      Gives (takeArrayHead "ArrayValue" samplesKey) d₂ n d₃ ∧
      takeSignal room n (s.withFields ((Table.stored s.message.table.fields slots).map Table.Entry.field)) d₃ = (none, s', d') := by
  obtain ⟨table, d₁, d₂, d₃, hfields, hkey, harray, hsignal⟩ := gives_of_takeInOrder h
  obtain ⟨slots, hreads, rfl⟩ := Table.reads_of_decodeFields hstrict hfields
  exact ⟨slots, _, d₁, d₂, d₃, hreads, hkey, harray, hsignal⟩

/-- The same pairs in any order, when there are no more of them. -/
theorem takeInAnyOrder_of_takeInOrder (hstrict : s.message.table.strict = true)
    (hshape : Shape s.message.table.fields) (hnot : ∀ f ∈ s.message.table.fields, f.key ≠ samplesKey)
    (h : takeInOrder room s d = (none, s', d')) :
    takeInAnyOrder room (s.message.table.fields.length + 1) [] s d = (none, [], s', d') := by
  obtain ⟨slots, n, d₁, d₂, d₃, hreads, hkey, harray, hsignal⟩ := reads_of_takeInOrder hstrict h
  have htolerant := hkey.takeTolerantKey (by decide +kernel) "TolerantKey"
  rw [takeInAnyOrder_of_reads hreads [] rfl hshape.keysDiffer hshape.shortKeys hnot, takeInAnyOrder, htolerant]
  simp only [if_true, show (takeArrayHead "ArrayValue" samplesKey).run.run d₂ = (.ok n, d₃) from harray, List.nil_append, hsignal]
  rfl

/-- A strict decode of a message with samples reads one pair more than there are fields. -/
theorem read_of_takeInOrder (hstrict : s.message.table.strict = true) (hd : WholeItems d.unread)
    (h : takeInOrder room s d = (none, s', d')) : d'.read = d.read + s.message.table.fields.length + 1 ∧ d'.count = d.count := by
  obtain ⟨slots, n, d₁, d₂, d₃, hreads, hkey, harray, hsignal⟩ := reads_of_takeInOrder hstrict h
  obtain ⟨hwhole, hread, hcount⟩ := hreads.advances hd
  have hafter := (sound_takeKey hwhole "Key" "").gives hkey
  have hinto := (sound_takeArrayHead hafter.whole "ArrayValue" samplesKey).gives harray
  have hstay := hinto.trans (hsignal ▸ advances_takeSignal hinto.whole)
  obtain ⟨i, rest, -, -, -, rfl⟩ := hkey.of_takeKey
  have hsame : d'.read = d₁.read + 1 := Nat.le_antisymm hstay.read_le_add hstay.read_le
  exact ⟨by omega, hstay.count.trans hcount⟩

variable {m m' : Message} {options : Options} {data : List UInt8}

theorem takeInOrder_of_takePairs (h : m.takePairs false d = (none, m', d')) :
    ∃ s, takeInOrder m.samples.capacity ⟨m, false⟩ d = (none, s, d') := by
  rcases horder : takeInOrder m.samples.capacity ⟨m, false⟩ d with ⟨_ | err, s, d₁⟩
  · simp only [takePairs, Bool.false_eq_true, if_false, horder] at h
    split at h
    · cases h
    · cases h
      exact ⟨s, rfl⟩
  · simp only [takePairs, Bool.false_eq_true, if_false, horder, Option.some_or] at h
    cases h

/-- The pairs of a message with samples, when there is one for each field and one for the samples. -/
theorem takePairs_lenient (hstrict : m.table.strict = true) (hshape : Shape m.table.fields)
    (hnot : ∀ f ∈ m.table.fields, f.key ≠ samplesKey) (hcount : d.count - d.read = m.table.fields.length + 1)
    (h : m.takePairs false d = (none, m', d')) : m.takePairs true d = (none, m', d') := by
  obtain ⟨s, horder⟩ := takeInOrder_of_takePairs h
  have hany := takeInAnyOrder_of_takeInOrder (s := ⟨m, false⟩) hstrict hshape hnot horder
  rw [← h]
  simp only [takePairs, if_true, Bool.false_eq_true, if_false, hcount, hany, horder]

/-- A decode of samples without an error is entering, reading the pairs and leaving. -/
theorem takePairs_of_decodeSamples (h : (m.decodeSamples false options data).1 = none) :
    ∃ d m' d₁ d', enter options (some m.pairs) data = (.ok (), d) ∧ m.takePairs false d = (none, m', d₁) ∧ Gives leave d₁ () d' ∧
      m.decodeSamples false options data = (none, m', d'.trace) := by
  rw [decodeSamples, if_neg Bool.false_ne_true] at h ⊢
  rcases henter : enter options (some (m.pairs : Int)) data with ⟨err | _, d⟩
  · simp only [henter, reduceCtorEq] at h
  rcases hpairs : m.takePairs false d with ⟨err, m', d₁⟩
  simp only [henter, hpairs] at h ⊢
  split at h
  · cases h
  · rcases hleave : leave.run.run d₁ with ⟨err' | _, d'⟩
    · simp only [hleave, reduceCtorEq] at h
    · simp only [hleave] at h
      subst h
      exact ⟨d, m', d₁, d', rfl, hpairs, hleave, by simp⟩

/-- A strict decode of samples without an error, and the same pairs read in any order. -/
theorem takePairs_lenient_of_decodeSamples (hstrict : m.table.strict = true) (hshape : Shape m.table.fields)
    (hnot : ∀ f ∈ m.table.fields, f.key ≠ samplesKey) (h : (m.decodeSamples false options data).1 = none) :
    ∃ d m' d₁ d', enter options (some m.pairs) data = (.ok (), d) ∧ m.takePairs false d = (none, m', d₁) ∧
      m.takePairs true d = (none, m', d₁) ∧ Gives leave d₁ () d' ∧ m.decodeSamples false options data = (none, m', d'.trace) := by
  obtain ⟨d, m', d₁, d', henter, hpairs, hleave, hdecode⟩ := takePairs_of_decodeSamples h
  obtain ⟨s, horder⟩ := takeInOrder_of_takePairs hpairs
  have hcount : d.count - d.read = m.table.fields.length + 1 := by
    obtain ⟨hread, hsame⟩ := read_of_takeInOrder (s := ⟨m, false⟩) hstrict (wholeItems_of_enter henter) horder
    have hall := hleave.of_leave
    dsimp only at hread
    omega
  exact ⟨d, m', d₁, d', henter, hpairs, takePairs_lenient hstrict hshape hnot hcount hpairs, hleave, hdecode⟩

theorem decodeSamples_lenient (hstrict : m.table.strict = true) (hshape : Shape m.table.fields)
    (hnot : ∀ f ∈ m.table.fields, f.key ≠ samplesKey) (h : (m.decodeSamples false options data).1 = none) :
    m.decodeSamples true options data = m.decodeSamples false options data := by
  obtain ⟨d, m', d₁, d', henter, -, hlenient, hleave, hdecode⟩ := takePairs_lenient_of_decodeSamples hstrict hshape hnot h
  rw [hdecode, decodeSamples, if_pos rfl, enter_none_of_enter henter]
  simp only [hlenient, Option.filter_none, show leave.run.run d₁ = (.ok (), d') from hleave]

/-! ## Messages -/

/-- The part of a decode that reads the map. -/
def readMap (lenient : Bool) (options : Options) (data : List UInt8) (m : Message) : Option Error × Message × List Event :=
  if m.hasSamples then decodeSamples lenient options data m
  else
    let (err, table, trace) := { m.table with strict := !lenient }.decode options data
    (err, { m with table := { table with strict := m.table.strict } }, trace)

/-- The part of a decode that checks the payload, given what was read. -/
def checkPayload (name : Text) (r : Option Error × Message × List Event) : Option Failure × Message × List Event :=
  let wrap (e : Error) : Failure := .within ("decode " ++ name) (.codec e)
  match r.1.filter fun e => !e.isAggregate with
  | some err => (some (wrap err), r.2.1, r.2.2)
  | none => match r.2.1.payloadFault? with
    | some err => (some (wrap err), r.2.1.clearPayload, r.2.2)
    | none => (r.1.map wrap, r.2.1, r.2.2)

/-- The options of a decode, with the name of the message in the labels. -/
def labelled (m : Message) (options : Options) : Options := { options with labels := m.label options.labels }

theorem decode_eq_checkPayload (lenient : Bool) (options : Options) (data : List UInt8) (m : Message) :
    m.decode lenient options data = checkPayload m.name (m.readMap lenient (m.labelled options) data) := rfl

theorem eq_none_of_checkPayload {name : Text} {r : Option Error × Message × List Event} (h : (checkPayload name r).1 = none) :
    r.1 = none := by
  unfold checkPayload at h
  split at h
  · cases h
  · split at h
    · cases h
    · exact Option.map_eq_none_iff.1 h

/-- Reading the map agrees. -/
theorem readMap_lenient (hshape : Shape m.table.fields)
    (hsamples : m.rule = .samples → m.table.strict = true ∧ ∀ f ∈ m.table.fields, f.key ≠ samplesKey)
    (h : (m.readMap false options data).1 = none) : m.readMap true options data = m.readMap false options data := by
  by_cases hrule : m.hasSamples = true
  · obtain ⟨hstrict, hnot⟩ := hsamples (hasSamples_iff_rule.1 hrule)
    simp only [readMap, if_pos hrule] at h ⊢
    exact decodeSamples_lenient hstrict hshape hnot h
  · simp only [readMap, if_neg hrule] at h ⊢
    obtain ⟨fields, trace, hstrict, htolerant⟩ := Table.decode_tolerant_of_strict hshape.keysDiffer hshape.shortKeys h
    simp only [Bool.not_true, Bool.not_false, hstrict, htolerant]

/-- Input that a message of a known kind takes in strict decoding without an error, whatever it holds before and whatever the allocation
limit, it takes in lenient decoding as well, with the same outcome. -/
theorem lenient_decode_agrees (options : Options) (data : List UInt8) {blank m : Message} (hblank : blank.Blank) (hm : m.OfKind blank)
    (h : (m.decode false options data).1 = none) :
    (m.decode true options data).1 = none ∧ m.decode true options data = m.decode false options data := by
  have hread : (m.readMap false (m.labelled options) data).1 = none := eq_none_of_checkPayload h
  have hsame : m.decode true options data = m.decode false options data := by
    rw [decode_eq_checkPayload, decode_eq_checkPayload, readMap_lenient (hm.shape hblank) (hm.samples hblank) hread]
  exact ⟨hsame ▸ h, hsame⟩

/-- One sample, read into a message with room for two. -/
theorem lenient_decode_agrees_with_room :
    let blank := Catalog.sensor "RbrPressureDifferenceSignal"
      (Catalog.words ["sequence_num", "total_samples", "num_samples"] ++ Catalog.doubles ["residual_0", "residual_1"]) .samples
    let sent : Message := { blank with table := blank.table.store sampleCountKey (.uint32 1), samples := ⟨[0x3ff0000000000000], 1⟩ }
    let data := (sent.marshal {}).1.toOption.getD []
    let m : Message := { blank with samples := ⟨[], 2⟩ }
    blank.Blank ∧ (m.decode true {} data).1 = none ∧ (m.decode true {} data).2.1.samples = ⟨[0x3ff0000000000000], 2⟩ := by
  intro blank sent data m
  have hblank : blank.Blank := .catalogue (by decide +kernel)
  have hm : m.OfKind blank := ⟨rfl, rfl, rfl, List.forall₂_same.2 fun f hf => ⟨rfl, rfl, rfl, by revert f; decide +kernel⟩⟩
  have hstrict : (m.decode false {} data).1 = none := by decide +kernel
  obtain ⟨hnone, hsame⟩ := lenient_decode_agrees {} data hblank hm hstrict
  refine ⟨hblank, hnone, ?_⟩
  rw [hsame]
  decide +kernel

end Message

end SensorWire
