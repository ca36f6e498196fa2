import Mathlib
import SensorWire.Proofs.Readings

/-!
# The order of pairs

What a lenient decode makes of a pair is told by the pair alone, so the order of the pairs decides nothing as long as no two of them have the
same key. The readings of two orders are the same up to order. Readings of different keys commute, since they store in different places. The
budget affords costs whatever their order. The checks of lengths, of samples and of payloads, look at the message after all pairs.

What does depend on the order is which of several faults ends a decode, and how the message is then left. The results of two orders are
therefore compared by their class (`ResultClass`).

Main statement: `lenient_decode_ignores_order`.
-/

namespace SensorWire

open Cbor Item Decoder

/-! ## Limits -/

namespace Cbor

/-- Other limits that allow whatever these allow. -/
structure Limits.Covered (lim lim' : Limits) : Prop where
  depth : lim.depth ≤ lim'.depth
  elements : lim.elements ≤ lim'.elements
  pairs : lim.pairs ≤ lim'.pairs
  openLengths : lim.openLengths = true → lim'.openLengths = true

/-- Limits that cover both. -/
def Limits.join (lim lim' : Limits) : Limits where
  depth := max lim.depth lim'.depth
  elements := max lim.elements lim'.elements
  pairs := max lim.pairs lim'.pairs
  openLengths := lim.openLengths || lim'.openLengths

theorem Limits.covered_join_left (lim lim' : Limits) : lim.Covered (lim.join lim') :=
  ⟨Nat.le_max_left _ _, Nat.le_max_left _ _, Nat.le_max_left _ _, fun h => by simp [join, h]⟩

theorem Limits.covered_join_right (lim lim' : Limits) : lim'.Covered (lim.join lim') :=
  ⟨Nat.le_max_right _ _, Nat.le_max_right _ _, Nat.le_max_right _ _, fun h => by simp [join, h]⟩

namespace Item

mutual

/-- An item that is well formed within limits is so within looser ones. -/
theorem Within.looser {lim lim' : Limits} (hl : lim.Covered lim') {depth : Nat} {inTag : Bool} :
    ∀ {i : Item}, i.Within lim depth inTag → i.Within lim' depth inTag
  | unsigned .., h => h
  | negative .., h => h
  | string .., h => h
  | chunks .., h => ⟨hl.openLengths h.1, h.2⟩
  | array .., h =>
    ⟨h.1, Nat.lt_of_lt_of_le h.2.1 hl.depth, h.2.2.1, Nat.le_trans h.2.2.2.1 hl.elements, AllWithin.looser hl h.2.2.2.2⟩
  | openArray _, h =>
    ⟨hl.openLengths h.1, Nat.lt_of_lt_of_le h.2.1 hl.depth, Nat.le_trans h.2.2.1 hl.elements, AllWithin.looser hl h.2.2.2⟩
  | map .., h =>
    ⟨h.1, Nat.lt_of_lt_of_le h.2.1 hl.depth, h.2.2.1, Nat.le_trans h.2.2.2.1 hl.pairs, PairsWithin.looser hl h.2.2.2.2⟩
  | openMap _, h =>
    ⟨hl.openLengths h.1, Nat.lt_of_lt_of_le h.2.1 hl.depth, Nat.le_trans h.2.2.1 hl.pairs, PairsWithin.looser hl h.2.2.2⟩
  | tag _ _ content, h =>
    ⟨h.1, fun ht => Nat.lt_of_lt_of_le (h.2.1 ht) hl.depth, Within.looser (i := content) hl h.2.2⟩
  | simple _, h => h
  | half _, h => h
  | single _, h => h
  | double _, h => h

theorem AllWithin.looser {lim lim' : Limits} (hl : lim.Covered lim') {depth : Nat} :
    ∀ {items : List Item}, AllWithin lim depth items → AllWithin lim' depth items
  | [], h => h
  | _ :: _, h => ⟨Within.looser hl h.1, AllWithin.looser hl h.2⟩

theorem PairsWithin.looser {lim lim' : Limits} (hl : lim.Covered lim') {depth : Nat} :
    ∀ {pairs : List (Item × Item)}, PairsWithin lim depth pairs → PairsWithin lim' depth pairs
  | [], h => h
  | (_, _) :: _, h => ⟨⟨Within.looser hl h.1.1, Within.looser hl h.1.2⟩, PairsWithin.looser hl h.2⟩

end

/-- Bytes that are a well-formed item begin with no other. -/
theorem WellFormed.eq_of_encode {i j : Item} (hi : i.WellFormed) (hj : j.WellFormed) {rest : List UInt8} (h : i.encode = j.encode ++ rest) :
    i = j := by
  obtain ⟨lim, hi⟩ := hi
  obtain ⟨lim', hj⟩ := hj
  have hsame : i.encode ++ [] = j.encode ++ rest := by rw [List.append_nil, h]
  exact ((hi.looser (lim.covered_join_left lim')).encode_append_inj (hj.looser (lim.covered_join_right lim')) hsame).1

variable {w w' : Width} {pairs pairs' : List (Item × Item)}

/-- Maps of the same pairs are within the same limits. -/
theorem Within.perm {lim : Limits} (h : (Item.map w pairs).Within lim 0 false) (hmap : (Item.map w' pairs').WellFormed)
    (hperm : pairs.Perm pairs') : (Item.map w' pairs').Within lim 0 false := by
  obtain ⟨-, hdepth, hlength, hcount, hpairs⟩ := h
  obtain ⟨lim', hholds, -⟩ := hmap
  rw [hperm.length_eq] at hlength hcount
  refine ⟨hholds, hdepth, hlength, hcount, pairsWithin_iff.2 fun p hp => ?_⟩
  exact pairsWithin_iff.1 hpairs p (hperm.mem_iff.2 hp)

end Item

end Cbor

/-! ## Readings of different keys -/

namespace Table

/-- The field in the place of a key has that key. -/
theorem key_of_place {t : Table} {key : Text} {f : Field} (h : t.fields[t.place key]? = some f) : f.key = key := by
  obtain ⟨hlt, rfl⟩ := List.getElem?_eq_some_iff.1 h
  have hfound : (t.fields[t.place key].key == key) = true := List.findIdx_getElem (w := hlt)
  exact eq_of_beq hfound

/-- A value is stored under the text of its key. -/
theorem spells_of_stored {t : Table} {n place : Nat} {p : Item × Item} {s : Slot} (hstrict : t.strict = false)
    (h : t.verdict? n p = some (.stored place s)) : ∃ f, t.fields[place]? = some f ∧ p.1.Spells f.key := by
  rcases verdict?_cases hstrict h with ⟨name, -, hv⟩ | ⟨key, -, -, hv⟩ | ⟨key, f, hkey, hf, hv⟩
  · cases hv
  · cases hv
  · obtain ⟨-, -, -, -, rfl, -⟩ := Field.of_verdict?_stored hv
    exact ⟨f, hf, by rw [key_of_place hf]; exact (pairKey_eq_key hkey).2⟩

end Table

namespace Verdict

theorem apply_comm {v v' : Verdict} (h : ∀ place s s', v = stored place s → v' ≠ stored place s') (fields : List Field) :
    apply (apply fields v) v' = apply (apply fields v') v := by
  cases v with
  | stored place s =>
    cases v' with
    | stored place' s' =>
      have hne : place ≠ place' := fun hplace => h place s s' rfl (by rw [hplace])
      exact List.modify_modify_ne _ _ _ hne
    | _ => rfl
  | _ => rfl

end Verdict

namespace Message

section Order

variable {m : Message} {p q : Item × Item} {r r' : Reading} {pairs pairs' : List (Item × Item)} {w w' : Width} {limit : Int64}

/-- Readings of pairs that do not spell the same key commute. -/
theorem apply_comm_of_keys (hr : m.reading? p = some r) (hr' : m.reading? q = some r') (hkeys : ∀ t, p.1.Spells t → ¬q.1.Spells t)
    (room : Nat) (m' : Message) : r'.apply room (r.apply room m') = r.apply room (r'.apply room m') := by
  by_cases hp : m.hasSamples = true ∧ p.1.Spells samplesKey
  · obtain ⟨values, rfl, -⟩ := (reading?_samples hp.1 hp.2).1 hr
    obtain ⟨v', rfl, -⟩ := (reading?_field fun hq => hkeys _ hp.2 hq.2).1 hr'
    rfl
  · obtain ⟨v, rfl, hv⟩ := (reading?_field hp).1 hr
    by_cases hq : m.hasSamples = true ∧ q.1.Spells samplesKey
    · obtain ⟨values, rfl, -⟩ := (reading?_samples hq.1 hq.2).1 hr'
      rfl
    · obtain ⟨v', rfl, hv'⟩ := (reading?_field hq).1 hr'
      have hplaces : ∀ place s s', v = .stored place s → v' ≠ .stored place s' := by
        rintro place s s' rfl rfl
        obtain ⟨f, hf, hspells⟩ := Table.spells_of_stored rfl hv
        obtain ⟨g, hg, hspells'⟩ := Table.spells_of_stored rfl hv'
        cases hf.symm.trans hg
        exact hkeys _ hspells hspells'
      simp only [Reading.apply, Verdict.apply_comm hplaces]

theorem readings_perm (m : Message) (hperm : pairs.Perm pairs') : (m.readings pairs).Perm (m.readings pairs') := hperm.filterMap _

/-- The message after pairs of different keys does not depend on their order. -/
theorem after_perm (hperm : pairs.Perm pairs') (hkeys : pairs.Pairwise fun p q => ∀ t, p.1.Spells t → ¬q.1.Spells t) :
    m.after pairs' = m.after pairs := by
  -- two pairs of the map have different keys whichever of them comes first
  have : Std.Symm fun p q : Item × Item => ∀ t, p.1.Spells t → ¬q.1.Spells t := ⟨fun p q h t hq hp => h t hp hq⟩
  refine ((readings_perm m hperm).foldl_eq' (fun r hr r' hr' m' => ?_) m).symm
  obtain ⟨p, hp, hrp⟩ := List.mem_filterMap.1 hr
  obtain ⟨q, hq, hrq⟩ := List.mem_filterMap.1 hr'
  by_cases hpq : p = q
  · subst hpq
    cases hrp.symm.trans hrq
    rfl
  · exact apply_comm_of_keys hrp hrq (hkeys.forall hp hq hpq) _ m'

/-! ## The budget -/

theorem length_encode_doubles (values : List UInt64) : 8 * values.length ≤ ((values.map Item.double).flatMap Item.encode).length := by
  induction values with
  | nil => exact Nat.le_refl 0
  | cons bits values ih =>
    have hone : (Item.double bits).encode.length = 9 := rfl
    rw [List.map_cons, List.flatMap_cons, List.length_append, List.length_cons, hone]
    omega

/-- A pair takes no more from the budget than its value has bytes. -/
theorem cost_le (h : m.reading? p = some r) (room : Nat) : r.cost room ≤ p.2.encode.length := by
  by_cases hp : m.hasSamples = true ∧ p.1.Spells samplesKey
  · obtain ⟨values, rfl, hvalues, -⟩ := (reading?_samples hp.1 hp.2).1 h
    obtain ⟨w, hitem⟩ := samples?_eq_some_iff.1 hvalues
    have hdoubles := length_encode_doubles values
    rw [hitem, encode_eq, body, List.length_append, Reading.cost, samplesCost]
    split_ifs <;> omega
  · obtain ⟨v, rfl, hv⟩ := (reading?_field hp).1 h
    rw [Reading.cost, Table.cost_eq_pairCost hv]
    exact Table.pairCost_le _ _ _

theorem costs_le (m : Message) (room : Nat) (pairs : List (Item × Item)) :
    ((m.readings pairs).map (Reading.cost room)).sum ≤ (encodePairs pairs).length := by
  induction pairs with
  | nil => exact Nat.le_refl 0
  | cons p pairs ih =>
    simp only [encodePairs, List.length_append]
    cases hr : m.reading? p with
    | none =>
      rw [readings, List.filterMap_cons_none hr, ← readings]
      omega
    | some r =>
      have hcost := cost_le hr room
      rw [readings_cons hr, List.map_cons, List.sum_cons]
      omega

/-- Whether the budget affords pairs does not depend on their order. -/
theorem affordsAll_perm (hperm : pairs.Perm pairs') (hlen : (Item.map w pairs).encode.length < 2 ^ 63) (room : Nat) :
    AffordsAll limit (Int64.ofNat 0) ((m.readings pairs').map (Reading.cost room)) ↔
      AffordsAll limit (Int64.ofNat 0) ((m.readings pairs).map (Reading.cost room)) := by
  have hsum : ((m.readings pairs').map (Reading.cost room)).sum = ((m.readings pairs).map (Reading.cost room)).sum :=
    ((readings_perm m hperm).map _).sum_eq.symm
  have hbound : 0 + ((m.readings pairs).map (Reading.cost room)).sum < 2 ^ 63 := by
    have hcosts := m.costs_le room pairs
    rw [encode_eq, body, ← encodePairs_eq_flatMap, List.length_append] at hlen
    omega
  have hstart : 0 < limit → ((0 : Nat) : Int) ≤ limit.toInt := fun hpos => Int.le_of_lt (Int64.lt_iff_toInt_lt.1 hpos)
  rw [affordsAll_iff hstart (hsum ▸ hbound), affordsAll_iff hstart hbound, hsum]

/-- Whether a map is read to its end does not depend on the order of its pairs. -/
theorem finishes_perm (hperm : pairs.Perm pairs') (hkeys : pairs.Pairwise fun p q => ∀ t, p.1.Spells t → ¬q.1.Spells t)
    (hlen : (Item.map w pairs).encode.length < 2 ^ 63) : m.Finishes limit pairs' ↔ m.Finishes limit pairs := by
  have hafter : m.after pairs' = m.after pairs := after_perm hperm hkeys
  constructor
  · intro h
    exact ⟨fun p hp => h.reads p (hperm.mem_iff.1 hp), (affordsAll_perm hperm hlen _).1 h.affords, hafter ▸ h.counts⟩
  · intro h
    exact ⟨fun p hp => h.reads p (hperm.mem_iff.2 hp), (affordsAll_perm hperm hlen _).2 h.affords, hafter.symm ▸ h.counts⟩

end Order

end Message

/-! ## Results -/

/-- The class of the result of a decode. -/
inductive ResultClass where
  | complete
  | listsOutOfRange
  | listsUnrecognized
  | fatal
  deriving DecidableEq, Repr

namespace Failure

/-- The class of the result that a failure is, or that none is. -/
def resultClass : Option Failure → ResultClass
  | none => .complete
  | some f =>
    if f.isAggregate then
      if f.codec?.map Error.code = some .outOfRange then .listsOutOfRange else .listsUnrecognized
    else .fatal

/-- The keys that a failure lists. -/
def listedKeys (f? : Option Failure) : List Text := Table.listedKeys (f?.bind codec?)

/-- What is fatal are the errors that are no list of keys. -/
theorem resultClass_eq_fatal_iff (err? : Option Error) (context : Text) :
    resultClass (err?.map fun e => .within context (.codec e)) = .fatal ↔ (err?.filter fun e => !e.isAggregate) ≠ none := by
  cases err? with
  | none => simp [resultClass]
  | some err =>
    by_cases hlists : err.isAggregate = true
    · by_cases hcode : err.code = .outOfRange <;> simp [resultClass, isAggregate, codec?, hlists, hcode]
    · simp [resultClass, isAggregate, codec?, hlists]

end Failure

/-- The same error, but for the order of the keys that it lists. -/
inductive SameListing : Option Error → Option Error → Prop
  | none : SameListing none none
  | some {err : Error} {keys : List Text} (h : err.keys.Perm keys) : SameListing (some err) (some { err with keys })

namespace SameListing

variable {err? err?' : Option Error}

theorem isAggregate_eq {err : Error} {keys : List Text} (h : err.keys.Perm keys) : { err with keys }.isAggregate = err.isAggregate := by
  simp only [Error.isAggregate, h.isEmpty_eq]

theorem filter_eq_none_iff (h : SameListing err? err?') :
    (err?'.filter fun e => !e.isAggregate) = .none ↔ (err?.filter fun e => !e.isAggregate) = .none := by
  cases h with
  | none => rfl
  | some h => simp only [Option.filter_eq_none_iff, Option.some.injEq, forall_eq', isAggregate_eq h]

theorem resultClass_eq (h : SameListing err? err?') (context : Text) :
    Failure.resultClass (err?'.map fun e => .within context (.codec e)) = Failure.resultClass (err?.map fun e => .within context (.codec e)) := by
  cases h with
  | none => rfl
  | some h => simp [Failure.resultClass, Failure.isAggregate, Failure.codec?, isAggregate_eq h]

theorem listedKeys_perm (h : SameListing err? err?') (context : Text) :
    (Failure.listedKeys (err?.map fun e => .within context (.codec e))).Perm
      (Failure.listedKeys (err?'.map fun e => .within context (.codec e))) := by
  cases h with
  | none => exact List.Perm.refl _
  | some h => exact h

end SameListing

namespace Message

variable {m blank : Message} {w w' : Width} {pairs pairs' : List (Item × Item)} {options : Options}

theorem listing_perm {skipped skipped' : List Text} (h : skipped.Perm skipped') : SameListing (listing skipped) (listing skipped') := by
  rw [listing, listing, h.isEmpty_eq]
  split_ifs
  · exact .none
  · exact .some h

/-- What is reported of readings in another order. -/
theorem reported_perm {rs rs' : List Reading} (h : rs.Perm rs') : SameListing (m.reported rs) (m.reported rs') := by
  have hskipped := h.filterMap Reading.skipped?
  have hrefused := h.filterMap Reading.refused?
  rw [reported, reported]
  split_ifs
  · exact listing_perm hskipped
  · simp only [Table.listing, Table.Walk.aggregate, hrefused.isEmpty_eq, hskipped.isEmpty_eq]
    split_ifs
    · exact .some hrefused
    · exact .some hskipped
    · exact .none

/-- An error that ends the reading is fatal. -/
theorem resultClass_of_fault {r : Option Error × Message × List Event} (h : (r.1.filter fun e => !e.isAggregate) ≠ none) (name : Text) :
    Failure.resultClass (checkPayload name r).1 = .fatal := by
  obtain ⟨err, herr⟩ := Option.ne_none_iff_exists'.1 h
  unfold checkPayload
  simp only [herr]
  rw [(Option.filter_eq_some_iff.1 herr).1] at h
  exact (Failure.resultClass_eq_fatal_iff (some err) _).2 h

/-- A payload that fails its check is fatal. -/
theorem resultClass_of_payloadFault {err : Error} (h : m.payloadFault? = some err) (context : Text) :
    Failure.resultClass (some (.within context (.codec err))) = .fatal :=
  (Failure.resultClass_eq_fatal_iff (some err) context).2 (by simp [not_isAggregate_of_payloadFault h])

/-- The check of the payload after the same errors. -/
theorem checkPayload_sameListing {err? err?' : Option Error} (h : SameListing err? err?') (name : Text) (trace trace' : List Event) :
    let r := checkPayload name (err?, m, trace)
    let r' := checkPayload name (err?', m, trace')
    Failure.resultClass r'.1 = Failure.resultClass r.1 ∧
      (Failure.resultClass r.1 ≠ .fatal → r'.2.1 = r.2.1 ∧ (Failure.listedKeys r.1).Perm (Failure.listedKeys r'.1)) := by
  intro r r'
  by_cases hlists : (err?.filter fun e => !e.isAggregate) = none
  · have hlists' := h.filter_eq_none_iff.2 hlists
    have hr : r = checkPayload name (err?, m, trace) := rfl
    have hr' : r' = checkPayload name (err?', m, trace') := rfl
    unfold checkPayload at hr hr'
    simp only [hlists] at hr
    simp only [hlists'] at hr'
    cases hpayload : m.payloadFault? with
    | none =>
      simp only [hpayload] at hr hr'
      rw [hr, hr']
      exact ⟨h.resultClass_eq _, fun _ => ⟨rfl, h.listedKeys_perm _⟩⟩
    | some err =>
      simp only [hpayload] at hr hr'
      rw [hr, hr', resultClass_of_payloadFault hpayload]
      exact ⟨rfl, fun hfatal => absurd rfl hfatal⟩
  · have hlists' : (err?'.filter fun e => !e.isAggregate) ≠ none := fun hnone => hlists (h.filter_eq_none_iff.1 hnone)
    have hfatal : Failure.resultClass r.1 = .fatal := resultClass_of_fault hlists name
    have hfatal' : Failure.resultClass r'.1 = .fatal := resultClass_of_fault hlists' name
    exact ⟨hfatal'.trans hfatal.symm, fun hnot => absurd hfatal hnot⟩

/-- A map that is not read to its end is a fatal failure. -/
theorem resultClass_of_not_finishes (hblank : blank.Blank) (hm : m.OfKind blank) (hmap : (Item.map w pairs).WellFormed)
    (h : ¬((Item.map w pairs).Within {} 0 false ∧ m.Finishes options.allocLimit pairs)) :
    Failure.resultClass (m.decode true options (Item.map w pairs).encode).1 = .fatal := by
  rw [decode_eq_checkPayload]
  refine resultClass_of_fault (fun hlists => h ?_) m.name
  obtain ⟨w', pairs', hdata, hin, hfinishes⟩ := map_of_readMap hblank hm hlists
  obtain ⟨rfl, rfl⟩ := Item.map.inj (hmap.eq_of_encode ⟨_, hin⟩ (hdata.trans (List.append_nil _).symm))
  exact ⟨hin, hfinishes⟩

/-- Lenient decoding does not depend on the order of pairs. For a message of a known kind, whatever it holds and whatever the limits, and two
well-formed maps of the same pairs, no two of which spell the same key: the results are of the same class. If they are not fatal, the messages
are the same, and the listed keys are, up to their order. -/
theorem lenient_decode_ignores_order (hblank : blank.Blank) (hm : m.OfKind blank) (hmap : (Item.map w pairs).WellFormed)
    (hmap' : (Item.map w' pairs').WellFormed) (hperm : pairs.Perm pairs')
    (hkeys : pairs.Pairwise fun p q => ∀ t, p.1.Spells t → ¬q.1.Spells t) (hlen : (Item.map w pairs).encode.length < 2 ^ 63)
    (options : Options) :
    let r := m.decode true options (Item.map w pairs).encode
    let r' := m.decode true options (Item.map w' pairs').encode
    Failure.resultClass r'.1 = Failure.resultClass r.1 ∧
      (Failure.resultClass r.1 ≠ .fatal → r'.2.1 = r.2.1 ∧ (Failure.listedKeys r.1).Perm (Failure.listedKeys r'.1)) := by
  intro r r'
  by_cases hends : (Item.map w pairs).Within {} 0 false ∧ m.Finishes options.allocLimit pairs
  · obtain ⟨hin, hfinishes⟩ := hends
    have hfinishes' := (finishes_perm hperm hkeys hlen).2 hfinishes
    have hread : ∃ trace, m.readMap true (m.labelled options) (Item.map w pairs).encode = (m.reported (m.readings pairs), m.after pairs, trace) :=
      readMap_of_finishes hblank hm hin hfinishes
    have hread' : ∃ trace, m.readMap true (m.labelled options) (Item.map w' pairs').encode =
        (m.reported (m.readings pairs'), m.after pairs', trace) := readMap_of_finishes hblank hm (hin.perm hmap' hperm) hfinishes'
    obtain ⟨trace, hread⟩ := hread
    obtain ⟨trace', hread'⟩ := hread'
    have hr : r = checkPayload m.name (m.reported (m.readings pairs), m.after pairs, trace) := by rw [← hread]; rfl
    have hr' : r' = checkPayload m.name (m.reported (m.readings pairs'), m.after pairs, trace') := by
      rw [← after_perm hperm hkeys, ← hread']
      rfl
    rw [hr, hr']
    exact checkPayload_sameListing (reported_perm (readings_perm m hperm)) m.name trace trace'
  · have hends' : ¬((Item.map w' pairs').Within {} 0 false ∧ m.Finishes options.allocLimit pairs') := by
      rintro ⟨hin', hfinishes'⟩
      exact hends ⟨hin'.perm hmap hperm.symm, (finishes_perm hperm hkeys hlen).1 hfinishes'⟩
    have hfatal : Failure.resultClass r.1 = .fatal := resultClass_of_not_finishes hblank hm hmap hends
    have hfatal' : Failure.resultClass r'.1 = .fatal := resultClass_of_not_finishes hblank hm hmap' hends'
    exact ⟨hfatal'.trans hfatal.symm, fun hnot => absurd hfatal hnot⟩

/-- A sample between two unknown keys, after the number of samples and before it. -/
theorem lenient_decode_ignores_order_signal :
    let blank := Catalog.sensor "RbrPressureDifferenceSignal"
      (Catalog.words ["sequence_num", "total_samples", "num_samples"] ++ Catalog.doubles ["residual_0", "residual_1"]) .samples
    let key (t : Text) : Item := .string .text .inline t.bytes
    let pairs := [(key sampleCountKey, .unsigned .inline 1), (key "extra", .unsigned .inline 7),
      (key samplesKey, .array .inline [.double 0x3ff0000000000000]), (key "other", .simple 20)]
    let r := blank.decode true {} (Item.map .inline pairs).encode
    let r' := blank.decode true {} (Item.map .one pairs.reverse).encode
    Failure.resultClass r.1 = .listsUnrecognized ∧ Failure.resultClass r'.1 = .listsUnrecognized ∧ r'.2.1 = r.2.1 ∧
      r.2.1.samples.values = [0x3ff0000000000000] ∧ Failure.listedKeys r.1 = ["extra", "other"] ∧
      (Failure.listedKeys r.1).Perm (Failure.listedKeys r'.1) := by
  intro blank key pairs r r'
  have hblank : blank.Blank := .catalogue (by decide +kernel)
  have hpairs : PairsWithin {} 1 pairs := by
    simp only [pairs, key, PairsWithin, Within, AllWithin, PieceFits, Width.Holds]
    decide +kernel
  have hmap : (Item.map .inline pairs).WellFormed := ⟨{}, by simp [Width.Holds, pairs], by decide, by decide, by decide, hpairs⟩
  have hmap' : (Item.map .one pairs.reverse).WellFormed := by
    refine ⟨{}, by simp [Width.Holds, Width.size, pairs], by decide, by decide, by decide, pairsWithin_iff.2 fun p hp => ?_⟩
    exact pairsWithin_iff.1 hpairs p (List.mem_reverse.1 hp)
  have htexts : pairs.Pairwise fun p q => p.1.text.toOption ≠ q.1.text.toOption := by decide +kernel
  have hkeys : pairs.Pairwise fun p q => ∀ t, p.1.Spells t → ¬q.1.Spells t :=
    htexts.imp fun hne t hp hq => hne (by rw [(spells_iff.1 hp).2, (spells_iff.1 hq).2])
  have hclass : Failure.resultClass r.1 = .listsUnrecognized := by decide +kernel
  obtain ⟨hsame, hvalues⟩ := lenient_decode_ignores_order hblank hblank.ofKind_self hmap hmap' (List.reverse_perm pairs).symm hkeys
    (by decide +kernel) {}
  obtain ⟨hmessage, hlisted⟩ := hvalues (by rw [hclass]; decide)
  exact ⟨hclass, hsame.trans hclass, hmessage, by decide +kernel, by decide +kernel, hlisted⟩

end Message

end SensorWire
