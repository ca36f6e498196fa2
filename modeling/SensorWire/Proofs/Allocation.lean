import Mathlib
import SensorWire.Proofs.Cleanup
import SensorWire.Proofs.Reports

/-!
# The allocation budget is exact

What a message takes from the budget is told by its pairs (`Table.allocation`): the values of those whose key is that of a text or bytes
field. A limit that leaves room for so much changes nothing, and a smaller one ends the decoding at the pair that goes beyond it.

Main statement: `allocation_limit_is_exact`.
-/

namespace SensorWire

open Cbor Item Decoder

/-- The bytes of a string are part of its encoding, with a head before them. -/
theorem Cbor.Item.length_content_lt (i : Item) : i.content.length < i.encode.length := by
  have hhead : 0 < i.head.encode.length := by
    cases hwidth : i.head.width <;> simp [Head.encode, hwidth]
  have hbody : i.content.length ≤ i.body.length := by
    cases i with
    | string kind w b => exact Nat.le_refl _
    | chunks kind pieces =>
      simp only [content, body, List.length_append, List.length_flatMap]
      refine Nat.le_add_right_of_le (List.sum_le_sum fun p _ => ?_)
      simp [encodeString]
    | _ => exact Nat.zero_le _
  rw [encode_eq, List.length_append]
  omega

namespace Table

/-- The field that the key of a pair matches: in a strict table, that of its place. -/
def fieldFor? (t : Table) (n : Nat) (p : Item × Item) : Option Field :=
  if t.strict then t.fields[n]?.filter fun f => p.1.Spells f.key
  else match p.1.pairKey with
    | .ok (.key key) => t.lookup? key
    | _ => none

/-- The bytes that a pair takes from the budget: the length of a value for a text or bytes field, and one more for text, unless it is
empty. -/
def pairCost (t : Table) (n : Nat) (p : Item × Item) : Nat :=
  match (t.fieldFor? n p).bind Field.slot? with
  | some (.string _) => stringCost 1 p.2.content.length
  | some (.bytes _) => stringCost 0 p.2.content.length
  | _ => 0

/-- The bytes that pairs take, after so many others. -/
def allocationFrom (t : Table) (n : Nat) : List (Item × Item) → Nat
  | [] => 0
  | p :: pairs => t.pairCost n p + t.allocationFrom (n + 1) pairs

/-- The bytes that a message takes from the budget. -/
def allocation (t : Table) (data : List UInt8) : Nat :=
  match Item.read {} data with
  | .ok (.map _ pairs, _) => t.allocationFrom 0 pairs
  | _ => 0

variable {t : Table} {n : Nat} {p : Item × Item} {pairs : List (Item × Item)} {v : Verdict}

/-! ## The cost of a pair -/

theorem cost_of_verdict? {f : Field} {k : Nat} {i : Item} (h : f.verdict? k i = some v) :
    v.cost = match f.slot? with
      | some (.string _) => stringCost 1 i.content.length
      | some (.bytes _) => stringCost 0 i.content.length
      | _ => 0 := by
  rcases f.verdict?_eq_none_or k i with hv | hv | ⟨s, hv⟩
  · cases hv.symm.trans h
  · cases hv.symm.trans h
    obtain ⟨s, hslot, hover⟩ := Field.of_verdict?_refused hv
    rw [hslot]
    cases s with
    | string v => simp [Field.overflows, hslot, Slot.capacity?] at hover
    | bytes v => simp [Field.overflows, hslot, Slot.capacity?] at hover
    | _ => rfl
  · cases hv.symm.trans h
    obtain ⟨s, hslot, -, -, -, rfl⟩ := Field.of_verdict?_stored hv
    rw [hslot]
    cases s with
    | string v => rfl
    | bytes v => rfl
    | _ => cases i <;> rfl

theorem lookup?_eq_getElem? (t : Table) (key : Text) : t.lookup? key = t.fields[t.place key]? :=
  List.find?_eq_getElem?_findIdx

/-- What a verdict costs is told by the pair. -/
theorem cost_eq_pairCost (h : t.verdict? n p = some v) : v.cost = t.pairCost n p := by
  unfold verdict? at h
  unfold pairCost fieldFor?
  split_ifs at h ⊢ with hstrict
  · split at h
    · cases h
    · rename_i f hf
      split_ifs at h with hkey
      simp only [hf, Option.filter_some, hkey, decide_true, if_true, Option.bind_some]
      exact cost_of_verdict? h
  · cases hkey : p.1.pairKey with
    | error code =>
      rw [hkey] at h
      cases h
    | ok pairKey =>
      rw [hkey] at h
      cases pairKey with
      | skipped name =>
        cases h
        rfl
      | key key =>
        simp only [lookup?_eq_getElem?] at h ⊢
        split at h
        · rename_i hf
          cases h
          simp only [hf, Option.bind_none]
          rfl
        · rename_i f hf
          simp only [hf, Option.bind_some]
          exact cost_of_verdict? h

theorem pairCost_le (t : Table) (n : Nat) (p : Item × Item) : t.pairCost n p ≤ p.2.encode.length := by
  have hvalue := p.2.length_content_lt
  unfold pairCost
  split
  · unfold stringCost
    split_ifs <;> omega
  · unfold stringCost
    split_ifs <;> omega
  · exact Nat.zero_le _

/-- No more is taken from the budget than the pairs have bytes. -/
theorem allocationFrom_le (t : Table) (n : Nat) (pairs : List (Item × Item)) : t.allocationFrom n pairs ≤ (encodePairs pairs).length := by
  induction pairs generalizing n with
  | nil => exact Nat.le_refl 0
  | cons p pairs ih =>
    have hpair := t.pairCost_le n p
    have hpairs := ih (n + 1)
    simp only [allocationFrom, encodePairs, List.length_append]
    omega

/-! ## Journals under a limit -/

variable {free limit : Int64} {a : Nat} {b : Int64}

/-- Below 2^63 a limit affords just what stays within it. -/
theorem affords_iff {c : Nat} (hpos : 0 < limit) (hbound : a + c < 2 ^ 63) :
    Affords limit (Int64.ofNat a) c ↔ c = 0 ∨ ((a + c : Nat) : Int) ≤ limit.toInt := by
  have hsum : (Int64.ofNat a + Int64.ofNat c).toInt = (a + c : Nat) := by
    rw [← Int64.ofNat_add, Int64.toInt_ofNat_of_lt hbound]
  unfold Affords
  rw [and_iff_right hpos, Int64.lt_iff_toInt_lt, hsum, not_lt]

/-- A journal of all pairs, without a limit, has the verdict of the first pair and the journal of the others. -/
theorem exists_of_length_journalFrom (hall : (t.journalFrom free n b (p :: pairs)).length = (p :: pairs).length) :
    ∃ v, t.verdict? n p = some v ∧ t.journalFrom free n b (p :: pairs) = v :: t.journalFrom free (n + 1) (b + Int64.ofNat v.cost) pairs ∧
      (t.journalFrom free (n + 1) (b + Int64.ofNat v.cost) pairs).length = pairs.length := by
  rw [journalFrom] at hall ⊢
  split at hall
  · cases hall
  · rename_i v hv
    rw [hv]
    split_ifs at hall ⊢ with haffords
    exact ⟨v, rfl, rfl, Nat.succ_inj.1 hall⟩

/-- Every pair of a journal of all pairs has a verdict. -/
theorem exists_verdict_of_length {k : Nat} (hall : (t.journalFrom free n b pairs).length = pairs.length) (hp : pairs[k]? = some p) :
    ∃ v, t.verdict? (n + k) p = some v := by
  induction pairs generalizing n b k with
  | nil => cases hp
  | cons q pairs ih =>
    obtain ⟨v, hv, -, hrest⟩ := exists_of_length_journalFrom hall
    cases k with
    | zero =>
      cases hp
      exact ⟨v, hv⟩
    | succ k =>
      obtain ⟨v', hv'⟩ := ih hrest hp
      exact ⟨v', by rwa [show n + (k + 1) = n + 1 + k by omega]⟩

/-- A limit with room for all pairs does not change the journal. -/
theorem journalFrom_of_room (hall : (t.journalFrom free n b pairs).length = pairs.length) (hpos : 0 < limit)
    (hbound : a + t.allocationFrom n pairs < 2 ^ 63) (hroom : ((a + t.allocationFrom n pairs : Nat) : Int) ≤ limit.toInt) :
    t.journalFrom limit n (Int64.ofNat a) pairs = t.journalFrom free n b pairs := by
  induction pairs generalizing n a b with
  | nil => rfl
  | cons p pairs ih =>
    obtain ⟨v, hv, hjournal, hrest⟩ := exists_of_length_journalFrom hall
    have hcost := cost_eq_pairCost hv
    rw [allocationFrom, ← hcost] at hbound hroom
    have haffords : Affords limit (Int64.ofNat a) v.cost := (affords_iff hpos (by omega)).2 (Or.inr (by omega))
    rw [hjournal, journalFrom, hv]
    simp only [haffords, if_true, ← Int64.ofNat_add]
    rw [ih hrest (by omega) (by omega)]

/-- A limit without room for all pairs cuts the journal short. -/
theorem length_journalFrom_lt (hall : (t.journalFrom free n b pairs).length = pairs.length) (hpos : 0 < limit)
    (hbound : a + t.allocationFrom n pairs < 2 ^ 63) (hstart : (a : Int) ≤ limit.toInt)
    (hover : limit.toInt < (a + t.allocationFrom n pairs : Nat)) :
    (t.journalFrom limit n (Int64.ofNat a) pairs).length < pairs.length := by
  induction pairs generalizing n a b with
  | nil =>
    rw [allocationFrom] at hover
    omega
  | cons p pairs ih =>
    obtain ⟨v, hv, -, hrest⟩ := exists_of_length_journalFrom hall
    have hcost := cost_eq_pairCost hv
    rw [allocationFrom, ← hcost] at hbound hover
    rw [journalFrom, hv]
    dsimp only
    split_ifs with haffords
    · have hstart' := (affords_iff hpos (by omega)).1 haffords
      have hlen := ih (a := a + v.cost) hrest (by omega) (by omega) (by omega)
      rw [Int64.ofNat_add] at hlen
      exact Nat.succ_lt_succ hlen
    · exact Nat.succ_pos _

/-! ## Decoding under a limit -/

variable {options : Options} {data : List UInt8}

/-- A decode that takes the whole message, told by the pairs of the message. -/
theorem exists_pairs_of_finished (hok : ∀ err, (t.decode options data).1 = some err → err.isAggregate = true) :
    ∃ w pairs, data = (Item.map w pairs).encode ∧ (Item.map w pairs).Within {} 0 false ∧ t.allocation data = t.allocationFrom 0 pairs ∧
      (∀ options, enter options t.expected data = (.ok (), inside options w pairs 0)) ∧
      t.wanted (inside options w pairs 0) = pairs.length ∧ (t.journal (inside options w pairs 0)).length = pairs.length := by
  obtain ⟨d, d₁, d', henter, hpasses, hall, hends, -⟩ := exists_finished hok
  rcases enter_cases options t.expected data with ⟨w, pairs, rest, rfl, hin, hexpected⟩ | ⟨err, d', herr, -⟩
  · have hread := enter_map hin options hexpected rest
    cases hread.symm.trans henter
    rcases leave_cases d₁ with ⟨err, d₂, hrun, -⟩ | ⟨hcount, -, htrailing⟩
    · cases hrun.symm.trans hends
    · have hkept := hpasses.kept
      obtain rfl : rest = [] := List.length_eq_zero_iff.1 (hkept.2.2.1.symm.trans htrailing)
      have hlen : (t.journal (inside options w pairs 0)).length = pairs.length := by
        have := hpasses.read
        rw [hcount, hkept.1] at this
        simpa [inside] using this.symm
      refine ⟨w, pairs, List.append_nil _, hin, ?_, fun options => enter_map hin options hexpected [], hall.symm.trans hlen, hlen⟩
      rw [allocation, hin.read_encode []]
  · cases herr.symm.trans henter

theorem journal_inside (t : Table) (options : Options) (w : Width) (hin : PairsWithin {} 0 pairs) :
    t.journal (inside options w pairs 0) = t.journalFrom options.allocLimit 0 (Int64.ofNat 0) pairs := by
  rw [journal, ahead_inside hin]
  rfl

/-- A decoder that went past all pairs of a message leaves the map. -/
theorem leave_of_passes {w : Width} {verdicts : List Verdict} {d : Decoder} (hin : PairsWithin {} 0 pairs)
    (h : Passes (inside options w pairs 0) verdicts d) (hlen : verdicts.length = pairs.length) :
    Gives leave d () { d with
      trace := verdicts.flatMap (Verdict.events options.labels) ++
        [options.labels.mark { operation := .decode, category := .message, size := (Item.map w pairs).encode.length }] } := by
  obtain ⟨hcount, hsize, htrailing, hoptions⟩ := h.kept
  have hread : d.read = d.count := by
    rw [h.read, hcount, hlen]
    exact Nat.zero_add _
  have hahead : d.ahead = [] := by rw [h.ahead, ahead_inside hin, hlen, List.drop_length]
  have hstart : (inside options w pairs 0).unread = encodePairs (inside options w pairs 0).ahead ++ [] := by
    rw [ahead_inside hin, List.append_nil]
    rfl
  have hunread := h.unread hstart
  rw [hahead] at hunread
  have htrace : d.trace = verdicts.flatMap (Verdict.events options.labels) := h.trace
  have hevent : d.options.labels.mark { operation := .decode, category := .message, size := d.size } =
      options.labels.mark { operation := .decode, category := .message, size := (Item.map w pairs).encode.length } := by
    rw [hoptions, hsize]
    rfl
  rw [← htrace, ← hevent]
  exact leave_traces hread hunread htrailing

/-- A decode whose journal has all pairs of the message: what it returns, what it leaves and what it traces. -/
theorem decode_of_journal {w : Width} (henter : enter options t.expected data = (.ok (), inside options w pairs 0))
    (hin : PairsWithin {} 0 pairs) (hwanted : t.wanted (inside options w pairs 0) = pairs.length) {verdicts : List Verdict}
    (hjournal : t.journal (inside options w pairs 0) = verdicts) (hlen : verdicts.length = pairs.length) :
    t.decode options data =
      ((t.record verdicts).aggregate walkOp, { t with fields := (t.record verdicts).fields false },
        verdicts.flatMap (Verdict.events options.labels) ++
          [options.labels.mark { operation := .decode, category := .message, size := (Item.map w pairs).encode.length }]) := by
  have hdecoded := t.decoded options data
  generalize t.decode options data = r at hdecoded ⊢
  subst hjournal
  cases hdecoded with
  | barred h => cases h.symm.trans henter
  | stuck h _ hshort =>
    cases h.symm.trans henter
    rw [hwanted, hlen] at hshort
    exact absurd hshort (Nat.lt_irrefl _)
  | unfinished h hpasses _ hends =>
    cases h.symm.trans henter
    cases (leave_of_passes hin hpasses hlen).symm.trans hends
  | finished h hpasses _ hends =>
    cases h.symm.trans henter
    cases (leave_of_passes hin hpasses hlen).symm.trans hends
    rfl

/-- A walk keeps the shapes of the fields. -/
theorem map_shape_record (t : Table) (d : Decoder) :
    (t.record (t.journal d)).entries.map (fun e => e.field.shape) = t.fields.map Field.shape := by
  have h : ∀ (verdicts : List Verdict) (w : Walk), (∀ v ∈ verdicts, ∃ n p, t.verdict? n p = some v) →
      w.entries.map (fun e => e.field.shape) = t.fields.map Field.shape →
      (verdicts.foldl Walk.note w).entries.map (fun e => e.field.shape) = t.fields.map Field.shape := by
    intro verdicts
    induction verdicts with
    | nil => exact fun w _ hw => hw
    | cons v verdicts ih =>
      intro w hverdicts hw
      obtain ⟨n, p, hv⟩ := hverdicts v List.mem_cons_self
      exact ih (w.note v) (fun v hv => hverdicts v (List.mem_cons_of_mem _ hv)) (map_shape_note hw hv)
  refine h _ t.start (fun v hv => ?_) ?_
  · obtain ⟨n, p, -, hverdict⟩ := exists_of_mem_journalFrom hv
    exact ⟨n, p, hverdict⟩
  · rw [start, List.map_map]
    rfl

/-- A decode whose journal is cut short by the budget alone fails for it. -/
theorem fails_of_short_journal {w : Width} (henter : enter options t.expected data = (.ok (), inside options w pairs 0))
    (hin : PairsWithin {} 0 pairs) (hwanted : t.wanted (inside options w pairs 0) = pairs.length)
    (hverdicts : ∀ k p, pairs[k]? = some p → ∃ v, t.verdict? k p = some v)
    (hshort : (t.journal (inside options w pairs 0)).length < pairs.length) :
    ∃ err t' trace, t.decode options data = (some err, t', trace) ∧ err.code = .allocationFailure ∧
      t.CleanedUp (t.journal (inside options w pairs 0)) t' := by
  have hdecoded := t.decoded options data
  generalize t.decode options data = r at hdecoded ⊢
  cases hdecoded with
  | barred h => cases h.symm.trans henter
  | unfinished h _ hall =>
    cases h.symm.trans henter
    exact absurd (hall.trans hwanted) (Nat.ne_of_lt hshort)
  | finished h _ hall =>
    cases h.symm.trans henter
    exact absurd (hall.trans hwanted) (Nat.ne_of_lt hshort)
  | @stuck d d₁ d' err h hpasses _ hstuck hends =>
    cases h.symm.trans henter
    refine ⟨err, _, _, rfl, ?_, cleanedUp_released t _⟩
    -- the pair at which the decode is stuck has a verdict, so it is one that the budget does not afford
    have hahead := hpasses.ahead
    rw [ahead_inside hin, List.drop_eq_getElem_cons hshort] at hahead
    obtain ⟨rest, hp⟩ := exists_atPair_of_ahead hahead
    obtain ⟨v, hv⟩ := hverdicts _ _ (List.getElem?_eq_getElem hshort)
    have hmeets := takePair_meets (t := t) hp (t.journal (inside options w pairs 0)).length
      (map_shape_record t (inside options w pairs 0))
    rw [hv] at hmeets
    obtain ⟨err', d'', hrun, hcode⟩ := hmeets.2 (hstuck _ _ v hp hv)
    cases hrun.symm.trans hends
    exact hcode.1

/-- The allocation budget is exact. For a message that is decoded to its end, without a limit or under some other one, if only with a list
of keys: a limit with room for the values of text and bytes fields changes nothing, and a smaller one makes the decode fail and clear what
it stored. Keys and skipped values are free, and so is what is empty. -/
theorem allocation_limit_is_exact (t : Table) {options : Options} {data : List UInt8}
    (hok : ∀ err, (t.decode options data).1 = some err → err.isAggregate = true) (hlen : data.length < 2 ^ 63) (limit : Int64)
    (hpos : 0 < limit) :
    ((t.allocation data : Int) ≤ limit.toInt → t.decode { options with allocLimit := limit } data = t.decode options data) ∧
    (limit.toInt < t.allocation data →
      ∃ err t' trace, t.decode { options with allocLimit := limit } data = (some err, t', trace) ∧ err.code = .allocationFailure ∧
        t.CleanedUp (t.journal (enter { options with allocLimit := limit } t.expected data).2) t') := by
  obtain ⟨w, pairs, rfl, hmap, halloc, henter, hwanted, hall⟩ := exists_pairs_of_finished hok
  have hin : PairsWithin {} 0 pairs := PairsWithin.shallower (Nat.zero_le 1) hmap.2.2.2.2
  have hbound : 0 + t.allocationFrom 0 pairs < 2 ^ 63 := by
    have := t.allocationFrom_le 0 pairs
    rw [encode_eq, body, ← encodePairs_eq_flatMap, List.length_append] at hlen
    omega
  have hfreeJournal := journal_inside t options w hin
  have hjournal := journal_inside t { options with allocLimit := limit } w hin
  rw [hfreeJournal] at hall
  rw [halloc]
  constructor
  · intro hroom
    rw [journalFrom_of_room hall hpos hbound (by rwa [Nat.zero_add])] at hjournal
    rw [decode_of_journal (henter options) hin hwanted hfreeJournal hall,
      decode_of_journal (henter { options with allocLimit := limit }) hin hwanted hjournal hall]
  · intro hover
    have hshort := length_journalFrom_lt hall hpos hbound (Int64.lt_iff_toInt_lt.1 hpos).le (by rwa [Nat.zero_add])
    rw [← hjournal] at hshort
    rw [henter]
    refine fails_of_short_journal (henter _) hin hwanted (fun k p hp => ?_) hshort
    obtain ⟨v, hv⟩ := exists_verdict_of_length hall hp
    exact ⟨v, by rwa [Nat.zero_add] at hv⟩

/-- A text in chunks, a text under a key that no field has, a byte string and an empty text come to four bytes. -/
theorem four_bytes_are_needed :
    let t : Table := ⟨[.holding ⟨[97]⟩ (.string ⟨[122]⟩), .holding ⟨[98]⟩ (.bytes [])], false⟩
    let data : List UInt8 :=
      [0xa4, 0x61, 0x61, 0x7f, 0x61, 0x78, 0x61, 0x79, 0xff, 0x61, 0x63, 0x61, 0x78, 0x61, 0x62, 0x41, 0x01, 0x61, 0x61, 0x60]
    t.allocation data = 4 ∧ t.decode { allocLimit := 4 } data = t.decode {} data ∧
      ∃ err t' trace, t.decode { allocLimit := 3 } data = (some err, t', trace) ∧ err.code = .allocationFailure ∧
        t'.fields[0]? = some (.holding ⟨[97]⟩ (.string "")) ∧ t'.fields[1]? = some (.holding ⟨[98]⟩ (.bytes [])) := by
  intro t data
  have halloc : t.allocation data = 4 := by decide +kernel
  have hok : ∀ err, (t.decode {} data).1 = some err → err.isAggregate = true := by
    have hall : (t.decode {} data).1.all Error.isAggregate = true := by decide +kernel
    intro err herr
    rwa [herr] at hall
  have hjournal : t.journal (enter { allocLimit := 3 } t.expected data).2 = [.stored 0 (.string ⟨[120, 121]⟩), .skipped ⟨[99]⟩] := by
    decide +kernel
  refine ⟨halloc, (allocation_limit_is_exact t hok (by decide) 4 (by decide)).1 (by rw [halloc]; decide), ?_⟩
  obtain ⟨err, t', trace, hdecode, hcode, hcleaned⟩ :=
    (allocation_limit_is_exact t hok (by decide) 3 (by decide)).2 (by rw [halloc]; decide)
  rw [hjournal] at hcleaned
  refine ⟨err, t', trace, hdecode, hcode, ?_, ?_⟩
  · exact hcleaned.text 0 (.holding ⟨[97]⟩ (.string ⟨[122]⟩)) ⟨[122]⟩ rfl rfl
  · exact hcleaned.bytes 1 (.holding ⟨[98]⟩ (.bytes [])) [] rfl rfl

end Table

end SensorWire
