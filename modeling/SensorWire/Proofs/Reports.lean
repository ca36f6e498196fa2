import Mathlib
import SensorWire.Proofs.Walks

/-!
# Errors are reported once

A step of decoding that gives a value adds nothing to the trace, and a step that fails adds its error and nothing else (`Reports`). Steps
that refuse a number out of range say nothing about it (`Tells`). Both are kept by doing one step after another, so they are proved reader
by reader, up to the value of a field and to a pair.

Main statements: `reported_takePair` and `exists_finished`.
-/

namespace SensorWire

open Cbor Item

namespace Decoder

section Steps

variable {α β : Type} {m : Decode α} {f : α → Decode β} {d d' : Decoder}

/-- Nothing was added to the trace. -/
structure Silent (d d' : Decoder) : Prop where
  trace : d'.trace = d.trace
  options : d'.options = d.options

/-- An error that lists no keys is the one event that was added to the trace. -/
structure Reported (err : Error) (d d' : Decoder) : Prop where
  code : err.code ≠ .outOfRange
  keys : err.keys = []
  trace : d'.trace = d.trace ++ [d.options.labels.mark (err.event .decode)]
  options : d'.options = d.options

/-- A step that says nothing unless it fails, and then reports its error. -/
def Reports (m : Decode α) : Prop := ∀ d, match m.run.run d with
  | (.ok _, d') => Silent d d'
  | (.error err, d') => Reported err d d'

/-- A step that reports its error unless it refuses a number out of range. -/
def Tells (m : Decode α) : Prop := ∀ d, match m.run.run d with
  | (.ok _, d') => Silent d d'
  | (.error err, d') => if err.code = .outOfRange then Silent d d' else Reported err d d'

theorem Silent.reported {err : Error} {d'' : Decoder} (h : Silent d d') (h' : Reported err d' d'') : Reported err d d'' := by
  refine ⟨h'.code, h'.keys, ?_, h'.options.trans h.options⟩
  rw [h'.trace, h.trace, h.options]

theorem Silent.trans {d'' : Decoder} (h : Silent d d') (h' : Silent d' d'') : Silent d d'' :=
  ⟨h'.trace.trans h.trace, h'.options.trans h.options⟩

theorem Reports.bind (h : Reports m) (hf : ∀ a, Reports (f a)) : Reports (m >>= f) := by
  intro d
  have hm := h d
  rw [run_bind]
  generalize m.run.run d = r at hm ⊢
  rcases r with ⟨err | a, d₁⟩
  · exact hm
  · have hrest := hf a d₁
    dsimp only at hm ⊢
    generalize (f a).run.run d₁ = r at hrest ⊢
    rcases r with ⟨err | b, d₂⟩
    · exact hm.reported hrest
    · exact hm.trans hrest

theorem Reports.tells (h : Reports m) : Tells m := by
  intro d
  have hm := h d
  generalize m.run.run d = r at hm ⊢
  rcases r with ⟨err | a, d₁⟩
  · dsimp only at hm ⊢
    rw [if_neg hm.code]
    exact hm
  · exact hm

theorem Reports.bind_tells (h : Reports m) (hf : ∀ a, Tells (f a)) : Tells (m >>= f) := by
  intro d
  have hm := h d
  rw [run_bind]
  generalize m.run.run d = r at hm ⊢
  rcases r with ⟨err | a, d₁⟩
  · dsimp only at hm ⊢
    rw [if_neg hm.code]
    exact hm
  · have hrest := hf a d₁
    dsimp only at hm ⊢
    generalize (f a).run.run d₁ = r at hrest ⊢
    rcases r with ⟨err | b, d₂⟩
    · dsimp only at hrest ⊢
      split_ifs at hrest ⊢
      · exact hm.trans hrest
      · exact hm.reported hrest
    · exact hm.trans hrest

theorem Tells.map (h : Tells m) (g : α → β) : Tells (m >>= fun a => pure (g a)) := by
  intro d
  have hm := h d
  rw [run_bind]
  generalize m.run.run d = r at hm ⊢
  rcases r with ⟨err | a, d₁⟩
  · exact hm
  · exact hm

theorem reports_pure (a : α) : Reports (pure a : Decode α) := fun _ => ⟨rfl, rfl⟩

theorem reports_get : Reports (get : Decode Decoder) := fun _ => ⟨rfl, rfl⟩

theorem reports_modify {g : Decoder → Decoder} (h : ∀ d, Silent d (g d)) : Reports (modify g : Decode Unit) := fun d => h d

theorem reports_fail {err : Error} (hcode : err.code ≠ .outOfRange) (hkeys : err.keys = []) : Reports (fail err : Decode α) :=
  fun _ => ⟨hcode, hkeys, rfl, rfl⟩

theorem Reports.of_error {err : Error} (h : Reports m) (hrun : m.run.run d = (.error err, d')) : Reported err d d' := by
  have hm := h d
  rw [hrun] at hm
  exact hm

end Steps

/-! ## Readers -/

section Readers

variable {α : Type} (op key : Text)

theorem reports_peek : Reports (peek op key) := by
  refine reports_get.bind fun d => ?_
  cases d.unread with
  | nil => exact reports_fail (by simp) rfl
  | cons b tail => exact reports_pure _

theorem reports_unexpected (want : String) (b : UInt8) : Reports (unexpected op key want b : Decode α) := reports_fail (by simp) rfl

theorem reports_expect (major : Major) (want : String) : Reports (expect op key major want) := by
  refine (reports_peek op key).bind fun ⟨b, tail⟩ => ?_
  dsimp only
  split
  · exact reports_unexpected op key want b
  · exact reports_pure ()

theorem reports_peekHead : Reports (peekHead op key) := by
  refine reports_get.bind fun d => ?_
  cases Head.read d.unread with
  | error f => exact reports_fail (by simp) rfl
  | ok r => exact reports_pure _

theorem reports_unread (rest : List UInt8) : Reports (modify fun d => { d with unread := rest } : Decode Unit) :=
  reports_modify fun _ => ⟨rfl, rfl⟩

theorem reports_next (view : Item → Except Fault α) : Reports (next op key view) := by
  refine reports_get.bind fun d => ?_
  cases Item.read {} d.unread with
  | error f => exact reports_fail (by simp) rfl
  | ok r =>
    dsimp only
    cases view r.1 with
    | error f => exact reports_fail (by simp) rfl
    | ok a => exact (reports_unread r.2).bind fun _ => reports_pure a

theorem reports_noPairs : Reports (noPairs op key : Decode α) := reports_get.bind fun _ => reports_fail (by simp) rfl

theorem reports_takeKey : Reports (takeKey op key) := by
  refine reports_get.bind fun d => ?_
  split
  · exact reports_noPairs op key
  · refine (reports_expect op key .text _).bind fun _ => (reports_next op key _).bind fun k => ?_
    refine Reports.bind (reports_modify ?_) fun _ => reports_pure k
    exact fun _ => ⟨rfl, rfl⟩

theorem reports_takeUnsigned : Reports (takeUnsigned op key) :=
  (reports_expect op key .unsigned _).bind fun _ => reports_next op key _

theorem reports_takeSimple : Reports (takeSimple op key) := by
  refine (reports_expect op key .primitive _).bind fun _ => (reports_peek op key).bind fun ⟨b, tail⟩ => ?_
  dsimp only
  split
  · exact (reports_unread tail).bind fun _ => reports_pure _
  · split
    · split
      · exact reports_fail (by simp) rfl
      · rename_i v rest
        split
        · exact reports_fail (by simp) rfl
        · exact (reports_unread rest).bind fun _ => reports_pure v
    · exact reports_unexpected op key _ b

/-- A number of one size is told by its first byte. -/
theorem reports_takeFloat (first : UInt8) (want : String) (view : Item → Except Fault α) :
    Reports (do
      let (b, _) ← peek op key
      if b ≠ first then unexpected op key want b else next op key view) := by
  refine (reports_peek op key).bind fun ⟨b, tail⟩ => ?_
  dsimp only
  split
  · exact reports_unexpected op key want b
  · exact reports_next op key view

theorem reports_charge (n : Int64) : Reports (charge op key n) := by
  intro d
  rw [charge, (gives_get d).run_bind]
  by_cases hroom : 0 < d.options.allocLimit ∧ d.options.allocLimit < d.allocated + n
  · simp only [hroom, and_self, if_true]
    exact reports_fail (α := Unit) (by simp) rfl d
  · simp only [hroom, if_false]
    exact ⟨rfl, rfl⟩

theorem reports_chargeString (kind : StringKind) (want : String) (extra : Nat) : Reports (chargeString op key kind want extra) := by
  refine (reports_expect op key kind.major want).bind fun _ => (reports_peekHead op key).bind fun ⟨h, rest⟩ => ?_
  dsimp only
  split
  · exact reports_pure true
  · split
    · refine reports_get.bind fun d => ?_
      split
      · exact (reports_fail (by simp) rfl).bind fun _ => reports_pure false
      · exact (reports_charge op key _).bind fun _ => reports_pure false
    · exact reports_pure false

theorem reports_takeString {extra : Nat} (kind : StringKind) (want : String) (view : Item → Except Fault α) (bytes : α → List UInt8) :
    Reports (takeString op key kind want extra view bytes) := by
  refine (reports_chargeString op key kind want extra).bind fun isOpen => (reports_next op key view).bind fun a => ?_
  split
  · exact (reports_charge op key _).bind fun _ => reports_pure a
  · exact reports_pure a

theorem reports_takeArrayHead : Reports (takeArrayHead op key) := by
  refine (reports_expect op key .array _).bind fun _ => (reports_peekHead op key).bind fun ⟨h, rest⟩ => ?_
  dsimp only
  split
  · exact reports_fail (by simp) rfl
  · refine reports_get.bind fun d => ?_
    split
    · exact reports_fail (by simp) rfl
    · exact (reports_unread rest).bind fun _ => reports_pure _

theorem tells_takeNumber (f : Field) (s : Slot) (limit : Nat) (refused : Nat → Detail) : Tells (takeNumber op f s limit refused) := by
  refine (reports_takeUnsigned op f.key).bind_tells fun n => ?_
  split
  · intro d
    have hsilent : Silent d d := ⟨rfl, rfl⟩
    exact (if_pos rfl).mpr hsilent
  · exact (reports_pure _).tells

theorem tells_takeValue (f : Field) : Tells (takeValue op f) := by
  obtain ⟨key, binding, checked⟩ := f
  cases binding with
  | unbound t => exact (reports_fail (by simp) rfl).tells
  | bound s =>
    cases s with
    | simple v => exact (reports_takeSimple op key).tells.map _
    | float32 bits => exact (reports_takeFloat op key 0xfa "float32" _).tells.map _
    | float64 bits => exact (reports_takeFloat op key 0xfb "float64" _).tells.map _
    | string v => exact (reports_takeString op key .text "text string" Item.text Text.bytes).tells.map _
    | bytes v => exact (reports_takeString op key .bytes "byte string" (fun i => .ok i.content) id).tells.map _
    | _ => exact tells_takeNumber op _ _ _ _

/-- A field that is not checked refuses no number. -/
theorem reports_takeValue {f : Field} (h : f.checked = false) : Reports (takeValue op f) := by
  obtain ⟨key, binding, checked⟩ := f
  obtain rfl : checked = false := h
  have hnumber : ∀ (s : Slot) (limit : Nat) (refused : Nat → Detail), Reports (takeNumber op ⟨key, binding, false⟩ s limit refused) := by
    intro s limit refused
    refine (reports_takeUnsigned op key).bind fun n => ?_
    simp only [Bool.false_eq_true, false_and, if_false]
    exact reports_pure _
  cases binding with
  | unbound t => exact reports_fail (by simp) rfl
  | bound s =>
    cases s with
    | simple v => exact (reports_takeSimple op key).bind fun _ => reports_pure _
    | float32 bits => exact (reports_takeFloat op key 0xfa "float32" _).bind fun _ => reports_pure _
    | float64 bits => exact (reports_takeFloat op key 0xfb "float64" _).bind fun _ => reports_pure _
    | string v => exact (reports_takeString op key .text "text string" Item.text Text.bytes).bind fun _ => reports_pure _
    | bytes v => exact (reports_takeString op key .bytes "byte string" (fun i => .ok i.content) id).bind fun _ => reports_pure _
    | _ => exact hnumber _ _ _

end Readers

/-- What a step refuses can be made into a value. -/
theorem Tells.tryCatch {α : Type} {m : Decode α} (h : Tells m) (a : α) :
    Reports (tryCatch m fun err => if err.code = .outOfRange then return a else throw err) := by
  intro d
  have hm := h d
  rw [run_tryCatch]
  generalize m.run.run d = r at hm ⊢
  rcases r with ⟨err | b, d₁⟩
  · by_cases hcode : err.code = .outOfRange
    · simp only [hcode, if_true] at hm ⊢
      exact hm
    · simp only [hcode, if_false] at hm ⊢
      exact hm
  · exact hm

/-- Leaving a map that was read to its end, with nothing after it, tells of the message. -/
theorem leave_traces {d : Decoder} (hread : d.read = d.count) (hunread : d.unread = []) (htrailing : d.trailing = 0) :
    Gives leave d () { d with
      trace := d.trace ++ [d.options.labels.mark { operation := .decode, category := .message, size := d.size }] } := by
  have hrest : ¬(d.read ≠ d.count ∨ d.unread ≠ []) := by simp [hread, hunread]
  refine (gives_get d).bind ?_
  rw [if_neg hrest, if_neg (not_not.2 htrailing)]
  rfl

/-- Leaving any other map reports its error. -/
theorem leave_cases (d : Decoder) :
    (∃ err d', leave.run.run d = (.error err, d') ∧ Reported err d d') ∨ d.read = d.count ∧ d.unread = [] ∧ d.trailing = 0 := by
  by_cases hrest : d.read ≠ d.count ∨ d.unread ≠ []
  · left
    rw [leave, (gives_get d).run_bind]
    simp only [hrest, if_true]
    exact ⟨_, _, rfl, by simp, rfl, rfl, rfl⟩
  · by_cases htrailing : d.trailing = 0
    · exact Or.inr ⟨by tauto, by tauto, htrailing⟩
    · left
      rw [leave, (gives_get d).run_bind]
      simp only [hrest, if_false, htrailing, ne_eq, not_false_eq_true, if_true]
      exact ⟨_, _, rfl, by simp, rfl, rfl, rfl⟩

end Decoder

/-! ## One pair -/

namespace Table

open Decoder

variable {t : Table} {d d' : Decoder} {p : Item × Item} {rest : List UInt8} {err : Error}

theorem tells_strictPair (f : Field) : Tells (strictPair f) := by
  refine (reports_takeKey walkOp f.key).bind_tells fun key => ?_
  split
  · exact (reports_fail (by simp) rfl).tells
  · exact tells_takeValue walkOp f

theorem reports_strictPair {f : Field} (h : f.checked = false) : Reports (strictPair f) := by
  refine (reports_takeKey walkOp f.key).bind fun key => ?_
  split
  · exact reports_fail (by simp) rfl
  · exact reports_takeValue walkOp h

theorem reports_keepValue {α : Type} (f : Field) (stored : Slot → α) (refused : α) : Reports (keepValue f stored refused) :=
  ((tells_takeValue walkOp f).map stored).tryCatch refused

/-- An error at a pair of a table that is not strict is reported, whatever was skipped before. -/
theorem reported_tolerantPair {entries : List Entry} (hp : AtPair d p rest)
    (hrun : (tolerantPair entries).run.run d = (.error err, d')) : Reported err d d' := by
  cases hkey : p.1.pairKey with
  | error code =>
    obtain ⟨hshort, ht, -⟩ := pairKey_eq_error hkey
    obtain ⟨err', d₁, htake, -⟩ := hp.key.takeTolerantKey_fails hp.more hshort ht walkOp
    rw [tolerantPair, run_bind, htake] at hrun
    cases hrun
    rw [hp.key.takeTolerantKey_eq_takeKey hp.more hshort] at htake
    exact ((reports_takeKey walkOp "").bind fun k => reports_pure (PairKey.key k)).of_error htake
  | ok pairKey =>
    cases pairKey with
    | skipped name =>
      obtain ⟨hmajor, hlong, rfl⟩ := pairKey_eq_skipped hkey
      rw [tolerantPair, (hp.gives_takeTolerantKey_long hmajor hlong walkOp).run_bind] at hrun
      cases hrun
    | key key =>
      obtain ⟨hshort, ht⟩ := pairKey_eq_key hkey
      rw [tolerantPair, (hp.key.takeTolerantKey hp.more hshort ht walkOp).run_bind] at hrun
      have hsilent : Silent d { d with unread := p.2.encode ++ rest, read := d.read + 1 } := ⟨rfl, rfl⟩
      dsimp only at hrun
      split at hrun
      · have hskips : Gives (skipUnknown walkOp key) { d with unread := p.2.encode ++ rest, read := d.read + 1 } () _ :=
          hp.faces_value.gives_skipUnknown walkOp key
        rw [hskips.run_bind] at hrun
        cases hrun
      · rename_i e _
        exact hsilent.reported ((reports_keepValue e.field (Pair.stored key) (.outOfRange key)).of_error hrun)

/-- An error at a pair is the one event that the pair adds to the trace. -/
theorem reported_takePair {n : Nat} {entries : List Entry} (hp : t.strict = true ∨ ∃ p rest, AtPair d p rest)
    (hrun : (t.takePair n entries).run.run d = (.error err, d')) : Reported err d d' := by
  rcases Bool.eq_false_or_eq_true t.strict with hstrict | hstrict
  · cases hf : t.fields[n]? with
    | none =>
      simp only [takePair, hstrict, if_true, hf] at hrun
      exact (reports_noPairs walkOp "").of_error hrun
    | some f =>
      rw [takePair_strict hstrict hf] at hrun
      exact (((tells_strictPair f).map (Verdict.stored n)).tryCatch (.refused f.key)).of_error hrun
  · obtain ⟨p, rest, hp⟩ := hp.resolve_left (by simp [hstrict])
    rw [takePair_tolerant hstrict, run_bind] at hrun
    rcases hpair : (tolerantPair entries).run.run d with ⟨err' | pair, d₁⟩
    · rw [hpair] at hrun
      cases hrun
      exact reported_tolerantPair hp hpair
    · rw [hpair] at hrun
      cases pair <;> cases hrun

/-! ## Whole messages -/

variable {options : Options} {data : List UInt8} {d₁ : Decoder}

/-- The error of a pair at which a decode is stuck is reported. -/
theorem reported_of_stuck (henter : enter options t.expected data = (.ok (), d)) (hpasses : Passes d (t.journal d) d₁)
    (hshort : (t.journal d).length < t.wanted d)
    (hends : (t.takePair (t.journal d).length (t.record (t.journal d)).entries).run.run d₁ = (.error err, d')) : Reported err d₁ d' := by
  refine reported_takePair ?_ hends
  rcases Bool.eq_false_or_eq_true t.strict with hstrict | hstrict
  · exact Or.inl hstrict
  · right
    obtain ⟨w, pairs, rest, rfl, hin, rfl⟩ := eq_inside_of_enter henter
    have hahead := hpasses.ahead
    rw [ahead_inside (PairsWithin.shallower (Nat.zero_le 1) hin.2.2.2.2)] at hahead
    rw [wanted, hstrict] at hshort
    cases hdrop : pairs.drop (t.journal (inside options w pairs rest.length)).length with
    | nil =>
      rw [List.drop_eq_nil_iff] at hdrop
      exact absurd hshort (Nat.not_lt.2 hdrop)
    | cons p more =>
      obtain ⟨rest', hp⟩ := exists_atPair_of_ahead (hahead.trans hdrop)
      exact ⟨p, rest', hp⟩

/-- A decode with no error but one that lists keys has taken the whole message. -/
theorem exists_finished (hok : ∀ err, (t.decode options data).1 = some err → err.isAggregate = true) :
    ∃ d d₁ d', enter options t.expected data = (.ok (), d) ∧ Passes d (t.journal d) d₁ ∧ (t.journal d).length = t.wanted d ∧
      leave.run.run d₁ = (.ok (), d') ∧
      t.decode options data =
        ((t.record (t.journal d)).aggregate walkOp, { t with fields := (t.record (t.journal d)).fields false }, d'.trace) := by
  have hlists : ∀ err : Error, err.keys = [] → err.isAggregate = true → False := by
    intro err hkeys haggregate
    simp [Error.isAggregate, hkeys] at haggregate
  have hdecoded := t.decoded options data
  generalize t.decode options data = r at hok hdecoded ⊢
  cases hdecoded with
  | barred henter => exact (hlists _ (of_enter_error henter).2.1 (hok _ rfl)).elim
  | stuck henter hpasses hshort _ hends => exact (hlists _ (reported_of_stuck henter hpasses hshort hends).keys (hok _ rfl)).elim
  | unfinished _ _ _ hends =>
    rcases leave_cases _ with ⟨err, d', hrun, hreported⟩ | ⟨hread, hunread, htrailing⟩
    · cases hrun.symm.trans hends
      exact (hlists _ hreported.keys (hok _ rfl)).elim
    · cases (leave_traces hread hunread htrailing).symm.trans hends
  | finished henter hpasses hall hends => exact ⟨_, _, _, henter, hpasses, hall, hends, rfl⟩

end Table

end SensorWire
