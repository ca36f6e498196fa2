import Mathlib
import SensorWire.Proofs.Reports

/-!
# Errors name their operation

Every step of decoding is given the name of the operation that it is part of, and its errors carry that name (`Names`). None of them is
about bytes after the map: only leaving the map looks there. Both are kept by doing one step after another, so they are proved reader by
reader, and then for the decode of a table.

Main statements: `names_takeValue` and `op_of_decode`.
-/

namespace SensorWire

open Cbor Item

/-- An error of an operation that reads inside a map. -/
structure Error.Inside (op : Text) (err : Error) : Prop where
  op : err.op = op
  code : err.code ≠ .trailingData

namespace Decoder

section Steps

variable {α β : Type} {m : Decode α} {f : α → Decode β} {op : Text}

/-- A step whose errors carry the name of its operation. -/
def Names (op : Text) (m : Decode α) : Prop := ∀ d err d', m.run.run d = (.error err, d') → err.Inside op

theorem Names.bind (h : Names op m) (hf : ∀ a, Names op (f a)) : Names op (m >>= f) := by
  intro d err d' hrun
  rw [run_bind] at hrun
  rcases hm : m.run.run d with ⟨err' | a, d₁⟩
  · rw [hm] at hrun
    cases hrun
    exact h _ _ _ hm
  · rw [hm] at hrun
    exact hf a d₁ err d' hrun

theorem names_pure (a : α) : Names op (pure a : Decode α) := by
  intro d err d' hrun
  cases hrun

theorem names_get : Names op (get : Decode Decoder) := by
  intro d err d' hrun
  cases hrun

theorem names_modify (g : Decoder → Decoder) : Names op (modify g : Decode Unit) := by
  intro d err d' hrun
  cases hrun

theorem names_throw {err : Error} (h : err.Inside op) : Names op (throw err : Decode α) := by
  intro d err' d' hrun
  cases hrun
  exact h

theorem names_fail {err : Error} (h : err.Inside op) : Names op (fail err : Decode α) :=
  (names_modify _).bind fun _ => names_throw h

theorem Names.ite {c : Prop} [Decidable c] {l : Decode α} (h : Names op m) (h' : Names op l) : Names op (if c then m else l) := by
  split
  · exact h
  · exact h'

/-- What catches some errors and passes on the others adds none. -/
theorem Names.tryCatch (h : Names op m) (a : α) :
    Names op (tryCatch m fun err => if err.code = .outOfRange then return a else throw err) := by
  intro d err d' hrun
  rw [run_tryCatch] at hrun
  rcases hm : m.run.run d with ⟨err' | b, d₁⟩
  · rw [hm] at hrun
    dsimp only at hrun
    split at hrun
    · cases hrun
    · cases hrun
      exact h _ _ _ hm
  · rw [hm] at hrun
    cases hrun

end Steps

/-! ## Readers -/

section Readers

variable {α : Type} (op key : Text)

theorem names_peek : Names op (peek op key) := by
  refine names_get.bind fun d => ?_
  cases d.unread with
  | nil => exact names_fail ⟨rfl, by simp⟩
  | cons b tail => exact names_pure _

theorem names_unexpected (want : String) (b : UInt8) : Names op (unexpected op key want b : Decode α) := names_fail ⟨rfl, by simp⟩

theorem names_expect (major : Major) (want : String) : Names op (expect op key major want) :=
  (names_peek op key).bind fun (b, _) => (names_unexpected op key want b).ite (names_pure ())

theorem names_peekHead : Names op (peekHead op key) := by
  refine names_get.bind fun d => ?_
  cases Head.read d.unread with
  | error f => exact names_fail ⟨rfl, by simp⟩
  | ok r => exact names_pure _

theorem names_next (view : Item → Except Fault α) : Names op (next op key view) := by
  refine names_get.bind fun d => ?_
  cases Item.read {} d.unread with
  | error f => exact names_fail ⟨rfl, by simp⟩
  | ok r =>
    dsimp only
    cases view r.1 with
    | error f => exact names_fail ⟨rfl, by simp⟩
    | ok a => exact (names_modify _).bind fun _ => names_pure a

theorem names_noPairs : Names op (noPairs op key : Decode α) := names_get.bind fun _ => names_fail ⟨rfl, by simp⟩

theorem names_takeKey : Names op (takeKey op key) := by
  refine names_get.bind fun d => (names_noPairs op key).ite ?_
  refine (names_expect op key .text _).bind fun _ => (names_next op key _).bind fun k => ?_
  exact (names_modify _).bind fun _ => names_pure k

theorem names_skipUnknown : Names op (skipUnknown op key) := (names_modify _).bind fun _ => names_next op key _

theorem names_takeTolerantKey : Names op (takeTolerantKey op) := by
  refine names_get.bind fun d => (names_noPairs op "").ite ?_
  refine (names_expect op "" .text _).bind fun _ => (names_peekHead op "").bind fun (h, _) => Names.ite ?_ ?_
  · exact (names_takeKey op "").bind fun k => names_pure _
  · refine (names_next op "" _).bind fun _ => (names_modify _).bind fun _ => ?_
    exact (names_skipUnknown op _).bind fun _ => names_pure _

theorem names_takeUnsigned : Names op (takeUnsigned op key) := (names_expect op key .unsigned _).bind fun _ => names_next op key _

theorem names_takeSimple : Names op (takeSimple op key) := by
  refine (names_expect op key .primitive _).bind fun _ => (names_peek op key).bind fun (b, tail) => ?_
  refine Names.ite ((names_modify _).bind fun _ => names_pure _) (Names.ite ?_ (names_unexpected op key _ b))
  cases tail with
  | nil => exact names_fail ⟨rfl, by simp⟩
  | cons v tail => exact Names.ite (names_fail ⟨rfl, by simp⟩) ((names_modify _).bind fun _ => names_pure v)

/-- A number of one size is told by its first byte. -/
theorem names_takeFloat (first : UInt8) (want : String) (view : Item → Except Fault α) :
    Names op (do
      let (b, _) ← peek op key
      if b ≠ first then unexpected op key want b else next op key view) :=
  (names_peek op key).bind fun (b, _) => (names_unexpected op key want b).ite (names_next op key view)

theorem names_charge (n : Int64) : Names op (charge op key n) :=
  names_get.bind fun _ => Names.ite (names_fail ⟨rfl, by simp⟩) (names_modify _)

theorem names_chargeString (kind : StringKind) (want : String) (extra : Nat) : Names op (chargeString op key kind want extra) := by
  refine (names_expect op key kind.major want).bind fun _ => (names_peekHead op key).bind fun (h, _) => ?_
  refine (names_pure true).ite (Names.ite (names_get.bind fun _ => Names.ite ?_ ?_) (names_pure false))
  · exact (names_fail ⟨rfl, by simp⟩).bind fun _ => names_pure false
  · exact (names_charge op key _).bind fun _ => names_pure false

theorem names_takeString {extra : Nat} (kind : StringKind) (want : String) (view : Item → Except Fault α) (bytes : α → List UInt8) :
    Names op (takeString op key kind want extra view bytes) := by
  refine (names_chargeString op key kind want extra).bind fun isOpen => (names_next op key view).bind fun a => ?_
  exact Names.ite ((names_charge op key _).bind fun _ => names_pure a) (names_pure a)

theorem names_takeArrayHead : Names op (takeArrayHead op key) := by
  refine (names_expect op key .array _).bind fun _ => (names_peekHead op key).bind fun (h, rest) => ?_
  refine Names.ite (names_fail ⟨rfl, by simp⟩) (names_get.bind fun _ => Names.ite (names_fail ⟨rfl, by simp⟩) ?_)
  exact (names_modify _).bind fun _ => names_pure _

theorem names_takeNumber (f : Field) (s : Slot) (limit : Nat) (refused : Nat → Detail) : Names op (takeNumber op f s limit refused) :=
  (names_takeUnsigned op f.key).bind fun _ => Names.ite (names_throw ⟨rfl, by simp⟩) (names_pure _)

theorem names_takeValue (f : Field) : Names op (takeValue op f) := by
  obtain ⟨key, binding, checked⟩ := f
  cases binding with
  | unbound t => exact names_fail ⟨rfl, by simp⟩
  | bound s =>
    cases s with
    | simple v => exact (names_takeSimple op key).bind fun _ => names_pure _
    | float32 bits => exact (names_takeFloat op key 0xfa "float32" _).bind fun _ => names_pure _
    | float64 bits => exact (names_takeFloat op key 0xfb "float64" _).bind fun _ => names_pure _
    | string v => exact (names_takeString op key .text "text string" Item.text Text.bytes).bind fun _ => names_pure _
    | bytes v => exact (names_takeString op key .bytes "byte string" (fun i => .ok i.content) id).bind fun _ => names_pure _
    | _ => exact names_takeNumber op _ _ _ _

end Readers

/-! ## Entering and leaving -/

theorem op_of_enter_error {options : Options} {expected : Option Int} {data : List UInt8} {err : Error} {d : Decoder}
    (h : enter options expected data = (.error err, d)) : err.Inside "Enter" := by
  unfold enter at h
  dsimp only at h
  split at h
  · exact names_fail ⟨rfl, by simp⟩ _ _ _ h
  · split at h
    · exact names_fail ⟨rfl, by simp⟩ _ _ _ h
    · split at h
      · rename_i hchecked
        cases h
        refine (?_ : Names "Enter" _) _ _ _ hchecked
        refine Names.ite (names_fail ⟨rfl, by simp⟩) (Names.ite (names_fail ⟨rfl, by simp⟩) ?_)
        cases expected with
        | none => exact names_pure ()
        | some n => exact Names.ite (names_fail ⟨rfl, by simp⟩) (names_pure ())
      · cases h

theorem op_of_leave_error {d d' : Decoder} {err : Error} (h : leave.run.run d = (.error err, d')) : err.op = "Leave" := by
  rw [leave, (gives_get d).run_bind] at h
  split at h
  · cases h
    rfl
  · split at h
    · cases h
      rfl
    · cases h

end Decoder

/-! ## Tables -/

namespace Table

open Decoder

theorem names_strictPair (f : Field) : Names walkOp (strictPair f) :=
  (names_takeKey walkOp f.key).bind fun _ => Names.ite (names_fail ⟨rfl, by simp⟩) (names_takeValue walkOp f)

theorem names_tolerantPair (entries : List Entry) : Names walkOp (tolerantPair entries) := by
  refine (names_takeTolerantKey walkOp).bind fun pairKey => ?_
  cases pairKey with
  | skipped name => exact names_pure _
  | key key =>
    dsimp only
    split
    · exact (names_skipUnknown walkOp key).bind fun _ => names_pure _
    · rename_i e _
      exact ((names_takeValue walkOp e.field).bind fun _ => names_pure _).tryCatch _

theorem names_takePair (t : Table) (n : Nat) (entries : List Entry) : Names walkOp (t.takePair n entries) := by
  rw [takePair]
  refine Names.ite ?_ ((names_tolerantPair entries).bind fun pair => ?_)
  · split
    · exact names_noPairs walkOp ""
    · rename_i f _
      exact ((names_strictPair f).bind fun _ => names_pure _).tryCatch _
  · cases pair <;> exact names_pure _

theorem op_of_aggregate {w : Walk} {op : Text} {err : Error} (h : w.aggregate op = some err) : err.op = op := by
  unfold Walk.aggregate at h
  split_ifs at h
  · cases h
    rfl
  · cases h
    rfl

/-- The errors of decoding a table come from entering the map, from its pairs or from leaving it. -/
theorem op_of_decode {t : Table} {options : Options} {data : List UInt8} {err : Error} (h : (t.decode options data).1 = some err) :
    err.op = "Enter" ∨ err.op = walkOp ∨ err.op = "Leave" := by
  have hdecoded := t.decoded options data
  generalize t.decode options data = r at h hdecoded
  cases hdecoded with
  | barred henter =>
    cases h
    exact Or.inl (op_of_enter_error henter).op
  | stuck _ _ _ _ hends =>
    cases h
    exact Or.inr (Or.inl (names_takePair t _ _ _ _ _ hends).op)
  | unfinished _ _ _ hends =>
    cases h
    exact Or.inr (Or.inr (op_of_leave_error hends))
  | finished => exact Or.inr (Or.inl (op_of_aggregate h))

end Table

end SensorWire
