import Mathlib
import SensorWire.Proofs.Encoder

/-!
# Fatal errors of encoders

A call on an encoder takes one of three turns (`Encoder.Turn`): after a fatal error it returns that error and changes nothing; it fails,
and its error is recorded and traced; or it goes on, and all that it may tell is that the buffer is too small. So the error that a run
leaves behind is the first one of another kind that a call returned (`fatal_run`), and no later call gets past it (`run_of_fatal`).

Main statement: `fatal_error_is_final`.
-/

namespace SensorWire.Encoder

variable {e : Encoder} {err : Error} {r : Option Error × Encoder}

/-! ## One call -/

/-- The turns that a call can take. -/
inductive Turn (e : Encoder) : Option Error × Encoder → Prop
  | stuck {err : Error} (before : e.fatal = some err) : Turn e (some err, e)
  | failed {err : Error} (before : e.fatal = none) (fatal : err.isFatal = true) : Turn e (e.fail err)
  | continued {r : Option Error × Encoder} (before : e.fatal = none) (after : r.2.fatal = none)
    (mild : r.1.filter Error.isFatal = none) : Turn e r

/-- A guarded call takes a turn if what it guards does so where nothing is wrong yet. -/
theorem turn_guarded {call : Option Error × Encoder} (h : e.fatal = none → e.Turn call) : e.Turn (e.guarded call) := by
  unfold guarded
  split
  · rename_i err hfatal
    exact .stuck hfatal
  · rename_i hnone
    exact h hnone

theorem fatal_write (e : Encoder) (bytes : List UInt8) : (e.write bytes).fatal = e.fatal := by
  unfold write
  dsimp only
  split_ifs <;> rfl

/-- A call that ends in its writes tells at most that the buffer is too small. -/
theorem turn_result {e' : Encoder} (before : e.fatal = none) (after : e'.fatal = none) (op key : Text) : e.Turn (e'.result op key) := by
  refine .continued before after ?_
  unfold result
  split <;> rfl

theorem turn_act (e : Encoder) (a : Action) (h : ∀ err, a = .refused err → err.isFatal = true) : e.Turn (e.act a) := by
  cases a with
  | refused err => exact turn_guarded fun hnone => .failed hnone (h err rfl)
  | pair op key value =>
    refine turn_guarded fun hnone => ?_
    split
    · exact .failed hnone rfl
    · exact turn_result hnone (by simp [fatal_write, hnone]) op key
  | array key n =>
    refine turn_guarded fun hnone => ?_
    split
    · exact .failed hnone rfl
    · exact turn_result hnone (by simp [fatal_write, hnone]) _ key
  | element op value =>
    refine turn_guarded fun hnone => ?_
    split
    · exact .failed hnone rfl
    · exact turn_result hnone (by simp [fatal_write, hnone]) op _
  | close =>
    refine turn_guarded fun hnone => ?_
    split_ifs
    · exact .failed hnone rfl
    · exact .failed hnone rfl
    · exact .continued hnone hnone rfl
    · exact .continued hnone hnone rfl

theorem turn_step (e : Encoder) (c : Call) : e.Turn (e.step c) := by
  rw [step_eq_act]
  exact e.turn_act c.action fun _ hrefused => Call.isFatal_of_refused hrefused

/-- After a fatal error, a call returns it and changes nothing. -/
theorem step_of_fatal (h : e.fatal = some err) (c : Call) : e.step c = (some err, e) := by
  have hturn := e.turn_step c
  generalize e.step c = r at hturn
  cases hturn with
  | stuck before => rw [Option.some.inj (h.symm.trans before)]
  | failed before _ => cases h.symm.trans before
  | continued before _ _ => cases h.symm.trans before

/-- The error after a call: the one before it, or else the fatal one that the call returned. -/
theorem Turn.fatal (h : e.Turn r) : r.2.fatal = e.fatal.or (r.1.filter Error.isFatal) := by
  cases h with
  | stuck before => simp [before]
  | failed before fatal => rw [before, Option.none_or, fail, Option.filter_some, if_pos fatal]
  | continued before after mild => rw [before, after, mild, Option.none_or]

/-! ## Runs -/

/-- What the calls of a run return, one after the other. -/
def answers (e : Encoder) : List Call → List (Option Error)
  | [] => []
  | c :: calls => (e.step c).1 :: answers (e.step c).2 calls

/-- The first error in a list of answers that is not about room. -/
def firstFatal (answers : List (Option Error)) : Option Error := answers.findSome? (Option.filter Error.isFatal)

theorem firstFatal_cons (answer : Option Error) (answers : List (Option Error)) :
    firstFatal (answer :: answers) = (answer.filter Error.isFatal).or (firstFatal answers) := by
  rw [firstFatal, List.findSome?_cons]
  cases answer.filter Error.isFatal <;> rfl

theorem run_cons (e : Encoder) (c : Call) (calls : List Call) : e.run (c :: calls) = (e.step c).2.run calls := rfl

/-- After a fatal error, a run changes nothing. -/
theorem run_of_fatal (h : e.fatal = some err) (calls : List Call) : e.run calls = e := by
  induction calls with
  | nil => rfl
  | cons c calls ih => rw [run_cons, step_of_fatal h, ih]

/-- The error that a run leaves: the one it began with, or else the first fatal one that a call returned. -/
theorem fatal_run (e : Encoder) (calls : List Call) : (e.run calls).fatal = e.fatal.or (firstFatal (e.answers calls)) := by
  induction calls generalizing e with
  | nil => rw [answers, firstFatal, List.findSome?_nil, Option.or_none]; rfl
  | cons c calls ih => rw [run_cons, ih, (e.turn_step c).fatal, answers, firstFatal_cons, Option.or_assoc]

/-- A new encoder has a fatal error exactly if that was returned. -/
theorem fatal_startIn (labels : Labels) (buffer : List UInt8) (count : Int) :
    (startIn labels buffer count).2.fatal = (startIn labels buffer count).1.filter Error.isFatal := by
  unfold startIn
  dsimp only
  split
  · rfl
  · have hwritten := fatal_write { beyond := buffer, labels, declared := count.toNat } (Cbor.Head.shortest .map count.toNat).encode
    rw [(turn_result (e := { beyond := buffer }) rfl hwritten _ _).fatal, Option.none_or]

/-- Closing after a fatal error gives that error and no size. -/
theorem finish_of_fatal (h : e.fatal = some err) : e.finish = (.error err, e) := by
  have hclose : e.close = (some err, e) := step_of_fatal h .finish
  rw [finish, hclose]

/-- A fatal error is final. Whatever the calls on an encoder so far: if they left a fatal error, one of them returned it, and from then on
every call returns it, closing gives it in place of a size, and the encoder stays as it is, with its bytes, its size, the bytes it
lacks, its error and its events. And they left none exactly if no call, making the encoder included, returned any error but that of a buffer
that is too small. -/
theorem fatal_error_is_final (labels : Labels) (buffer : List UInt8) (count : Int) (calls : List Call) :
    let new := startIn labels buffer count
    let e := new.2.run calls
    (∀ err, e.fatal = some err →
      some err ∈ new.1 :: new.2.answers calls ∧
      ∀ later, e.run later = e ∧ (∀ c, (e.run later).step c = (some err, e)) ∧ (e.run later).finish = (.error err, e)) ∧
    (e.fatal = none ↔ ∀ err, some err ∈ new.1 :: new.2.answers calls → err.code = .bufferTooSmall) := by
  intro new e
  have hfirst : e.fatal = firstFatal (new.1 :: new.2.answers calls) := by
    rw [fatal_run, fatal_startIn, firstFatal_cons]
  refine ⟨fun err herr => ⟨?_, fun later => ?_⟩, ?_⟩
  · obtain ⟨answer, hmem, hanswer⟩ := List.exists_of_findSome?_eq_some (hfirst.symm.trans herr)
    obtain ⟨rfl, -⟩ := Option.filter_eq_some_iff.1 hanswer
    exact hmem
  · rw [run_of_fatal herr]
    exact ⟨rfl, step_of_fatal herr, finish_of_fatal herr⟩
  · rw [hfirst, firstFatal, List.findSome?_eq_none_iff]
    constructor
    · intro hnone err hmem
      simpa [Error.isFatal, Code.isFatal] using hnone _ hmem
    · rintro hmild (_ | err) hmem
      · rfl
      · simp [Error.isFatal, Code.isFatal, hmild err hmem]

/-- A pair amid the elements of an array, in a buffer that was too small before: an element of the array and closing both give the error
of that pair. -/
theorem pair_amid_elements_is_final :
    let e := (startIn {} [0, 0, 0] 2).2.run [.uint8 "a" 7, .arrayHead "b" 2, .elementUInt64 1, .bool "c" true]
    let err : Error := { code := .fieldCountMismatch, op := "PutBool", key := "c", detail := .elementsOwed 1 }
    e.fatal = some err ∧ (e.step (.elementUInt64 2)).1 = some err ∧ (e.run [.elementUInt64 2]).finish = (.error err, e) := by
  intro e err
  have hfatal : e.fatal = some err := by decide +kernel
  obtain ⟨-, hlater⟩ := (fatal_error_is_final {} [0, 0, 0] 2 _).1 err hfatal
  exact ⟨hfatal, congrArg Prod.fst ((hlater []).2.1 _), (hlater [.elementUInt64 2]).2.2⟩

end SensorWire.Encoder
