import Mathlib
import SensorWire.Proofs.Operations
import SensorWire.Proofs.Trace

/-!
# Reading a message with samples

The pairs of a message with samples are read in order or in any order. A pair that is taken leaves the decoder in front of the pairs after
it (`Stands`). A pair at which the decode fails ends in one of two ways (`Fault`): the error of a reader is traced, and the error of a
check that the message makes itself, on the key, the room or the number of samples, is not. Both walks are made of such pairs, and so is
their end: all pairs were read and nothing is left of the map, or there is a fault.

Main statements: `pairsTaken`, and from it `samplesDecoded`, the ways in which a decode ends.
-/

namespace SensorWire

open Cbor Item

namespace Decoder

variable {d d' : Decoder} {p : Item × Item} {pairs : List (Item × Item)} {i : Item} {rest : List UInt8} {op key : Text}

/-! ## What is taken -/

/-- A decoder in front of the last pairs of its map. -/
structure Stands (d : Decoder) (pairs : List (Item × Item)) : Prop where
  unread : d.unread = encodePairs pairs
  within : PairsWithin {} 0 pairs
  count : d.count = d.read + pairs.length

theorem Stands.atPair (h : d.Stands (p :: pairs)) : AtPair d p (encodePairs pairs) := by
  refine ⟨⟨?_, h.within.1.1⟩, h.within.1.2, ?_⟩
  · rw [h.unread, encodePairs, List.append_assoc]
  · rw [h.count, List.length_cons]
    omega

/-- Past the first pair. -/
theorem Stands.tail (h : d.Stands (p :: pairs)) (hunread : d'.unread = encodePairs pairs) (hread : d'.read = d.read + 1)
    (hcount : d'.count = d.count) : d'.Stands pairs := by
  refine ⟨hunread, h.within.2, ?_⟩
  rw [hcount, h.count, hread, List.length_cons]
  omega

theorem Stands.finished (h : d.Stands []) : d.read = d.count ∧ d.unread = [] := ⟨h.count.symm, h.unread⟩

/-- The decoder that has entered a map stands in front of all its pairs, of which there are no more than were expected. -/
theorem stands_of_enter {options : Options} {expected : Option Int} {data : List UInt8} (h : enter options expected data = (.ok (), d)) :
    ∃ pairs, d.Stands pairs ∧ d.read = 0 ∧ d.trace = [] ∧ d.options = options ∧
      ∀ n : Nat, expected = some (n : Int) → pairs.length ≤ n := by
  rcases enter_cases options expected data with ⟨w, pairs, rest, rfl, hin, hexpected⟩ | ⟨err, d', herr, -⟩
  · rw [enter_map hin options hexpected rest] at h
    obtain ⟨-, rfl⟩ := Prod.mk.inj h
    refine ⟨pairs, ⟨rfl, PairsWithin.shallower (Nat.zero_le 1) hin.2.2.2.2, (Nat.zero_add _).symm⟩, rfl, rfl, rfl, fun n hn => ?_⟩
    have hlength := hexpected n hn
    omega
  · rw [herr] at h
    cases h

/-- The item that is taken off is the one in front. -/
theorem Faces.of_next {α : Type} {view : Item → Except Fault α} {a : α} (h : Faces d i rest) (hgives : Gives (Decoder.next op key view) d a d') :
    d' = { d with unread := rest } := by
  obtain ⟨j, rest', hj, -, rfl⟩ := hgives.of_next
  rw [(h.within.encode_append_inj hj.within (h.unread.symm.trans hj.unread)).2]

theorem Faces.of_takeFloat64 {bits : UInt64} (h : Faces d i rest) (hgives : Gives (Decoder.takeFloat64 op key) d bits d') :
    d' = { d with unread := rest } := by
  obtain ⟨⟨b, tail⟩, d₁, hpeek, hrest⟩ := hgives.of_bind
  obtain ⟨-, rfl⟩ := hpeek.of_peek
  dsimp only at hrest
  split at hrest
  · exact absurd hrest (not_gives_fail _)
  · exact h.of_next hrest

/-- An item whose head is taken off as that of an array is an array of definite length. -/
theorem Faces.exists_array {n : Nat} (h : Faces d i rest) (hgives : Gives (Decoder.takeArrayHead op key) d n d') :
    ∃ w items, i = .array w items := by
  obtain ⟨u, d₁, hexpect, hhead⟩ := hgives.of_bind
  obtain ⟨⟨b, tail, hb, hmajor⟩, rfl⟩ := hexpect.of_expect
  obtain ⟨b', tail', hb', hm⟩ := h.within.first
  rw [h.unread, hb', List.cons_append, List.cons.injEq] at hb
  rcases eq_array_or_openArray (hm.symm.trans ((congrArg Major.ofByte hb.1).trans hmajor)) with harray | ⟨items, rfl⟩
  · exact harray
  · rw [Gives, (h.peekHead op key).run_bind] at hhead
    cases hhead

/-- The head that is taken off is that of an array of definite length. -/
theorem Faces.of_takeArrayHead {n : Nat} (h : Faces d i rest) (hgives : Gives (Decoder.takeArrayHead op key) d n d') :
    ∃ items : List Item, (∀ j ∈ items, j.Within {} 0 false) ∧ n = items.length ∧
      d' = { d with unread := items.flatMap encode ++ rest } := by
  obtain ⟨w, items, rfl⟩ := h.exists_array hgives
  have hin : AllWithin {} 1 items := h.within.2.2.2.2
  obtain ⟨hn, hd⟩ := Prod.mk.inj (hgives.symm.trans (h.takeArrayHead op key))
  exact ⟨items, allWithin_iff.1 (hin.shallower (Nat.zero_le 1)), Except.ok.inj hn, hd⟩

/-- The value that is taken is the item in front, whatever it costs. -/
theorem Faces.of_takeValue {f : Field} {s : Slot} (h : Faces d i rest) (hgives : Gives (takeValue op f) d s d') :
    ∃ allocated, d' = { d with unread := rest, allocated } := by
  have hkeep : Gives (Table.keepValue f some none) d (some s) d' :=
    Gives.tryCatch ((covered_takeValue op Table.walkOp f d s d' hgives).bind (gives_pure (some s) d')) _
  rcases f.verdict?_eq_none_or 0 i with hv | hv | ⟨s', hv⟩
  · obtain ⟨err, d₁, hrun, -⟩ := Table.keepValue_stops some none h hv
    cases hrun.symm.trans hkeep
  · cases (Table.keepValue_refused some none h hv).symm.trans hkeep
  · obtain ⟨hafforded, hunaffordable⟩ := Table.keepValue_stored some none h hv
    by_cases haffords : Affords d.options.allocLimit d.allocated s'.cost
    · cases (hafforded haffords).symm.trans hkeep
      exact ⟨_, rfl⟩
    · obtain ⟨err, d₁, hrun, -⟩ := hunaffordable haffords
      cases hrun.symm.trans hkeep

end Decoder

open Decoder

/-- The key that is taken in order is that of the pair in front. -/
theorem AtPair.of_takeKey {d d' : Decoder} {p : Item × Item} {rest : List UInt8} {op key t : Text} (h : AtPair d p rest)
    (hgives : Gives (takeKey op key) d t d') : d' = afterKey d p rest := by
  obtain ⟨j, rest', hj, -, -, rfl⟩ := hgives.of_takeKey
  rw [← (h.key.within.encode_append_inj hj.within (h.key.unread.symm.trans hj.unread)).2]
  rfl

/-! ## How reading fails -/

/-- The name of the checks that a message makes itself. -/
def Message.checkOp : Text := "Decode"

namespace Decoder

/-- How a decode fails inside a map: the error of a reader is the one event that was added to the trace, and the error of a check that the
message makes itself is not in the trace. -/
structure Fault (err : Error) (d d' : Decoder) : Prop where
  code : err.code ≠ .trailingData
  keys : err.keys = []
  told : if err.op = Message.checkOp then Silent d d' else Reported err d d'

section Fault

variable {α : Type} {m : Decode α} {op : Text} {err : Error} {d d' d'' : Decoder}

theorem Silent.refl (d : Decoder) : Silent d d := ⟨rfl, rfl⟩

theorem Fault.after (h : Silent d d') (h' : Fault err d' d'') : Fault err d d'' := by
  refine ⟨h'.code, h'.keys, ?_⟩
  have htold := h'.told
  split_ifs at htold ⊢
  · exact h.trans htold
  · exact h.reported htold

theorem fault_of_reader (hreports : Reports m) (hnames : Names op m) (hop : op ≠ Message.checkOp)
    (hrun : m.run.run d = (.error err, d')) : Fault err d d' := by
  have hreported := hreports.of_error hrun
  obtain ⟨hname, hcode⟩ := hnames d err d' hrun
  refine ⟨hcode, hreported.keys, ?_⟩
  rw [hname, if_neg hop]
  exact hreported

theorem fault_of_check (hop : err.op = Message.checkOp) (hcode : err.code ≠ .trailingData) (hkeys : err.keys = []) (d : Decoder) :
    Fault err d d := by
  refine ⟨hcode, hkeys, ?_⟩
  rw [if_pos hop]
  exact .refl d

/-- What a part of a decode comes to: it is silent, or there is a fault. -/
def Ends (d : Decoder) (err? : Option Error) (d' : Decoder) : Prop :=
  match err? with
  | none => Silent d d'
  | some err => Fault err d d'

theorem Ends.after {err? : Option Error} (h : Silent d d') (h' : Ends d' err? d'') : Ends d err? d'' := by
  cases err? with
  | none => exact h.trans h'
  | some err => exact Fault.after h h'

theorem Silent.of_gives {a : α} (hreports : Reports m) (hgives : Gives m d a d') : Silent d d' := by
  have h := hreports d
  rw [hgives] at h
  exact h

end Fault

/-! ## Runs over pairs -/

/-- Nothing was added to the trace but the names of skipped pairs. -/
structure Skipped (names : List Text) (d d' : Decoder) : Prop where
  trace : d'.trace = d.trace ++ (names.map skipEvent).map d.options.labels.mark
  options : d'.options = d.options

/-- The decoder after a pair that was skipped under a name, if it was. -/
def onward (d : Decoder) (name? : Option Text) (allocated : Int64) (rest : List UInt8) : Decoder :=
  { d with
    unread := rest, read := d.read + 1, allocated, trace := d.trace ++ (name?.toList.map skipEvent).map d.options.labels.mark }

/-- The end of a walk over the pairs of a map: all were taken, or there is a fault at one of them. -/
inductive PairsRead (d : Decoder) : Option Error → Decoder → Prop
  | all {names : List Text} {d' : Decoder} (skipped : Skipped names d d') (stands : d'.Stands []) : PairsRead d none d'
  | fault {err : Error} {names : List Text} {d₁ d' : Decoder} (skipped : Skipped names d d₁) (fault : Fault err d₁ d') :
    PairsRead d (some err) d'

section Runs

variable {names names' : List Text} {d d' d'' : Decoder}

theorem Silent.skipped (h : Silent d d') : Skipped [] d d' := ⟨by simp [h.trace], h.options⟩

theorem Skipped.trans (h : Skipped names d d') (h' : Skipped names' d' d'') : Skipped (names ++ names') d d'' := by
  refine ⟨?_, h'.options.trans h.options⟩
  rw [h'.trace, h.trace, h.options]
  simp

theorem skipped_onward (d : Decoder) (name? : Option Text) (allocated : Int64) (rest : List UInt8) :
    Skipped name?.toList d (d.onward name? allocated rest) := ⟨rfl, rfl⟩

theorem PairsRead.after {err? : Option Error} (h : Skipped names d d') (h' : PairsRead d' err? d'') : PairsRead d err? d'' := by
  cases h' with
  | all skipped stands => exact .all (h.trans skipped) stands
  | fault skipped fault => exact .fault (h.trans skipped) fault

/-- What a decode traces: the names of the pairs that it skips, and then an event if there is one. -/
def skipsThen (labels : Labels) (names : List Text) (last? : Option Event) : List Event :=
  (names.map skipEvent ++ last?.toList).map labels.mark

theorem Skipped.trace_then {options : Options} (h : Skipped names d d') (htrace : d.trace = []) (hoptions : d.options = options)
    (last? : Option Event) : d'.trace ++ last?.toList.map d'.options.labels.mark = skipsThen options.labels names last? := by
  rw [h.trace, h.options, htrace, hoptions, skipsThen, List.map_append, List.nil_append]

theorem Skipped.trace_fault {options : Options} {err : Error} (h : Skipped names d d') (htrace : d.trace = [])
    (hoptions : d.options = options) (hfault : Fault err d' d'') :
    d''.trace = skipsThen options.labels names (if err.op = Message.checkOp then none else some (err.event .decode)) := by
  rw [← h.trace_then htrace hoptions]
  have htold := hfault.told
  split_ifs at htold ⊢
  · rw [htold.trace]
    exact (List.append_nil _).symm
  · exact htold.trace

end Runs

end Decoder

/-! ## Samples -/

namespace Message

variable {room n : Nat} {s s' : Sampling} {d d' : Decoder} {rest : List UInt8}

theorem fault_takeFloat64 {err : Error} (h : (takeFloat64 "NextFloat64" "").run.run d = (.error err, d')) : Fault err d d' :=
  fault_of_reader (reports_takeFloat _ _ 0xfb "float64" _) (names_takeFloat _ _ 0xfb "float64" _) (by decide +kernel) h

theorem ends_takeSamples (n : Nat) (d : Decoder) : Ends d (takeSamples n d).2.1 (takeSamples n d).2.2 := by
  induction n generalizing d with
  | zero => exact Silent.refl d
  | succ n ih =>
    rw [takeSamples]
    rcases htake : (takeFloat64 "NextFloat64" "").run.run d with ⟨err | bits, d₁⟩
    · exact fault_takeFloat64 htake
    · exact (ih d₁).after (.of_gives (reports_takeFloat _ _ 0xfb "float64" _) htake)

theorem ends_of_takeSamples {allocated : Int64} {new : List UInt64} {err? : Option Error}
    (h : takeSamples n { d with allocated } = (new, err?, d')) : Ends d err? d' := by
  have hsilent : Silent d { d with allocated } := ⟨rfl, rfl⟩
  have hends := ends_takeSamples n { d with allocated }
  rw [h] at hends
  exact hends.after hsilent

/-- As many samples as there are items are those items. -/
theorem takeSamples_rest {items : List Item} {values : List UInt64} (hin : ∀ i ∈ items, i.Within {} 0 false)
    (hunread : d.unread = items.flatMap Item.encode ++ rest) (h : takeSamples items.length d = (values, none, d')) :
    d' = { d with unread := rest } := by
  induction items generalizing d values with
  | nil =>
    cases h
    obtain rfl : d'.unread = rest := hunread
    rfl
  | cons i items ih =>
    rw [List.forall_mem_cons] at hin
    rw [List.flatMap_cons, List.append_assoc] at hunread
    have hfaces : Faces d i (items.flatMap Item.encode ++ rest) := ⟨hunread, hin.1⟩
    rw [List.length_cons, takeSamples] at h
    rcases htake : (takeFloat64 "NextFloat64" "").run.run d with ⟨err | bits, d₁⟩
    · rw [htake] at h
      cases h
    · obtain rfl := hfaces.of_takeFloat64 htake
      rcases hmore : takeSamples items.length { d with unread := items.flatMap Item.encode ++ rest } with ⟨values', err, d₂⟩
      rw [htake] at h
      simp only [hmore] at h
      cases h
      exact ih (d := { d with unread := items.flatMap Item.encode ++ rest }) hin.2 rfl hmore

/-- The ways in which reading an array of samples ends. -/
inductive SignalRead (room n : Nat) (s : Sampling) (d : Decoder) : Option Error × Sampling × Decoder → Prop
  /-- There is less room than samples. -/
  | crowded {err : Error} (op : err.op = checkOp) (code : err.code ≠ .trailingData) (keys : err.keys = []) :
    SignalRead room n s d (some err, s, d)
  /-- The budget does not afford the array. -/
  | unpaid {err : Error} {d' : Decoder} (charge : (charge "Charge" samplesKey (Int64.ofNat (8 * n))).run.run d = (.error err, d')) :
    SignalRead room n s d (some err, s, d')
  /-- A sample cannot be read. -/
  | stopped {err : Error} {new : List UInt64} {samples : Samples} {flag : Bool} {allocated : Int64} {d' : Decoder}
      (take : takeSamples n { d with allocated } = (new, some err, d')) (kept : room = 0 → samples = s.message.samples)
      (flag_eq : flag = (decide (room = 0) || s.allocated)) :
    SignalRead room n s d (some err, ⟨{ s.message with samples }, flag⟩, d')
  /-- All samples are read, into the room or into an array of their number. -/
  | whole {new : List UInt64} {capacity : Nat} {flag : Bool} {allocated : Int64} {d' : Decoder}
      (take : takeSamples n { d with allocated } = (new, none, d')) (capacity_eq : capacity = if room = 0 then n else room)
      (flag_eq : flag = (decide (room = 0) || s.allocated)) :
    SignalRead room n s d (none, ⟨{ s.message with samples := ⟨new, capacity⟩ }, flag⟩, d')

/-- The room and the budget are checked first. -/
theorem signalRead (room n : Nat) (s : Sampling) (d : Decoder) : SignalRead room n s d (takeSignal room n s d) := by
  unfold takeSignal
  dsimp only
  split_ifs with hcrowded hroom
  · exact .crowded rfl (by simp) rfl
  · -- with room nothing is charged, so the budget is that of the decoder
    have hroom' : room ≠ 0 := Nat.ne_of_gt hroom
    have hflag : s.allocated = (decide (room = 0) || s.allocated) := by simp [hroom']
    rcases htake : takeSamples n d with ⟨new, _ | err, d'⟩
    · exact .whole htake (if_neg hroom').symm hflag
    · exact .stopped htake (fun hzero => absurd hzero hroom') hflag
  · obtain rfl : room = 0 := Nat.eq_zero_of_not_pos hroom
    rcases hcharge : (charge "Charge" samplesKey (Int64.ofNat (8 * n))).run.run d with ⟨err | _, d₁⟩
    · exact .unpaid hcharge
    · obtain rfl := Gives.of_charge hcharge
      dsimp only
      rcases htake : takeSamples n { d with allocated := d.allocated + Int64.ofNat (8 * n) } with ⟨new, _ | err, d'⟩
      · exact .whole htake rfl rfl
      · exact .stopped htake (fun _ => rfl) rfl

theorem ends_takeSignal (room n : Nat) (s : Sampling) (d : Decoder) : Ends d (takeSignal room n s d).1 (takeSignal room n s d).2.2 := by
  have hread := signalRead room n s d
  generalize takeSignal room n s d = r at hread ⊢
  cases hread with
  | crowded op code keys => exact fault_of_check op code keys d
  | unpaid charge => exact fault_of_reader (reports_charge _ _ _) (names_charge _ _ _) (by decide +kernel) charge
  | stopped take | whole take => exact ends_of_takeSamples take

theorem takeSignal_rest {items : List Item} (hin : ∀ i ∈ items, i.Within {} 0 false) (hunread : d.unread = items.flatMap Item.encode ++ rest)
    (h : takeSignal room items.length s d = (none, s', d')) : ∃ allocated, d' = { d with unread := rest, allocated } := by
  have hread := signalRead room items.length s d
  rw [h] at hread
  cases hread with
  | @whole _ _ _ allocated _ take => exact ⟨allocated, takeSamples_rest (d := { d with allocated }) hin hunread take⟩

/-- Samples are read into the message and change nothing else of it. -/
theorem takeSignal_message (room n : Nat) (s : Sampling) (d : Decoder) :
    ∃ samples, (takeSignal room n s d).2.1.message = { s.message with samples } := by
  have hread := signalRead room n s d
  generalize takeSignal room n s d = r at hread ⊢
  cases hread with
  | crowded | unpaid => exact ⟨s.message.samples, rfl⟩
  | stopped | whole => exact ⟨_, rfl⟩

/-! ## Pairs in any order -/

/-- Reads one pair in any order: the error, the name that it was skipped under, the message and the decoder. -/
def takeOne (room : Nat) (s : Sampling) (d : Decoder) : Option Error × Option Text × Sampling × Decoder :=
  match (takeTolerantKey "TolerantKey").run.run d with
  | (.error err, d) => (some err, none, s, d)
  | (.ok (.skipped name), d) => (none, some name, s, d)
  | (.ok (.key key), d) =>
    if key = samplesKey then
      match (takeArrayHead "ArrayValue" key).run.run d with
      | (.error err, d) => (some err, none, s, d)
      | (.ok k, d) =>
        let (err, s, d) := takeSignal room k s d
        (err, none, s, d)
    else match s.message.table.lookup? key with
      | none => match (skipUnknown "SkipUnknown" key).run.run d with
        | (.error err, d) => (some err, none, s, d)
        | (.ok (), d) => (none, some key, s, d)
      | some f => match (takeValue "Value" f).run.run d with
        | (.error err, d) => (some err, none, s, d)
        | (.ok slot, d) => (none, none, { s with message := { s.message with table := s.message.table.store key slot } }, d)

theorem takeInAnyOrder_succ (room n : Nat) (unknown : List Text) (s : Sampling) (d : Decoder) :
    takeInAnyOrder room (n + 1) unknown s d = match takeOne room s d with
      | (some err, _, s, d) => (some err, unknown, s, d)
      | (none, name?, s, d) => takeInAnyOrder room n (unknown ++ name?.toList) s d := by
  rw [takeInAnyOrder, takeOne]
  rcases (takeTolerantKey "TolerantKey").run.run d with ⟨err | key | name, d₁⟩
  · rfl
  · dsimp only
    split_ifs
    · rcases (takeArrayHead "ArrayValue" key).run.run d₁ with ⟨err | k, d₂⟩
      · rfl
      · dsimp only
        rcases takeSignal room k s d₂ with ⟨_ | err, s', d₃⟩
        · simp
        · rfl
    · cases s.message.table.lookup? key with
      | none =>
        dsimp only
        rcases (skipUnknown "SkipUnknown" key).run.run d₁ with ⟨err | _, d₂⟩ <;> rfl
      | some f =>
        dsimp only
        rcases (takeValue "Value" f).run.run d₁ with ⟨err | slot, d₂⟩
        · rfl
        · simp
  · rfl

/-- A key that is no text is a fault. -/
theorem fault_takeTolerantKey {p : Item × Item} {code : Code} (hp : AtPair d p rest) (hkey : p.1.pairKey = .error code) :
    ∃ err d', (takeTolerantKey "TolerantKey").run.run d = (.error err, d') ∧ Fault err d d' := by
  obtain ⟨hshort, ht, -⟩ := pairKey_eq_error hkey
  obtain ⟨err, d', htake, -⟩ := hp.key.takeTolerantKey_fails hp.more hshort ht "TolerantKey"
  refine ⟨err, d', htake, ?_⟩
  rw [hp.key.takeTolerantKey_eq_takeKey hp.more hshort] at htake
  have hreports : Reports (takeKey "TolerantKey" "" >>= fun k => pure (PairKey.key k)) := (reports_takeKey _ _).bind fun k => reports_pure _
  have hnames : Names "TolerantKey" (takeKey "TolerantKey" "" >>= fun k => pure (PairKey.key k)) :=
    (names_takeKey _ _).bind fun k => names_pure _
  exact fault_of_reader hreports hnames (by decide +kernel) htake

/-- An item that is read as an array of samples. -/
theorem takeArray_ends {i : Item} (hi : Faces d i rest) (room : Nat) (s : Sampling) (key : Text) :
    match (takeArrayHead "ArrayValue" key).run.run d with
    | (.error err, d') => Fault err d d'
    | (.ok n, d₁) => match takeSignal room n s d₁ with
      | (none, _, d') => ∃ allocated, d' = { d with unread := rest, allocated }
      | (some err, _, d') => Fault err d d' := by
  rcases harray : (takeArrayHead "ArrayValue" key).run.run d with ⟨err | n, d₁⟩
  · exact fault_of_reader (reports_takeArrayHead _ _) (names_takeArrayHead _ _) (by decide +kernel) harray
  · obtain ⟨items, hin, rfl, rfl⟩ := hi.of_takeArrayHead harray
    have hends := (ends_takeSignal room items.length s _).after (.of_gives (reports_takeArrayHead _ _) harray)
    dsimp only
    rcases hsignal : takeSignal room items.length s { d with unread := items.flatMap Item.encode ++ rest } with ⟨_ | err, s', d'⟩
    · obtain ⟨allocated, rfl⟩ := takeSignal_rest hin rfl hsignal
      exact ⟨allocated, rfl⟩
    · rw [hsignal] at hends
      exact hends

/-- One pair: the decoder goes past it, or there is a fault. -/
theorem takeOne_ends {p : Item × Item} (hp : AtPair d p rest) (hchecked : ∀ f ∈ s.message.table.fields, f.checked = false) (room : Nat) :
    match takeOne room s d with
    | (none, name?, _, d') => ∃ allocated, d' = d.onward name? allocated rest
    | (some err, _, _, d') => Fault err d d' := by
  unfold takeOne
  cases hkey : p.1.pairKey with
  | error code =>
    obtain ⟨err, d', htake, hfault⟩ := fault_takeTolerantKey hp hkey
    rw [htake]
    exact hfault
  | ok pairKey =>
    cases pairKey with
    | skipped name =>
      obtain ⟨hmajor, hlong, rfl⟩ := pairKey_eq_skipped hkey
      rw [hp.gives_takeTolerantKey_long hmajor hlong "TolerantKey"]
      exact ⟨d.allocated, past_skipped _ _ _⟩
    | key key =>
      obtain ⟨hshort, ht⟩ := pairKey_eq_key hkey
      have htake : Gives (takeTolerantKey "TolerantKey") d (.key key) (afterKey d p rest) :=
        hp.key.takeTolerantKey hp.more hshort ht "TolerantKey"
      have hsilent : Silent d (afterKey d p rest) := ⟨rfl, rfl⟩
      have hpast : ∀ allocated, { afterKey d p rest with unread := rest, allocated } = d.onward none allocated rest := by
        intro allocated
        simp [afterKey, onward]
      rw [htake]
      dsimp only
      split_ifs
      · have harray := takeArray_ends hp.faces_value room s key
        generalize (takeArrayHead "ArrayValue" key).run.run (afterKey d p rest) = r at harray ⊢
        rcases r with ⟨err | n, d₁⟩
        · exact .after hsilent harray
        · dsimp only at harray ⊢
          generalize takeSignal room n s d₁ = r at harray ⊢
          rcases r with ⟨_ | err, s', d₂⟩
          · obtain ⟨allocated, rfl⟩ := harray
            exact ⟨allocated, hpast allocated⟩
          · exact .after hsilent harray
      · cases hlookup : s.message.table.lookup? key with
        | none =>
          dsimp only
          rw [hp.faces_value.gives_skipUnknown "SkipUnknown" key]
          exact ⟨d.allocated, rfl⟩
        | some f =>
          have hf : f.checked = false := hchecked f (List.mem_of_find?_eq_some hlookup)
          dsimp only
          rcases hvalue : (takeValue "Value" f).run.run (afterKey d p rest) with ⟨err | slot, d₂⟩
          · exact .after hsilent (fault_of_reader (reports_takeValue _ hf) (names_takeValue _ f) (by decide +kernel) hvalue)
          · obtain ⟨allocated, rfl⟩ := hp.faces_value.of_takeValue hvalue
            exact ⟨allocated, hpast allocated⟩

/-- What holds of every field still does after a slot is stored in one. -/
theorem forall_store {P : Field → Prop} (hstore : ∀ f slot, P f → P (f.store slot)) {t : Table} (h : ∀ f ∈ t.fields, P f) (key : Text)
    (slot : Slot) : ∀ f ∈ (t.store key slot).fields, P f := by
  obtain ⟨fields, strict⟩ := t
  change ∀ f ∈ Table.updateFirst key _ fields, P f
  induction fields with
  | nil => exact h
  | cons f fields ih =>
    obtain ⟨hf, hfields⟩ := List.forall_mem_cons.1 h
    rw [Table.updateFirst]
    split
    · exact List.forall_mem_cons.2 ⟨hstore f slot hf, hfields⟩
    · exact List.forall_mem_cons.2 ⟨hf, ih hfields⟩

/-- What one pair does to the message: nothing, or it reads samples, or it stores a value. -/
theorem takeOne_message (room : Nat) (s : Sampling) (d : Decoder) :
    (takeOne room s d).2.2.1 = s ∨ (∃ n d₁, (takeOne room s d).2.2.1 = (takeSignal room n s d₁).2.1) ∨
      ∃ key slot, (takeOne room s d).2.2.1 = { s with message := { s.message with table := s.message.table.store key slot } } := by
  rw [takeOne]
  rcases (takeTolerantKey "TolerantKey").run.run d with ⟨err | key | name, d₁⟩
  · exact Or.inl rfl
  · dsimp only
    split_ifs
    · rcases (takeArrayHead "ArrayValue" key).run.run d₁ with ⟨err | n, d₂⟩
      · exact Or.inl rfl
      · exact Or.inr (Or.inl ⟨n, d₂, rfl⟩)
    · cases s.message.table.lookup? key with
      | none =>
        dsimp only
        rcases (skipUnknown "SkipUnknown" key).run.run d₁ with ⟨err | _, d₂⟩ <;> exact Or.inl rfl
      | some f =>
        dsimp only
        rcases (takeValue "Value" f).run.run d₁ with ⟨err | slot, d₂⟩
        · exact Or.inl rfl
        · exact Or.inr (Or.inr ⟨key, slot, rfl⟩)
  · exact Or.inl rfl

/-- Fields that are not checked stay so. -/
theorem checked_takeOne (hchecked : ∀ f ∈ s.message.table.fields, f.checked = false) (room : Nat) (d : Decoder) :
    ∀ f ∈ (takeOne room s d).2.2.1.message.table.fields, f.checked = false := by
  rcases takeOne_message room s d with h | ⟨n, d₁, h⟩ | ⟨key, slot, h⟩
  · rw [h]
    exact hchecked
  · obtain ⟨samples, hmessage⟩ := takeSignal_message room n s d₁
    rw [h, hmessage]
    exact hchecked
  · rw [h]
    exact forall_store (fun _ _ hf => hf) hchecked key slot

/-- Pairs in any order. -/
theorem takeInAnyOrder_ends {pairs : List (Item × Item)} (hstands : d.Stands pairs)
    (hchecked : ∀ f ∈ s.message.table.fields, f.checked = false) (room : Nat) (unknown : List Text) :
    PairsRead d (takeInAnyOrder room pairs.length unknown s d).1 (takeInAnyOrder room pairs.length unknown s d).2.2.2 := by
  -- the decoder and the message change from pair to pair; that no field is checked stays
  induction pairs generalizing d s unknown with
  | nil => exact .all (Silent.refl d).skipped hstands
  | cons p pairs ih =>
    have hone := takeOne_ends hstands.atPair hchecked room
    have hkept := checked_takeOne hchecked room d
    rw [List.length_cons, takeInAnyOrder_succ]
    generalize takeOne room s d = r at hone hkept ⊢
    rcases r with ⟨_ | err, name?, s', d₁⟩
    · obtain ⟨allocated, rfl⟩ := hone
      have hstands' : (d.onward name? allocated (encodePairs pairs)).Stands pairs := hstands.tail rfl rfl rfl
      exact (ih hstands' hkept _).after (skipped_onward _ _ _ _)
    · exact .fault (Silent.refl d).skipped hone

end Message

/-! ## Pairs in order -/

namespace Table

variable {fields : List Field} {slots : List Slot} {d d' : Decoder} {pairs : List (Item × Item)}

/-- The fields of a strict table, of which none is checked. -/
theorem walkStrict_ends (hchecked : ∀ f ∈ fields, f.checked = false) (d : Decoder) :
    (walkStrict fields d).1.aggregate walkOp = none ∧ Ends d (walkStrict fields d).1.error (walkStrict fields d).2 := by
  induction fields generalizing d with
  | nil => exact ⟨rfl, Silent.refl d⟩
  | cons f fields ih =>
    obtain ⟨hf, hfields⟩ := List.forall_mem_cons.1 hchecked
    have hreports := reports_strictPair hf
    rw [walkStrict]
    rcases hpair : (strictPair f).run.run d with ⟨err | slot, d₁⟩
    · have hcode : err.code ≠ .outOfRange := (hreports.of_error hpair).code
      simp only [hcode, if_false]
      exact ⟨rfl, fault_of_reader hreports (names_strictPair f) (by decide +kernel) hpair⟩
    · obtain ⟨haggregate, hends⟩ := ih hfields d₁
      exact ⟨haggregate, hends.after (.of_gives hreports hpair)⟩

theorem decodeFields_ends {t : Table} (hstrict : t.strict = true) (hchecked : ∀ f ∈ t.fields, f.checked = false) (d : Decoder) :
    Ends d (t.decodeFields d).1 (t.decodeFields d).2.2 := by
  obtain ⟨haggregate, hends⟩ := walkStrict_ends hchecked d
  simp only [decodeFields, walk, hstrict, if_true]
  generalize walkStrict t.fields d = r at haggregate hends ⊢
  obtain ⟨w, d₁⟩ := r
  cases herr : w.error with
  | none =>
    simp only [herr] at hends ⊢
    rw [haggregate]
    exact hends
  | some err =>
    simp only [herr] at hends ⊢
    exact hends

/-- Each field that was read took one pair. -/
theorem Reads.stands (h : Reads fields d slots d') (hstands : d.Stands pairs) :
    ∃ pairs', d'.Stands pairs' ∧ pairs.length = fields.length + pairs'.length := by
  induction h generalizing pairs with
  | nil d => exact ⟨pairs, hstands, (Nat.zero_add _).symm⟩
  | @cons f fields slot slots d d₁ d' hpair _ ih =>
    obtain ⟨d₀, hkey, hvalue⟩ := of_strictPair hpair
    cases pairs with
    | nil =>
      obtain ⟨i, rest, -, hmore, -⟩ := hkey.of_takeKey
      exact absurd hstands.finished.1 (Nat.ne_of_lt hmore)
    | cons p pairs =>
      obtain rfl := hstands.atPair.of_takeKey hkey
      obtain ⟨allocated, rfl⟩ := hstands.atPair.faces_value.of_takeValue hvalue
      obtain ⟨pairs', hstands', hlength⟩ := ih (hstands.tail rfl rfl rfl)
      refine ⟨pairs', hstands', ?_⟩
      rw [List.length_cons, List.length_cons, hlength]
      omega

end Table

namespace Message

variable {room : Nat} {s s' : Sampling} {m : Message} {d d' : Decoder} {pairs : List (Item × Item)}

theorem fault_lengthMismatch (m : Message) (n : Nat) (d : Decoder) : Fault (m.lengthMismatch n) d d :=
  fault_of_check rfl (by simp [lengthMismatch]) rfl d

/-- The fields in order and the array, each error where it arises. -/
theorem ends_takeInOrder (hstrict : s.message.table.strict = true) (hchecked : ∀ f ∈ s.message.table.fields, f.checked = false)
    (room : Nat) (d : Decoder) : Ends d (takeInOrder room s d).1 (takeInOrder room s d).2.2 := by
  have hfields := Table.decodeFields_ends hstrict hchecked d
  unfold takeInOrder
  generalize s.message.table.decodeFields d = r at hfields ⊢
  rcases r with ⟨_ | err, table, d₁⟩
  · refine Ends.after hfields ?_
    dsimp only
    split_ifs
    · exact fault_of_check rfl (by simp) rfl d₁
    · rcases hkey : (takeKey "Key" "").run.run d₁ with ⟨err | key, d₂⟩
      · exact fault_of_reader (reports_takeKey _ _) (names_takeKey _ _) (by decide +kernel) hkey
      · refine Ends.after (.of_gives (reports_takeKey _ _) hkey) ?_
        dsimp only
        split_ifs
        · exact fault_of_check rfl (by simp) rfl d₂
        · rcases harray : (takeArrayHead "ArrayValue" key).run.run d₂ with ⟨err | n, d₃⟩
          · exact fault_of_reader (reports_takeArrayHead _ _) (names_takeArrayHead _ _) (by decide +kernel) harray
          · refine Ends.after (.of_gives (reports_takeArrayHead _ _) harray) ?_
            dsimp only
            split_ifs
            · exact fault_lengthMismatch _ n d₃
            · exact ends_takeSignal _ _ _ _
  · exact hfields

/-- A walk in order that meets no error takes one pair for each field and one for the samples. -/
theorem stands_takeInOrder (hstrict : s.message.table.strict = true) (hstands : d.Stands pairs)
    (h : takeInOrder room s d = (none, s', d')) :
    ∃ pairs', d'.Stands pairs' ∧ pairs.length = s.message.table.fields.length + 1 + pairs'.length := by
  obtain ⟨slots, n, d₁, d₂, d₃, hreads, hkey, harray, hsignal⟩ := reads_of_takeInOrder hstrict h
  obtain ⟨pairs', hstands', hlength⟩ := hreads.stands hstands
  cases pairs' with
  | nil =>
    obtain ⟨i, rest, -, hmore, -⟩ := hkey.of_takeKey
    exact absurd hstands'.finished.1 (Nat.ne_of_lt hmore)
  | cons p pairs' =>
    obtain rfl := hstands'.atPair.of_takeKey hkey
    obtain ⟨items, hin, rfl, rfl⟩ := hstands'.atPair.faces_value.of_takeArrayHead harray
    obtain ⟨allocated, rfl⟩ := takeSignal_rest hin rfl hsignal
    refine ⟨pairs', hstands'.tail rfl rfl rfl, ?_⟩
    rw [hlength, List.length_cons]
    omega

theorem takeInOrder_ends (hstrict : s.message.table.strict = true) (hchecked : ∀ f ∈ s.message.table.fields, f.checked = false)
    (hstands : d.Stands pairs) (hlength : pairs.length ≤ s.message.table.fields.length + 1) (room : Nat) :
    PairsRead d (takeInOrder room s d).1 (takeInOrder room s d).2.2 := by
  have hends := ends_takeInOrder hstrict hchecked room d
  rcases horder : takeInOrder room s d with ⟨_ | err, s', d'⟩
  · rw [horder] at hends
    obtain ⟨pairs', hstands', hmore⟩ := stands_takeInOrder hstrict hstands horder
    obtain rfl : pairs' = [] := List.length_eq_zero_iff.1 (by omega)
    exact .all (Silent.skipped hends) hstands'
  · rw [horder] at hends
    exact .fault (Silent.refl d).skipped hends

/-- The walk over the pairs, in order or in any order. -/
def walkPairs (lenient : Bool) (m : Message) (d : Decoder) : Option Error × List Text × Sampling × Decoder :=
  if lenient then takeInAnyOrder m.samples.capacity (d.count - d.read) [] ⟨m, false⟩ d
  else
    let (err, s, d) := takeInOrder m.samples.capacity ⟨m, false⟩ d
    (err, [], s, d)

theorem walkPairs_ends (hstrict : m.table.strict = true) (hchecked : ∀ f ∈ m.table.fields, f.checked = false) (hstands : d.Stands pairs)
    {lenient : Bool} (hlength : lenient = false → pairs.length ≤ m.table.fields.length + 1) :
    PairsRead d (m.walkPairs lenient d).1 (m.walkPairs lenient d).2.2.2 := by
  cases lenient with
  | true =>
    have hcount : d.count - d.read = pairs.length := by
      rw [hstands.count]
      omega
    rw [walkPairs, if_pos rfl, hcount]
    exact takeInAnyOrder_ends hstands hchecked _ []
  | false => exact takeInOrder_ends hstrict hchecked hstands (hlength rfl) _

/-- The error that lists the keys of the pairs that were skipped. -/
def listing (unknown : List Text) : Option Error :=
  if unknown.isEmpty then none else some { code := .unrecognizedKey, op := "DecodeLenient", keys := unknown }

/-- The message that a failed walk leaves, without an array that the walk allocated. -/
def Sampling.closed (s : Sampling) : Message := if s.allocated then { s.message with samples := {} } else s.message

/-- What the end of a walk comes to: a walk that does not fail must have met as many samples as the message says. -/
def closePairs : Option Error × List Text × Sampling × Decoder → Option Error × Message × Decoder
  | (err?, unknown, s, d) =>
    let m := s.message
    match err?.or (if m.samples.values.length ≠ m.sampleCount then some (m.lengthMismatch m.samples.values.length) else none) with
    | some err => (some err, s.closed, d)
    | none => (listing unknown, m, d)

theorem takePairs_eq (lenient : Bool) (m : Message) (d : Decoder) : m.takePairs lenient d = closePairs (m.walkPairs lenient d) := rfl

/-- The ways in which reading the pairs ends: there is a fault, or all pairs were taken and there are as many samples as the message says. -/
inductive PairsTaken (lenient : Bool) (m : Message) (d : Decoder) : Option Error × Message × Decoder → Prop
  | failed {err : Error} {names : List Text} {m' : Message} {d₁ d' : Decoder} (walk : (m.walkPairs lenient d).2.2.1.closed = m')
      (skipped : Skipped names d d₁) (fault : Fault err d₁ d') :
    PairsTaken lenient m d (some err, m', d')
  | taken {unknown names : List Text} {m' : Message} {d' : Decoder} (walk : (m.walkPairs lenient d).2.2.1.message = m')
      (skipped : Skipped names d d') (stands : d'.Stands []) (count : m'.samples.values.length = m'.sampleCount) :
    PairsTaken lenient m d (listing unknown, m', d')

theorem pairsTaken (hstrict : m.table.strict = true) (hchecked : ∀ f ∈ m.table.fields, f.checked = false) (hstands : d.Stands pairs)
    {lenient : Bool} (hlength : lenient = false → pairs.length ≤ m.table.fields.length + 1) :
    PairsTaken lenient m d (m.takePairs lenient d) := by
  have hread := walkPairs_ends hstrict hchecked hstands hlength
  rw [takePairs_eq]
  rcases hwalk : m.walkPairs lenient d with ⟨_ | err, unknown, s, d'⟩
  · rw [hwalk] at hread
    cases hread with
    | all skipped stands =>
      rw [closePairs, Option.none_or]
      split_ifs with hcount
      · exact .failed (by rw [hwalk]) skipped (fault_lengthMismatch _ _ d')
      · exact .taken (by rw [hwalk]) skipped stands (not_not.1 hcount)
  · rw [hwalk] at hread
    cases hread with
    | fault skipped fault => exact .failed (by rw [hwalk]) skipped fault

/-! ## What the walk keeps -/

/-- What the pairs in order do to the message: the fields are read, and then there may be samples. -/
theorem takeInOrder_message (room : Nat) (s : Sampling) (d : Decoder) :
    let read : Sampling := { s with message := { s.message with table := (s.message.table.decodeFields d).2.1 } }
    (takeInOrder room s d).2.1 = read ∨ ∃ n d₁, (takeInOrder room s d).2.1 = (takeSignal room n read d₁).2.1 := by
  unfold takeInOrder
  rcases s.message.table.decodeFields d with ⟨_ | err, table, d₁⟩
  · dsimp only
    split_ifs
    · exact Or.inl rfl
    · rcases (takeKey "Key" "").run.run d₁ with ⟨err | key, d₂⟩
      · exact Or.inl rfl
      · dsimp only
        split_ifs
        · exact Or.inl rfl
        · rcases (takeArrayHead "ArrayValue" key).run.run d₂ with ⟨err | n, d₃⟩
          · exact Or.inl rfl
          · dsimp only
            split_ifs
            · exact Or.inl rfl
            · exact Or.inr ⟨n, d₃, rfl⟩
  · exact Or.inl rfl

section Kept

-- a property that reading samples keeps, and that reading the fields and storing one keep
variable {P : Sampling → Prop} (hsignal : ∀ n s d, P s → P (takeSignal room n s d).2.1)
  (hfields : ∀ s d, P s → P { s with message := { s.message with table := (s.message.table.decodeFields d).2.1 } })
  (hstore : ∀ s key slot, P s → P { s with message := { s.message with table := s.message.table.store key slot } })

include hsignal hstore in
theorem kept_takeInAnyOrder (h : P s) (n : Nat) (unknown : List Text) (d : Decoder) : P (takeInAnyOrder room n unknown s d).2.2.1 := by
  induction n generalizing unknown s d with
  | zero => exact h
  | succ n ih =>
    have hone : P (takeOne room s d).2.2.1 := by
      rcases takeOne_message room s d with hs | ⟨k, d₁, hs⟩ | ⟨key, slot, hs⟩
      · rwa [hs]
      · rw [hs]
        exact hsignal k s d₁ h
      · rw [hs]
        exact hstore s key slot h
    rw [takeInAnyOrder_succ]
    generalize takeOne room s d = r at hone ⊢
    rcases r with ⟨_ | err, name?, s', d'⟩
    · exact ih hone _ d'
    · exact hone

include hsignal hfields in
theorem kept_takeInOrder (h : P s) (d : Decoder) : P (takeInOrder room s d).2.1 := by
  rcases takeInOrder_message room s d with hs | ⟨n, d₁, hs⟩
  · rw [hs]
    exact hfields s d h
  · rw [hs]
    exact hsignal n _ d₁ (hfields s d h)

end Kept

theorem kept_walkPairs {P : Sampling → Prop} (hsignal : ∀ n s d, P s → P (takeSignal m.samples.capacity n s d).2.1)
    (hfields : ∀ s d, P s → P { s with message := { s.message with table := (s.message.table.decodeFields d).2.1 } })
    (hstore : ∀ s key slot, P s → P { s with message := { s.message with table := s.message.table.store key slot } })
    (h : P ⟨m, false⟩) (lenient : Bool) (d : Decoder) : P (m.walkPairs lenient d).2.2.1 := by
  cases lenient with
  | true => exact kept_takeInAnyOrder hsignal hstore h _ _ d
  | false => exact kept_takeInOrder hsignal hfields h d

theorem rule_walkPairs (lenient : Bool) (m : Message) (d : Decoder) : (m.walkPairs lenient d).2.2.1.message.rule = m.rule := by
  refine kept_walkPairs (P := fun s => s.message.rule = m.rule) (fun n s d hs => ?_) (fun _ _ hs => hs) (fun _ _ _ hs => hs) rfl lenient d
  obtain ⟨samples, hmessage⟩ := takeSignal_message m.samples.capacity n s d
  rw [hmessage]
  exact hs

/-! ## The whole decode -/

/-- After the last pair of a map only bytes that follow the map are an error. -/
theorem code_of_leave_error {err : Error} (hstands : d.Stands []) (h : leave.run.run d = (.error err, d')) : err.code = .trailingData := by
  obtain ⟨hread, hunread⟩ := hstands.finished
  have hrest : ¬(d.read ≠ d.count ∨ d.unread ≠ []) := by simp [hread, hunread]
  rw [leave, (gives_get d).run_bind, if_neg hrest] at h
  split at h
  · cases h
    rfl
  · cases h

/-- The ways in which the decode of a message with samples ends. -/
inductive SamplesDecoded (lenient : Bool) (labels : Labels) (m : Message) : Option Error × Message × List Event → Prop
  /-- The map is not entered. -/
  | barred {err : Error} (inside : err.Inside "Enter") (keys : err.keys = []) :
    SamplesDecoded lenient labels m (some err, m, skipsThen labels [] (some (err.event .decode)))
  /-- There is a fault at a pair, or the number of samples is another. -/
  | failed {err : Error} {names : List Text} {m' : Message} (d : Decoder) (walk : (m.walkPairs lenient d).2.2.1.closed = m')
      (code : err.code ≠ .trailingData) (keys : err.keys = []) :
    SamplesDecoded lenient labels m
      (some err, m', skipsThen labels names (if err.op = checkOp then none else some (err.event .decode)))
  /-- All pairs were taken and there are bytes after the map. -/
  | followed {err : Error} {names : List Text} {m' : Message} (d : Decoder) (walk : (m.walkPairs lenient d).2.2.1.message = m')
      (count : m'.samples.values.length = m'.sampleCount) (op : err.op = "Leave") (code : err.code = .trailingData) (keys : err.keys = []) :
    SamplesDecoded lenient labels m (some err, m', skipsThen labels names (some (err.event .decode)))
  /-- All pairs were taken. -/
  | whole {names unknown : List Text} {m' : Message} {size : Nat} (d : Decoder) (walk : (m.walkPairs lenient d).2.2.1.message = m')
      (count : m'.samples.values.length = m'.sampleCount) :
    SamplesDecoded lenient labels m
      (listing unknown, m', skipsThen labels names (some { operation := .decode, category := .message, size }))

theorem listing_filter (unknown : List Text) : (listing unknown).filter (fun e => !e.isAggregate) = none := by
  cases unknown with
  | nil => rfl
  | cons name unknown => rfl

theorem samplesDecoded (hsamples : m.hasSamples = true) (hstrict : m.table.strict = true)
    (hchecked : ∀ f ∈ m.table.fields, f.checked = false) (lenient : Bool) (options : Options) (data : List UInt8) :
    SamplesDecoded lenient options.labels m (m.decodeSamples lenient options data) := by
  unfold decodeSamples
  rcases henter : enter options (if lenient then none else some m.pairs) data with ⟨err | _, d₀⟩
  · obtain ⟨-, hkeys, rfl⟩ := of_enter_error henter
    exact .barred (op_of_enter_error henter) hkeys
  obtain ⟨pairs, hstands, -, htrace, hoptions, hexpected⟩ := stands_of_enter henter
  -- in order, the walk takes one pair for each field and one for the samples, and the map has no more
  have hlength : lenient = false → pairs.length ≤ m.table.fields.length + 1 := by
    rintro rfl
    have hpairs := hexpected m.pairs rfl
    rwa [Message.pairs, if_pos hsamples] at hpairs
  have htaken := pairsTaken hstrict hchecked hstands hlength
  dsimp only
  generalize m.takePairs lenient d₀ = r at htaken ⊢
  cases htaken with
  | @failed err _ _ _ _ walk skipped fault =>
    have hfatal : (some err).filter (fun e => !e.isAggregate) = some err := Option.filter_some_pos (by simp [Error.isAggregate, fault.keys])
    dsimp only
    rw [hfatal]
    dsimp only
    rw [skipped.trace_fault htrace hoptions fault]
    exact .failed d₀ walk fault.code fault.keys
  | @taken _ _ _ d walk skipped stands count =>
    have hlast := skipped.trace_then htrace hoptions
    dsimp only
    rw [listing_filter]
    rcases leave_cases d with ⟨err, d', hleave, hreported⟩ | ⟨hread, hunread, htrailing⟩
    · rw [hleave]
      dsimp only
      rw [hreported.trace.trans (hlast (some (err.event .decode)))]
      exact .followed d₀ walk count (op_of_leave_error hleave) (code_of_leave_error stands hleave) hreported.keys
    · rw [leave_traces hread hunread htrailing]
      have hmessage := hlast (some { operation := .decode, category := .message, size := d.size })
      rw [Option.toList_some, List.map_singleton] at hmessage
      dsimp only
      rw [hmessage]
      exact .whole d₀ walk count

theorem rule_closed (s : Sampling) : s.closed.rule = s.message.rule := by
  rw [Sampling.closed]
  split_ifs <;> rfl

theorem SamplesDecoded.rule {lenient : Bool} {labels : Labels} {r : Option Error × Message × List Event}
    (h : SamplesDecoded lenient labels m r) : r.2.1.rule = m.rule := by
  cases h with
  | barred => rfl
  | failed d walk => exact walk ▸ (rule_closed _).trans (rule_walkPairs lenient m d)
  | followed d walk | whole d walk => exact walk ▸ rule_walkPairs lenient m d

/-- The fields of a message with samples are not checked. -/
theorem unchecked_of_mem : ∀ m ∈ Catalog.all, m.rule = .samples → ∀ f ∈ m.table.fields, f.checked = false := by decide +kernel

/-- The check of the payload comes last: it changes the error of a decode that has not failed, and never the trace. -/
theorem checkPayload_cases (name : Text) (r : Option Error × Message × List Event) :
    checkPayload name r = (r.1.map fun e => .within ("decode " ++ name) (.codec e), r.2.1, r.2.2) ∨
      (r.1.filter fun e => !e.isAggregate) = none ∧ ∃ err, r.2.1.payloadFault? = some err ∧
        checkPayload name r = (some (.within ("decode " ++ name) (.codec err)), r.2.1.clearPayload, r.2.2) := by
  unfold checkPayload
  dsimp only
  split
  · rename_i hfatal
    rw [(Option.filter_eq_some_iff.1 hfatal).1]
    exact Or.inl rfl
  · rename_i hlists
    split
    · rename_i err hfault
      exact Or.inr ⟨hlists, err, hfault, rfl⟩
    · exact Or.inl rfl

/-- A message with samples has no payload, so a decode is the reading of its map. -/
theorem OfKind.decode_of_samples {blank : Message} (hm : m.OfKind blank) (hblank : blank.Blank) (hsamples : m.hasSamples = true)
    (lenient : Bool) (options : Options) (data : List UInt8) :
    let r := m.decodeSamples lenient (m.labelled options) data
    SamplesDecoded lenient (m.labelled options).labels m r ∧
      m.decode lenient options data = (r.1.map fun e => .within ("decode " ++ m.name) (.codec e), r.2.1, r.2.2) := by
  intro r
  have hrule := hasSamples_iff_rule.1 hsamples
  have hchecked : ∀ f ∈ m.table.fields, f.checked = false := by
    intro f hf
    obtain ⟨g, hg, hlike⟩ := hm.exists_blank hf
    cases hblank with
    | catalogue hmem => exact hlike.checked.trans (unchecked_of_mem _ hmem (hm.rule ▸ hrule) g hg)
    | schema => exact absurd (hm.rule.symm.trans hrule) (by simp [Schema.new])
  have hdecoded : SamplesDecoded lenient (m.labelled options).labels m r :=
    Message.samplesDecoded hsamples (hm.samples hblank hrule).1 hchecked lenient (m.labelled options) data
  refine ⟨hdecoded, ?_⟩
  rw [decode_eq_checkPayload, readMap, if_pos hsamples]
  rcases checkPayload_cases m.name r with hplain | ⟨-, err, hfault, -⟩
  · exact hplain
  · rw [payloadFault?, hdecoded.rule, hrule] at hfault
    cases hfault

/-- A decode ends as reading the map of the message ends. -/
theorem OfKind.samplesDecoded {blank : Message} (hm : m.OfKind blank) (hblank : blank.Blank) (hsamples : m.hasSamples = true)
    (lenient : Bool) (options : Options) (data : List UInt8) :
    ∃ r, SamplesDecoded lenient (m.labelled options).labels m r ∧
      m.decode lenient options data = (r.1.map fun e => .within ("decode " ++ m.name) (.codec e), r.2.1, r.2.2) :=
  ⟨_, hm.decode_of_samples hblank hsamples lenient options data⟩

end Message

end SensorWire
