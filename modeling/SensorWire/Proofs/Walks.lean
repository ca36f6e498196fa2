import Mathlib
import SensorWire.Proofs.Agreement
import SensorWire.Proofs.Journal

/-!
# Walks keep to the journal

The walks of both kinds of tables are one loop over pairs (`walk_eq_walkPairs`). One round of it does what the verdict of the pair says
(`takePair_meets`), and stops where no whole pair is ahead (`takePair_stops`). So the loop takes the pairs of the journal, and then it has
all that it wants or it is stuck at the next one. A decode can end in four ways (`Decoded`), each of them told by the journal.

Main statements: `walk_follows_journal` and `decoded`.
-/

namespace SensorWire

open Cbor Item Decoder

/-! ## One loop for both walks -/

namespace Table

/-- A walk with the verdict of one more pair. -/
def Walk.note (w : Walk) : Verdict → Walk
  | .stored place s => { w with entries := w.entries.modify place (·.store s) }
  | .refused key => { w with outOfRange := w.outOfRange ++ [key] }
  | .skipped name => { w with unknown := w.unknown ++ [name] }

/-- A walk before its first pair. -/
def start (t : Table) : Walk := ⟨t.fields.map (⟨·, false⟩), [], [], none⟩

/-- Reads the pair that comes after so many others, by the table's rule. -/
def takePair (t : Table) (n : Nat) (entries : List Entry) : Decode Verdict :=
  if t.strict then
    match t.fields[n]? with
    | none => noPairs walkOp ""
    | some f => tryCatch (do return .stored n (← strictPair f)) fun err =>
      if err.code = .outOfRange then return .refused f.key else throw err
  else do
    match ← tolerantPair entries with
    | .stored key s => return .stored (t.place key) s
    | .unknown name => return .skipped name
    | .outOfRange key => return .refused key

/-- Reads so many pairs. -/
def walkPairs (t : Table) : Nat → Nat → Walk → Decoder → Walk × Decoder
  | 0, _, w, d => (w, d)
  | c + 1, n, w, d => match (t.takePair n w.entries).run.run d with
    | (.ok v, d) => t.walkPairs c (n + 1) (w.note v) d
    | (.error err, d) => ({ w with error := some err }, d)

/-- The number of pairs that a table wants of a decoder. -/
def wanted (t : Table) (d : Decoder) : Nat := if t.strict then t.fields.length else d.count - d.read

variable {t : Table} {entries : List Entry}

theorem storeEntry_eq_modify (key : Text) (s : Slot) (entries : List Entry) :
    storeEntry key s entries = entries.modify (entries.findIdx fun e => e.field.key == key) (·.store s) := by
  induction entries with
  | nil => rfl
  | cons e entries ih =>
    rw [storeEntry, List.findIdx_cons]
    cases e.field.key == key with
    | true => rfl
    | false =>
      rw [ih]
      rfl

theorem findIdx_entries (hkeys : entries.map (fun e => e.field.key) = t.fields.map Field.key) (key : Text) :
    (entries.findIdx fun e => e.field.key == key) = t.place key := by
  have h : ∀ keys : List Text, keys = t.fields.map Field.key → keys.findIdx (· == key) = t.place key := by
    rintro _ rfl
    exact List.findIdx_map _ _ _
  rw [← h _ hkeys, List.findIdx_map]
  rfl

theorem map_key_storeEntry (key : Text) (s : Slot) (entries : List Entry) :
    (storeEntry key s entries).map (fun e => e.field.key) = entries.map fun e => e.field.key := by
  induction entries with
  | nil => rfl
  | cons e entries ih =>
    rw [storeEntry]
    split
    · rfl
    · rw [List.map_cons, List.map_cons, ih]

theorem walkTolerant_eq_walkPairs (hstrict : t.strict = false) (c n : Nat) {w : Walk}
    (hkeys : w.entries.map (fun e => e.field.key) = t.fields.map Field.key) (d : Decoder) :
    walkTolerant c w d = t.walkPairs c n w d := by
  induction c generalizing n w d with
  | zero => rfl
  | succ c ih =>
    rw [walkTolerant, walkPairs, takePair, hstrict]
    simp only [Bool.false_eq_true, if_false, run_bind]
    rcases (tolerantPair w.entries).run.run d with ⟨err | pair, d'⟩
    · rfl
    · cases pair with
      | stored key s =>
        have hentries := storeEntry_eq_modify key s w.entries
        rw [findIdx_entries hkeys] at hentries
        refine (ih (n + 1) ((map_key_storeEntry key s w.entries).trans hkeys) d').trans ?_
        rw [hentries]
        rfl
      | unknown name => exact ih (n + 1) (w := w.note (.skipped name)) hkeys d'
      | outOfRange key => exact ih (n + 1) (w := w.note (.refused key)) hkeys d'

/-- The walk over the last fields as part of a walk over all of them. -/
def Walk.behind (w : Walk) (seen : List Entry) (refused : List Text) : Walk :=
  ⟨seen ++ w.entries, refused ++ w.outOfRange, w.unknown, w.error⟩

theorem modify_append_cons (seen : List Entry) (e : Entry) (rest : List Entry) (g : Entry → Entry) :
    (seen ++ e :: rest).modify seen.length g = seen ++ g e :: rest := by
  induction seen with
  | nil => rfl
  | cons e' seen ih => rw [List.cons_append, List.length_cons, List.modify_succ_cons, ih, List.cons_append]

theorem walkStrict_eq_walkPairs (hstrict : t.strict = true) (front : List Field) {fields : List Field}
    (hfields : t.fields = front ++ fields) (seen : List Entry) (hseen : seen.length = front.length) (refused : List Text) (d : Decoder) :
    t.walkPairs fields.length front.length ⟨seen ++ fields.map (⟨·, false⟩), refused, [], none⟩ d =
      ((walkStrict fields d).1.behind seen refused, (walkStrict fields d).2) := by
  induction fields generalizing front seen refused d with
  | nil => simp [walkPairs, walkStrict, Walk.behind]
  | cons f fields ih =>
    have hf : t.fields[front.length]? = some f := by
      rw [hfields]
      simp
    have hnext : ∀ e : Entry, (seen ++ [e]).length = (front ++ [f]).length := by simp [hseen]
    have hfront : (front ++ [f]).length = front.length + 1 := by simp
    rw [List.length_cons, walkPairs, takePair, hstrict, walkStrict]
    simp only [if_true, hf, run_tryCatch, run_bind]
    rcases (strictPair f).run.run d with ⟨err | s, d'⟩
    · by_cases hcode : err.code = .outOfRange
      · have hrest := ih (front ++ [f]) (by simp [hfields]) _ (hnext ⟨f, false⟩) (refused ++ [f.key]) d'
        rw [hfront] at hrest
        simp only [hcode, if_true]
        refine Eq.trans ?_ (hrest.trans ?_)
        · simp [Walk.note, pure, ExceptT.pure, ExceptT.mk, ExceptT.run, StateT.run, StateT.pure]
        · simp [Walk.behind]
      · simp only [hcode, if_false]
        simp [throw, throwThe, MonadExceptOf.throw, ExceptT.mk, ExceptT.run, StateT.run, StateT.pure, Walk.behind, pure]
    · have hrest := ih (front ++ [f]) (by simp [hfields]) _ (hnext (Entry.store ⟨f, false⟩ s)) refused d'
      rw [hfront] at hrest
      refine Eq.trans ?_ (hrest.trans ?_)
      · simp [Walk.note, pure, ExceptT.pure, ExceptT.mk, ExceptT.run, StateT.run, StateT.pure, ← hseen, modify_append_cons]
      · simp [Walk.behind]

/-- Both walks are the same loop. -/
theorem walk_eq_walkPairs (t : Table) (d : Decoder) : t.walk d = t.walkPairs (t.wanted d) 0 t.start d := by
  rcases Bool.eq_false_or_eq_true t.strict with hstrict | hstrict
  · have hloop := walkStrict_eq_walkPairs hstrict [] (List.nil_append t.fields).symm [] rfl [] d
    rw [walk, wanted, if_pos hstrict, if_pos hstrict]
    refine Eq.trans ?_ hloop.symm
    simp [Walk.behind]
  · rw [walk, wanted, hstrict]
    refine walkTolerant_eq_walkPairs hstrict _ 0 ?_ d
    rw [List.map_map]
    rfl

end Table

/-! ## The value of a pair -/

/-- What of a field no decoding changes: its key, its check and the type of its slot. -/
def Field.shape (f : Field) : Text × Bool × Option FieldType := (f.key, f.checked, f.slot?.map Slot.type)

theorem Slot.type_filled (s : Slot) (i : Item) : (s.filled i).type = s.type := by
  cases s <;> cases i <;> rfl

/-- What a slot holds after an item does not depend on what it held before. -/
theorem Slot.filled_congr {s s' : Slot} {i : Item} (h : s'.type = s.type) (hs : s.Suits i) : s'.filled i = s.filled i := by
  cases s with
  | simple v =>
    obtain ⟨v, rfl⟩ := hs
    cases s' <;> first | rfl | cases h
  | float32 bits =>
    obtain ⟨bits, rfl⟩ := hs
    cases s' <;> first | rfl | cases h
  | float64 bits =>
    obtain ⟨bits, rfl⟩ := hs
    cases s' <;> first | rfl | cases h
  | string v => cases s' <;> first | rfl | cases h
  | bytes v => cases s' <;> first | rfl | cases h
  | _ =>
    obtain ⟨w, n, rfl⟩ := eq_unsigned_of_major hs
    cases s' <;> first | rfl | cases h

namespace Field

variable {f g : Field} {k : Nat} {i : Item}

theorem verdict?_eq_none_or (f : Field) (k : Nat) (i : Item) :
    f.verdict? k i = none ∨ f.verdict? k i = some (.refused f.key) ∨ ∃ s, f.verdict? k i = some (.stored k s) := by
  unfold verdict?
  split
  · exact Or.inl rfl
  · split_ifs
    · exact Or.inr (Or.inl rfl)
    · exact Or.inr (Or.inr ⟨_, rfl⟩)
    · exact Or.inl rfl

theorem of_verdict?_stored {place : Nat} {s' : Slot} (h : f.verdict? k i = some (.stored place s')) :
    ∃ s, f.slot? = some s ∧ s.Suits i ∧ f.overflows i = false ∧ place = k ∧ s' = s.filled i := by
  unfold verdict? at h
  split at h
  · cases h
  · rename_i s hs
    split_ifs at h with ho hsuits
    · cases h
    · cases h
      exact ⟨s, hs, hsuits, Bool.not_eq_true _ ▸ ho, rfl, rfl⟩

theorem of_verdict?_refused {key : Text} (h : f.verdict? k i = some (.refused key)) :
    ∃ s, f.slot? = some s ∧ f.overflows i = true := by
  unfold verdict? at h
  split at h
  · cases h
  · rename_i s hs
    split_ifs at h with ho hsuits
    · exact ⟨s, hs, ho⟩
    · cases h

theorem of_verdict?_none (h : f.verdict? k i = none) : f.slot? = none ∨ ∃ s, f.slot? = some s ∧ ¬s.Suits i := by
  unfold verdict? at h
  split at h
  · rename_i hs
    exact Or.inl hs
  · rename_i s hs
    split_ifs at h with ho hsuits
    exact Or.inr ⟨s, hs, hsuits⟩

theorem verdict?_congr (h : g.shape = f.shape) (k : Nat) (i : Item) : g.verdict? k i = f.verdict? k i := by
  obtain ⟨hkey, hchecked, hslot⟩ : g.key = f.key ∧ g.checked = f.checked ∧ g.slot?.map Slot.type = f.slot?.map Slot.type := by
    simpa [shape] using h
  cases hf : f.slot? with
  | none =>
    rw [hf, Option.map_none, Option.map_eq_none_iff] at hslot
    simp only [verdict?, hf, hslot]
  | some s =>
    rw [hf, Option.map_some, Option.map_eq_some_iff] at hslot
    obtain ⟨s', hg, htype⟩ := hslot
    have hover : g.overflows i = f.overflows i := by
      unfold overflows
      rw [hchecked, hf, hg, Option.bind_some, Option.bind_some, Slot.capacity?_congr htype]
    simp only [verdict?, hf, hg, hover, hkey, Slot.suits_congr htype]
    split_ifs with ho hs
    · rfl
    · rw [Slot.filled_congr htype hs]
    · rfl

end Field

namespace Table

/-- Keeps the value of a pair for a field, or makes a refusal into a value. -/
def keepValue {α : Type} (f : Field) (stored : Slot → α) (refused : α) : Decode α :=
  tryCatch (do return stored (← takeValue walkOp f)) fun err => if err.code = .outOfRange then return refused else throw err

variable {α β : Type} {d : Decoder} {i : Item} {rest : List UInt8} {f : Field} {k : Nat}

/-- What is made of a kept value can as well be kept. -/
theorem run_keepValue_bind {stored : Slot → α} {refused : α} {g : α → Decode β} {stored' : Slot → β} {refused' : β}
    (hstored : ∀ s, g (stored s) = pure (stored' s)) (hrefused : g refused = pure refused') (d : Decoder) :
    (keepValue f stored refused >>= g).run.run d = (keepValue f stored' refused').run.run d := by
  unfold keepValue
  simp only [run_bind, run_tryCatch]
  rcases (takeValue walkOp f).run.run d with ⟨err | s, d'⟩
  · by_cases hcode : err.code = .outOfRange
    · simp only [hcode, if_true]
      exact congrArg (fun m : Decode β => m.run.run d') hrefused
    · simp only [hcode, if_false]
      rfl
  · exact congrArg (fun m : Decode β => m.run.run d') (hstored s)

variable (stored : Slot → α) (refused : α)

theorem keepValue_stored {s : Slot} {place : Nat} (h : Faces d i rest) (hv : f.verdict? k i = some (.stored place s)) :
    (Affords d.options.allocLimit d.allocated s.cost →
      Gives (keepValue f stored refused) d (stored s) { d with unread := rest, allocated := d.allocated + Int64.ofNat s.cost }) ∧
    (¬Affords d.options.allocLimit d.allocated s.cost → Fails (keepValue f stored refused) d .allocationFailure) := by
  obtain ⟨s, hslot, hs, ho, rfl, rfl⟩ := Field.of_verdict?_stored hv
  refine ⟨fun haffords => Gives.tryCatch ?_ _, fun haffords => Fails.tryCatch ?_ (by decide) _⟩
  · exact (h.takeValue_afforded hslot hs ho haffords walkOp).bind (gives_pure _ _)
  · exact (h.takeValue_unaffordable hslot hs haffords walkOp).bind _

theorem keepValue_refused {key : Text} (h : Faces d i rest) (hv : f.verdict? k i = some (.refused key)) :
    Gives (keepValue f stored refused) d refused { d with unread := rest } := by
  obtain ⟨s, hslot, ho⟩ := Field.of_verdict?_refused hv
  exact ((h.takeValue_refuses hslot ho walkOp).bind _).tryCatch _

theorem Stops.keepValue (h : Stops (takeValue walkOp f) d) : Stops (keepValue f stored refused) d := by
  obtain ⟨err, d', hrun, hcode⟩ := h.bind fun s => pure (stored s)
  refine ⟨err, d', ?_, hcode⟩
  rw [Table.keepValue, run_tryCatch, hrun]
  simp only [hcode, if_false]
  rfl

theorem keepValue_stops (h : Faces d i rest) (hv : f.verdict? k i = none) : Stops (keepValue f stored refused) d := by
  refine Stops.keepValue stored refused ?_
  rcases Field.of_verdict?_none hv with hslot | ⟨s, hslot, hs⟩
  · exact takeValue_unbound hslot walkOp d
  · exact h.takeValue_stops hslot hs walkOp

end Table

/-! ## One pair -/

namespace Decoder

variable {d : Decoder} {p : Item × Item} {rest : List UInt8} {m : Decode Verdict} {v : Verdict}

theorem past_stored (d : Decoder) (place : Nat) (s : Slot) (rest : List UInt8) :
    d.past (.stored place s) rest =
      { d with unread := rest, read := d.read + 1, allocated := d.allocated + Int64.ofNat s.cost } := by
  simp [past, Verdict.cost, Verdict.events]

theorem past_refused (d : Decoder) (key : Text) (rest : List UInt8) :
    d.past (.refused key) rest = { d with unread := rest, read := d.read + 1 } := by
  simp [past, Verdict.cost, Verdict.events]

theorem past_skipped (d : Decoder) (name : Text) (rest : List UInt8) :
    d.past (.skipped name) rest =
      { d with
        unread := rest, read := d.read + 1,
        trace := d.trace ++ [d.options.labels.mark { operation := .decode, category := .unknownKey, key := name }] } := by
  simp [past, Verdict.cost, Verdict.events]

/-- A step does what the verdict of the pair says: without one it stops, and else it goes past the pair or is out of budget. -/
def Meets (m : Decode Verdict) (d : Decoder) (rest : List UInt8) : Option Verdict → Prop
  | none => Stops m d
  | some v =>
    (Affords d.options.allocLimit d.allocated v.cost → Gives m d v (d.past v rest)) ∧
      (¬Affords d.options.allocLimit d.allocated v.cost → Fails m d .allocationFailure)

/-- A pair that is skipped costs nothing. -/
theorem meets_skipped {name : Text} (h : Gives m d (.skipped name) (d.past (.skipped name) rest)) :
    Meets m d rest (some (.skipped name)) :=
  ⟨fun _ => h, fun haffords => absurd (affords_zero _ _) haffords⟩

/-- A step that keeps the value of a pair for a field does what the verdict of the field says. -/
theorem meets_of_keepValue {f : Field} {k : Nat} (hp : AtPair d p rest)
    (hm : m.run.run d = (Table.keepValue f (.stored k) (.refused f.key)).run.run (afterKey d p rest)) :
    Meets m d rest (f.verdict? k p.2) := by
  have hfaces := hp.faces_value
  rcases f.verdict?_eq_none_or k p.2 with hv | hv | ⟨s, hv⟩
  · obtain ⟨err, d', hrun, hcode⟩ := Table.keepValue_stops (Verdict.stored k) (.refused f.key) hfaces hv
    rw [hv]
    exact ⟨err, d', hm.trans hrun, hcode⟩
  · rw [hv]
    refine ⟨fun _ => ?_, fun haffords => absurd (affords_zero _ _) haffords⟩
    rw [past_refused]
    exact hm.trans (Table.keepValue_refused _ _ hfaces hv)
  · obtain ⟨hafforded, hunaffordable⟩ :=
      Table.keepValue_stored (Verdict.stored k) (.refused f.key) hfaces hv
    rw [hv]
    refine ⟨fun haffords => ?_, fun haffords => ?_⟩
    · rw [past_stored]
      exact hm.trans (hafforded haffords)
    · obtain ⟨err, d', hrun, herr⟩ := hunaffordable haffords
      exact ⟨err, d', hm.trans hrun, herr⟩

theorem halts_skipUnknown (op key : Text) : Halts (skipUnknown op key) := by
  have hemit : Waits (emit { operation := .decode, category := .unknownKey, key }) := fun d hd =>
    Or.inr ⟨(), _, rfl, fun i rest hi => hd i rest ⟨hi.unread, hi.within⟩⟩
  exact hemit.bind fun _ => halts_next op key _

end Decoder

/-- A key that is not the field's stops a strict table. -/
theorem AtPair.strictPair_stops {d : Decoder} {p : Item × Item} {rest : List UInt8} {f : Field} (h : AtPair d p rest)
    (hkey : ¬p.1.Spells f.key) : Stops (Table.strictPair f) d := by
  by_cases htext : ∃ t, p.1.Spells t
  · obtain ⟨t, ht⟩ := htext
    have hne : t ≠ f.key := by
      rintro rfl
      exact hkey ht
    refine (h.key.takeKey h.more ht Table.walkOp f.key).stops ?_
    simp only [ne_eq, hne, not_false_eq_true, if_true]
    exact stops_fail (by simp) _
  · have hfails := h.key.takeKey_fails h.more (fun t ht => htext ⟨t, ht⟩) Table.walkOp f.key
    exact (hfails.stops p.1.textFault_ne_outOfRange).bind _

theorem AtPair.gives_takeTolerantKey_long {d : Decoder} {p : Item × Item} {rest : List UInt8} (h : AtPair d p rest)
    (hmajor : p.1.major = .text) (hlong : ¬p.1.ShortKey) (op : Text) :
    Gives (takeTolerantKey op) d (.skipped (Text.ofString s!"<{p.1.head.arg}-byte key>"))
      (d.past (.skipped (Text.ofString s!"<{p.1.head.arg}-byte key>")) rest) := by
  rw [past_skipped]
  refine (h.key.takeTolerantKey_long h.more hmajor hlong op).trans ?_
  exact (h.faces_value.gives_skipUnknown op _).bind (gives_pure _ _)

namespace Table

variable {t : Table} {d : Decoder} {p : Item × Item} {rest : List UInt8} {entries : List Entry}

theorem map_key_of_shape (h : entries.map (fun e => e.field.shape) = t.fields.map Field.shape) :
    entries.map (fun e => e.field.key) = t.fields.map Field.key := by
  have hfst := congrArg (List.map Prod.fst) h
  rw [List.map_map, List.map_map] at hfst
  exact hfst

/-- Entries that have the shapes of the fields have one in the place of each field. -/
theorem find?_entries (h : entries.map (fun e => e.field.shape) = t.fields.map Field.shape) (key : Text) :
    (∃ e f, (entries.find? fun e => e.field.key == key) = some e ∧ t.fields[t.place key]? = some f ∧ e.field.shape = f.shape ∧
      e.field.key = key) ∨
    (entries.find? fun e => e.field.key == key) = none ∧ t.fields[t.place key]? = none := by
  have hplace := congrArg (·[t.place key]?) h
  simp only [List.getElem?_map] at hplace
  have hfind : (entries.find? fun e => e.field.key == key) = entries[t.place key]? := by
    rw [List.find?_eq_getElem?_findIdx, findIdx_entries (map_key_of_shape h)]
  cases he : entries.find? fun e => e.field.key == key with
  | none =>
    rw [hfind] at he
    rw [he, Option.map_none] at hplace
    exact Or.inr ⟨rfl, Option.map_eq_none_iff.1 hplace.symm⟩
  | some e =>
    have hkey : e.field.key = key := by simpa using List.find?_some he
    rw [hfind] at he
    rw [he, Option.map_some] at hplace
    obtain ⟨f, hf, hshape⟩ := Option.map_eq_some_iff.1 hplace.symm
    exact Or.inl ⟨e, f, rfl, hf, hshape.symm, hkey⟩

theorem takePair_strict (hstrict : t.strict = true) {n : Nat} {f : Field} (hf : t.fields[n]? = some f) :
    t.takePair n entries = tryCatch (do return .stored n (← strictPair f)) fun err =>
      if err.code = .outOfRange then return .refused f.key else throw err := by
  simp only [takePair, hstrict, if_true, hf]

theorem takePair_strict_none (hstrict : t.strict = true) {n : Nat} (hf : t.fields[n]? = none) (d : Decoder) :
    Stops (t.takePair n entries) d := by
  simp only [takePair, hstrict, if_true, hf]
  exact (gives_get d).stops (stops_fail (by simp) d)

theorem takePair_strict_stops (hstrict : t.strict = true) {n : Nat} {f : Field} (hf : t.fields[n]? = some f)
    (h : Stops (strictPair f) d) : Stops (t.takePair n entries) d := by
  obtain ⟨err, d', hrun, hcode⟩ := h.bind fun s => (pure (.stored n s) : Decode Verdict)
  refine ⟨err, d', ?_, hcode⟩
  rw [takePair_strict hstrict hf, run_tryCatch, hrun]
  simp only [hcode, if_false]
  rfl

theorem takePair_tolerant (hstrict : t.strict = false) (n : Nat) (entries : List Entry) :
    t.takePair n entries = (tolerantPair entries >>= fun pair => match pair with
      | .stored key s => return .stored (t.place key) s
      | .unknown name => return .skipped name
      | .outOfRange key => return .refused key) := by
  simp only [takePair, hstrict, Bool.false_eq_true, if_false]

/-- One pair of a strict table. -/
theorem takePair_meets_strict (hstrict : t.strict = true) (hp : AtPair d p rest) (n : Nat) (entries : List Entry) :
    Meets (t.takePair n entries) d rest (t.verdict? n p) := by
  rw [verdict?, if_pos hstrict]
  cases hf : t.fields[n]? with
  | none => exact takePair_strict_none hstrict hf d
  | some f =>
    by_cases hkey : p.1.Spells f.key
    · simp only [hkey, if_true]
      refine meets_of_keepValue hp ?_
      have hpair : (strictPair f).run.run d = (takeValue walkOp f).run.run (afterKey d p rest) := by
        rw [strictPair, (hp.key.takeKey hp.more hkey walkOp f.key).run_bind]
        simp only [ne_eq, not_true_eq_false, if_false]
        rfl
      rw [takePair_strict hstrict hf, keepValue]
      simp only [run_tryCatch, run_bind, hpair]
    · simp only [hkey, if_false]
      exact takePair_strict_stops hstrict hf (hp.strictPair_stops hkey)

/-- One pair of a table that is not strict. -/
theorem takePair_meets_tolerant (hstrict : t.strict = false) (hp : AtPair d p rest) (n : Nat)
    (hshape : entries.map (fun e => e.field.shape) = t.fields.map Field.shape) :
    Meets (t.takePair n entries) d rest (t.verdict? n p) := by
  rw [verdict?, hstrict, takePair_tolerant hstrict]
  simp only [Bool.false_eq_true, if_false]
  cases hkey : p.1.pairKey with
  | error code =>
    obtain ⟨hshort, ht, rfl⟩ := pairKey_eq_error hkey
    have hfails := hp.key.takeTolerantKey_fails hp.more hshort ht walkOp
    exact ((hfails.stops p.1.textFault_ne_outOfRange).bind _).bind _
  | ok pairKey =>
    cases pairKey with
    | skipped name =>
      obtain ⟨hmajor, hlong, rfl⟩ := pairKey_eq_skipped hkey
      have hpair : Gives (tolerantPair entries) d (.unknown (Text.ofString s!"<{p.1.head.arg}-byte key>")) _ :=
        (hp.gives_takeTolerantKey_long hmajor hlong walkOp).bind (gives_pure _ _)
      exact meets_skipped (hpair.bind (gives_pure _ _))
    | key key =>
      obtain ⟨hshort, ht⟩ := pairKey_eq_key hkey
      have htake := hp.key.takeTolerantKey hp.more hshort ht walkOp
      rcases find?_entries hshape key with ⟨e, f, hfind, hf, hsame, rfl⟩ | ⟨hfind, hf⟩
      · simp only [hf, ← Field.verdict?_congr hsame]
        refine meets_of_keepValue hp ?_
        rw [tolerantPair, bind_assoc, htake.run_bind]
        simp only [hfind]
        change (keepValue e.field (Pair.stored e.field.key) (.outOfRange e.field.key) >>= _).run.run _ = _
        refine run_keepValue_bind (fun s => ?_) ?_ _ <;> rfl
      · simp only [hf]
        refine meets_skipped ?_
        rw [past_skipped]
        refine Gives.bind (a := Pair.unknown key) (htake.bind ?_) (gives_pure _ _)
        simp only [hfind]
        exact (hp.faces_value.gives_skipUnknown walkOp key).bind (gives_pure _ _)

/-- One pair: reading it does what its verdict says. -/
theorem takePair_meets (hp : AtPair d p rest) (n : Nat)
    (hshape : entries.map (fun e => e.field.shape) = t.fields.map Field.shape) :
    Meets (t.takePair n entries) d rest (t.verdict? n p) := by
  rcases Bool.eq_false_or_eq_true t.strict with hstrict | hstrict
  · exact takePair_meets_strict hstrict hp n entries
  · exact takePair_meets_tolerant hstrict hp n hshape

/-- Where no pair is ahead, a strict table stops. -/
theorem strictPair_stops_of_ahead (f : Field) (h : ∀ p rest, ¬AtPair d p rest) : Stops (strictPair f) d := by
  by_cases hmore : d.read < d.count
  · by_cases hblocked : Blocked d
    · exact (halts_takeKey walkOp f.key d hblocked).bind _
    · unfold Blocked at hblocked
      push Not at hblocked
      obtain ⟨i, rest, hi⟩ := hblocked
      by_cases htext : ∃ t, i.Spells t
      · obtain ⟨t, ht⟩ := htext
        refine (hi.takeKey hmore ht walkOp f.key).stops ?_
        split
        · exact stops_fail (by simp) _
        · refine halts_takeValue walkOp f _ fun v rest' hv => h (i, v) rest' ⟨⟨?_, hi.within⟩, hv.within, hmore⟩
          rw [hi.unread, ← hv.unread]
      · have hfails := hi.takeKey_fails hmore (fun t ht => htext ⟨t, ht⟩) walkOp f.key
        exact (hfails.stops i.textFault_ne_outOfRange).bind _
  · refine Stops.bind ((gives_get d).stops ?_) _
    simp only [Decoder.more, hmore, decide_false, Bool.not_false, if_true]
    exact (gives_get d).stops (stops_fail (by simp) d)

theorem tolerantPair_stops_of_ahead (entries : List Entry) (h : ∀ p rest, ¬AtPair d p rest) : Stops (tolerantPair entries) d := by
  by_cases hmore : d.read < d.count
  · by_cases hblocked : Blocked d
    · exact (halts_takeTolerantKey walkOp d hblocked).bind _
    · unfold Blocked at hblocked
      push Not at hblocked
      obtain ⟨i, rest, hi⟩ := hblocked
      have hvalue : Blocked { d with unread := rest, read := d.read + 1 } := fun v rest' hv =>
        h (i, v) rest' ⟨⟨by rw [hi.unread, ← hv.unread], hi.within⟩, hv.within, hmore⟩
      cases hkey : i.pairKey with
      | error code =>
        obtain ⟨hshort, ht, rfl⟩ := pairKey_eq_error hkey
        exact ((hi.takeTolerantKey_fails hmore hshort ht walkOp).stops i.textFault_ne_outOfRange).bind _
      | ok pairKey =>
        cases pairKey with
        | skipped name =>
          obtain ⟨hmajor, hlong, rfl⟩ := pairKey_eq_skipped hkey
          obtain ⟨err, d', hrun, hcode⟩ := (halts_skipUnknown walkOp (Text.ofString s!"<{i.head.arg}-byte key>") _ hvalue).bind
            fun _ => pure (PairKey.skipped (Text.ofString s!"<{i.head.arg}-byte key>"))
          exact Stops.bind ⟨err, d', (hi.takeTolerantKey_long hmore hmajor hlong walkOp).trans hrun, hcode⟩ _
        | key key =>
          obtain ⟨hshort, ht⟩ := pairKey_eq_key hkey
          refine (hi.takeTolerantKey hmore hshort ht walkOp).stops ?_
          dsimp only
          split
          · exact (halts_skipUnknown walkOp key _ hvalue).bind _
          · rename_i e _
            exact Stops.keepValue (Pair.stored key) (.outOfRange key) (halts_takeValue walkOp e.field _ hvalue)
  · refine Stops.bind ((gives_get d).stops ?_) _
    simp only [Decoder.more, hmore, decide_false, Bool.not_false, if_true]
    exact (gives_get d).stops (stops_fail (by simp) d)

/-- Where no pair is ahead, reading one stops. -/
theorem takePair_stops (n : Nat) (entries : List Entry) (h : ∀ p rest, ¬AtPair d p rest) : Stops (t.takePair n entries) d := by
  rcases Bool.eq_false_or_eq_true t.strict with hstrict | hstrict
  · cases hf : t.fields[n]? with
    | none => exact takePair_strict_none hstrict hf d
    | some f => exact takePair_strict_stops hstrict hf (strictPair_stops_of_ahead f h)
  · rw [takePair_tolerant hstrict]
    exact (tolerantPair_stops_of_ahead entries h).bind _

/-! ## All pairs -/

/-- The walk of a table that has come to such verdicts. -/
def record (t : Table) (verdicts : List Verdict) : Walk := verdicts.foldl Walk.note t.start

/-- No pair can be taken after so many others: none is ahead, or it has no verdict, or the budget does not afford it. -/
def Stuck (t : Table) (n : Nat) (d : Decoder) : Prop :=
  ∀ p rest v, AtPair d p rest → t.verdict? n p = some v → ¬Affords d.options.allocLimit d.allocated v.cost

variable {n : Nat} {v : Verdict}

theorem journalFrom_of_stuck (h : t.Stuck n d) : t.journalFrom d.options.allocLimit n d.allocated d.ahead = [] := by
  cases hahead : d.ahead with
  | nil => rfl
  | cons p pairs =>
    obtain ⟨rest, hp⟩ := exists_atPair_of_ahead hahead
    rw [journalFrom]
    split
    · rfl
    · rename_i v hv
      exact if_neg (h p rest v hp hv)

theorem journalFrom_of_atPair (hp : AtPair d p rest) (hv : t.verdict? n p = some v)
    (haffords : Affords d.options.allocLimit d.allocated v.cost) :
    t.journalFrom d.options.allocLimit n d.allocated d.ahead =
      v :: t.journalFrom (d.past v rest).options.allocLimit (n + 1) (d.past v rest).allocated (d.past v rest).ahead := by
  rw [hp.ahead_eq, journalFrom, hv]
  exact if_pos haffords

theorem stops_of_stuck (h : t.Stuck n d) (hshape : entries.map (fun e => e.field.shape) = t.fields.map Field.shape) :
    Stops (t.takePair n entries) d := by
  by_cases hahead : ∃ p rest, AtPair d p rest
  · obtain ⟨p, rest, hp⟩ := hahead
    have hmeets := takePair_meets hp n hshape
    cases hv : t.verdict? n p with
    | none =>
      rw [hv] at hmeets
      exact hmeets
    | some v =>
      rw [hv] at hmeets
      exact (hmeets.2 (h p rest v hp hv)).stops (by decide)
  · exact takePair_stops n entries fun p rest hp => hahead ⟨p, rest, hp⟩

/-- A value is stored in a field that takes it. -/
theorem exists_of_verdict?_stored {place : Nat} {s : Slot} (h : t.verdict? n p = some (.stored place s)) :
    ∃ f, t.fields[place]? = some f ∧ f.verdict? place p.2 = some (.stored place s) := by
  unfold verdict? at h
  split_ifs at h
  · split at h
    · cases h
    · rename_i f hf
      split_ifs at h
      obtain ⟨-, -, -, -, rfl, -⟩ := Field.of_verdict?_stored h
      exact ⟨f, hf, h⟩
  · split at h
    · cases h
    · cases h
    · split at h
      · cases h
      · rename_i f hf
        obtain ⟨-, -, -, -, rfl, -⟩ := Field.of_verdict?_stored h
        exact ⟨f, hf, h⟩

theorem shape_store {f : Field} {place : Nat} {i : Item} {s : Slot} {e : Entry} (he : e.field.shape = f.shape)
    (hv : f.verdict? place i = some (.stored place s)) : (e.store s).field.shape = f.shape := by
  obtain ⟨s, hslot, -, -, -, rfl⟩ := Field.of_verdict?_stored hv
  have hstore : (e.store (s.filled i)).field.slot? = some (s.filled i) := rfl
  simp only [Field.shape, Prod.mk.injEq, hslot, hstore, Option.map_some, s.type_filled, and_true] at he ⊢
  exact ⟨he.1, he.2.1⟩

/-- Taking a pair keeps the shapes of the fields. -/
theorem map_shape_note {w : Walk} (hshape : w.entries.map (fun e => e.field.shape) = t.fields.map Field.shape)
    (hv : t.verdict? n p = some v) : (w.note v).entries.map (fun e => e.field.shape) = t.fields.map Field.shape := by
  cases v with
  | refused key => exact hshape
  | skipped name => exact hshape
  | stored place s =>
    obtain ⟨f, hf, hstored⟩ := exists_of_verdict?_stored hv
    rw [← hshape]
    refine List.ext_getElem? fun j => ?_
    simp only [Walk.note, List.getElem?_map, List.getElem?_modify]
    cases hj : w.entries[j]? with
    | none => rfl
    | some e =>
      by_cases hplace : place = j
      · subst hplace
        have he := congrArg (·[place]?) hshape
        simp only [List.getElem?_map, hj, hf, Option.map_some, Option.some.injEq] at he
        simp [shape_store he hstored, he]
      · simp [hplace]

/-- What a loop over pairs comes to: it takes all pairs that are wanted, or it takes those of the journal and stops at the next. -/
structure Follows (t : Table) (c n : Nat) (w : Walk) (d : Decoder) (verdicts : List Verdict) (d₁ : Decoder) : Prop where
  passes : Passes d verdicts d₁
  outcome : verdicts.length = c ∧ t.walkPairs c n w d = (verdicts.foldl Walk.note w, d₁) ∨
    verdicts.length < c ∧ t.Stuck (n + verdicts.length) d₁ ∧
      ∃ err d', (t.takePair (n + verdicts.length) (verdicts.foldl Walk.note w).entries).run.run d₁ = (.error err, d') ∧
        err.code ≠ .outOfRange ∧ t.walkPairs c n w d = ({ verdicts.foldl Walk.note w with error := some err }, d')

theorem walkPairs_follows (c n : Nat) {w : Walk} (hshape : w.entries.map (fun e => e.field.shape) = t.fields.map Field.shape)
    (d : Decoder) (hwanted : c = if t.strict then t.fields.length - n else d.count - d.read) :
    ∃ d₁, t.Follows c n w d (t.journalFrom d.options.allocLimit n d.allocated d.ahead) d₁ := by
  induction c generalizing n w d with
  | zero =>
    have hstuck : t.Stuck n d := by
      intro p rest v hp hv
      split_ifs at hwanted with hstrict
      · have hnone : t.fields[n]? = none := List.getElem?_eq_none_iff.2 (by omega)
        rw [verdict?, if_pos hstrict, hnone] at hv
        cases hv
      · have := hp.more
        omega
    rw [journalFrom_of_stuck hstuck]
    exact ⟨d, .nil d, Or.inl ⟨rfl, rfl⟩⟩
  | succ c ih =>
    by_cases hstuck : t.Stuck n d
    · obtain ⟨err, d', hrun, hcode⟩ := stops_of_stuck hstuck hshape
      rw [journalFrom_of_stuck hstuck]
      refine ⟨d, .nil d, Or.inr ⟨Nat.succ_pos c, hstuck, err, d', hrun, hcode, ?_⟩⟩
      rw [walkPairs, hrun]
      rfl
    · unfold Stuck at hstuck
      push Not at hstuck
      obtain ⟨p, rest, v, hp, hv, haffords⟩ := hstuck
      have hmeets := takePair_meets hp n hshape
      rw [hv] at hmeets
      have hgives := hmeets.1 haffords
      have hloop : t.walkPairs (c + 1) n w d = t.walkPairs c (n + 1) (w.note v) (d.past v rest) := by
        rw [walkPairs, hgives]
      have hwanted' : c = if t.strict then t.fields.length - (n + 1) else (d.past v rest).count - (d.past v rest).read := by
        have := hp.more
        simp only [past]
        split_ifs at hwanted ⊢ <;> omega
      obtain ⟨d₁, hpasses, houtcome⟩ := ih (n + 1) (map_shape_note hshape hv) (d.past v rest) hwanted'
      rw [journalFrom_of_atPair hp hv haffords]
      generalize t.journalFrom (d.past v rest).options.allocLimit (n + 1) (d.past v rest).allocated (d.past v rest).ahead = verdicts
        at hpasses houtcome
      refine ⟨d₁, .cons hp hpasses, ?_⟩
      rw [hloop, List.length_cons, List.foldl_cons, show n + (verdicts.length + 1) = n + 1 + verdicts.length by omega]
      rcases houtcome with ⟨hlen, hwalk⟩ | ⟨hlen, hrest⟩
      · exact Or.inl ⟨by omega, hwalk⟩
      · exact Or.inr ⟨by omega, hrest⟩

/-- A walk does what its journal says: the decoder goes past the pairs of the journal, and then either all pairs that are wanted were taken,
or the next pair ends the walk with its error. -/
theorem walk_follows_journal (t : Table) (d : Decoder) :
    ∃ d₁, Passes d (t.journal d) d₁ ∧
      ((t.journal d).length = t.wanted d ∧ t.walk d = (t.record (t.journal d), d₁) ∨
        (t.journal d).length < t.wanted d ∧ t.Stuck (t.journal d).length d₁ ∧
          ∃ err d', (t.takePair (t.journal d).length (t.record (t.journal d)).entries).run.run d₁ = (.error err, d') ∧
            err.code ≠ .outOfRange ∧ t.walk d = ({ t.record (t.journal d) with error := some err }, d')) := by
  have hshape : t.start.entries.map (fun e => e.field.shape) = t.fields.map Field.shape := by
    rw [start, List.map_map]
    rfl
  obtain ⟨d₁, hpasses, houtcome⟩ := walkPairs_follows (t.wanted d) 0 hshape d rfl
  refine ⟨d₁, hpasses, ?_⟩
  rw [walk_eq_walkPairs]
  rw [Nat.zero_add] at houtcome
  exact houtcome

/-! ## Whole messages -/

/-- The ways in which a decode can end: the input is not entered, the walk is stuck at a pair, something is left after the walk, or the
whole message was taken. -/
inductive Decoded (t : Table) (options : Options) (data : List UInt8) : Option Error × Table × List Event → Prop
  | barred {err : Error} {d : Decoder} (enter : enter options t.expected data = (.error err, d)) :
    Decoded t options data (some err, t, d.trace)
  | stuck {d d₁ d' : Decoder} {err : Error} (enter : enter options t.expected data = (.ok (), d)) (passes : Passes d (t.journal d) d₁)
      (short : (t.journal d).length < t.wanted d) (stuck : t.Stuck (t.journal d).length d₁)
      (ends : (t.takePair (t.journal d).length (t.record (t.journal d)).entries).run.run d₁ = (.error err, d')) :
    Decoded t options data (some err, { t with fields := (t.record (t.journal d)).fields true }, d'.trace)
  | unfinished {d d₁ d' : Decoder} {err : Error} (enter : enter options t.expected data = (.ok (), d))
      (passes : Passes d (t.journal d) d₁) (all : (t.journal d).length = t.wanted d) (ends : leave.run.run d₁ = (.error err, d')) :
    Decoded t options data (some err, { t with fields := (t.record (t.journal d)).fields true }, d'.trace)
  | finished {d d₁ d' : Decoder} (enter : enter options t.expected data = (.ok (), d)) (passes : Passes d (t.journal d) d₁)
      (all : (t.journal d).length = t.wanted d) (ends : leave.run.run d₁ = (.ok (), d')) :
    Decoded t options data
      ((t.record (t.journal d)).aggregate walkOp, { t with fields := (t.record (t.journal d)).fields false }, d'.trace)

theorem error_record (t : Table) (verdicts : List Verdict) : (t.record verdicts).error = none := by
  have h : ∀ w : Walk, (verdicts.foldl Walk.note w).error = w.error := by
    induction verdicts with
    | nil => exact fun _ => rfl
    | cons v verdicts ih =>
      intro w
      rw [List.foldl_cons, ih]
      cases v <;> rfl
  exact h t.start

/-- Every decode ends in one of these ways. -/
theorem decoded (t : Table) (options : Options) (data : List UInt8) : t.Decoded options data (t.decode options data) := by
  rw [decode, ← expected]
  rcases henter : enter options t.expected data with ⟨err | ⟨⟩, d⟩
  · exact .barred henter
  · obtain ⟨d₁, hpasses, ⟨hall, hwalk⟩ | ⟨hshort, hstuck, err, d', hends, -, hwalk⟩⟩ := walk_follows_journal t d
    · simp only [hwalk, error_record]
      rcases hleave : leave.run.run d₁ with ⟨err | ⟨⟩, d'⟩
      · exact .unfinished henter hpasses hall hleave
      · exact .finished henter hpasses hall hleave
    · simp only [hwalk]
      exact .stuck henter hpasses hshort hstuck hends

end Table

end SensorWire
