import Mathlib
import SensorWire.Proofs.LogReading

/-!
# Logs that were cut

A log may lose its end, and items have no frame around them that would tell. Where no length is left open, a reader that is given only
the beginning of an item misses something, and says so (`Tears`): no beginning of an item is an item, and none is taken for anything
else. That there is nothing at all is said only where there are no bytes (`Item.read_eq_empty_iff`). A log that was cut between two
events thus ends cleanly, and one that was cut inside an event does not.

Main statement: `Event.torn_log`.
-/

namespace SensorWire

namespace Cbor

/-- A reader that finds its bytes truncated, given the beginning of what it would take, as far as it looks. -/
def Tears {α : Type} (one : Reader α) (write : α → List UInt8) (accepts : α → Prop) (bound : Nat) : Prop :=
  ∀ a, accepts a → ∀ front back, write a = front ++ back → back ≠ [] → front.length < bound → one front = .error .truncated

/-- A cut through two pieces goes through the first one, or it does not touch it. -/
theorem cut_cases {α : Type} {x y front back : List α} (h : x ++ y = front ++ back) :
    (∃ lost, x = front ++ lost ∧ lost ≠ []) ∨ ∃ kept, front = x ++ kept ∧ y = kept ++ back := by
  rcases List.append_eq_append_iff.1 h with hkept | ⟨lost, hlost, hback⟩
  · exact Or.inr hkept
  · by_cases hempty : lost = []
    · subst hempty
      exact Or.inr ⟨[], by rw [hlost, List.append_nil, List.append_nil], by rw [hback, List.nil_append]; rfl⟩
    · exact Or.inl ⟨lost, hlost, hempty⟩

section Readers

variable {α β : Type} {bound : Nat}

theorem tears_readBoth {first : Reader α} {second : Reader β} {writeA : α → List UInt8} {writeB : β → List UInt8}
    {acceptsA : α → Prop} {acceptsB : β → Prop} (hexact : Exact first writeA acceptsA bound) (hA : Tears first writeA acceptsA bound)
    (hB : Tears second writeB acceptsB bound) :
    Tears (readBoth first second) (fun p => writeA p.1 ++ writeB p.2) (fun p => acceptsA p.1 ∧ acceptsB p.2) bound := by
  rintro ⟨a, b⟩ ⟨ha, hb⟩ front back hcut hback hbound
  rcases cut_cases hcut with ⟨lost, hlost, hne⟩ | ⟨kept, rfl, hkept⟩
  · simp only [readBoth, hA a ha front lost hlost hne hbound]
    rfl
  · have hfirst := (hexact _ hbound a kept).2 ⟨rfl, ha⟩
    have hsecond := hB b hb kept back hkept hback (by rw [List.length_append] at hbound; omega)
    simp only [readBoth, hfirst, bind, Except.bind, hsecond]

theorem tears_readMany {one : Reader α} {write : α → List UInt8} {accepts : α → Prop} (hexact : Exact one write accepts bound)
    (hone : Tears one write accepts bound) (n : Nat) :
    Tears (readMany one n) (List.flatMap write) (fun as => as.length = n ∧ ∀ a ∈ as, accepts a) bound := by
  induction n with
  | zero =>
    rintro as ⟨hlength, -⟩ front back hcut hback
    rw [List.length_eq_zero_iff] at hlength
    subst hlength
    exact absurd (List.append_eq_nil_iff.1 hcut.symm).2 hback
  | succ n ih =>
    rintro as ⟨hlength, haccepts⟩ front back hcut hback hbound
    obtain ⟨a, as, rfl⟩ := List.exists_cons_of_length_eq_add_one hlength
    rw [List.forall_mem_cons] at haccepts
    rw [List.flatMap_cons] at hcut
    rcases cut_cases hcut with ⟨lost, hlost, hne⟩ | ⟨kept, rfl, hkept⟩
    · simp only [readMany, hone a haccepts.1 front lost hlost hne hbound]
      rfl
    · have hfirst := (hexact _ hbound a kept).2 ⟨rfl, haccepts.1⟩
      have hrest := ih as ⟨Nat.succ.inj hlength, haccepts.2⟩ kept back hkept hback (by rw [List.length_append] at hbound; omega)
      simp only [readMany, hfirst, bind, Except.bind, hrest]

end Readers

/-! ## Heads -/

/-- The bytes of an argument that is cut are too few. -/
theorem Head.read_torn {major : Major} {w : Width} {arg : Nat} (h : w.Holds arg) {part : List UInt8} (hshort : part.length < w.size) :
    Head.read (Head.initial major (w.info arg) :: part) = .error .truncated := by
  have hinfo : w.info arg < 32 := Nat.lt_trans (Width.info_lt h) (by decide)
  have hsplit : splitExact w.size part = none := splitExact_eq_none_iff.2 hshort
  simp only [Head.read, Head.initial_mod major hinfo, Width.ofInfo?_info h]
  cases w with
  | inline => exact absurd hshort (Nat.not_lt_zero _)
  | _ => simp only [hsplit]

theorem readHead_torn {h : Head} (hv : h.Valid) {front back : List UInt8} (hcut : h.encode = front ++ back) (hback : back ≠ []) :
    readHead front = .error .truncated := by
  cases front with
  | nil => rfl
  | cons b part =>
    obtain ⟨major, width, arg⟩ := h
    cases width with
    | none =>
      rw [Head.encode_none, List.cons_append, List.cons.injEq] at hcut
      exact absurd (List.append_eq_nil_iff.1 hcut.2.symm).2 hback
    | some w =>
      rw [Head.encode_some, List.cons_append, List.cons.injEq] at hcut
      obtain ⟨rfl, hpart⟩ := hcut
      have hlength := congrArg List.length hpart
      rw [length_bigEndian, List.length_append] at hlength
      have hpos := List.length_pos_iff.2 hback
      simp only [readHead, Head.read_torn hv (show part.length < w.size by omega)]
      rfl

/-! ## Items -/

namespace Item

variable {lim : Limits} {depth bound : Nat}

/-- The members of a container that is cut. -/
theorem readContainer_torn (lim : Limits) {α : Type} {one : Reader α} {write : α → List UInt8} {accepts : α → Prop}
    (hexact : Exact one write accepts bound) (hone : Tears one write accepts bound) {members : List α} (haccepts : ∀ a ∈ members, accepts a)
    {limit : Nat} (hsize : members.length < 2 ^ 63) (hlimit : members.length ≤ limit) (overfull : Fault)
    (closed : Width → List α → Item) (opened : List α → Item) (major : Major) (w : Width) {front back : List UInt8}
    (hcut : members.flatMap write = front ++ back) (hback : back ≠ []) (hbound : front.length < bound) :
    readContainer lim one limit overfull closed opened ⟨major, some w, members.length⟩ front = .error .truncated := by
  have hmany := tears_readMany hexact hone members.length members ⟨rfl, haccepts⟩ front back hcut hback hbound
  simp only [readContainer, if_neg (show ¬0x8000000000000000 ≤ members.length by omega), if_neg (Nat.not_lt.2 hlimit), hmany]
  rfl

/-- What follows the head of an item, cut. -/
theorem readAfter_torn (hopen : lim.openLengths = false) {inner : Nat → Bool → Reader Item}
    (hexact : ∀ depth inTag, Exact (inner depth inTag) encode (Within lim depth inTag) bound)
    (hinner : ∀ depth inTag, Tears (inner depth inTag) encode (Within lim depth inTag) bound) {inTag : Bool} {i : Item}
    (h : i.Within lim depth inTag) {front back : List UInt8} (hcut : i.body = front ++ back) (hback : back ≠ [])
    (hbound : front.length < bound) : readAfter lim inner depth inTag i.head front = .error .truncated := by
  have hnil : ([] : List UInt8) ≠ front ++ back := fun hempty => hback (List.append_eq_nil_iff.1 hempty.symm).2
  cases i with
  | string kind w content =>
    have hcontent : readContent kind content.length front = .error .truncated := by
      have hlength := congrArg List.length hcut
      have hpos := List.length_pos_iff.2 hback
      rw [body, List.length_append] at hlength
      simp only [readContent, if_neg (show ¬0x8000000000000000 ≤ content.length from Nat.not_le.2 h.2),
        splitExact_eq_none_iff.2 (show front.length < content.length by omega)]
    cases kind <;> (simp only [readAfter, head, StringKind.major, readString, hcontent]; rfl)
  | array w items =>
    obtain ⟨-, hdepth, hsize, hlimit, hitems⟩ := h
    have hmembers := readContainer_torn lim (hexact (depth + 1) false) (hinner (depth + 1) false) (allWithin_iff.1 hitems) hsize hlimit
      (.manyElements lim.elements) .array .openArray .array w hcut hback hbound
    simp only [readAfter, head, if_neg (show ¬lim.depth < depth + 1 by omega), readArray, hmembers]
  | map w pairs =>
    obtain ⟨-, hdepth, hsize, hlimit, hpairs⟩ := h
    have hboth := tears_readBoth (hexact (depth + 1) false) (hinner (depth + 1) false) (hinner (depth + 1) false)
    have hmembers := readContainer_torn lim (exact_readBoth (hexact (depth + 1) false) (hexact (depth + 1) false)) hboth
      (pairsWithin_iff.1 hpairs) hsize hlimit (.manyPairs lim.pairs) .map .openMap .map w hcut hback hbound
    simp only [readAfter, head, if_neg (show ¬lim.depth < depth + 1 by omega), readMap, hmembers]
  | tag w n content =>
    obtain ⟨-, hdepth, hcontent⟩ := h
    have htorn := hinner _ true content hcontent front back hcut hback hbound
    have hshallow : ¬(inTag = true ∧ lim.depth < depth + 1) := fun hdeep => absurd (hdepth hdeep.1) (by omega)
    simp only [readAfter, head, if_neg hshallow, htorn]
    rfl
  | chunks kind pieces => exact absurd (hopen.symm.trans h.1) Bool.false_ne_true
  | openArray items => exact absurd (hopen.symm.trans h.1) Bool.false_ne_true
  | openMap pairs => exact absurd (hopen.symm.trans h.1) Bool.false_ne_true
  | _ => exact absurd hcut hnil

/-- Reading the beginning of an item at a depth, as far as the fuel reaches. -/
theorem tears_readAt (hopen : lim.openLengths = false) (fuel depth : Nat) (inTag : Bool) :
    Tears (readAt lim fuel depth inTag) encode (Within lim depth inTag) fuel := by
  induction fuel generalizing depth inTag with
  | zero => exact fun _ _ front _ _ _ hbound => absurd hbound (Nat.not_lt_zero _)
  | succ fuel ih =>
    intro i h front back hcut hback hbound
    rw [encode_eq] at hcut
    rcases cut_cases hcut with ⟨lost, hlost, hne⟩ | ⟨kept, rfl, hkept⟩
    · simp only [readAt, readHead_torn h.valid_head hlost hne]
      rfl
    · have hhead : readHead (i.head.encode ++ kept) = .ok (i.head, kept) := readHead_eq_ok_iff.2 ⟨rfl, h.valid_head, h.not_wide⟩
      have hshort : kept.length < fuel := by
        have := List.length_pos_iff.2 i.head.encode_ne_nil
        rw [List.length_append] at hbound
        omega
      simp only [readAt, hhead, bind, Except.bind]
      exact readAfter_torn hopen (exact_readAt lim fuel) ih h hkept hback hshort

/-- No reader that wants all lengths takes the beginning of an item for an item. -/
theorem Within.read_torn (hopen : lim.openLengths = false) {i : Item} (h : i.Within lim 0 false) {front back : List UInt8}
    (hcut : i.encode = front ++ back) (hfront : front ≠ []) (hback : back ≠ []) : read lim front = .error .truncated := by
  unfold read
  rw [if_neg (by simpa using hfront)]
  exact tears_readAt hopen _ 0 false i h front back hcut hback (Nat.lt_succ_self _)

end Item

/-! ## Nothing at all -/

/-- A reader that never says that there is nothing at all. -/
def Busy {α : Type} (one : Reader α) : Prop := ∀ bytes, one bytes ≠ .error .empty

/-- A step that never says that there is nothing at all, followed by others that do not. -/
theorem bind_ne_empty {α β : Type} {x : Except Fault α} {f : α → Except Fault β} (hx : x ≠ .error .empty)
    (hf : ∀ a, f a ≠ .error .empty) : (x >>= f) ≠ .error .empty := by
  rw [ne_eq, bind_eq_error_iff]
  rintro (h | ⟨a, -, h⟩)
  · exact hx h
  · exact hf a h

theorem pure_ne_empty {α : Type} (a : α) : (pure a : Except Fault α) ≠ .error .empty := by
  simp [pure, Except.pure]

theorem throw_ne_empty {α : Type} {f : Fault} (h : f ≠ .empty) : (throw f : Except Fault α) ≠ .error .empty := by
  simpa [throw, throwThe, MonadExceptOf.throw] using h

theorem busy_readHead : Busy readHead := by
  intro bytes
  unfold readHead
  split
  · rename_i f _
    cases f with
    | endless major => cases major <;> simp [Fault.ofHead]
    | _ => simp [Fault.ofHead]
  · split <;> simp

theorem busy_readContent (kind : StringKind) (n : Nat) : Busy (readContent kind n) := by
  intro bytes
  unfold readContent
  split
  · simp
  · split <;> simp

section Readers

variable {α β : Type} {one : Reader α} {second : Reader β}

theorem Busy.both (h : Busy one) (h' : Busy second) : Busy (readBoth one second) := fun bytes =>
  bind_ne_empty (h bytes) fun _ => bind_ne_empty (h' _) fun _ => pure_ne_empty _

theorem Busy.many (h : Busy one) (n : Nat) : Busy (readMany one n) := by
  induction n with
  | zero => simp [Busy, readMany]
  | succ n ih => exact fun bytes => bind_ne_empty (h bytes) fun _ => bind_ne_empty (ih _) fun _ => pure_ne_empty _

theorem Busy.open (h : Busy one) {overfull : Fault} (hfull : overfull ≠ .empty) (fuel room : Nat) :
    Busy (readOpen one overfull fuel room) := by
  induction fuel generalizing room with
  | zero => simp [Busy, readOpen]
  | succ fuel ih =>
    intro bytes
    unfold readOpen
    split
    · simp
    · refine bind_ne_empty (h bytes) fun p => ?_
      cases room with
      | zero => exact throw_ne_empty hfull
      | succ room => exact bind_ne_empty (ih room p.2) fun _ => pure_ne_empty _

theorem Busy.container (h : Busy one) (lim : Limits) (limit : Nat) {overfull : Fault} (hfull : overfull ≠ .empty)
    (closed : Width → List α → Item) (opened : List α → Item) (head : Head) :
    Busy (readContainer lim one limit overfull closed opened head) := by
  intro bytes
  unfold readContainer
  split
  · split
    · exact throw_ne_empty (by simp)
    · exact bind_ne_empty (h.open hfull _ _ _) fun _ => pure_ne_empty _
  · split
    · exact throw_ne_empty (by simp)
    · split
      · exact throw_ne_empty hfull
      · exact bind_ne_empty (h.many _ _) fun _ => pure_ne_empty _

end Readers

theorem busy_readChunk (kind : StringKind) : Busy (readChunk kind) := by
  intro bytes
  unfold readChunk
  split
  · simp
  · split
    · simp
    · split
      · simp
      · exact bind_ne_empty (busy_readHead _) fun _ => bind_ne_empty (busy_readContent _ _ _) fun _ => pure_ne_empty _

theorem busy_readString (lim : Limits) (kind : StringKind) (h : Head) : Busy (readString lim kind h) := by
  intro bytes
  unfold readString
  split
  · split
    · exact throw_ne_empty (by simp)
    · exact bind_ne_empty ((busy_readChunk kind).open (by simp) _ _ _) fun _ => pure_ne_empty _
  · exact bind_ne_empty (busy_readContent _ _ _) fun _ => pure_ne_empty _

theorem Item.busy_readAt (lim : Limits) (fuel depth : Nat) (inTag : Bool) : Busy (readAt lim fuel depth inTag) := by
  induction fuel generalizing depth inTag with
  | zero => simp [Busy, readAt]
  | succ fuel ih =>
    refine fun bytes => bind_ne_empty (busy_readHead bytes) fun p => ?_
    unfold readAfter
    dsimp only
    split
    · simp
    · simp
    · exact busy_readString lim .bytes _ _
    · exact busy_readString lim .text _ _
    · split
      · simp
      · exact (ih _ _).container lim _ (by simp) _ _ _ _
    · split
      · simp
      · exact ((ih _ _).both (ih _ _)).container lim _ (by simp) _ _ _ _
    · split
      · simp
      · exact bind_ne_empty (ih _ _ _) fun _ => pure_ne_empty _
    · simp

/-- Only where there are no bytes at all does a reader find none. -/
theorem Item.read_eq_empty_iff {lim : Limits} {bytes : List UInt8} : read lim bytes = .error .empty ↔ bytes = [] := by
  unfold read
  split
  · rename_i h
    exact iff_of_true rfl (List.isEmpty_iff.1 h)
  · rename_i h
    exact iff_of_false (busy_readAt _ _ _ _ _) (by simpa using h)

end Cbor

/-! ## Logs -/

theorem LogReader.Yields.at_tear {r : LogReader} {e : Event} {back : List UInt8} (h : e.Representable)
    (hcut : e.encode = r.unread ++ back) (hunread : r.unread ≠ []) (hback : back ≠ []) (hwhole : r.source.broken = none) :
    Yields r [] (.within s!"event {r.count + 1}" (.data (.item .truncated))) := by
  have htake := take_of_fault (h.within.read_torn rfl hcut hunread hback)
  simp only [LogSource.endingOf, hwhole] at htake
  exact .done htake

/-- Both readers, the one of every event and the one with an empty filter, give the same events and the same ending. -/
def LogSource.Gives (s : LogSource) (es : List Event) (ending : Failure) : Prop :=
  s.read = (es, ending) ∧ s.readFiltered {} = (es, ending)

theorem LogReader.Yields.gives {s : LogSource} {es : List Event} {ending : Failure} (h : Yields (.start s {}) es ending)
    (hsettled : ending.settled = ending) : s.Gives es ending := by
  have hfiltered := LogSource.readFiltered_of_yields h {}
  rw [List.filter_eq_self.2 fun e _ => Filter.accepts_empty e, hsettled] at hfiltered
  exact ⟨LogSource.read_of_yields h, hfiltered⟩

namespace Event

open LogReader

/-- The place in a log after its first events. -/
def boundary (es : List Event) (k : Nat) : Nat := (encodeAll (es.take k)).length

/-- The failure of a log that was cut inside the event after the first ones. -/
def tear (k : Nat) : Failure := .within s!"event {k + 1}" (.data (.item .truncated))

theorem encodeAll_append (es es' : List Event) : encodeAll (es ++ es') = encodeAll es ++ encodeAll es' := List.flatMap_append

theorem boundary_succ {es : List Event} {k : Nat} (h : k < es.length) : boundary es (k + 1) = boundary es k + es[k].encode.length := by
  unfold boundary
  rw [List.take_succ_eq_append_getElem h, encodeAll_append, List.length_append]
  simp [encodeAll]

theorem boundary_length (es : List Event) : boundary es es.length = (encodeAll es).length := by
  rw [boundary, List.take_length]

/-- The bytes of a log around one of its events. -/
theorem encodeAll_around {es : List Event} {k : Nat} (h : k < es.length) :
    encodeAll es = encodeAll (es.take k) ++ (es[k].encode ++ encodeAll (es.drop (k + 1))) := by
  conv_lhs => rw [← List.take_append_drop k es, List.drop_eq_getElem_cons h, encodeAll_append]
  exact congrArg (encodeAll (es.take k) ++ ·) List.flatMap_cons

/-- Every place in a log is after an event or inside one. -/
theorem boundary_cases {es : List Event} {n : Nat} (h : n ≤ (encodeAll es).length) :
    (∃ k ≤ es.length, n = boundary es k) ∨ ∃ k < es.length, boundary es k < n ∧ n < boundary es (k + 1) := by
  classical
  have hle : Nat.findGreatest (fun k => boundary es k ≤ n) es.length ≤ es.length := Nat.findGreatest_le _
  have hbefore : boundary es (Nat.findGreatest (fun k => boundary es k ≤ n) es.length) ≤ n :=
    Nat.findGreatest_spec (P := fun k => boundary es k ≤ n) (Nat.zero_le es.length) (Nat.zero_le n)
  rcases Nat.eq_or_lt_of_le hbefore with heq | hlt
  · exact Or.inl ⟨_, hle, heq.symm⟩
  · rcases Nat.eq_or_lt_of_le hle with hlast | hinside
    · rw [hlast, boundary_length] at hlt
      exact absurd h (Nat.not_le.2 hlt)
    · have hafter := Nat.findGreatest_is_greatest (P := fun k => boundary es k ≤ n) (Nat.lt_succ_self _) hinside
      exact Or.inr ⟨_, hinside, hlt, Nat.not_le.1 hafter⟩

/-- A log that was cut after an event. -/
theorem gives_of_boundary {es : List Event} (h : ∀ e ∈ es, e.Loggable) (k : Nat) :
    LogSource.Gives ⟨(encodeAll es).take (boundary es k), none⟩ ((es.take k).map readBack) .endOfStream := by
  have hbytes : (encodeAll es).take (boundary es k) = encodeAll (es.take k) := by
    conv_lhs => rw [← List.take_append_drop k es, encodeAll_append]
    exact List.take_left' (by rw [boundary, List.take_append_drop])
  rw [hbytes]
  exact (yields_encodeAll fun e he => h e (List.mem_of_mem_take he)).gives rfl

/-- A log that was cut inside an event. -/
theorem gives_of_tear {es : List Event} (h : ∀ e ∈ es, e.Loggable) {k n : Nat} (hk : k < es.length) (hlow : boundary es k < n)
    (hhigh : n < boundary es (k + 1)) : LogSource.Gives ⟨(encodeAll es).take n, none⟩ ((es.take k).map readBack) (tear k) := by
  obtain ⟨m, rfl⟩ := Nat.exists_eq_add_of_le (Nat.le_of_lt hlow)
  rw [boundary_succ hk] at hhigh
  have hbytes : (encodeAll es).take (boundary es k + m) = encodeAll (es.take k) ++ es[k].encode.take m := by
    rw [encodeAll_around hk, boundary, List.take_length_add_append, List.take_append_of_le_length (by omega)]
  have hfront : es[k].encode.take m ≠ [] := by
    rw [← List.length_pos_iff, List.length_take]
    omega
  have hback : es[k].encode.drop m ≠ [] := by
    rw [← List.length_pos_iff, List.length_drop]
    omega
  rw [hbytes]
  have htear := Yields.at_tear (r := { start ⟨encodeAll (es.take k) ++ es[k].encode.take m, none⟩ {} with
    unread := es[k].encode.take m, count := 0 + (es.take k).length }) (h _ (List.getElem_mem hk)).toRepresentable
    (List.take_append_drop m _).symm hfront hback rfl
  have hyields := Yields.after_encodeAll (r := .start ⟨encodeAll (es.take k) ++ es[k].encode.take m, none⟩ {})
    (fun e he => h e (List.mem_of_mem_take he)) rfl htear
  rw [List.append_nil] at hyields
  simp only [Nat.zero_add, List.length_take, Nat.min_eq_left (Nat.le_of_lt hk)] at hyields
  exact hyields.gives rfl

/-- A log that lost its end loses nothing before the cut, and the cut is never taken for a clean end. If the cut is just after an event,
the events up to there are read and the stream ends; if it is inside an event, those before that one are read, and then comes a failure
that names it and is no end of a stream. There is no other place for a cut. -/
theorem torn_log {es : List Event} (h : ∀ e ∈ es, e.Loggable) {n : Nat} (hn : n ≤ (encodeAll es).length) :
    ((∃ k ≤ es.length, n = boundary es k) ∨ ∃ k < es.length, boundary es k < n ∧ n < boundary es (k + 1)) ∧
    (∀ k ≤ es.length, n = boundary es k →
      LogSource.Gives ⟨(encodeAll es).take n, none⟩ ((es.take k).map readBack) .endOfStream) ∧
    (∀ k < es.length, boundary es k < n → n < boundary es (k + 1) →
      LogSource.Gives ⟨(encodeAll es).take n, none⟩ ((es.take k).map readBack) (tear k) ∧ (tear k).isEnd = false) ∧
    ∀ e ∈ es, Same e e.readBack := by
  refine ⟨boundary_cases hn, ?_, ?_, fun e _ => e.same_readBack⟩
  · rintro k - rfl
    exact gives_of_boundary h k
  · intro k hk hlow hhigh
    exact ⟨gives_of_tear h hk hlow hhigh, rfl⟩

/-- Of two events, the second one cut after five bytes. -/
theorem lateOverflow_is_torn :
    LogSource.Gives ⟨(encodeAll [lateOverflow, lateOverflow]).take (lateOverflow.encode.length + 5), none⟩ [lateOverflow] (tear 1) := by
  have hall : ∀ e ∈ [lateOverflow, lateOverflow], e.Loggable :=
    List.forall_mem_cons.2 ⟨loggable_lateOverflow, List.forall_mem_singleton.2 loggable_lateOverflow⟩
  have hplace : lateOverflow.encode.length + 5 ≤ (encodeAll [lateOverflow, lateOverflow]).length := by decide +kernel
  exact ((torn_log hall hplace).2.2.1 1 (by decide) (by decide +kernel) (by decide +kernel)).1

/-- The event that was logged 25 hours east is not given back by a log that was cut just after it. -/
theorem farEast_is_lost : farEast.Ordinary ∧
    ∃ f, LogSource.read ⟨(encodeAll [farEast]).take (boundary [farEast] 1), none⟩ = ([], .within s!"event {1}" f) := by
  obtain ⟨f, -, hread⟩ := read_farEast
  have hbytes : (encodeAll [farEast]).take (boundary [farEast] 1) = farEast.encode := by
    rw [show boundary [farEast] 1 = (encodeAll [farEast]).length from boundary_length [farEast], List.take_length]
    exact List.append_nil _
  exact ⟨ordinary_farEast, f, by rw [hbytes, hread]⟩

end Event

end SensorWire
