import Mathlib
import SensorWire.Event.Codec
import SensorWire.Proofs.Item
import SensorWire.Proofs.TimeText

/-!
# Events written and read back

An event is written as a map with numbered members, and reading such a map is storing its members one after the other
(`readMembers_eq_ok_iff`). An event that can be logged (`Loggable`) comes back as it was, but for the offset of a time that is none
(`readBack`). An event with an operation or category that is not known is written too, and whatever else it holds, reading it fails.

Main statements: `Loggable.ofItemKnown`, `ofItemKnown_of_strange`.
-/

namespace SensorWire

/-! ## Numbers of operations and categories -/

theorem Operation.number_ofNumber (n : UInt8) : (Operation.ofNumber n).number = n := by
  unfold Operation.ofNumber
  split <;> rfl

theorem Category.number_ofNumber (n : UInt8) : (Category.ofNumber n).number = n := by
  unfold Category.ofNumber
  split <;> rfl

theorem Operation.ofNumber_number {o : Operation} (h : o ∈ Operation.known) : Operation.ofNumber o.number = o := by
  revert o
  decide

theorem Category.ofNumber_number {c : Category} (h : c ∈ Category.known) : Category.ofNumber c.number = c := by
  revert c
  decide

theorem Text.eq_empty_of_isEmpty {t : Text} (h : t.isEmpty = true) : t = ("" : String) := by
  obtain ⟨bytes⟩ := t
  have hbytes : bytes = [] := List.isEmpty_iff.1 h
  subst hbytes
  rfl

namespace Event

open Cbor

/-! ## Maps with numbered members -/

section Numbered

variable {α : Type} {count index : Nat} {store : Nat → Item → α → Except DataFault α}

/-- Members with their numbers, as the pairs of a map. -/
def numbered (ms : List (Nat × Item)) : List (Item × Item) := ms.map fun m => (.ofNat m.1, m.2)

/-- Stores members one after the other. -/
def storeAll (store : Nat → Item → α → Except DataFault α) (a : α) (ms : List (Nat × Item)) : Except DataFault α :=
  ms.foldlM (fun a m => store m.1 m.2 a) a

theorem storeAll_append_iff {a c : α} {ms ns : List (Nat × Item)} :
    storeAll store a (ms ++ ns) = .ok c ↔ ∃ b, storeAll store a ms = .ok b ∧ storeAll store b ns = .ok c := by
  unfold storeAll
  rw [List.foldlM_append, bind_eq_ok_iff]

theorem storeAll_append {a b c : α} {ms ns : List (Nat × Item)} (h : storeAll store a ms = .ok b) (h' : storeAll store b ns = .ok c) :
    storeAll store a (ms ++ ns) = .ok c :=
  storeAll_append_iff.2 ⟨b, h, h'⟩

/-- What no member touches is left as it was. -/
theorem storeAll_keeps {β : Type} {f : α → β} {ms : List (Nat × Item)}
    (hkeeps : ∀ m ∈ ms, ∀ a b, store m.1 m.2 a = .ok b → f b = f a) {a b : α} (h : storeAll store a ms = .ok b) : f b = f a := by
  induction ms generalizing a with
  | nil =>
    cases h
    rfl
  | cons m ms ih =>
    rw [List.forall_mem_cons] at hkeeps
    obtain ⟨c, hc, hb⟩ := storeAll_append_iff.1 (show storeAll store a ([m] ++ ms) = .ok b from h)
    exact (ih hkeeps.2 hb).trans (hkeeps.1 a c ((bind_pure _).symm.trans hc))

/-- What only one member sets is as that member sets it. -/
theorem storeAll_sets {β : Type} (f : α → β) {x : β} {key : Nat} {i : Item} {ms : List (Nat × Item)} (hmem : (key, i) ∈ ms)
    (hnodup : (ms.map Prod.fst).Nodup) (hset : ∀ a b, store key i a = .ok b → f b = x)
    (hkeeps : ∀ index v, index ≠ key → ∀ a b, store index v a = .ok b → f b = f a) {a b : α} (h : storeAll store a ms = .ok b) :
    f b = x := by
  obtain ⟨front, back, rfl⟩ := List.append_of_mem hmem
  rw [List.map_append, List.map_cons, List.nodup_middle, List.nodup_cons, ← List.map_append] at hnodup
  obtain ⟨c, -, hrest⟩ := storeAll_append_iff.1 h
  obtain ⟨d, hd, hb⟩ := storeAll_append_iff.1 (show storeAll store c ([(key, i)] ++ back) = .ok b from hrest)
  have hback : ∀ m ∈ back, ∀ a b, store m.1 m.2 a = .ok b → f b = f a := by
    intro m hm
    refine hkeeps m.1 m.2 ?_
    rintro rfl
    exact hnodup.1 (List.mem_map.2 ⟨m, List.mem_append_right _ hm, rfl⟩)
  exact (storeAll_keeps hback hb).trans (hset c d ((bind_pure _).symm.trans hd))

theorem memberKey_ofNat {n : Nat} (h : 1 ≤ n ∧ n ≤ count) : memberKey count (.ofNat n) = .ok (some (.known n (.ofNat n)), none) :=
  if_pos h

theorem Members.fault_blame (s : Members α) (f : DataFault) : (s.blame f).fault ≠ none := by
  unfold Members.blame
  cases s.fault <;> simp

theorem Members.fault_noted {s : Members α} (h : s.fault ≠ none) (fault : Option DataFault) :
    (match fault with
      | some f => s.blame f
      | none => s).fault ≠ none := by
  cases fault with
  | none => exact h
  | some f => exact s.fault_blame f

/-- Once there is a fault, the reading of a map fails. -/
theorem readMembers_ne_ok {s : Members α} (h : s.fault ≠ none) (pairs : List (Item × Item)) (b : α) :
    readMembers count store index s pairs ≠ .ok b := by
  fun_induction readMembers count store index s pairs
  case case1 | case5 | case8 => simp
  case case2 hnone => exact absurd hnone h
  case case3 ih | case7 ih => exact ih (Members.fault_blame _ _)
  case case4 ih | case6 ih | case9 ih => exact ih (Members.fault_noted h _)

/-- Reading a map whose keys are different numbers of members is storing the members. -/
theorem readMembers_eq_ok_iff {s : Members α} {ms : List (Nat × Item)} (hkeys : ∀ m ∈ ms, 1 ≤ m.1 ∧ m.1 ≤ count)
    (hnodup : (ms.map Prod.fst).Nodup) (hnew : ∀ m ∈ ms, m.1 ∉ s.known) (hfault : s.fault = none) {b : α} :
    readMembers count store index s (numbered ms) = .ok b ↔ storeAll store s.value ms = .ok b := by
  induction ms generalizing s index with
  | nil =>
    simp only [numbered, List.map_nil, readMembers, hfault]
    rfl
  | cons m ms ih =>
    obtain ⟨key, i⟩ := m
    rw [List.forall_mem_cons] at hkeys hnew
    rw [List.map_cons, List.nodup_cons] at hnodup
    have hcontains : s.known.contains key = false := by simpa using hnew.1
    have hnew' : ∀ m ∈ ms, m.1 ∉ key :: s.known := by
      intro m hm hmem
      rcases List.mem_cons.1 hmem with hkey | hmem
      · exact hnodup.1 (List.mem_map.2 ⟨m, hm, hkey⟩)
      · exact hnew.2 m hm hmem
    simp only [numbered, List.map_cons, readMembers, memberKey_ofNat hkeys.1, hcontains, Bool.false_eq_true, if_false]
    unfold storeAll
    rw [List.foldlM_cons]
    cases hstore : store key i s.value with
    | error f =>
      refine iff_of_false (readMembers_ne_ok (by simp [Members.blame]) _ b) ?_
      intro h
      cases h
    | ok a => exact ih hkeys.2 hnodup.2 hnew' hfault

/-- A member with its number, left out if it is empty. -/
def kept (key : Nat) (keep : Bool) (i : Item) : List (Nat × Item) := if keep then [(key, i)] else []

theorem member_eq_numbered (key : Nat) (keep : Bool) (i : Item) : member key keep i = numbered (kept key keep i) := by
  cases keep <;> rfl

theorem map_fst_kept (key : Nat) (keep : Bool) (i : Item) : ((kept key keep i).map Prod.fst).Sublist [key] := by
  cases keep with
  | false => exact List.nil_sublist _
  | true => exact List.Sublist.refl _

/-- A member is stored, or what it would store is there already. -/
theorem storeAll_kept {key : Nat} {keep : Bool} {i : Item} {a b : α} (h : store key i a = .ok b) (hempty : keep = false → b = a) :
    storeAll store a (kept key keep i) = .ok b := by
  cases keep with
  | false => exact congrArg Except.ok (hempty rfl).symm
  | true => exact (bind_pure _).trans h

theorem storeAll_always {key : Nat} {i : Item} {a b : α} (h : store key i a = .ok b) : storeAll store a (kept key true i) = .ok b := by
  refine storeAll_kept h ?_
  intro hkeep
  cases hkeep

theorem storeAll_text {key : Nat} {t : Text} {a b : α} (h : store key (.ofText t) a = .ok b) (hempty : t = ("" : String) → b = a) :
    storeAll store a (kept key (!t.isEmpty) (.ofText t)) = .ok b := by
  refine storeAll_kept h ?_
  intro hkeep
  exact hempty (Text.eq_empty_of_isEmpty (by simpa using hkeep))

theorem storeAll_count {key : Nat} {n : Int} {a b : α} (h : store key (.ofInt n) a = .ok b) (hempty : n = 0 → b = a) :
    storeAll store a (kept key (n != 0) (.ofInt n)) = .ok b := by
  refine storeAll_kept h ?_
  intro hkeep
  exact hempty (bne_eq_false_iff_eq.1 hkeep)

end Numbered

/-! ## The members of an event -/

/-- The members of an error that are written. -/
def errorMembers (r : ErrorReport) : List (Nat × Item) :=
  kept 1 true (.ofText r.kind) ++ kept 2 true (.ofText r.message) ++ kept 3 (!r.context.isEmpty) (.ofText r.context)

/-- The item of a time: no value for none, and else its text. -/
def timeItem (t : Timestamp) : Item := if t.isZero then .null else .ofText t.render

/-- The members of an event that are written, but for its error. -/
def plainMembers (e : Event) : List (Nat × Item) :=
  kept 1 true (timeItem e.time) ++ kept 2 (!e.session.isEmpty) (.ofText e.session) ++
    kept 3 true (.ofNat e.operation.number.toNat) ++ kept 4 true (.ofNat e.category.number.toNat) ++
    kept 5 (!e.schema.isEmpty) (.ofText e.schema) ++ kept 6 (!e.key.isEmpty) (.ofText e.key) ++
    kept 7 (e.size != 0) (.ofInt e.size) ++ kept 8 (e.extra != 0) (.ofInt e.extra)

/-- The members of an event that are written. -/
def members (e : Event) : List (Nat × Item) :=
  e.plainMembers ++
    match e.error with
    | some r => kept 9 true (.ofPairs (numbered (errorMembers r)))
    | none => []

theorem numbered_append (ms ns : List (Nat × Item)) : numbered (ms ++ ns) = numbered ms ++ numbered ns := List.map_append

theorem errorItem_eq (r : ErrorReport) : errorItem r = .ofPairs (numbered (errorMembers r)) := by
  simp only [errorItem, errorMembers, textMember, member_eq_numbered, numbered_append]

theorem toItem_eq (e : Event) : e.toItem = .ofPairs (numbered e.members) := by
  unfold toItem members plainMembers
  cases e.error with
  | none =>
    simp only [textMember, member_eq_numbered, numbered_append, timeItem]
    rfl
  | some r => simp only [textMember, member_eq_numbered, numbered_append, errorItem_eq, timeItem]

theorem errorMembers_keys (r : ErrorReport) : ((errorMembers r).map Prod.fst).Sublist (List.range' 1 3) := by
  simp only [errorMembers, List.map_append]
  exact ((map_fst_kept ..).append (map_fst_kept ..)).append (map_fst_kept ..)

theorem members_keys (e : Event) : (e.members.map Prod.fst).Sublist (List.range' 1 9) := by
  unfold members plainMembers
  simp only [List.map_append]
  refine ((((((((map_fst_kept ..).append (map_fst_kept ..)).append (map_fst_kept ..)).append (map_fst_kept ..)).append
    (map_fst_kept ..)).append (map_fst_kept ..)).append (map_fst_kept ..)).append (map_fst_kept ..)).append (?_ : List.Sublist _ [9])
  cases e.error with
  | none => exact List.nil_sublist _
  | some r => exact map_fst_kept ..

/-- Reading members whose numbers are some of the first ones is storing them. -/
theorem readMap_ofPairs_iff {α : Type} {type : String} {count : Nat} {store : Nat → Item → α → Except DataFault α} {a b : α}
    {ms : List (Nat × Item)} (h : (ms.map Prod.fst).Sublist (List.range' 1 count)) :
    readMap type count store a (.ofPairs (numbered ms)) = .ok b ↔ storeAll store a ms = .ok b := by
  refine readMembers_eq_ok_iff (fun m hm => ?_) (h.nodup List.nodup_range') (fun _ _ => List.not_mem_nil) rfl
  have hkey := List.mem_range'_1.1 (h.subset (List.mem_map_of_mem hm))
  omega

theorem storeNamed_eq_ok_iff {index : Nat} {i : Item} {e e' : Event} : storeNamed index i e = .ok e' ↔ store index i e = .ok e' := by
  unfold storeNamed
  cases store index i e with
  | error f => exact iff_of_false (fun h => by cases h) (fun h => by cases h)
  | ok e => exact Iff.rfl

/-- An event is read from its item by storing its members. -/
theorem ofItem_eq_ok_iff {e e' : Event} : ofItem e.toItem = .ok e' ↔ storeAll storeNamed {} e.members = .ok e' := by
  rw [toItem_eq]
  exact readMap_ofPairs_iff e.members_keys

/-! ## What an event can hold -/

/-- The texts of an event. -/
def texts (e : Event) : List Text :=
  [e.session, e.schema, e.key] ++
    match e.error with
    | some r => [r.kind, r.message, r.context]
    | none => []

/-- A signed number of 64 bits. -/
def Fits64 (n : Int) : Prop := -2 ^ 63 ≤ n ∧ n < 2 ^ 63

/-- An event whose parts have the sizes that parts of events have at all: texts that fit into an address space, counts of 64 bits, a
fraction below a second and an offset of 64 bits. -/
structure Representable (e : Event) : Prop where
  nanos : e.time.nanos < 10 ^ 9
  offset : e.time.offset.natAbs < 2 ^ 63
  texts : ∀ t ∈ e.texts, t.length < 2 ^ 63
  size : Fits64 e.size
  extra : Fits64 e.extra

/-- An event whose parts are all read back from what is written for them: its texts are well formed, and its time is none or has an
internet form with an offset below 25 hours. -/
structure Legible (e : Event) : Prop extends Representable e where
  utf8 : ∀ t ∈ e.texts, IsUtf8 t.bytes
  time : e.time.isZero = true ∨ (e.time.Civil ∧ e.time.offset.natAbs < 90000)

/-- An event that a log gives back: it is legible, and its operation and category are known. -/
structure Loggable (e : Event) : Prop extends Legible e where
  operation : e.operation ∈ Operation.known
  category : e.category ∈ Category.known

/-- An event with a known operation and category, with texts that are well formed, and with a time that has an internet form, at whatever
offset. -/
structure Ordinary (e : Event) : Prop extends Representable e where
  operation : e.operation ∈ Operation.known
  category : e.category ∈ Category.known
  utf8 : ∀ t ∈ e.texts, IsUtf8 t.bytes
  civil : e.time.Civil

theorem Ordinary.loggable {e : Event} (h : e.Ordinary) (hoffset : e.time.offset.natAbs < 90000) : e.Loggable :=
  { h with time := .inr ⟨h.civil, hoffset⟩ }

/-- What a log gives back for an event: the event itself, but a time that is none has no offset either. -/
def readBack (e : Event) : Event := { e with time := if e.time.isZero then {} else e.time }

theorem readBack_of_isZero {e : Event} (h : e.time.isZero = true) : e.readBack = { e with time := {} } := by
  rw [readBack, if_pos h]

theorem readBack_of_not_isZero {e : Event} (h : ¬e.time.isZero = true) : e.readBack = e := by
  rw [readBack, if_neg h]

/-- An event and what a log gives back for it are of the same instant. -/
theorem instant_readBack (e : Event) : e.readBack.time.seconds = e.time.seconds ∧ e.readBack.time.nanos = e.time.nanos := by
  by_cases hzero : e.time.isZero = true
  · rw [readBack_of_isZero hzero]
    simp only [Timestamp.isZero, Bool.and_eq_true, beq_iff_eq] at hzero
    exact ⟨hzero.1.symm, hzero.2.symm⟩
  · rw [readBack_of_not_isZero hzero]
    exact ⟨rfl, rfl⟩

/-! ## Items of events are well formed -/

theorem within_ofNat {n : Nat} (h : n < 2 ^ 64) (lim : Limits) (depth : Nat) : (Item.ofNat n).Within lim depth false :=
  Width.holds_shortest h

theorem within_ofInt {n : Int} (h : Fits64 n) (lim : Limits) (depth : Nat) : (Item.ofInt n).Within lim depth false := by
  obtain ⟨hlow, hhigh⟩ := h
  unfold Item.ofInt
  split
  · exact within_ofNat (by omega) lim depth
  · exact Width.holds_shortest (by omega)

theorem within_ofText {t : Text} (h : t.length < 2 ^ 63) (lim : Limits) (depth : Nat) : (Item.ofText t).Within lim depth false :=
  ⟨Width.holds_shortest (Nat.lt_trans h (by decide)), h⟩

/-- A map with few members is well formed if what its members hold is. -/
theorem within_ofPairs {ms : List (Nat × Item)} {bound : Nat} (hkeys : (ms.map Prod.fst).Sublist (List.range' 1 bound))
    (hbound : bound ≤ 131072) {depth : Nat} (hdepth : depth < 4) (h : ∀ m ∈ ms, m.2.Within limits (depth + 1) false) :
    (Item.ofPairs (numbered ms)).Within limits depth false := by
  have hlength : ms.length ≤ bound := by simpa using hkeys.length_le
  have hcount : (numbered ms).length ≤ bound := by rwa [numbered, List.length_map]
  refine ⟨Width.holds_shortest (by omega), hdepth, by omega, Nat.le_trans hcount hbound, ?_⟩
  rw [Item.pairsWithin_iff]
  intro p hp
  obtain ⟨m, hm, rfl⟩ := List.mem_map.1 hp
  have hkey := List.mem_range'_1.1 (hkeys.subset (List.mem_map_of_mem hm))
  exact ⟨within_ofNat (by omega) limits _, h m hm⟩

theorem eq_of_mem_kept {key : Nat} {keep : Bool} {i : Item} {m : Nat × Item} (h : m ∈ kept key keep i) : m = (key, i) := by
  cases keep with
  | false => cases h
  | true => exact List.mem_singleton.1 h

theorem within_errorItem {r : ErrorReport} (h : ∀ t ∈ [r.kind, r.message, r.context], t.length < 2 ^ 63) :
    (Item.ofPairs (numbered (errorMembers r))).Within limits 1 false := by
  simp only [List.forall_mem_cons] at h
  refine within_ofPairs (errorMembers_keys r) (by decide) (by decide) fun m hm => ?_
  simp only [errorMembers, List.mem_append] at hm
  rcases hm with (hm | hm) | hm
  all_goals rw [eq_of_mem_kept hm]
  · exact within_ofText h.1 limits 2
  · exact within_ofText h.2.1 limits 2
  · exact within_ofText h.2.2.1 limits 2

theorem within_timeItem {t : Timestamp} (hnanos : t.nanos < 10 ^ 9) (hoffset : t.offset.natAbs < 2 ^ 63) :
    (timeItem t).Within limits 1 false := by
  unfold timeItem
  split
  · exact Or.inl (by decide)
  · exact within_ofText (Nat.lt_of_le_of_lt (Timestamp.length_render_le hnanos hoffset) (by decide)) limits 1

theorem Representable.within_members {e : Event} (h : e.Representable) : ∀ m ∈ e.members, m.2.Within limits 1 false := by
  intro m hm
  have htexts := h.texts
  simp only [Event.texts, List.forall_mem_append, List.forall_mem_cons] at htexts
  obtain ⟨⟨hsession, hschema, hkey, -⟩, herror⟩ := htexts
  unfold members plainMembers at hm
  simp only [List.mem_append] at hm
  rcases hm with (((((((hm | hm) | hm) | hm) | hm) | hm) | hm) | hm) | hm
  on_goal 9 =>
    cases hreport : e.error with
    | none =>
      rw [hreport] at hm
      cases hm
    | some r =>
      rw [hreport] at hm herror
      rw [eq_of_mem_kept hm]
      exact within_errorItem herror
  all_goals rw [eq_of_mem_kept hm]
  · exact within_timeItem h.nanos h.offset
  · exact within_ofText hsession limits 1
  · exact within_ofNat (Nat.lt_trans e.operation.number.toNat_lt (by decide)) limits 1
  · exact within_ofNat (Nat.lt_trans e.category.number.toNat_lt (by decide)) limits 1
  · exact within_ofText hschema limits 1
  · exact within_ofText hkey limits 1
  · exact within_ofInt h.size limits 1
  · exact within_ofInt h.extra limits 1

/-- The item of an event is one that a reader of events accepts. -/
theorem Representable.within {e : Event} (h : e.Representable) : e.toItem.Within limits 0 false := by
  rw [toItem_eq]
  exact within_ofPairs e.members_keys (by decide) (by decide) h.within_members

/-! ## Members read back -/

theorem toText_ofText {t : Text} (h : IsUtf8 t.bytes) (before : Text) : toText before (.ofText t) = .ok t := by
  have htext : Item.text (.ofText t) = .ok t := if_pos h
  change (Item.ofText t).text.mapError DataFault.item = _
  rw [htext]
  rfl

theorem readInt_ofNat {n : Nat} {low high : Int} (hlow : low ≤ n) (hhigh : n ≤ high) (type : String) (before : Int) :
    readInt type low high before (.ofNat n) = .ok (n : Int) :=
  if_neg (by omega)

theorem readInt_ofInt {n low high : Int} (hlow : low ≤ n) (hhigh : n ≤ high) (type : String) (before : Int) :
    readInt type low high before (.ofInt n) = .ok n := by
  unfold Item.ofInt
  split
  · rw [readInt_ofNat (by omega) (by omega)]
    congr 1
    omega
  · have hnumber : (-1 - ((-1 - n).toNat : Int)) = n := by omega
    exact (if_neg (by omega)).trans (congrArg Except.ok hnumber)

theorem toTime_ofText {text : Text} {t : Timestamp} (h : IsUtf8 text.bytes) (hparse : Timestamp.parse text = .ok t) :
    (Item.ofText text).toTime = .ok (some t) := by
  have htext : Item.text (.ofText text) = .ok text := if_pos h
  unfold Item.ofText at htext ⊢
  simp only [Item.toTime, Item.untagged, Item.isNil, Item.major, StringKind.major, Bool.false_eq_true, if_false, if_true, htext, hparse]

theorem readTime_timeItem {t : Timestamp} (h : t.isZero = true ∨ (t.Civil ∧ t.offset.natAbs < 90000)) :
    readTime {} (timeItem t) = .ok (if t.isZero then {} else t) := by
  unfold timeItem
  split
  · rfl
  · rename_i hzero
    obtain ⟨hcivil, hoffset⟩ := h.resolve_left hzero
    have htime := toTime_ofText t.isUtf8_render (Timestamp.parse_render hcivil hoffset)
    generalize t.render = text at htime
    change (do return (← (Item.ofText text).toTime).getD {}) = _
    rw [htime]
    rfl

theorem storeAll_errorMembers {r : ErrorReport} (h : ∀ t ∈ [r.kind, r.message, r.context], IsUtf8 t.bytes) :
    storeAll storeError {} (errorMembers r) = .ok r := by
  simp only [List.forall_mem_cons] at h
  have hkind : storeError 1 (.ofText r.kind) {} = .ok { kind := r.kind } := by
    simp only [storeError, toText_ofText h.1]
    rfl
  have hmessage : storeError 2 (.ofText r.message) { kind := r.kind } = .ok { kind := r.kind, message := r.message } := by
    simp only [storeError, toText_ofText h.2.1]
    rfl
  have hcontext : storeError 3 (.ofText r.context) { kind := r.kind, message := r.message } = .ok r := by
    simp only [storeError, toText_ofText h.2.2.1]
    rfl
  refine storeAll_append (storeAll_append (storeAll_always hkind) (storeAll_always hmessage)) (storeAll_text hcontext ?_)
  intro hempty
  rw [← hempty]

/-! ## Each member stored -/

section Stored

variable {t : Text} {n : Int}

theorem storeNamed_time {time : Timestamp} (h : time.isZero = true ∨ (time.Civil ∧ time.offset.natAbs < 90000)) :
    storeNamed 1 (timeItem time) {} = .ok { time := if time.isZero then {} else time } := by
  rw [storeNamed_eq_ok_iff, store, readTime_timeItem h]
  rfl

theorem storeNamed_session (h : IsUtf8 t.bytes) (e : Event) : storeNamed 2 (.ofText t) e = .ok { e with session := t } := by
  rw [storeNamed_eq_ok_iff, store, toText_ofText h]
  rfl

/-- The number of an operation or category is read as it is. -/
theorem readInt_number (n : UInt8) (type : String) (before : Int) : readInt type 0 255 before (.ofNat n.toNat) = .ok (n.toNat : Int) := by
  have hbound := n.toNat_lt
  exact readInt_ofNat (by omega) (by omega) type before

theorem ofNat_toNat_number (n : UInt8) : UInt8.ofNat ((n.toNat : Int).toNat) = n := by
  rw [Int.toNat_natCast, UInt8.ofNat_toNat]

theorem storeNamed_operation (n : UInt8) (e : Event) : storeNamed 3 (.ofNat n.toNat) e = .ok { e with operation := .ofNumber n } := by
  rw [storeNamed_eq_ok_iff, store, readInt_number]
  change Except.ok { e with operation := .ofNumber (UInt8.ofNat ((n.toNat : Int).toNat)) } = _
  rw [ofNat_toNat_number]

theorem storeNamed_category (n : UInt8) (e : Event) : storeNamed 4 (.ofNat n.toNat) e = .ok { e with category := .ofNumber n } := by
  rw [storeNamed_eq_ok_iff, store, readInt_number]
  change Except.ok { e with category := .ofNumber (UInt8.ofNat ((n.toNat : Int).toNat)) } = _
  rw [ofNat_toNat_number]

theorem storeNamed_schema (h : IsUtf8 t.bytes) (e : Event) : storeNamed 5 (.ofText t) e = .ok { e with schema := t } := by
  rw [storeNamed_eq_ok_iff, store, toText_ofText h]
  rfl

theorem storeNamed_key (h : IsUtf8 t.bytes) (e : Event) : storeNamed 6 (.ofText t) e = .ok { e with key := t } := by
  rw [storeNamed_eq_ok_iff, store, toText_ofText h]
  rfl

theorem readInt_fits64 (h : Fits64 n) (before : Int) :
    readInt "int" (-0x8000000000000000) (0x8000000000000000 - 1) before (.ofInt n) = .ok n := by
  obtain ⟨hlow, hhigh⟩ := h
  exact readInt_ofInt (by omega) (by omega) "int" before

theorem storeNamed_size (h : Fits64 n) (e : Event) : storeNamed 7 (.ofInt n) e = .ok { e with size := n } := by
  rw [storeNamed_eq_ok_iff, store, readInt_fits64 h]
  rfl

theorem storeNamed_extra (h : Fits64 n) (e : Event) : storeNamed 8 (.ofInt n) e = .ok { e with extra := n } := by
  rw [storeNamed_eq_ok_iff, store, readInt_fits64 h]
  rfl

theorem storeNamed_error {r : ErrorReport} (h : ∀ t ∈ [r.kind, r.message, r.context], IsUtf8 t.bytes) {e : Event}
    (hnone : e.error = none) : storeNamed 9 (.ofPairs (numbered (errorMembers r))) e = .ok { e with error := some r } := by
  have hread : readMap "log.ErrorEventData" 3 storeError {} (.ofPairs (numbered (errorMembers r))) = .ok r :=
    (readMap_ofPairs_iff (errorMembers_keys r)).2 (storeAll_errorMembers h)
  rw [storeNamed_eq_ok_iff]
  change (do return { e with error := some (← readMap "log.ErrorEventData" 3 storeError (e.error.getD {}) _) }) = _
  rw [hnone, Option.getD_none, hread]
  rfl

end Stored

/-- What is read for an event: the event, with its operation and category as their numbers tell them. -/
def numbersBack (e : Event) : Event :=
  { e.readBack with operation := .ofNumber e.operation.number, category := .ofNumber e.category.number }

theorem Legible.storeAll_plainMembers {e : Event} (h : e.Legible) :
    storeAll storeNamed {} e.plainMembers = .ok { e.numbersBack with error := none } := by
  have hutf8 := h.utf8
  simp only [Event.texts, List.forall_mem_append, List.forall_mem_cons] at hutf8
  obtain ⟨⟨hsession, hschema, hkey, -⟩, -⟩ := hutf8
  -- the projections are reduced after each member, or the states would nest
  have hstate := storeAll_always (storeNamed_time h.time)
  replace hstate := storeAll_append hstate (storeAll_text (storeNamed_session hsession _) (by intro hempty; rw [hempty]))
  replace hstate := storeAll_append hstate (storeAll_always (storeNamed_operation e.operation.number _))
  replace hstate := storeAll_append hstate (storeAll_always (storeNamed_category e.category.number _))
  dsimp only at hstate
  replace hstate := storeAll_append hstate (storeAll_text (storeNamed_schema hschema _) (by intro hempty; rw [hempty]))
  replace hstate := storeAll_append hstate (storeAll_text (storeNamed_key hkey _) (by intro hempty; rw [hempty]))
  dsimp only at hstate
  replace hstate := storeAll_append hstate (storeAll_count (storeNamed_size h.size _) (by intro hempty; rw [hempty]))
  replace hstate := storeAll_append hstate (storeAll_count (storeNamed_extra h.extra _) (by intro hempty; rw [hempty]))
  exact hstate

/-- The members of a legible event make the event again. -/
theorem Legible.storeAll_members {e : Event} (h : e.Legible) : storeAll storeNamed {} e.members = .ok e.numbersBack := by
  have hplain := h.storeAll_plainMembers
  have hutf8 := h.utf8
  simp only [Event.texts, List.forall_mem_append] at hutf8
  unfold members
  cases hreport : e.error with
  | none =>
    have hback : { e.numbersBack with error := none } = e.numbersBack := by simp only [numbersBack, readBack, hreport]
    rw [hback] at hplain
    exact storeAll_append hplain rfl
  | some r =>
    have hback : { e.numbersBack with error := some r } = e.numbersBack := by simp only [numbersBack, readBack, hreport]
    rw [hreport] at hutf8
    have herror := storeNamed_error hutf8.2 (show { e.numbersBack with error := none }.error = none from rfl)
    rw [hback] at herror
    exact storeAll_append hplain (storeAll_always herror)

theorem Legible.ofItem {e : Event} (h : e.Legible) : Event.ofItem e.toItem = .ok e.numbersBack :=
  ofItem_eq_ok_iff.2 h.storeAll_members

theorem Loggable.numbersBack {e : Event} (h : e.Loggable) : e.numbersBack = e.readBack := by
  rw [Event.numbersBack, Operation.ofNumber_number h.operation, Category.ofNumber_number h.category]
  rfl

theorem strange?_eq_none_iff {e : Event} : e.strange? = none ↔ e.operation.number ≤ 1 ∧ e.category.number ≤ 3 := by
  unfold strange?
  split
  · rename_i h
    exact iff_of_false (fun hnone => by cases hnone) fun hknown => absurd h (UInt8.not_lt.2 hknown.1)
  · rename_i h
    split
    · rename_i h'
      exact iff_of_false (fun hnone => by cases hnone) fun hknown => absurd h' (UInt8.not_lt.2 hknown.2)
    · rename_i h'
      exact iff_of_true rfl ⟨UInt8.not_lt.1 h, UInt8.not_lt.1 h'⟩

theorem Loggable.not_strange {e : Event} (h : e.Loggable) : e.readBack.strange? = none := by
  have hoperation : ∀ o ∈ Operation.known, o.number ≤ 1 := by decide
  have hcategory : ∀ c ∈ Category.known, c.number ≤ 3 := by decide
  exact strange?_eq_none_iff.2 ⟨hoperation _ h.operation, hcategory _ h.category⟩

/-- The item of an event that can be logged is read as the event. -/
theorem Loggable.ofItemKnown {e : Event} (h : e.Loggable) : Event.ofItemKnown e.toItem = .ok e.readBack := by
  have hitem := h.ofItem
  rw [h.numbersBack] at hitem
  simp only [Event.ofItemKnown, hitem, Except.mapError, bind, Except.bind, h.not_strange]
  rfl

/-! ## Events that no reader takes -/

/-- Only the third member sets the operation, and only the fourth one the category. -/
theorem store_keeps {index : Nat} {i : Item} {e e' : Event} (h : store index i e = .ok e') :
    (index ≠ 3 → e'.operation = e.operation) ∧ (index ≠ 4 → e'.category = e.category) := by
  unfold store at h
  dsimp only at h
  split at h
  case h_3 =>
    obtain ⟨n, -, hn⟩ := bind_eq_ok_iff.1 h
    cases hn
    exact ⟨fun hindex => absurd rfl hindex, fun _ => rfl⟩
  case h_4 =>
    obtain ⟨n, -, hn⟩ := bind_eq_ok_iff.1 h
    cases hn
    exact ⟨fun _ => rfl, fun hindex => absurd rfl hindex⟩
  case h_9 =>
    split at h
    · cases h
      exact ⟨fun _ => rfl, fun _ => rfl⟩
    · obtain ⟨r, -, hr⟩ := bind_eq_ok_iff.1 h
      cases hr
      exact ⟨fun _ => rfl, fun _ => rfl⟩
  all_goals
    obtain ⟨x, -, hx⟩ := bind_eq_ok_iff.1 h
    cases hx
    exact ⟨fun _ => rfl, fun _ => rfl⟩

/-- If the item of an event is read at all, the numbers of its operation and category are those that were written. -/
theorem numbers_of_ofItem {e e' : Event} (h : ofItem e.toItem = .ok e') :
    e'.operation.number = e.operation.number ∧ e'.category.number = e.category.number := by
  have hstored := ofItem_eq_ok_iff.1 h
  have hnodup : (e.members.map Prod.fst).Nodup := e.members_keys.nodup List.nodup_range'
  constructor
  · have hmem : (3, Item.ofNat e.operation.number.toNat) ∈ e.members := by simp [members, plainMembers, kept]
    refine storeAll_sets (fun e => e.operation.number) hmem hnodup ?_ ?_ hstored
    · intro a b hb
      rw [storeNamed_operation] at hb
      cases hb
      exact Operation.number_ofNumber _
    · intro index v hindex a b hb
      rw [(store_keeps (storeNamed_eq_ok_iff.1 hb)).1 hindex]
  · have hmem : (4, Item.ofNat e.category.number.toNat) ∈ e.members := by simp [members, plainMembers, kept]
    refine storeAll_sets (fun e => e.category.number) hmem hnodup ?_ ?_ hstored
    · intro a b hb
      rw [storeNamed_category] at hb
      cases hb
      exact Category.number_ofNumber _
    · intro index v hindex a b hb
      rw [(store_keeps (storeNamed_eq_ok_iff.1 hb)).2 hindex]

theorem strange?_congr {e e' : Event} (hoperation : e'.operation.number = e.operation.number)
    (hcategory : e'.category.number = e.category.number) : e'.strange? = e.strange? := by
  simp only [strange?, hoperation, hcategory]

/-- The item of an event whose operation or category is not known is not taken, whatever else the event holds. If nothing else is wrong
with it, the operation or category is what the failure names. -/
theorem ofItemKnown_of_strange {e : Event} (h : e.strange? ≠ none) :
    ∃ f, Event.ofItemKnown e.toItem = .error f ∧ (e.Legible → e.strange? = some f) := by
  unfold Event.ofItemKnown
  cases hitem : ofItem e.toItem with
  | error f =>
    refine ⟨.data f, rfl, fun hlegible => ?_⟩
    rw [hlegible.ofItem] at hitem
    cases hitem
  | ok e' =>
    obtain ⟨hoperation, hcategory⟩ := numbers_of_ofItem hitem
    obtain ⟨f, hf⟩ := Option.ne_none_iff_exists'.1 h
    refine ⟨f, ?_, fun _ => hf⟩
    rw [← strange?_congr hoperation hcategory] at hf
    simp only [Except.mapError, bind, Except.bind, hf]
    rfl

/-- An event that a reader takes up is decoded from its bytes as from its item. -/
theorem Representable.decode_encode {e : Event} (h : e.Representable) : decode e.encode = Event.ofItemKnown e.toItem := by
  have hread := h.within.read_encode []
  rw [List.append_nil] at hread
  simp only [decode, encode, hread, Except.mapError, bind, Except.bind, List.isEmpty_nil, Bool.not_true, Bool.false_eq_true, if_false]

end Event

end SensorWire
