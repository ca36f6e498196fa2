import Mathlib
import SensorWire.Log.Statistics
import SensorWire.Proofs.LogFilter

/-!
# What the statistics of a log say

Tallies and the statistics of schemas are tables in which one entry after the other is adjusted (`adjust`), so that what they hold for a
key is told by what was adjusted there. From that, taking an event into account keeps the statistics exact (`Statistics.Exact.add`), and
so do all events of a log. Exact statistics are determined by what they are the statistics of, whatever the order, and those of one log
after the other come from those of the two (`Exact.same`, `Exact.joins`). The events of a log are known ones, since a reader takes no
others (`LogReader.Yields.known`).

Main statement: `Files.log_statistics_are_exact`.
-/

namespace SensorWire

/-! ## Tables -/

section Tables

variable {α β : Type} [DecidableEq α] {t t' : List (α × β)} {key other : α} {f : β → β} {b : β}

/-- Adjusts what a table holds for a key, which is some value to begin with. -/
def adjust (key : α) (f : β → β) (b : β) : List (α × β) → List (α × β)
  | [] => [(key, f b)]
  | (k, x) :: rest => if k = key then (k, f x) :: rest else (k, x) :: adjust key f b rest

theorem lookup_adjust_self (key : α) (f : β → β) (b : β) (t : List (α × β)) :
    (adjust key f b t).lookup key = some (f ((t.lookup key).getD b)) := by
  induction t with
  | nil => simp [adjust]
  | cons p t ih =>
    obtain ⟨k, x⟩ := p
    by_cases hkey : k = key
    · simp [adjust, hkey]
    · have hne : (key == k) = false := beq_false_of_ne (Ne.symm hkey)
      rw [adjust, if_neg hkey, List.lookup_cons, hne, List.lookup_cons, hne]
      exact ih

theorem lookup_adjust_other (h : other ≠ key) (f : β → β) (b : β) (t : List (α × β)) :
    (adjust key f b t).lookup other = t.lookup other := by
  induction t with
  | nil => simp [adjust, List.lookup_cons, beq_false_of_ne h]
  | cons p t ih =>
    obtain ⟨k, x⟩ := p
    by_cases hkey : k = key
    · subst hkey
      simp [adjust, List.lookup_cons, beq_false_of_ne h]
    · rw [adjust, if_neg hkey, List.lookup_cons, List.lookup_cons, ih]

theorem mem_keys_adjust : other ∈ (adjust key f b t).map Prod.fst ↔ other = key ∨ other ∈ t.map Prod.fst := by
  induction t with
  | nil => simp [adjust]
  | cons p t ih =>
    obtain ⟨k, x⟩ := p
    by_cases hkey : k = key
    · simp [adjust, hkey]
    · rw [adjust, if_neg hkey, List.map_cons, List.mem_cons, ih, List.map_cons, List.mem_cons]
      exact or_left_comm

theorem nodup_adjust (h : (t.map Prod.fst).Nodup) (key : α) (f : β → β) (b : β) : ((adjust key f b t).map Prod.fst).Nodup := by
  induction t with
  | nil => exact List.nodup_singleton key
  | cons p t ih =>
    obtain ⟨k, x⟩ := p
    rw [List.map_cons, List.nodup_cons] at h
    by_cases hkey : k = key
    · rw [adjust, if_pos hkey, List.map_cons, List.nodup_cons]
      exact h
    · rw [adjust, if_neg hkey, List.map_cons, List.nodup_cons, mem_keys_adjust, not_or]
      exact ⟨⟨hkey, h.1⟩, ih h.2⟩

/-- A table with different keys holds for a key what it is looked up as. -/
theorem mem_iff_lookup (h : (t.map Prod.fst).Nodup) : (key, b) ∈ t ↔ t.lookup key = some b := by
  induction t with
  | nil => simp
  | cons p t ih =>
    obtain ⟨k, x⟩ := p
    rw [List.map_cons, List.nodup_cons] at h
    rw [List.mem_cons, List.lookup_cons]
    by_cases hkey : key = k
    · subst hkey
      have habsent : (key, b) ∉ t := fun hmem => h.1 (List.mem_map.2 ⟨_, hmem, rfl⟩)
      simp [habsent, eq_comm]
    · simp [hkey, beq_false_of_ne hkey, ih h.2]

theorem mem_keys_iff_lookup (h : (t.map Prod.fst).Nodup) : key ∈ t.map Prod.fst ↔ t.lookup key ≠ none := by
  rw [List.mem_map, Option.ne_none_iff_exists']
  constructor
  · rintro ⟨p, hp, rfl⟩
    exact ⟨p.2, (mem_iff_lookup h).1 hp⟩
  · rintro ⟨b, hb⟩
    exact ⟨(key, b), (mem_iff_lookup h).2 hb, rfl⟩

/-- Tables that hold the same for every key differ at most in their order. -/
theorem perm_of_lookup (h : (t.map Prod.fst).Nodup) (h' : (t'.map Prod.fst).Nodup) (hlookup : ∀ key, t.lookup key = t'.lookup key) :
    t.Perm t' := by
  refine (List.perm_ext_iff_of_nodup (.of_map _ h) (.of_map _ h')).2 fun p => ?_
  rw [mem_iff_lookup h, mem_iff_lookup h', hlookup]

end Tables

/-! ## Tallies -/

namespace Tally

variable {α : Type} [DecidableEq α] {t t' : Tally α} {as as' : List α}

/-- A tally of a list: its entries are the things in the list, with how often they are there. -/
structure Counts (t : Tally α) (as : List α) : Prop where
  distinct : (t.map Prod.fst).Nodup
  lookup (a : α) : t.lookup a = if as.count a = 0 then none else some (as.count a)

theorem add_eq_adjust (a : α) (t : Tally α) : t.add a = adjust a (· + 1) 0 t := by
  induction t with
  | nil => rfl
  | cons p t ih =>
    obtain ⟨b, n⟩ := p
    simp only [add, adjust, beq_iff_eq, ih]

theorem counts_nil : Counts ([] : Tally α) [] := ⟨List.nodup_nil, fun _ => rfl⟩

theorem Counts.count (h : t.Counts as) (a : α) : t.count a = as.count a := by
  rw [Tally.count, h.lookup]
  split
  · rename_i hzero
    exact hzero.symm
  · rfl

theorem Counts.add (h : t.Counts as) (a : α) : (t.add a).Counts (as ++ [a]) := by
  rw [add_eq_adjust]
  refine ⟨nodup_adjust h.distinct a _ _, fun b => ?_⟩
  by_cases hb : b = a
  · subst hb
    have hcount := h.count b
    rw [Tally.count] at hcount
    rw [lookup_adjust_self, hcount, List.count_append, List.count_singleton_self, if_neg (Nat.succ_ne_zero _)]
  · have hcount : (as ++ [a]).count b = as.count b := by
      rw [List.count_append, List.count_eq_zero.2 (show b ∉ [a] by simpa using hb), Nat.add_zero]
    rw [lookup_adjust_other hb, h.lookup, hcount]

/-- The counts of a tally add up to the length of the list. -/
theorem Counts.sum (h : t.Counts as) : (t.map Prod.snd).sum = as.length := by
  have hkeys : (t.map Prod.fst).Perm as.dedup := by
    refine (List.perm_ext_iff_of_nodup h.distinct as.nodup_dedup).2 fun a => ?_
    rw [mem_keys_iff_lookup h.distinct, h.lookup, List.mem_dedup, ← List.count_pos_iff, Nat.pos_iff_ne_zero]
    split
    · rename_i hzero
      exact iff_of_false (fun hne => hne rfl) fun hne => hne hzero
    · rename_i hpos
      exact iff_of_true (Option.some_ne_none _) hpos
  have hcounts : t.map Prod.snd = (t.map Prod.fst).map fun a => as.count a := by
    rw [List.map_map]
    refine List.map_congr_left fun p hp => ?_
    have hlookup := (mem_iff_lookup h.distinct).1 hp
    rw [h.lookup] at hlookup
    split at hlookup
    · cases hlookup
    · exact (Option.some.inj hlookup).symm
  rw [hcounts, (hkeys.map _).sum_eq, List.sum_map_count_dedup_eq_length]

theorem Counts.perm (h : t.Counts as) (h' : t'.Counts as') (hperm : as.Perm as') : t.Perm t' := by
  refine perm_of_lookup h.distinct h'.distinct fun a => ?_
  rw [h.lookup, h'.lookup, hperm.count_eq]

/-- The tally of one list after the other has the counts of both. -/
theorem Counts.append {t'' : Tally α} (h : t.Counts as) (h' : t'.Counts as') (h'' : t''.Counts (as ++ as')) (a : α) :
    t''.count a = t.count a + t'.count a := by
  rw [h.count, h'.count, h''.count, List.count_append]

end Tally

/-! ## Least and greatest numbers -/

theorem min?_append (xs ys : List Int) : (xs ++ ys).min? = xs.min?.merge min ys.min? := by
  induction xs with
  | nil =>
    rw [List.nil_append]
    cases ys.min? <;> rfl
  | cons x xs ih =>
    rw [List.cons_append, List.min?_cons, ih, List.min?_cons]
    cases xs.min? <;> cases ys.min? <;> simp [Option.merge, min_assoc]

theorem max?_append (xs ys : List Int) : (xs ++ ys).max? = xs.max?.merge max ys.max? := by
  induction xs with
  | nil =>
    rw [List.nil_append]
    cases ys.max? <;> rfl
  | cons x xs ih =>
    rw [List.cons_append, List.max?_cons, ih, List.max?_cons]
    cases xs.max? <;> cases ys.max? <;> simp [Option.merge, max_assoc]

theorem min?_congr {xs ys : List Int} (h : ∀ n, n ∈ xs ↔ n ∈ ys) : xs.min? = ys.min? := by
  refine Option.ext fun n => ?_
  simp only [List.min?_eq_some_iff, h]

theorem max?_congr {xs ys : List Int} (h : ∀ n, n ∈ xs ↔ n ∈ ys) : xs.max? = ys.max? := by
  refine Option.ext fun n => ?_
  simp only [List.max?_eq_some_iff, h]

/-- Among positive numbers, the least has its place taken by zero if there are none. -/
theorem getD_merge_min {a b : Option Int} (ha : ∀ n ∈ a, 0 < n) (hb : ∀ n ∈ b, 0 < n) :
    (a.merge min b).getD 0 = if a.getD 0 = 0 then b.getD 0 else if b.getD 0 = 0 then a.getD 0 else min (a.getD 0) (b.getD 0) := by
  cases a with
  | none => cases b <;> rfl
  | some m =>
    have hm : m ≠ 0 := (ha m rfl).ne'
    cases b with
    | none => simp [Option.merge, hm]
    | some n => simp [Option.merge, hm, (hb n rfl).ne']

theorem getD_merge_max {a b : Option Int} (ha : ∀ n ∈ a, 0 < n) (hb : ∀ n ∈ b, 0 < n) :
    (a.merge max b).getD 0 = max (a.getD 0) (b.getD 0) := by
  cases a with
  | none =>
    cases b with
    | none => rfl
    | some n => exact (max_eq_right (hb n rfl).le).symm
  | some m =>
    cases b with
    | none => exact (max_eq_left (ha m rfl).le).symm
    | some n => rfl

/-! ## Known events -/

theorem Operation.ofNumber_mem_known {n : UInt8} (h : n ≤ 1) : Operation.ofNumber n ∈ Operation.known := by
  unfold Operation.ofNumber
  split
  · decide
  · decide
  · grind

theorem Category.ofNumber_mem_known {n : UInt8} (h : n ≤ 3) : Category.ofNumber n ∈ Category.known := by
  unfold Category.ofNumber
  split
  · decide
  · decide
  · decide
  · decide
  · grind

theorem mapError_eq_ok_iff {ε ε' α : Type} {x : Except ε α} {f : ε → ε'} {a : α} : x.mapError f = .ok a ↔ x = .ok a := by
  cases x <;> simp [Except.mapError]

namespace Event

open Cbor

/-- An event with an operation and a category that a log may hold. -/
structure Known (e : Event) : Prop where
  operation : e.operation ∈ Operation.known
  category : e.category ∈ Category.known

/-- An event whose operation and category are those with their numbers. -/
def Standard (e : Event) : Prop :=
  Operation.ofNumber e.operation.number = e.operation ∧ Category.ofNumber e.category.number = e.category

section

variable {α : Type} {count index : Nat} {store : Nat → Item → α → Except DataFault α} {P : α → Prop} {a b : α}

theorem Members.value_noted {s : Members α} (h : P s.value) (fault : Option DataFault) :
    P (match fault with
      | some f => s.blame f
      | none => s).value := by
  cases fault with
  | none => exact h
  | some f => exact h

/-- What every member that is stored keeps, the reading of a map keeps. -/
theorem readMembers_keeps (hstore : ∀ index i a b, store index i a = .ok b → P a → P b) {s : Members α} (hs : P s.value)
    {pairs : List (Item × Item)} (h : readMembers count store index s pairs = .ok b) : P b := by
  fun_induction readMembers count store index s pairs
  case case1 | case5 | case8 => cases h
  case case2 =>
    cases h
    exact hs
  case case3 ih => exact ih hs h
  case case4 ih | case7 ih | case9 ih => exact ih (Members.value_noted hs _) h
  case case6 hstored _ ih => exact ih (hstore _ _ _ _ hstored (Members.value_noted hs _)) h

theorem readMap_keeps (hstore : ∀ index i a b, store index i a = .ok b → P a → P b) (ha : P a) {type : String} {i : Item}
    (h : readMap type count store a i = .ok b) : P b := by
  obtain ⟨i', -, h⟩ := bind_eq_ok_iff.1 h
  split at h
  · exact readMembers_keeps hstore ha h
  · exact readMembers_keeps hstore ha h
  · split at h
    · cases h
      exact ha
    · split at h <;> cases h

end

theorem standard_of_store {index : Nat} {i : Item} {e e' : Event} (h : store index i e = .ok e') (he : e.Standard) : e'.Standard := by
  obtain ⟨hoperation, hcategory⟩ := store_keeps h
  constructor
  · by_cases hindex : index = 3
    · subst hindex
      obtain ⟨n, -, hn⟩ := bind_eq_ok_iff.1 h
      cases hn
      exact congrArg Operation.ofNumber (Operation.number_ofNumber _)
    · rw [hoperation hindex]
      exact he.1
  · by_cases hindex : index = 4
    · subst hindex
      obtain ⟨n, -, hn⟩ := bind_eq_ok_iff.1 h
      cases hn
      exact congrArg Category.ofNumber (Category.number_ofNumber _)
    · rw [hcategory hindex]
      exact he.2

/-- No other events than known ones are read. -/
theorem known_of_ofItemKnown {i : Item} {e : Event} (h : ofItemKnown i = .ok e) : e.Known := by
  obtain ⟨e', hitem, h⟩ := bind_eq_ok_iff.1 h
  split at h
  · cases h
  · rename_i hnone
    cases h
    have hstandard : e.Standard := readMap_keeps (fun _ _ _ _ hstored => standard_of_store (storeNamed_eq_ok_iff.1 hstored)) ⟨rfl, rfl⟩
      (mapError_eq_ok_iff.1 hitem)
    obtain ⟨hoperation, hcategory⟩ := strange?_eq_none_iff.1 hnone
    exact ⟨hstandard.1 ▸ Operation.ofNumber_mem_known hoperation, hstandard.2 ▸ Category.ofNumber_mem_known hcategory⟩

end Event

namespace LogReader

theorem known_of_take {r r' : LogReader} {e : Event} (h : r.take = (.ok e, r')) : e.Known := by
  cases hread : Cbor.Item.read Event.limits r.unread with
  | error fault =>
    rw [take_of_fault hread] at h
    cases h
  | ok p =>
    rw [take_of_item hread, Prod.mk.injEq, mapError_eq_ok_iff] at h
    exact Event.known_of_ofItemKnown h.1

theorem Yields.known {r : LogReader} {es : List Event} {f : Failure} (h : Yields r es f) : ∀ e ∈ es, e.Known := by
  induction h with
  | done _ => exact List.forall_mem_nil _
  | more h _ ih => exact List.forall_mem_cons.2 ⟨known_of_take h, ih⟩

end LogReader

/-! ## The statistics of a schema -/

namespace SchemaStatistics

variable {s : SchemaStatistics} {es es' : List Event} {e : Event}

/-- The positive sizes of messages. -/
def sizes (es : List Event) : List Int := ((es.filter (·.category = .message)).map Event.size).filter (0 < ·)

/-- The statistics that events have. -/
def told (es : List Event) : SchemaStatistics where
  encodes := es.countP fun e => e.category = .message ∧ e.operation = .encode
  decodes := es.countP fun e => e.category = .message ∧ e.operation = .decode
  overflows := es.countP (·.category = .overflow)
  errors := es.countP (·.category = .error)
  minSize := (sizes es).min?.getD 0
  maxSize := (sizes es).max?.getD 0

/-- The statistics of events of which some have one and the others another statistics. No size at all gives way to any other. -/
def join (s s' : SchemaStatistics) : SchemaStatistics where
  encodes := s.encodes + s'.encodes
  decodes := s.decodes + s'.decodes
  overflows := s.overflows + s'.overflows
  errors := s.errors + s'.errors
  minSize := if s.minSize = 0 then s'.minSize else if s'.minSize = 0 then s.minSize else min s.minSize s'.minSize
  maxSize := max s.maxSize s'.maxSize

theorem pos_of_mem_sizes {n : Int} (h : n ∈ sizes es) : 0 < n := by simpa using List.of_mem_filter h

theorem sizes_append (es es' : List Event) : sizes (es ++ es') = sizes es ++ sizes es' := by
  simp only [sizes, List.filter_append, List.map_append]

theorem told_append (es es' : List Event) : told (es ++ es') = (told es).join (told es') := by
  have hmin {es : List Event} {n : Int} (h : n ∈ (sizes es).min?) : 0 < n := pos_of_mem_sizes (List.min?_eq_some_iff.1 h).1
  have hmax {es : List Event} {n : Int} (h : n ∈ (sizes es).max?) : 0 < n := pos_of_mem_sizes (List.max?_eq_some_iff.1 h).1
  simp only [told, join, List.countP_append, sizes_append, min?_append, max?_append, mk.injEq, true_and]
  exact ⟨getD_merge_min (fun _ => hmin) fun _ => hmin, getD_merge_max (fun _ => hmax) fun _ => hmax⟩

theorem told_perm (h : es.Perm es') : told es = told es' := by
  have hsizes : (sizes es).Perm (sizes es') := ((h.filter _).map _).filter _
  simp only [told, h.countP_eq, min?_congr fun _ => hsizes.mem_iff, max?_congr fun _ => hsizes.mem_iff]

theorem maxSize_nonneg (es : List Event) : 0 ≤ (told es).maxSize := by
  cases h : (sizes es).max? with
  | none => simp [told, h]
  | some n => simpa [told, h] using (pos_of_mem_sizes (List.max?_eq_some_iff.1 h).1).le

theorem join_empty (h : 0 ≤ s.maxSize) : s.join {} = s := by
  obtain ⟨encodes, decodes, overflows, errors, minSize, maxSize⟩ := s
  simp only [join, Nat.add_zero, if_true, mk.injEq, true_and]
  exact ⟨by split <;> omega, max_eq_left h⟩

/-- The size of one message. -/
theorem addSize_eq_join (h : 0 ≤ s.maxSize) (n : Int) : s.addSize n = s.join { minSize := max n 0, maxSize := max n 0 } := by
  unfold addSize
  split
  · rename_i hn
    rw [max_eq_right hn]
    exact (join_empty h).symm
  · simp only [join, Nat.add_zero, mk.injEq, true_and]
    omega

theorem sizes_message (h : e.category = .message) :
    (sizes [e]).min?.getD 0 = max e.size 0 ∧ (sizes [e]).max?.getD 0 = max e.size 0 := by
  have hsizes : sizes [e] = if 0 < e.size then [e.size] else [] := by simp [sizes, h, List.filter_cons]
  rw [hsizes]
  split
  · rename_i hpos
    exact ⟨(max_eq_left hpos.le).symm, (max_eq_left hpos.le).symm⟩
  · rename_i hpos
    exact ⟨(max_eq_right (not_lt.1 hpos)).symm, (max_eq_right (not_lt.1 hpos)).symm⟩

/-- Taking a known event into account. -/
theorem add_told (h : e.Known) : (told es).add e = told (es ++ [e]) := by
  rw [told_append]
  -- joining keeps a greatest size only if that is not negative, which is known of what is told and not of any statistics
  have hmax := maxSize_nonneg es
  generalize told es = s at hmax
  have hoperation : e.operation = .encode ∨ e.operation = .decode := by simpa [Operation.known] using h.operation
  cases hcategory : e.category with
  | message =>
    obtain ⟨hleast, hgreatest⟩ := sizes_message hcategory
    rcases hoperation with hencode | hdecode
    · have hone : told [e] = { encodes := 1, minSize := max e.size 0, maxSize := max e.size 0 } := by
        simp [told, hcategory, hencode, hleast, hgreatest]
      simp only [add, hcategory, hencode, if_true, hone]
      exact addSize_eq_join (s := { s with encodes := s.encodes + 1 }) hmax e.size
    · have hone : told [e] = { decodes := 1, minSize := max e.size 0, maxSize := max e.size 0 } := by
        simp [told, hcategory, hdecode, hleast, hgreatest]
      simp only [add, hcategory, hdecode, reduceCtorEq, if_false, hone]
      exact addSize_eq_join (s := { s with decodes := s.decodes + 1 }) hmax e.size
  | overflow => simp [add, join, told, sizes, hcategory, hmax]
  | error => simp [add, join, told, sizes, hcategory, hmax]
  | unknownKey | other n =>
    have hnone : told [e] = {} := by simp [told, sizes, hcategory]
    rw [hnone, join_empty hmax]
    simp only [add, hcategory]

end SchemaStatistics

/-! ## The statistics of events -/

namespace Statistics

variable {s s' s'' : Statistics} {es es' : List Event} {e : Event}

/-- The events that are counted under the name of a schema. -/
def eventsOf (name : Text) (es : List Event) : List Event := es.filter fun e => label e.schema = name

/-- The bytes that buffers lacked. -/
def extras (es : List Event) : List Int := (es.filter (·.category = .overflow)).map Event.extra

/-- The statistics that events have: how many there are, tallies of what they hold, and for each name of a schema the statistics of its
events. -/
structure Exact (s : Statistics) (es : List Event) : Prop where
  total : s.total = es.length
  operations : s.operations.Counts (es.map Event.operation)
  categories : s.categories.Counts (es.map Event.category)
  sessions : s.sessions.Counts ((es.map Event.session).filter fun t => !t.isEmpty)
  errorKinds : s.errorKinds.Counts (es.filterMap fun e => e.error.map ErrorReport.kind)
  distinct : (s.schemas.map Prod.fst).Nodup
  schemas (name : Text) : s.schemas.lookup name = if eventsOf name es = [] then none else some (.told (eventsOf name es))
  maxExtra : (0 :: extras es).max? = some s.maxExtra

/-- Statistics that differ at most in the order of their entries, and in the times. -/
structure Same (s s' : Statistics) : Prop where
  total : s.total = s'.total
  operations : s.operations.Perm s'.operations
  categories : s.categories.Perm s'.categories
  sessions : s.sessions.Perm s'.sessions
  errorKinds : s.errorKinds.Perm s'.errorKinds
  schemas : s.schemas.Perm s'.schemas
  maxExtra : s.maxExtra = s'.maxExtra

/-- Statistics that come from those of two parts: counts are added, and of sizes and overflows the least or greatest is kept. -/
structure Joins (s s' s'' : Statistics) : Prop where
  total : s''.total = s.total + s'.total
  operations (o : Operation) : s''.operations.count o = s.operations.count o + s'.operations.count o
  categories (c : Category) : s''.categories.count c = s.categories.count c + s'.categories.count c
  sessions (session : Text) : s''.sessions.count session = s.sessions.count session + s'.sessions.count session
  errorKinds (kind : Text) : s''.errorKinds.count kind = s.errorKinds.count kind + s'.errorKinds.count kind
  schemas (name : Text) : s''.schemas.lookup name = (s.schemas.lookup name).merge .join (s'.schemas.lookup name)
  maxExtra : s''.maxExtra = max s.maxExtra s'.maxExtra

theorem addSchema_eq_adjust (name : Text) (e : Event) (schemas : List (Text × SchemaStatistics)) :
    addSchema name e schemas = adjust name (·.add e) {} schemas := by
  induction schemas with
  | nil => rfl
  | cons p schemas ih =>
    obtain ⟨n, s⟩ := p
    simp only [addSchema, adjust, beq_iff_eq, ih]

theorem eventsOf_append (name : Text) (es es' : List Event) : eventsOf name (es ++ es') = eventsOf name es ++ eventsOf name es' :=
  List.filter_append es es'

theorem extras_append (es es' : List Event) : extras (es ++ es') = extras es ++ extras es' := by
  rw [extras, List.filter_append, List.map_append]
  rfl

theorem exact_nil : Exact {} [] where
  total := rfl
  operations := Tally.counts_nil
  categories := Tally.counts_nil
  sessions := Tally.counts_nil
  errorKinds := Tally.counts_nil
  distinct := List.nodup_nil
  schemas := fun _ => rfl
  maxExtra := rfl

/-- What is known of a schema, with the empty statistics for one that was not seen. -/
theorem Exact.getD_schemas (h : s.Exact es) (name : Text) : (s.schemas.lookup name).getD {} = .told (eventsOf name es) := by
  rw [h.schemas]
  split
  · rename_i hempty
    rw [hempty]
    rfl
  · rfl

theorem Exact.schemas_add (h : s.Exact es) (he : e.Known) (name : Text) :
    (addSchema (label e.schema) e s.schemas).lookup name =
      if eventsOf name (es ++ [e]) = [] then none else some (.told (eventsOf name (es ++ [e]))) := by
  rw [addSchema_eq_adjust, eventsOf_append]
  by_cases hname : label e.schema = name
  · have hlast : eventsOf name [e] = [e] := by simp [eventsOf, hname]
    rw [hlast, if_neg (List.append_ne_nil_of_right_ne_nil _ (List.cons_ne_nil e [])), hname, lookup_adjust_self, h.getD_schemas,
      SchemaStatistics.add_told he]
  · have hlast : eventsOf name [e] = [] := by simp [eventsOf, hname]
    rw [hlast, List.append_nil, lookup_adjust_other (Ne.symm hname), h.schemas]

theorem Exact.maxExtra_add (h : s.Exact es) (e : Event) : (0 :: extras (es ++ [e])).max? = some (s.add e).maxExtra := by
  rw [extras_append, ← List.cons_append, max?_append, h.maxExtra]
  by_cases hcategory : e.category = .overflow
  · have hlast : extras [e] = [e.extra] := by simp [extras, hcategory]
    simp only [Statistics.add, hcategory, true_and, hlast]
    exact congrArg some (max_def_lt _ _)
  · simp [Statistics.add, extras, hcategory, Option.merge]

/-- Taking a known event into account. -/
theorem Exact.add (h : s.Exact es) (he : e.Known) : (s.add e).Exact (es ++ [e]) where
  total := by
    rw [List.length_append, ← h.total]
    rfl
  operations := by
    rw [List.map_append]
    exact h.operations.add e.operation
  categories := by
    rw [List.map_append]
    exact h.categories.add e.category
  sessions := by
    rw [List.map_append, List.filter_append]
    cases hempty : e.session.isEmpty with
    | true => simpa [Statistics.add, hempty] using h.sessions
    | false => simpa [Statistics.add, hempty] using h.sessions.add e.session
  errorKinds := by
    rw [List.filterMap_append]
    cases herror : e.error with
    | none => simpa [Statistics.add, herror] using h.errorKinds
    | some r => simpa [Statistics.add, herror] using h.errorKinds.add r.kind
  distinct := by
    have hdistinct := nodup_adjust h.distinct (label e.schema) (·.add e) {}
    rw [← addSchema_eq_adjust] at hdistinct
    exact hdistinct
  schemas := h.schemas_add he
  maxExtra := h.maxExtra_add e

/-- The statistics of known events say what the events are. -/
theorem exact_ofEvents (h : ∀ e ∈ es, e.Known) : (ofEvents es).Exact es := by
  -- the fold takes the last event into account last, so that the induction is on that one
  induction es using List.reverseRecOn with
  | nil => exact exact_nil
  | append_singleton es e ih =>
    rw [List.forall_mem_append, List.forall_mem_singleton] at h
    rw [ofEvents, List.foldl_append]
    exact (ih h.1).add h.2

/-- The order of events does not matter. -/
theorem Exact.same (h : s.Exact es) (h' : s'.Exact es') (hperm : es.Perm es') : s.Same s' where
  total := by rw [h.total, h'.total, hperm.length_eq]
  operations := h.operations.perm h'.operations (hperm.map _)
  categories := h.categories.perm h'.categories (hperm.map _)
  sessions := h.sessions.perm h'.sessions ((hperm.map _).filter _)
  errorKinds := h.errorKinds.perm h'.errorKinds (hperm.filterMap _)
  schemas := by
    refine perm_of_lookup h.distinct h'.distinct fun name => ?_
    have hnamed : (eventsOf name es).Perm (eventsOf name es') := hperm.filter _
    have hempty : eventsOf name es = [] ↔ eventsOf name es' = [] := by
      rw [← List.length_eq_zero_iff, ← List.length_eq_zero_iff, hnamed.length_eq]
    simp only [h.schemas, h'.schemas, hempty, SchemaStatistics.told_perm hnamed]
  maxExtra := by
    have hextras : (0 :: extras es).Perm (0 :: extras es') := ((hperm.filter _).map _).cons 0
    have hmax := max?_congr fun _ => hextras.mem_iff
    rw [h.maxExtra, h'.maxExtra] at hmax
    exact Option.some.inj hmax

/-- What is known of a schema after two runs of events. -/
theorem Exact.schemas_append (h : s.Exact es) (h' : s'.Exact es') (h'' : s''.Exact (es ++ es')) (name : Text) :
    s''.schemas.lookup name = (s.schemas.lookup name).merge .join (s'.schemas.lookup name) := by
  rw [h.schemas, h'.schemas, h''.schemas, eventsOf_append]
  by_cases hempty : eventsOf name es = []
  · rw [hempty, List.nil_append, if_pos rfl, Option.merge_none_left]
  · by_cases hempty' : eventsOf name es' = []
    · rw [hempty', List.append_nil, if_pos rfl, Option.merge_none_right]
    · rw [if_neg hempty, if_neg hempty', if_neg (List.append_ne_nil_of_left_ne_nil hempty _), SchemaStatistics.told_append]
      rfl

theorem Exact.maxExtra_append (h : s.Exact es) (h' : s'.Exact es') (h'' : s''.Exact (es ++ es')) :
    s''.maxExtra = max s.maxExtra s'.maxExtra := by
  -- zero stands in front of both lists, which makes no difference to the greatest
  have hmem (n : Int) : n ∈ 0 :: extras (es ++ es') ↔ n ∈ (0 :: extras es) ++ (0 :: extras es') := by
    rw [extras_append]
    simp only [List.mem_cons, List.mem_append]
    tauto
  have hmax := max?_congr hmem
  rw [max?_append, h.maxExtra, h'.maxExtra, h''.maxExtra] at hmax
  exact Option.some.inj hmax

/-- Events after other events. -/
theorem Exact.joins (h : s.Exact es) (h' : s'.Exact es') (h'' : s''.Exact (es ++ es')) : s.Joins s' s'' where
  total := by rw [h.total, h'.total, h''.total, List.length_append]
  operations := h.operations.append h'.operations (List.map_append ▸ h''.operations)
  categories := h.categories.append h'.categories (List.map_append ▸ h''.categories)
  sessions := h.sessions.append h'.sessions (by simpa only [List.map_append, List.filter_append] using h''.sessions)
  errorKinds := h.errorKinds.append h'.errorKinds (List.filterMap_append ▸ h''.errorKinds)
  schemas := h.schemas_append h' h''
  maxExtra := h.maxExtra_append h' h''

end Statistics

/-! ## Logs -/

/-- Two sources that end cleanly, one after the other. -/
theorem LogSource.read_both {content content' : List UInt8} {es es' : List Event}
    (h : LogSource.read ⟨content, none⟩ = (es, .endOfStream)) (h' : LogSource.read ⟨content', none⟩ = (es', .endOfStream)) :
    LogSource.read ⟨content ++ content', none⟩ = (es ++ es', .endOfStream) := by
  obtain ⟨taken, ending, hyields⟩ := LogReader.exists_yields (.start ⟨content, none⟩ {})
  obtain ⟨taken', ending', hyields'⟩ := LogReader.exists_yields (.start ⟨content', none⟩ {})
  rw [read_of_yields hyields, Prod.mk.injEq] at h
  rw [read_of_yields hyields', Prod.mk.injEq] at h'
  obtain ⟨rfl, hclean⟩ := h
  obtain ⟨rfl, hclean'⟩ := h'
  -- the second run starts behind the first, and then the bytes end
  have hsecond := hyields'.followed (s := { LogReader.start ⟨content ++ content', none⟩ {} with
    unread := content', count := 0 + taken.length }) hclean' (List.append_nil _).symm (.at_end rfl rfl)
  rw [List.append_nil] at hsecond
  exact read_of_yields (hyields.followed hclean rfl hsecond)

/-- The bytes of one log after those of another. -/
theorem HoldsLog.append {path : Text} {data data' : List UInt8} {es es' : List Event} (h : HoldsLog path data es)
    (h' : HoldsLog path data' es') : HoldsLog path (data ++ data') (es ++ es') := by
  obtain ⟨content, hdata, hread⟩ := h
  obtain ⟨content', hdata', hread'⟩ := h'
  refine ⟨content ++ content', ?_, ?_⟩
  · split at hdata
    · rename_i hcompressed
      rw [if_pos hcompressed] at hdata' ⊢
      exact hdata.append hdata'
    · rename_i hplain
      rw [if_neg hplain] at hdata' ⊢
      rw [hdata, hdata']
  · exact LogSource.read_both hread hread'

namespace Files

variable {fs : Files} {path : Text} {es : List Event}

/-- A log that a command reads to its end. -/
def Readable (fs : Files) (path : Text) (es : List Event) : Prop :=
  ∃ source, fs.openLog path = .ok source ∧ source.readFiltered {} = (es, .endOfStream)

theorem Readable.known (h : fs.Readable path es) : ∀ e ∈ es, e.Known := by
  obtain ⟨source, -, hread⟩ := h
  obtain ⟨taken, ending, hyields⟩ := LogReader.exists_yields (.start source {})
  rw [LogSource.readFiltered_of_yields hyields, Prod.mk.injEq] at hread
  rw [← hread.1]
  exact fun e he => hyields.known e (List.mem_of_mem_filter he)

theorem Readable.countLog (h : fs.Readable path es) : fs.countLog path = .ok (Statistics.ofEvents es).render := by
  obtain ⟨source, hopen, hread⟩ := h
  simp only [Files.countLog, hopen, bind, Except.bind, hread]
  rfl

theorem readable_of_hasLog (h : fs.HasLog path es) : fs.Readable path es := by
  obtain ⟨source, hlog, hread⟩ := h
  refine ⟨source, ?_, ?_⟩
  · rw [openLog, hlog]
    rfl
  · exact source.readFiltered_of_read hread

/-- The statistics of a log that is read to its end say what its events are; the counts of operations and those of categories add up to
the number of events, and the order of events does not matter. The statistics of the events of two logs come from those of each, and the
bytes of two logs one after the other are a log with the events of both. -/
theorem log_statistics_are_exact :
    (∀ (fs : Files) (path : Text) (es : List Event), fs.Readable path es →
      fs.countLog path = .ok (Statistics.ofEvents es).render ∧ (Statistics.ofEvents es).Exact es ∧
      ((Statistics.ofEvents es).operations.map Prod.snd).sum = (Statistics.ofEvents es).total ∧
      ((Statistics.ofEvents es).categories.map Prod.snd).sum = (Statistics.ofEvents es).total ∧
      ∀ es' : List Event, es'.Perm es → (Statistics.ofEvents es').Same (Statistics.ofEvents es)) ∧
    (∀ (fs fs' : Files) (path path' : Text) (es es' : List Event), fs.Readable path es → fs'.Readable path' es' →
      (Statistics.ofEvents es).Joins (Statistics.ofEvents es') (Statistics.ofEvents (es ++ es'))) ∧
    ∀ (fs : Files) (path : Text) (data data' : List UInt8) (es es' : List Event), isDirectory path = false →
      fs.find? path = some (data ++ data') → HoldsLog path data es → HoldsLog path data' es' → fs.Readable path (es ++ es') := by
  refine ⟨fun fs path es h => ?_, fun fs fs' path path' es es' h h' => ?_, fun fs path data data' es es' hdirectory hfind h h' => ?_⟩
  · have hexact := Statistics.exact_ofEvents h.known
    refine ⟨h.countLog, hexact, ?_, ?_, fun es' hperm => ?_⟩
    · rw [hexact.operations.sum, hexact.total, List.length_map]
    · rw [hexact.categories.sum, hexact.total, List.length_map]
    · exact (Statistics.exact_ofEvents fun e he => h.known e (hperm.mem_iff.1 he)).same hexact hperm
  · exact (Statistics.exact_ofEvents h.known).joins (Statistics.exact_ofEvents h'.known)
      (Statistics.exact_ofEvents (List.forall_mem_append.2 ⟨h.known, h'.known⟩))
  · exact readable_of_hasLog (hasLog_of_holdsLog (h.append h') hdirectory hfind)

/-- Two logs in one file: a buffer that was too small, and then the message. -/
theorem overflow_and_message_are_counted :
    let path : Text := "in.blog"
    let sent : Event := { Event.lateOverflow with category := .message, size := 76 }
    let fs : Files := { entries := [(path, Logger.written path [Event.lateOverflow] ++ Logger.written path [sent])] }
    let s := Statistics.ofEvents [sent, Event.lateOverflow]
    (∃ t : Statistics, fs.countLog path = .ok t.render ∧ s.Same t) ∧
      s.schemas.lookup sent.schema = some { encodes := 1, overflows := 1, minSize := 76, maxSize := 76 } ∧ s.maxExtra = 12 := by
  intro path sent fs s
  have hsent : sent.Loggable :=
    { Event.loggable_lateOverflow with
      category := by decide
      size := by unfold Event.Fits64; decide }
  have hoverflow := (holdsLog_nil path).written (List.forall_mem_singleton.2 Event.loggable_lateOverflow)
  have hmessage := (holdsLog_nil path).written (List.forall_mem_singleton.2 hsent)
  have hreadable := log_statistics_are_exact.2.2 fs path _ _ _ _ (by decide) rfl hoverflow hmessage
  obtain ⟨hcount, -, -, -, hsame⟩ := log_statistics_are_exact.1 fs path _ hreadable
  exact ⟨⟨_, hcount, hsame _ (List.Perm.swap _ _ _)⟩, by decide, by decide⟩

end Files

end SensorWire
