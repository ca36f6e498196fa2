import Mathlib
import SensorWire.Proofs.LogStatistics

/-!
# The time range of a log

The statistics of a log keep an earliest and a latest time while its events are taken into account. Both begin as the time that stands
for none. The latest is the greatest of that time and of those of the events (`isGreatest_stop`). The earliest gives way to the next event
as long as it is that time, and it is that time again after an event without one. So it forgets an event without a time as soon as a
later one follows, unless some event is earlier still (`Begins`, which a step keeps and a run therefore ends in).

Main statement: `Files.time_range_covers_log_iff`.
-/

namespace SensorWire

/-! ## Instants -/

namespace Timestamp

/-- The point in time that a timestamp stands for, at whatever offset it is shown. -/
def instant (t : Timestamp) : Int ×ₗ Nat := toLex (t.seconds.toInt, t.nanos)

/-- The instant that stands for no time. -/
def noInstant : Int ×ₗ Nat := instant {}

variable {t u : Timestamp}

theorem before_iff : t.before u = true ↔ t.instant < u.instant := by
  simp [before, instant, Prod.Lex.toLex_lt_toLex, Int64.lt_iff_toInt_lt, Int64.toInt_inj]

theorem isZero_iff : t.isZero = true ↔ t.instant = noInstant := by
  simp [isZero, instant, noInstant, ← Int64.toInt_inj]

end Timestamp

open Timestamp (noInstant)

namespace Event

/-- The instants of events. -/
def instants (es : List Event) : Set (Int ×ₗ Nat) := {i | ∃ e ∈ es, e.time.instant = i}

/-- The events after the last one without a time. -/
def sinceUntimed (es : List Event) : List Event := es.rtakeWhile fun e => !e.time.isZero

variable {es : List Event} {e : Event} {i : Int ×ₗ Nat}

theorem instants_append (es : List Event) (e : Event) : instants (es ++ [e]) = insert e.time.instant (instants es) := by
  ext i
  simp only [instants, List.mem_append, List.mem_singleton, Set.mem_ofPred_eq, Set.mem_insert_iff]
  constructor
  · rintro ⟨e', he | rfl, rfl⟩
    · exact .inr ⟨e', he, rfl⟩
    · exact .inl rfl
  · rintro (rfl | ⟨e', he, rfl⟩)
    · exact ⟨e, .inr rfl, rfl⟩
    · exact ⟨e', .inl he, rfl⟩

theorem instants_singleton (e : Event) : instants [e] = {e.time.instant} := by
  ext i
  simp [instants, eq_comm]

theorem sinceUntimed_append_of_untimed (h : e.time.instant = noInstant) (es : List Event) : sinceUntimed (es ++ [e]) = [] := by
  rw [sinceUntimed, List.rtakeWhile_concat, Timestamp.isZero_iff.2 h]
  rfl

theorem sinceUntimed_append_of_timed (h : e.time.instant ≠ noInstant) (es : List Event) :
    sinceUntimed (es ++ [e]) = sinceUntimed es ++ [e] := by
  have hzero : e.time.isZero = false := by rwa [← Bool.not_eq_true, Timestamp.isZero_iff]
  rw [sinceUntimed, List.rtakeWhile_concat, hzero]
  rfl

theorem sinceUntimed_eq_self (h : ∀ e ∈ es, e.time.instant ≠ noInstant) : sinceUntimed es = es := by
  refine List.rtakeWhile_eq_self_iff.2 fun e he => ?_
  rw [Bool.not_eq_true', ← Bool.not_eq_true, Timestamp.isZero_iff]
  exact h e he

theorem sinceUntimed_eq_nil_iff (hne : es ≠ []) : sinceUntimed es = [] ↔ (es.getLast hne).time.instant = noInstant := by
  rw [sinceUntimed, List.rtakeWhile_eq_nil_iff]
  simp [hne, Timestamp.isZero_iff]

theorem ne_noInstant_of_mem_sinceUntimed (h : i ∈ instants (sinceUntimed es)) : i ≠ noInstant := by
  obtain ⟨e, he, rfl⟩ := h
  have htimed := List.mem_rtakeWhile_imp he
  rwa [Bool.not_eq_true', ← Bool.not_eq_true, Timestamp.isZero_iff] at htimed

theorem instants_sinceUntimed_subset (es : List Event) : instants (sinceUntimed es) ⊆ instants es := by
  rintro _ ⟨e, he, rfl⟩
  exact ⟨e, (List.rtakeWhile_suffix _ es).mem he, rfl⟩

/-! ## The earliest time -/

/-- The instant at which a log of events is said to begin: the earliest if some event is earlier than an event without a time, and
otherwise the earliest after the last event without a time, if there are any after it. -/
structure Begins (i : Int ×ₗ Nat) (es : List Event) : Prop where
  early : (∃ e ∈ es, e.time.instant < noInstant) → IsLeast (instants es) i
  late : (∀ e ∈ es, noInstant ≤ e.time.instant) →
    (sinceUntimed es = [] ∧ i = noInstant) ∨ IsLeast (instants (sinceUntimed es)) i

theorem begins_nil : Begins noInstant [] where
  early := by simp
  late := fun _ => .inl ⟨rfl, rfl⟩

theorem Begins.noInstant_le (h : Begins i es) (hlate : ∀ e ∈ es, noInstant ≤ e.time.instant) : noInstant ≤ i := by
  rcases h.late hlate with ⟨-, rfl⟩ | hleast
  · exact le_rfl
  · obtain ⟨e, he, rfl⟩ := instants_sinceUntimed_subset es hleast.1
    exact hlate e he

/-- One more event, which takes the place of no time at all. -/
theorem Begins.add (h : Begins i es) (e : Event) :
    Begins (if i = noInstant then e.time.instant else min e.time.instant i) (es ++ [e]) where
  early := by
    intro hearly
    rw [instants_append]
    by_cases hbefore : ∃ e ∈ es, e.time.instant < noInstant
    · obtain ⟨e', he', hlt⟩ := hbefore
      have hleast := h.early ⟨e', he', hlt⟩
      have hi : i ≠ noInstant := ((hleast.2 ⟨e', he', rfl⟩).trans_lt hlt).ne
      rw [if_neg hi]
      exact hleast.insert e.time.instant
    · -- the new event is earlier than all others, and than what was kept of them
      have hlate : ∀ e' ∈ es, noInstant ≤ e'.time.instant := fun e' he' => not_lt.1 fun hlt => hbefore ⟨e', he', hlt⟩
      have hlt : e.time.instant < noInstant := by
        obtain ⟨e', he', hlt⟩ := hearly
        rcases List.mem_append.1 he' with he' | he'
        · exact absurd hlt (not_lt.2 (hlate e' he'))
        · rwa [← List.mem_singleton.1 he']
      have hnew : (if i = noInstant then e.time.instant else min e.time.instant i) = e.time.instant := by
        split
        · rfl
        · exact min_eq_left (hlt.trans_le (h.noInstant_le hlate)).le
      rw [hnew]
      refine ⟨Set.mem_insert _ _, ?_⟩
      rintro _ (rfl | ⟨e', he', rfl⟩)
      · exact le_rfl
      · exact hlt.le.trans (hlate e' he')
  late := by
    intro hlate
    have hbefore : ∀ e' ∈ es, noInstant ≤ e'.time.instant := fun e' he' => hlate e' (List.mem_append_left _ he')
    by_cases htimed : e.time.instant = noInstant
    · refine .inl ⟨sinceUntimed_append_of_untimed htimed es, ?_⟩
      rw [htimed, min_eq_left (h.noInstant_le hbefore), ite_self]
    · rw [sinceUntimed_append_of_timed htimed, instants_append]
      rcases h.late hbefore with ⟨hnone, rfl⟩ | hleast
      · rw [if_pos rfl, hnone, ← instants_append, List.nil_append, instants_singleton]
        exact .inr isLeast_singleton
      · rw [if_neg (ne_noInstant_of_mem_sinceUntimed hleast.1)]
        exact .inr (hleast.insert e.time.instant)

end Event

namespace Statistics

open Event

theorem instant_start_add (s : Statistics) (e : Event) :
    (s.add e).start.instant =
      if s.start.instant = noInstant then e.time.instant else min e.time.instant s.start.instant := by
  simp only [add, Bool.or_eq_true, Timestamp.isZero_iff, Timestamp.before_iff]
  by_cases hzero : s.start.instant = noInstant
  · rw [if_pos (.inl hzero), if_pos hzero]
  · simp only [hzero, false_or, if_false, min_def_lt]
    split_ifs <;> rfl

theorem instant_stop_add (s : Statistics) (e : Event) : (s.add e).stop.instant = max e.time.instant s.stop.instant := by
  rw [max_comm, max_def_lt]
  simp only [add, Timestamp.before_iff]
  split_ifs <;> rfl

theorem begins_start (es : List Event) : Begins (ofEvents es).start.instant es := by
  -- the fold takes the last event into account last, so that the induction is on that one
  induction es using List.reverseRecOn with
  | nil => exact begins_nil
  | append_singleton es e ih =>
    rw [ofEvents, List.foldl_append, List.foldl_cons, List.foldl_nil, instant_start_add]
    exact ih.add e

theorem isGreatest_stop (es : List Event) : IsGreatest (insert noInstant (instants es)) (ofEvents es).stop.instant := by
  induction es using List.reverseRecOn with
  | nil =>
    have hnone : insert noInstant (instants []) = {noInstant} := by simp [instants]
    rw [hnone]
    exact isGreatest_singleton
  | append_singleton es e ih =>
    rw [ofEvents, List.foldl_append, List.foldl_cons, List.foldl_nil, instant_stop_add, instants_append, Set.insert_comm]
    exact ih.insert e.time.instant

variable {es : List Event}

/-- When the earliest time that is kept is the earliest of all. -/
theorem isLeast_start_iff (hne : es ≠ []) :
    IsLeast (instants es) (ofEvents es).start.instant ↔
      (∃ e ∈ es, e.time.instant < noInstant) ∨ (∀ e ∈ es, e.time.instant ≠ noInstant) ∨
        (es.getLast hne).time.instant = noInstant := by
  have hbegins := begins_start es
  by_cases hearly : ∃ e ∈ es, e.time.instant < noInstant
  · exact iff_of_true (hbegins.early hearly) (.inl hearly)
  · have hlate : ∀ e ∈ es, noInstant ≤ e.time.instant := fun e he => not_lt.1 fun hlt => hearly ⟨e, he, hlt⟩
    constructor
    · intro hleast
      refine .inr ?_
      by_contra hneither
      obtain ⟨huntimed, hlast⟩ := not_or.1 hneither
      push Not at huntimed
      obtain ⟨e, he, hzero⟩ := huntimed
      rcases hbegins.late hlate with ⟨hnone, -⟩ | hsince
      · exact hlast ((sinceUntimed_eq_nil_iff hne).1 hnone)
      · refine ne_noInstant_of_mem_sinceUntimed hsince.1 (le_antisymm ?_ (hbegins.noInstant_le hlate))
        exact hzero ▸ hleast.2 ⟨e, he, rfl⟩
    · rintro (hmem | htimed | hlast)
      · exact absurd hmem hearly
      · rcases hbegins.late hlate with ⟨hnone, -⟩ | hsince
        · rw [sinceUntimed_eq_self htimed] at hnone
          exact absurd hnone hne
        · rwa [sinceUntimed_eq_self htimed] at hsince
      · rcases hbegins.late hlate with ⟨-, hzero⟩ | hsince
        · rw [hzero]
          refine ⟨⟨es.getLast hne, List.getLast_mem hne, hlast⟩, ?_⟩
          rintro _ ⟨e, he, rfl⟩
          exact hlate e he
        · rw [(sinceUntimed_eq_nil_iff hne).2 hlast] at hsince
          obtain ⟨e, he, -⟩ := hsince.1
          cases he

/-- Where it is not, it is the earliest after the last event without a time. -/
theorem isLeast_start_sinceUntimed (hne : es ≠ []) (h : ¬IsLeast (instants es) (ofEvents es).start.instant) :
    IsLeast (instants (sinceUntimed es)) (ofEvents es).start.instant := by
  rw [isLeast_start_iff hne, not_or, not_or] at h
  obtain ⟨hearly, -, hlast⟩ := h
  rcases (begins_start es).late fun e he => not_lt.1 fun hlt => hearly ⟨e, he, hlt⟩ with ⟨hnone, -⟩ | hsince
  · exact absurd ((sinceUntimed_eq_nil_iff hne).1 hnone) hlast
  · exact hsince

/-- When the latest time that is kept is the latest of all. -/
theorem isGreatest_stop_iff (es : List Event) :
    IsGreatest (instants es) (ofEvents es).stop.instant ↔ ∃ e ∈ es, noInstant ≤ e.time.instant := by
  have hgreatest := isGreatest_stop es
  have hzero : noInstant ≤ (ofEvents es).stop.instant := hgreatest.2 (Set.mem_insert _ _)
  constructor
  · rintro ⟨⟨e, he, hstop⟩, -⟩
    exact ⟨e, he, hstop ▸ hzero⟩
  · rintro ⟨e, he, hle⟩
    refine ⟨?_, fun i hi => hgreatest.2 (Set.mem_insert_of_mem _ hi)⟩
    rcases hgreatest.1 with hstop | hmem
    · have hsame : e.time.instant = noInstant := le_antisymm (hstop ▸ hgreatest.2 (Set.mem_insert_of_mem _ ⟨e, he, rfl⟩)) hle
      exact ⟨e, he, hsame.trans hstop.symm⟩
    · exact hmem

/-- Where it is not, it stands for no time. -/
theorem stop_of_not_isGreatest (h : ¬IsGreatest (instants es) (ofEvents es).stop.instant) :
    (ofEvents es).stop.instant = noInstant := by
  have hgreatest := isGreatest_stop es
  rcases hgreatest.1 with hstop | hmem
  · exact hstop
  · exact absurd ⟨hmem, fun i hi => hgreatest.2 (Set.mem_insert_of_mem _ hi)⟩ h

end Statistics

/-! ## Logs -/

namespace Files

open Event

variable {fs : Files} {path : Text} {es : List Event}

/-- The statistics of a log that is read to its end begin with the earliest instant of all its events exactly if some event is earlier
than one without a time, or no event is without a time, or the last one is; otherwise with the earliest after the last event without a
time. They end with the latest instant of all exactly if some event is not earlier than one without a time, and otherwise with no time. -/
theorem time_range_covers_log_iff (h : fs.Readable path es) (hne : es ≠ []) :
    let s := Statistics.ofEvents es
    fs.countLog path = .ok s.render ∧
    (IsLeast (instants es) s.start.instant ↔
      (∃ e ∈ es, e.time.instant < noInstant) ∨ (∀ e ∈ es, e.time.instant ≠ noInstant) ∨
        (es.getLast hne).time.instant = noInstant) ∧
    (¬IsLeast (instants es) s.start.instant → IsLeast (instants (sinceUntimed es)) s.start.instant) ∧
    (IsGreatest (instants es) s.stop.instant ↔ ∃ e ∈ es, noInstant ≤ e.time.instant) ∧
    (¬IsGreatest (instants es) s.stop.instant → s.stop.instant = noInstant) :=
  ⟨h.countLog, Statistics.isLeast_start_iff hne, Statistics.isLeast_start_sinceUntimed hne, Statistics.isGreatest_stop_iff es,
    Statistics.stop_of_not_isGreatest⟩

/-- An event without a time and then one with a time: the log is said to begin with the second. -/
theorem time_range_forgets_untimed_event :
    let path : Text := "in.blog"
    let untimed : Event := { Event.lateOverflow with time := {} }
    let es := [untimed, Event.lateOverflow]
    let fs : Files := { entries := [(path, Logger.written path es)] }
    fs.Readable path es ∧ ¬IsLeast (instants es) (Statistics.ofEvents es).start.instant ∧
      (Statistics.ofEvents es).start = Event.lateOverflow.time ∧
      IsLeast (instants (sinceUntimed es)) (Statistics.ofEvents es).start.instant ∧
      IsGreatest (instants es) (Statistics.ofEvents es).stop.instant := by
  intro path untimed es fs
  have huntimed : untimed.Loggable := { Event.loggable_lateOverflow with nanos := by decide, offset := by decide, time := .inl rfl }
  have hloggable : ∀ e ∈ es, e.Loggable := by
    rw [List.forall_mem_cons, List.forall_mem_singleton]
    exact ⟨huntimed, Event.loggable_lateOverflow⟩
  have hreadable : fs.Readable path es :=
    readable_of_hasLog (hasLog_of_holdsLog ((holdsLog_nil path).written hloggable) (by decide) rfl)
  obtain ⟨-, hstart, hsince, hstop, -⟩ := time_range_covers_log_iff hreadable (List.cons_ne_nil _ _)
  have hlost : ¬IsLeast (instants es) (Statistics.ofEvents es).start.instant := by
    rw [hstart]
    decide
  exact ⟨hreadable, hlost, by decide, hsince hlost, hstop.2 ⟨Event.lateOverflow, by decide, by decide⟩⟩

end Files

end SensorWire
