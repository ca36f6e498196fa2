import Mathlib
import SensorWire.Time.Timestamp

/-!
# The calendar counted both ways

`Date.ofDays` finds the day of the calendar for a count of days, and `Date.toDays` counts the days to it. A date that was found is one
that the calendar has (`Date.Proper`), and counting the days to it gives the count back (`Date.ofDays_spec`). A timestamp is thus told
by the date, the second of the day and the offset that it shows (`Timestamp.seconds_of_civil`).
-/

namespace SensorWire

namespace Date

/-! ## Months of a year -/

/-- The days before a month are those before the month that comes before it, and that month's own. -/
theorem daysBefore_succ (year : Int) {month : Nat} (h : 1 ≤ month) :
    daysBefore year (month + 1) = daysBefore year month + daysIn year month := by
  obtain ⟨n, rfl⟩ : ∃ n, month = n + 1 := ⟨month - 1, by omega⟩
  simp only [daysBefore, Nat.add_sub_cancel, List.range_succ, List.foldl_append, List.foldl_cons, List.foldl_nil]

/-- A day that the calendar has. -/
structure Proper (d : Date) : Prop where
  month : 1 ≤ d.month ∧ d.month ≤ 12
  day : 1 ≤ d.day ∧ d.day ≤ daysIn d.year d.month

/-- The month and day that are found lie in the year, and the days before them are the days that were given. -/
theorem inYear_spec (year : Int) {fuel month rest : Nat} (hmonth : 1 ≤ month) (hfuel : month + fuel = 12)
    (hrest : daysBefore year month + rest < daysBefore year 13) :
    (inYear year fuel month rest).year = year ∧ (inYear year fuel month rest).Proper ∧
      daysBefore year (inYear year fuel month rest).month + (inYear year fuel month rest).day = daysBefore year month + rest + 1 := by
  -- what remains of the year gets shorter by a month with each step
  induction fuel generalizing month rest with
  | zero =>
    obtain rfl : month = 12 := by omega
    have hlast : daysBefore year 13 = daysBefore year 12 + daysIn year 12 := daysBefore_succ year hmonth
    have hday : rest + 1 ≤ daysIn year 12 := by omega
    exact ⟨rfl, ⟨⟨hmonth, le_refl _⟩, ⟨Nat.le_add_left 1 rest, hday⟩⟩, rfl⟩
  | succ fuel ih =>
    unfold inYear
    split_ifs with hin
    · have htwelve : month ≤ 12 := by omega
      exact ⟨rfl, ⟨⟨hmonth, htwelve⟩, ⟨Nat.le_add_left 1 rest, hin⟩⟩, rfl⟩
    · have hnext := daysBefore_succ year hmonth
      have hrest' : daysBefore year (month + 1) + (rest - daysIn year month) < daysBefore year 13 := by omega
      obtain ⟨hyear, hproper, hdays⟩ := ih (show 1 ≤ month + 1 by omega) (by omega) hrest'
      exact ⟨hyear, hproper, by omega⟩

theorem daysIn_le (year : Int) (month : Nat) : daysIn year month ≤ 31 := by
  unfold daysIn
  repeat' split
  all_goals decide

/-- The days of a year. -/
theorem daysBefore_thirteen (year : Int) : daysBefore year 13 = if isLeap year then 366 else 365 := by
  have hrange : List.range 12 = [0, 1, 2, 3, 4, 5, 6, 7, 8, 9, 10, 11] := rfl
  simp only [daysBefore, hrange, List.foldl_cons, List.foldl_nil, daysIn]
  split <;> rfl

/-! ## Years of a cycle -/

/-- The days before a year that is told by the cycle of 400 years, the century, the four years and the year in which it lies. -/
theorem daysBeforeYear_eq (cycles : Int) {centuries fours years : Nat} (hc : centuries ≤ 3) (hf : fours ≤ 24) (hy : years ≤ 3) :
    daysBeforeYear (400 * cycles + 100 * centuries + 4 * fours + years + 1) =
      146097 * cycles + 36524 * centuries + 1461 * fours + 365 * years := by
  simp only [daysBeforeYear, Int.fdiv_eq_ediv_of_nonneg _ (show (0 : Int) ≤ 4 by decide),
    Int.fdiv_eq_ediv_of_nonneg _ (show (0 : Int) ≤ 100 by decide), Int.fdiv_eq_ediv_of_nonneg _ (show (0 : Int) ≤ 400 by decide)]
  omega

/-- The leap years are the last of every four years, but for the last of a century that is not the last of its cycle. -/
theorem isLeap_iff (cycles : Int) {centuries fours years : Nat} (hc : centuries ≤ 3) (hf : fours ≤ 24) (hy : years ≤ 3) :
    isLeap (400 * cycles + 100 * centuries + 4 * fours + years + 1) = true ↔ years = 3 ∧ (fours ≠ 24 ∨ centuries = 3) := by
  simp only [isLeap, Bool.and_eq_true, beq_iff_eq, Bool.or_eq_true, bne_iff_ne]
  omega

/-- The calendar has the date that lies so many days off, counting the days to it gives that count, and its year is no farther off. -/
theorem ofDays_spec (days : Int) :
    (ofDays days).Proper ∧ (ofDays days).toDays = days ∧ (ofDays days).year.natAbs ≤ days.natAbs + 400 := by
  unfold ofDays
  rw [Int.fdiv_eq_ediv_of_nonneg days (show (0 : Int) ≤ 146097 by decide)]
  extract_lets cycles inCycle centuries inCentury fours inFour years year
  have hcycle : days = 146097 * cycles + inCycle ∧ inCycle < 146097 := by omega
  have hcentury : inCycle = 36524 * centuries + inCentury ∧ centuries ≤ 3 ∧ inCentury ≤ 36524 ∧ (centuries < 3 → inCentury < 36524) := by
    omega
  have hfour : inCentury = 1461 * fours + inFour ∧ fours ≤ 24 ∧ inFour < 1461 := by omega
  have hyear : 365 * years ≤ inFour ∧ years ≤ 3 ∧ (years < 3 → inFour < 365 * years + 365) := by omega
  have hleap : isLeap year = true ↔ years = 3 ∧ (fours ≠ 24 ∨ centuries = 3) :=
    isLeap_iff cycles hcentury.2.1 hfour.2.1 hyear.2.1
  have hbefore : daysBeforeYear year = 146097 * cycles + 36524 * centuries + 1461 * fours + 365 * years :=
    daysBeforeYear_eq cycles hcentury.2.1 hfour.2.1 hyear.2.1
  have hfirst : daysBefore year 1 = 0 := rfl
  have hrest : daysBefore year 1 + (inFour - 365 * years) < daysBefore year 13 := by
    rw [daysBefore_thirteen, hfirst]
    split_ifs with hl
    · omega
    · have hshort := mt hleap.2 hl
      omega
  obtain ⟨hsame, hproper, hdays⟩ := inYear_spec year (le_refl 1) (show 1 + 11 = 12 from rfl) hrest
  refine ⟨hproper, ?_, ?_⟩
  · rw [toDays, hsame]
    omega
  · rw [hsame]
    omega

end Date

namespace Timestamp

/-! ## What a timestamp shows -/

/-- The day on which a time falls is one that the calendar has. -/
theorem proper_date (t : Timestamp) : t.date.Proper := (Date.ofDays_spec _).1

theorem secondOfDay_lt (t : Timestamp) : t.secondOfDay < 86400 := Nat.mod_lt _ (by decide)

/-- A whole turn of 64 bits makes no difference. -/
theorem ofInt_add_turns (s : Int64) (k : Int) : Int64.ofInt (s.toInt + 0x10000000000000000 * k) = s := by
  have hs : s.toInt.bmod (2 ^ 64) = s.toInt := (Int64.ofInt_eq_iff_bmod_eq_toInt _ s).1 (Int64.ofInt_toInt s)
  rw [Int64.ofInt_eq_iff_bmod_eq_toInt]
  exact (Int.add_mul_bmod_self_left s.toInt (2 ^ 64) k).trans hs

/-- The seconds of a timestamp are those of the date and of the time of day that it shows, less the offset. -/
theorem seconds_of_civil (t : Timestamp) : Int64.ofInt (t.date.toDays * 86400 + t.secondOfDay - t.offset) = t.seconds := by
  have hdays : t.date.toDays = (t.absolute / 86400 : Nat) + Date.daysBeforeYear leastYear := (Date.ofDays_spec _).2.1
  obtain ⟨k, hk⟩ : ∃ k : Int, t.date.toDays * 86400 + t.secondOfDay - t.offset = t.seconds.toInt + 0x10000000000000000 * k := by
    rw [hdays]
    unfold secondOfDay absolute
    exact ⟨-((t.seconds.toInt + t.offset - 86400 * Date.daysBeforeYear leastYear) / 0x10000000000000000), by omega⟩
  rw [hk, ofInt_add_turns]

/-- The year that a timestamp shows has fifteen digits at most. -/
theorem natAbs_year_lt (t : Timestamp) : t.date.year.natAbs < 10 ^ 15 := by
  have hyear : t.date.year.natAbs ≤ ((t.absolute / 86400 : Nat) + Date.daysBeforeYear leastYear).natAbs + 400 := (Date.ofDays_spec _).2.2
  have hleast : Date.daysBeforeYear leastYear = -106751990353932 := by decide
  have habsolute : t.absolute < 0x10000000000000000 := by
    unfold absolute
    omega
  rw [hleast] at hyear
  omega

end Timestamp

end SensorWire
