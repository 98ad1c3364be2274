import Mathlib.Tactic.IntervalCases
import RolloutControl.Time.Calendar
/-! Every day has a date of the calendar, and is counted back from it. Years are taken to begin in March, so that a leap day is
the last one of its year, and an era of 400 years consists of centuries, spans of four years, years and days. -/

namespace RolloutControl.Calendar

/-- A date of the calendar. -/
structure IsDate (year : Int) (month day : Nat) : Prop where
  month_pos : 1 ≤ month
  month_le : month ≤ 12
  day_pos : 1 ≤ day
  day_le : day ≤ daysInMonth year month

theorem daysInMonth_le (year : Int) (month : Nat) : daysInMonth year month ≤ 31 := by
  unfold daysInMonth
  split
  · split <;> omega
  · split <;> omega

/-- A day by its parts. Only the last year of a span may have a leap day, and the last one of a century only where the era
ends with it. -/
structure Parts where
  era : Int
  century : Int
  span : Int
  year : Int
  day : Int
  century_bounds : 0 ≤ century ∧ century ≤ 3
  span_bounds : 0 ≤ span ∧ span ≤ 24
  year_bounds : 0 ≤ year ∧ year ≤ 3
  day_bounds : 0 ≤ day ∧ day ≤ 365
  leap : day = 365 → year = 3 ∧ (span = 24 → century = 3)

namespace Parts

def yearOfEra (p : Parts) : Int := 100 * p.century + 4 * p.span + p.year

def dayOfEra (p : Parts) : Int := 36524 * p.century + 1461 * p.span + 365 * p.year + p.day

def days (p : Parts) : Int := p.era * 146097 + p.dayOfEra - 719468

def march (p : Parts) : Int := (5 * p.day + 2) / 153

theorem exists_days_eq (days : Int) : ∃ p : Parts, p.days = days := by
  obtain ⟨era, hera⟩ : ∃ era, era = (days + 719468) / 146097 := ⟨_, rfl⟩
  obtain ⟨dayOfEra, hday⟩ : ∃ dayOfEra, dayOfEra = days + 719468 - era * 146097 := ⟨_, rfl⟩
  obtain ⟨century, hcentury⟩ : ∃ century, century = min (dayOfEra / 36524) 3 := ⟨_, rfl⟩
  obtain ⟨rest, hrest⟩ : ∃ rest, rest = dayOfEra - 36524 * century := ⟨_, rfl⟩
  obtain ⟨year, hyear⟩ : ∃ year, year = min (rest % 1461 / 365) 3 := ⟨_, rfl⟩
  have hbounds : 0 ≤ dayOfEra ∧ dayOfEra < 146097 := by omega
  let p : Parts :=
    { era, century, span := rest / 1461, year, day := rest % 1461 - 365 * year
      century_bounds := by omega
      span_bounds := by omega
      year_bounds := by omega
      day_bounds := by omega
      leap := by omega }
  have hparts : p.dayOfEra = dayOfEra := by
    simp only [p, Parts.dayOfEra]
    omega
  have hdays : p.days = era * 146097 + p.dayOfEra - 719468 := rfl
  refine ⟨p, ?_⟩
  rw [hdays, hparts]
  omega

variable (p : Parts)

theorem dayOfEra_bounds : 0 ≤ p.dayOfEra ∧ p.dayOfEra < 146097 := by
  obtain ⟨era, century, span, year, day, hcentury, hspan, hyear, hday, hleap⟩ := p
  simp only [dayOfEra]
  omega

theorem yearOfEra_bounds : 0 ≤ p.yearOfEra ∧ p.yearOfEra < 400 := by
  obtain ⟨era, century, span, year, day, hcentury, hspan, hyear, hday, hleap⟩ := p
  simp only [yearOfEra]
  omega

theorem yearOfEra_eq :
    (p.dayOfEra - p.dayOfEra / 1460 + p.dayOfEra / 36524 - p.dayOfEra / 146096) / 365 = p.yearOfEra := by
  obtain ⟨era, century, span, year, day, hcentury, hspan, hyear, hday, hleap⟩ := p
  simp only [yearOfEra, dayOfEra]
  generalize hsum : 36524 * century + 1461 * span + 365 * year + day = dayOfEra
  have hspans : dayOfEra / 1460 =
      25 * century + span + (if 1460 ≤ 24 * century + span + 365 * year + day then 1 else 0) := by
    split <;> omega
  have hcenturies : dayOfEra / 36524 - dayOfEra / 146096 = century := by
    by_cases hlast : dayOfEra = 146096
    · omega
    · have hlt : dayOfEra < 36524 * (century + 1) := by omega
      omega
  rw [hspans]
  split <;> omega

/-- The days before a year: leap days fall into every fourth year, but for the end of a century. -/
theorem yearStart_eq : p.yearOfEra * 365 + p.yearOfEra / 4 - p.yearOfEra / 100 = p.dayOfEra - p.day := by
  obtain ⟨era, century, span, year, day, hcentury, hspan, hyear, hday, hleap⟩ := p
  simp only [yearOfEra, dayOfEra]
  omega

theorem march_bounds : 0 ≤ p.march ∧ p.march ≤ 11 := by
  have hday := p.day_bounds
  simp only [march]
  omega

theorem dayOfMonth_bounds : 1 ≤ p.day - (153 * p.march + 2) / 5 + 1 ∧ p.day - (153 * p.march + 2) / 5 + 1 ≤ 31 := by
  have hday := p.day_bounds
  simp only [march]
  omega

/-- The date of the day: January and February belong to the next year. -/
def date : Int × Nat × Nat :=
  (p.yearOfEra + p.era * 400 + (if p.march < 10 then 0 else 1),
    (if p.march < 10 then p.march + 3 else p.march - 9).toNat, (p.day - (153 * p.march + 2) / 5 + 1).toNat)

theorem dateOfDays_days : dateOfDays p.days = p.date := by
  have hera : (p.days + 719468).fdiv 146097 = p.era := by
    have hbounds := p.dayOfEra_bounds
    rw [Int.fdiv_eq_ediv_of_nonneg _ (by decide), days]
    omega
  have hdayOfEra : p.days + 719468 - p.era * 146097 = p.dayOfEra := by
    rw [days]
    omega
  have hday : p.dayOfEra - (365 * p.yearOfEra + p.yearOfEra / 4 - p.yearOfEra / 100) = p.day := by
    have hstart := p.yearStart_eq
    omega
  have hmarch : (5 * p.day + 2) / 153 = p.march := rfl
  have hbounds := p.march_bounds
  simp only [dateOfDays, hera, hdayOfEra, yearOfEra_eq, hday, hmarch, date]
  split <;> split <;> first | omega | simp

theorem daysOfDate_date : daysOfDate p.date.1 p.date.2.1 p.date.2.2 = p.days := by
  obtain ⟨hmarch, hmarch'⟩ := p.march_bounds
  have hday := p.dayOfMonth_bounds
  have hera : (p.yearOfEra + p.era * 400).fdiv 400 = p.era := by
    have hbounds := p.yearOfEra_bounds
    rw [Int.fdiv_eq_ediv_of_nonneg _ (by decide)]
    omega
  have hstart := p.yearStart_eq
  by_cases hlate : p.march < 10
  · have hmonth : ¬(p.march + 3).toNat ≤ 2 := by omega
    have hmonth' : 2 < (p.march + 3).toNat := by omega
    simp only [daysOfDate, date, if_pos hlate, if_neg hmonth, if_pos hmonth', Int.add_zero, hera, days]
    omega
  · have hmonth : (p.march - 9).toNat ≤ 2 := by omega
    have hmonth' : ¬2 < (p.march - 9).toNat := by omega
    simp only [daysOfDate, date, if_neg hlate, if_pos hmonth, if_neg hmonth', Int.add_sub_cancel, hera, days]
    omega

theorem isLeapYear_of_day (h : p.day = 365) : isLeapYear (p.yearOfEra + p.era * 400 + 1) = true := by
  obtain ⟨era, century, span, year, day, hcentury, hspan, hyear, hday, hleap⟩ := p
  obtain ⟨rfl, hend⟩ := hleap h
  simp only [yearOfEra, isLeapYear, Bool.and_eq_true, Bool.or_eq_true, beq_iff_eq, bne_iff_ne]
  omega

theorem day_le_daysInMonth : p.date.2.2 ≤ daysInMonth p.date.1 p.date.2.1 := by
  have hday := p.day_bounds
  have hmarch : p.march = (5 * p.day + 2) / 153 := rfl
  by_cases hfebruary : p.march = 11
  · have hmonth : p.date.2.1 = 2 := by simp [date, hfebruary]
    have hyear : p.date.1 = p.yearOfEra + p.era * 400 + 1 := by simp [date, hfebruary]
    have hdate : p.date.2.2 = (p.day - 336).toNat := by
      simp only [date, hfebruary]
      omega
    rw [hmonth, hyear, hdate, daysInMonth, if_pos rfl]
    by_cases hleap : p.day = 365
    · rw [if_pos (p.isLeapYear_of_day hleap), hleap]
      decide
    · split <;> omega
  · obtain ⟨hfirst, hlast⟩ := p.march_bounds
    simp only [date]
    generalize p.march = m at *
    interval_cases m <;> simp [daysInMonth] at hfebruary ⊢ <;> omega

theorem isDate_date : IsDate p.date.1 p.date.2.1 p.date.2.2 := by
  obtain ⟨hmarch, hmarch'⟩ := p.march_bounds
  have hday := p.dayOfMonth_bounds
  refine ⟨?_, ?_, ?_, p.day_le_daysInMonth⟩ <;> (simp only [date]; omega)

theorem year_bounds_of_days (h : -4371586 ≤ p.days) (h' : p.days ≤ 2932895) :
    -9999 ≤ p.date.1 ∧ p.date.1 ≤ 9999 := by
  have hmarch : p.march = (5 * p.day + 2) / 153 := rfl
  have hday := p.day_bounds
  obtain ⟨hcentury, hspan, hyear⟩ := And.intro p.century_bounds (And.intro p.span_bounds p.year_bounds)
  simp only [days, dayOfEra] at h h'
  by_cases hlate : p.march < 10
  · simp only [date, yearOfEra, if_pos hlate]
    omega
  · simp only [date, yearOfEra, if_neg hlate]
    omega

end Parts

theorem daysOfDate_dateOfDays (days : Int) :
    daysOfDate (dateOfDays days).1 (dateOfDays days).2.1 (dateOfDays days).2.2 = days := by
  obtain ⟨p, rfl⟩ := Parts.exists_days_eq days
  rw [p.dateOfDays_days, p.daysOfDate_date]

theorem isDate_dateOfDays (days : Int) :
    IsDate (dateOfDays days).1 (dateOfDays days).2.1 (dateOfDays days).2.2 := by
  obtain ⟨p, rfl⟩ := Parts.exists_days_eq days
  rw [p.dateOfDays_days]
  exact p.isDate_date

theorem year_bounds {days : Int} (h : -4371586 ≤ days) (h' : days ≤ 2932895) :
    -9999 ≤ (dateOfDays days).1 ∧ (dateOfDays days).1 ≤ 9999 := by
  obtain ⟨p, rfl⟩ := Parts.exists_days_eq days
  rw [p.dateOfDays_days]
  exact p.year_bounds_of_days h h'

end RolloutControl.Calendar
