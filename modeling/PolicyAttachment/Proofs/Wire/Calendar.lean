import PolicyAttachment.Instant.Calendar
import Mathlib.Tactic.IntervalCases

/-!
# Dates and days

Counting days is the inverse of finding the date of a day, and that date is one that the calendar has.
Within an era a day is found by centuries, by the cycles of four years in these and by the years of a
cycle. The last of each may be longer by a leap day, so that dividing would go one too far.
-/

namespace PolicyAttachment.Date
set_option autoImplicit false

/-- The day `day` of an era lies in the given century of it, cycle of that and year of that, as the
given day of the year counted from March. -/
structure Within (day century cycle year dayOfYear : Int) : Prop where
  day_eq : day = 36524 * century + 1461 * cycle + 365 * year + dayOfYear
  century_bounds : 0 ≤ century ∧ century ≤ 3
  cycle_bounds : 0 ≤ cycle ∧ cycle ≤ 24
  year_bounds : 0 ≤ year ∧ year ≤ 3
  dayOfYear_bounds : 0 ≤ dayOfYear ∧ dayOfYear ≤ 365
  /-- There is a leap day at the end of a cycle, but at the end of a century only in the last. -/
  leap : dayOfYear = 365 → year = 3 ∧ (cycle ≤ 23 ∨ century = 3)

/-- The year of the era that a day of it lies in, counted from March. -/
def yearOfEra (day : Int) : Int := (day - day / 1460 + day / 36524 - day / 146096) / 365

/-- Every day of an era lies in one century, cycle and year of it. -/
theorem exists_within {day : Int} (h : 0 ≤ day ∧ day < 146097) :
    ∃ century cycle year dayOfYear, Within day century cycle year dayOfYear := by
  obtain ⟨century, hcentury, rest⟩ : ∃ c : Int, (0 ≤ c ∧ c ≤ 3) ∧ 0 ≤ day - 36524 * c ∧
      day - 36524 * c ≤ 36524 ∧ (day - 36524 * c = 36524 → c = 3) :=
    ⟨min (day / 36524) 3, by omega, by omega, by omega, by omega⟩
  generalize hr : day - 36524 * century = r at rest
  obtain ⟨cycle, hcycle, rest'⟩ : ∃ q : Int, (0 ≤ q ∧ q ≤ 24) ∧ 0 ≤ r - 1461 * q ∧
      r - 1461 * q ≤ 1460 :=
    ⟨r / 1461, by omega, by omega, by omega⟩
  generalize hs : r - 1461 * cycle = s at rest'
  obtain ⟨year, hyear, rest''⟩ : ∃ y : Int, (0 ≤ y ∧ y ≤ 3) ∧ 0 ≤ s - 365 * y ∧
      s - 365 * y ≤ 365 ∧ (s - 365 * y = 365 → y = 3) :=
    ⟨min (s / 365) 3, by omega, by omega, by omega, by omega⟩
  exact ⟨century, cycle, year, s - 365 * year, by omega, hcentury, hcycle, hyear, by omega, by omega⟩

section Era

variable {day century cycle year dayOfYear : Int}

/-- The days that are counted off make up for the leap days. Only the last day of the era is one too many
for its century. -/
theorem Within.yearOfEra_eq (h : Within day century cycle year dayOfYear) :
    yearOfEra day = 100 * century + 4 * cycle + year := by
  obtain ⟨hday, hcentury, hcycle, hyear, hdayOfYear, leap⟩ := h
  have centuries : day / 36524 - day / 146096 = century := by
    by_cases last : day = 146096
    · subst last
      omega
    · have few : day < 36524 * (century + 1) := by omega
      have quotient : day / 36524 = century := by omega
      have none : day / 146096 = 0 := by omega
      rw [quotient, none, Int.sub_zero]
  have cycles : day / 1460 = 25 * century + cycle ∨
      day / 1460 = 25 * century + cycle + 1 := by omega
  unfold yearOfEra
  omega

/-- Less the days of the years before, the day of the era is that of its year. -/
theorem Within.dayOfYear_eq (h : Within day century cycle year dayOfYear) :
    day - (365 * yearOfEra day + yearOfEra day / 4 - yearOfEra day / 100) = dayOfYear := by
  rw [h.yearOfEra_eq]
  obtain ⟨hday, hcentury, hcycle, hyear, -, -⟩ := h
  have centuries : (100 * century + 4 * cycle + year) / 100 = century := by omega
  have cycles : (100 * century + 4 * cycle + year) / 4 = 25 * century + cycle := by omega
  omega

theorem Within.yearOfEra_bounds (h : Within day century cycle year dayOfYear) :
    0 ≤ yearOfEra day ∧ yearOfEra day < 400 := by
  rw [h.yearOfEra_eq]
  obtain ⟨-, hcentury, hcycle, hyear, -, -⟩ := h
  omega

end Era

/-- The date in the given year counted from March, in the given month counted from March. -/
def ofMarch (year month day : Int) : Date :=
  if month < 10 then ⟨year, (month + 3).toNat, day.toNat⟩
  else ⟨year + 1, (month - 9).toNat, day.toNat⟩

/-- The date of a day, from its place in the era. -/
theorem ofDays_eq {days era day century cycle year dayOfYear : Int}
    (hdays : days + 719468 = era * 146097 + day) (h : Within day century cycle year dayOfYear) :
    ofDays days = ofMarch (yearOfEra day + era * 400) ((5 * dayOfYear + 2) / 153)
      (dayOfYear - (153 * ((5 * dayOfYear + 2) / 153) + 2) / 5 + 1) := by
  have inEra : 0 ≤ day ∧ day < 146097 := by
    obtain ⟨hday, hcentury, hcycle, hyear, hdayOfYear, leap⟩ := h
    omega
  have hera : (days + 719468) / 146097 = era := by omega
  have hday : (days + 719468) % 146097 = day := by omega
  simp only [ofDays, hera, hday]
  rw [← yearOfEra, h.dayOfYear_eq]
  rfl

/-- A date that is put together counts the days that it was put together from. -/
theorem toDays_ofMarch {era yearOfEra month day : Int} (hyear : 0 ≤ yearOfEra ∧ yearOfEra < 400)
    (hmonth : 0 ≤ month ∧ month ≤ 11) (hday : 1 ≤ day) :
    (ofMarch (yearOfEra + era * 400) month day).toDays =
      era * 146097 + (yearOfEra * 365 + yearOfEra / 4 - yearOfEra / 100 +
        ((153 * month + 2) / 5 + day - 1)) - 719468 := by
  have hera : (yearOfEra + era * 400) / 400 = era := by omega
  have hrest : (yearOfEra + era * 400) % 400 = yearOfEra := by omega
  unfold ofMarch
  by_cases early : month < 10
  · have number : ((month + 3).toNat + 9 : Int) % 12 = month := by omega
    have notFirst : ¬ (month + 3).toNat ≤ 2 := by omega
    rw [if_pos early]
    simp only [toDays, notFirst, if_false, hera, hrest, number, Int.toNat_of_nonneg (by omega : 0 ≤ day)]
  · have number : ((month - 9).toNat + 9 : Int) % 12 = month := by omega
    have first : (month - 9).toNat ≤ 2 := by omega
    have back : yearOfEra + era * 400 + 1 - 1 = yearOfEra + era * 400 := by omega
    rw [if_neg early]
    simp only [toDays, first, if_true, back, hera, hrest, number,
      Int.toNat_of_nonneg (by omega : 0 ≤ day)]

/-- Every day lies in some era. -/
theorem exists_era (days : Int) : ∃ era day century cycle year dayOfYear,
    days + 719468 = era * 146097 + day ∧ Within day century cycle year dayOfYear := by
  obtain ⟨century, cycle, year, dayOfYear, h⟩ :=
    exists_within (by omega : 0 ≤ (days + 719468) % 146097 ∧ (days + 719468) % 146097 < 146097)
  exact ⟨(days + 719468) / 146097, _, century, cycle, year, dayOfYear, by omega, h⟩

/-- A day is the day of its date. -/
theorem toDays_ofDays (days : Int) : (ofDays days).toDays = days := by
  obtain ⟨era, day, century, cycle, year, dayOfYear, hdays, h⟩ := exists_era days
  have offset := h.dayOfYear_eq
  have bounds := h.dayOfYear_bounds
  rw [ofDays_eq hdays h, toDays_ofMarch h.yearOfEra_bounds (by omega) (by omega)]
  omega

theorem daysInMonth_le (year : Int) (month : Nat) : daysInMonth year month ≤ 31 := by
  unfold daysInMonth
  split
  · split <;> decide
  all_goals decide

/-- Every fourth year is a leap year, but for the centuries that four does not divide. -/
theorem isLeapYear_iff {year : Int} :
    isLeapYear year = true ↔ year % 4 = 0 ∧ (year % 100 ≠ 0 ∨ year % 400 = 0) := by
  simp [isLeapYear]

/-- Every day has a date of the calendar. -/
theorem isValid_ofDays (days : Int) : (ofDays days).isValid = true := by
  obtain ⟨era, day, century, cycle, year, dayOfYear, hdays, h⟩ := exists_era days
  rw [ofDays_eq hdays h, h.yearOfEra_eq]
  obtain ⟨-, hcentury, hcycle, hyear, hdayOfYear, leap⟩ := h
  generalize hmonth : (5 * dayOfYear + 2) / 153 = month
  have bounds : 0 ≤ month ∧ month ≤ 11 := by omega
  obtain ⟨low, high⟩ := bounds
  by_cases february : month = 11
  · subst february
    -- only in a leap year there is a day 365 of the year that begins in March
    have leapYear : dayOfYear = 365 →
        isLeapYear (100 * century + 4 * cycle + year + era * 400 + 1) = true := by
      intro last
      rw [isLeapYear_iff]
      obtain ⟨rfl, few⟩ := leap last
      by_cases whole : cycle = 24
      · have := few.resolve_left (by omega)
        exact ⟨by omega, .inr (by omega)⟩
      · exact ⟨by omega, .inl (by omega)⟩
    have february (year day : Int) : ofMarch year 11 day = ⟨year + 1, 2, day.toNat⟩ := rfl
    rw [february]
    simp only [isValid, daysInMonth, Bool.and_eq_true, decide_eq_true_eq]
    by_cases last : dayOfYear = 365
    · rw [if_pos (leapYear last)]
      omega
    · split <;> omega
  · simp only [ofMarch, isValid]
    interval_cases month <;> simp [daysInMonth] <;> omega

end PolicyAttachment.Date
