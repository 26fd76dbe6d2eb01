import JourneyPlanner.Time.Date

/-!
# Days and dates

Every day of the calendar has a date that exists, and the number of this date is the day. A
day is split into its cycle of four hundred years, the century in it, the cycle of four years
and the year, counted from March; the leap day then is the last day of its year.
-/

namespace JourneyPlanner.Date

/-- A day of a cycle of four hundred years by the parts of the cycle that have passed: whole
centuries, cycles of four years, years and days. -/
structure InCycle (number century cycle year day : Int) : Prop where
  /-- There are four centuries. -/
  century_mem : 0 ≤ century ∧ century ≤ 3
  /-- A century has twenty-five cycles. -/
  cycle_mem : 0 ≤ cycle ∧ cycle ≤ 24
  /-- A cycle has four years. -/
  year_mem : 0 ≤ year ∧ year ≤ 3
  /-- Days are counted from the first of March. -/
  day_nonneg : 0 ≤ day
  /-- The parts make up the day. -/
  number_eq : number = 36524 * century + 1461 * cycle + 365 * year + day
  /-- Only the last year of a cycle has a leap day, and the last cycle only in the last
  century. -/
  day_le : day ≤ 364 ∨ day = 365 ∧ year = 3 ∧ (cycle ≠ 24 ∨ century = 3)

/-- Every day of a cycle of four hundred years has such parts. -/
theorem exists_inCycle {number : Int} (hlow : 0 ≤ number) (hhigh : number < 146097) :
    ∃ century cycle year day, InCycle number century cycle year day := by
  obtain ⟨century, hcentury⟩ : ∃ century, century = min 3 (number / 36524) := ⟨_, rfl⟩
  obtain ⟨cycle, hcycle⟩ : ∃ cycle, cycle = (number - 36524 * century) / 1461 := ⟨_, rfl⟩
  obtain ⟨year, hyear⟩ :
      ∃ year, year = min 3 ((number - 36524 * century - 1461 * cycle) / 365) := ⟨_, rfl⟩
  refine ⟨century, cycle, year, number - 36524 * century - 1461 * cycle - 365 * year,
    ?_, ?_, ?_, ?_, ?_, ?_⟩ <;> omega

namespace InCycle

variable {number century cycle year day : Int}

/-- The year of a day within its cycle of four hundred years. -/
theorem yearOfEra_eq (h : InCycle number century cycle year day) :
    (number - number / 1460 + number / 36524 - number / 146096) / 365 =
      100 * century + 4 * cycle + year := by
  obtain ⟨hcentury, hcycle, hyear, hday, rfl, hle⟩ := h
  by_cases hlast : 36524 * century + 1461 * cycle + 365 * year + day = 146096
  · omega
  · have hcenturies : (36524 * century + 1461 * cycle + 365 * year + day) / 36524 = century := by
      omega
    have hwhole : (36524 * century + 1461 * cycle + 365 * year + day) / 146096 = 0 := by omega
    rw [hcenturies, hwhole]
    omega

/-- The day of its year. -/
theorem dayOfYear_eq (h : InCycle number century cycle year day) {yearOfEra : Int}
    (hyear : yearOfEra = 100 * century + 4 * cycle + year) :
    number - (365 * yearOfEra + yearOfEra / 4 - yearOfEra / 100) = day := by
  obtain ⟨hcentury, hcycle, hyears, hday, rfl, hle⟩ := h
  omega

end InCycle

/-- The date of a day of a year, both counted from March. -/
def inYear (year dayOfYear : Int) : Date :=
  let fromMarch := (5 * dayOfYear + 2) / 153
  let day := dayOfYear - (153 * fromMarch + 2) / 5 + 1
  let month := if fromMarch < 10 then fromMarch + 3 else fromMarch - 9
  ⟨if month ≤ 2 then year + 1 else year, month.toNat, day.toNat⟩

/-- A day is a day of the year that its parts come to. -/
theorem ofDayNumber_eq {number century cycle year day : Int}
    (h : InCycle ((number + 719468) % 146097) century cycle year day) :
    ofDayNumber number =
      inYear (100 * century + 4 * cycle + year + (number + 719468) / 146097 * 400) day := by
  unfold ofDayNumber
  dsimp only
  rw [h.yearOfEra_eq, h.dayOfYear_eq rfl]
  rfl

/-- A date is in one of the ten months from March on, or in January or February of the next
year. -/
theorem exists_inYear (year : Int) {dayOfYear : Int} (hlow : 0 ≤ dayOfYear)
    (hhigh : dayOfYear ≤ 365) :
    ∃ months day : Nat, (months : Int) = (5 * dayOfYear + 2) / 153 ∧
      (day : Int) = dayOfYear - (153 * months + 2) / 5 + 1 ∧
      (months < 10 ∧ inYear year dayOfYear = ⟨year, months + 3, day⟩ ∨
        10 ≤ months ∧ inYear year dayOfYear = ⟨year + 1, months - 9, day⟩) := by
  obtain ⟨months, hmonths⟩ : ∃ months : Nat, (months : Int) = (5 * dayOfYear + 2) / 153 :=
    ⟨((5 * dayOfYear + 2) / 153).toNat, by omega⟩
  obtain ⟨day, hday⟩ : ∃ day : Nat, (day : Int) = dayOfYear - (153 * months + 2) / 5 + 1 :=
    ⟨(dayOfYear - (153 * months + 2) / 5 + 1).toNat, by omega⟩
  refine ⟨months, day, hmonths, hday, ?_⟩
  unfold inYear
  dsimp only
  rw [← hmonths, ← hday]
  by_cases hspring : months < 10
  · have hmonth : (if (months : Int) < 10 then (months : Int) + 3 else months - 9) =
        ((months + 3 : Nat) : Int) := by
      rw [if_pos (by omega)]
      rfl
    left
    rw [hmonth, if_neg (by omega), Int.toNat_natCast, Int.toNat_natCast]
    exact ⟨hspring, rfl⟩
  · have hwinter : 10 ≤ months := Nat.not_lt.1 hspring
    have hmonth : (if (months : Int) < 10 then (months : Int) + 3 else months - 9) =
        ((months - 9 : Nat) : Int) := by
      rw [if_neg (by omega)]
      omega
    have hlast : months ≤ 11 := by omega
    right
    rw [hmonth, if_pos (by omega), Int.toNat_natCast, Int.toNat_natCast]
    exact ⟨hwinter, rfl⟩

/-- The days up to a year, counted from March, and those of the year make up the number of its
date. -/
theorem dayNumber_inYear {year dayOfYear : Int} (hlow : 0 ≤ dayOfYear) (hhigh : dayOfYear ≤ 365) :
    (inYear year dayOfYear).dayNumber =
      365 * year + year / 4 - year / 100 + year / 400 + dayOfYear - 719468 := by
  obtain ⟨months, day, hmonths, hday, ⟨hspring, hdate⟩ | ⟨hwinter, hdate⟩⟩ :=
    exists_inYear year hlow hhigh
  · have hmonth : (((months + 3 : Nat) : Int) + 9) % 12 = months := by omega
    rw [hdate, dayNumber, if_neg (by simp)]
    dsimp only
    rw [hmonth]
    omega
  · have hlast : months ≤ 11 := by omega
    have hmonth : (((months - 9 : Nat) : Int) + 9) % 12 = months := by omega
    rw [hdate, dayNumber, if_pos (by dsimp only; omega)]
    dsimp only
    rw [hmonth, Int.add_sub_cancel]
    omega

/-- A day of a year exists, the last one only in the year before a leap day. -/
theorem isValid_inYear {year dayOfYear : Int} (hlow : 0 ≤ dayOfYear)
    (hhigh : dayOfYear ≤ 364 ∨ dayOfYear = 365 ∧ isLeapYear (year + 1) = true) :
    (inYear year dayOfYear).isValid = true := by
  obtain ⟨months, day, hmonths, hday, ⟨hspring, hdate⟩ | ⟨hwinter, hdate⟩⟩ :=
    exists_inYear year hlow (by omega)
  · rw [hdate]
    simp only [isValid, daysInMonth, Bool.and_eq_true, decide_eq_true_eq]
    rw [if_neg (by omega)]
    split <;> omega
  · rw [hdate]
    simp only [isValid, daysInMonth, Bool.and_eq_true, decide_eq_true_eq]
    rcases hhigh with hhigh | ⟨rfl, hleap⟩
    · split
      · split <;> omega
      · rw [if_neg (by omega)]
        omega
    · rw [if_pos (by omega), if_pos hleap]
      omega

/-- The year before a leap day is the last of its cycle of four years, and of its century only
in the last one. -/
theorem isLeapYear_of_inCycle {century cycle era : Int} (hcycle : 0 ≤ cycle ∧ cycle ≤ 24)
    (hlast : cycle ≠ 24 ∨ century = 3) :
    isLeapYear (100 * century + 4 * cycle + 3 + era * 400 + 1) = true := by
  simp only [isLeapYear, Bool.and_eq_true, Bool.or_eq_true, beq_iff_eq, bne_iff_ne]
  omega

/-- The date of a day exists. -/
theorem isValid_ofDayNumber (number : Int) : (ofDayNumber number).isValid = true := by
  obtain ⟨century, cycle, year, day, h⟩ :=
    exists_inCycle (Int.emod_nonneg (number + 719468) (by omega))
      (Int.emod_lt_of_pos (number + 719468) (by omega))
  rw [ofDayNumber_eq h]
  refine isValid_inYear h.day_nonneg (h.day_le.imp id ?_)
  rintro ⟨hday, rfl, hlast⟩
  exact ⟨hday, isLeapYear_of_inCycle h.cycle_mem hlast⟩

/-- The date of a day has the day's number. -/
theorem dayNumber_ofDayNumber (number : Int) : (ofDayNumber number).dayNumber = number := by
  obtain ⟨century, cycle, year, day, h⟩ :=
    exists_inCycle (Int.emod_nonneg (number + 719468) (by omega))
      (Int.emod_lt_of_pos (number + 719468) (by omega))
  rw [ofDayNumber_eq h, dayNumber_inYear h.day_nonneg (by have := h.day_le; omega)]
  obtain ⟨hcentury, hcycle, hyear, hday, heq, -⟩ := h
  omega

end JourneyPlanner.Date
