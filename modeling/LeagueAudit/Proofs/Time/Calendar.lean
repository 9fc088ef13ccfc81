import LeagueAudit.Time.Calendar

/-!
Days and dates of the Gregorian calendar are two names of one thing: every day number has one date,
which has that day number again, and the days of a year lie between its new year and the next one.
-/
namespace LeagueAudit

theorem daysInMonth_mem (year : Int) (month : Nat) :
    28 ≤ daysInMonth year month ∧ daysInMonth year month ≤ 31 := by
  unfold daysInMonth
  split
  · split <;> decide
  · split <;> decide

/-- The days up to the first of March of a year, from that of the year zero on. -/
def marchStart (year : Int) : Int := year * 365 + year.fdiv 4 - year.fdiv 100 + year.fdiv 400

theorem marchStart_eq (year : Int) :
    marchStart year = year * 365 + year / 4 - year / 100 + year / 400 := by
  unfold marchStart
  rw [Int.fdiv_eq_ediv_of_nonneg _ (by decide), Int.fdiv_eq_ediv_of_nonneg _ (by decide),
    Int.fdiv_eq_ediv_of_nonneg _ (by decide)]

theorem isLeapYear_iff (year : Int) :
    isLeapYear year = true ↔ year % 4 = 0 ∧ (year % 100 ≠ 0 ∨ year % 400 = 0) := by
  simp [isLeapYear]

/-- The leap day of a year ends the year that is counted from March. -/
theorem marchStart_succ (year : Int) :
    marchStart (year + 1) = marchStart year + if isLeapYear (year + 1) then 366 else 365 := by
  have hleap := isLeapYear_iff (year + 1)
  rw [marchStart_eq, marchStart_eq]
  split
  · next h =>
    have hyear := hleap.mp h
    omega
  · next h =>
    have hyear := mt hleap.mpr h
    omega

theorem marchStart_mono {year later : Int} (h : year ≤ later) :
    marchStart year + 365 * (later - year) ≤ marchStart later := by
  rw [marchStart_eq, marchStart_eq]
  omega

theorem marchStart_add_cycles (era year : Int) :
    marchStart (era * 400 + year) = era * 146097 + marchStart year := by
  rw [marchStart_eq, marchStart_eq]
  omega

/-- The first day of a year. -/
def newYear (year : Int) : Int := Date.toDays ⟨year, 1, 1⟩

theorem newYear_eq (year : Int) : newYear year = marchStart (year - 1) + 306 - 719468 := by
  simp [newYear, Date.toDays, marchStart]

namespace Date

/-- The year of a day of a cycle of 400 years, counted from March. -/
def cycleYear (day : Nat) : Nat := (day - day / 1460 + day / 36524 - day / 146096) / 365

/-- A cycle of 400 years has four times a hundred years, which have four years at a time. The last
day of four years, and that of the whole cycle, is a leap day. -/
structure CycleParts (day century four year rest : Nat) : Prop where
  century_le : century ≤ 3
  four_le : four ≤ 24
  year_le : year ≤ 3
  rest_lt : rest < 365 ∨ rest = 365 ∧ year = 3 ∧ (four < 24 ∨ century = 3)
  day_eq : day = 36524 * century + 1461 * four + 365 * year + rest

theorem exists_cycleParts {day : Nat} (h : day < 146097) :
    ∃ century four year rest, CycleParts day century four year rest := by
  -- The last century and the last year of four have a day more than the divisors.
  obtain ⟨century, hcentury⟩ : ∃ c, c = min 3 (day / 36524) := ⟨_, rfl⟩
  obtain ⟨rest, hrest⟩ : ∃ r, r = day - 36524 * century := ⟨_, rfl⟩
  have hlast : rest < 36524 ∨ rest = 36524 ∧ century = 3 := by omega
  obtain ⟨year, hyear⟩ : ∃ y, y = min 3 (rest % 1461 / 365) := ⟨_, rfl⟩
  refine ⟨century, rest / 1461, year, rest % 1461 - 365 * year, ?_⟩
  constructor <;> omega

theorem CycleParts.cycleYear_eq {day century four year rest : Nat}
    (h : CycleParts day century four year rest) :
    cycleYear day = 100 * century + 4 * four + year := by
  obtain ⟨hcentury, hfour, hyear, hrest, hday⟩ := h
  have hcenturies : day / 36524 = century + day / 146096 := by
    rcases Nat.lt_or_ge day 146096 with h | h
    · rw [Nat.div_eq_of_lt h]
      omega
    · obtain rfl : day = 146096 := by omega
      omega
  unfold cycleYear
  -- Four years have one day more than the formula takes for them.
  rcases Nat.lt_or_ge (24 * century + four + 365 * year + rest) 1460 with h | h
  · have hfours : day / 1460 = 25 * century + four := by omega
    omega
  · have hfours : day / 1460 = 25 * century + four + 1 := by omega
    omega

theorem CycleParts.marchStart_add {day century four year rest : Nat}
    (h : CycleParts day century four year rest) :
    marchStart (cycleYear day) + rest = day ∧ (day : Int) < marchStart (cycleYear day + 1) := by
  rw [h.cycleYear_eq, marchStart_eq, marchStart_eq]
  obtain ⟨hcentury, hfour, hyear, hrest, hday⟩ := h
  push_cast
  have hcenturies : (100 * century + 4 * four + year : Int) / 100 = century := by omega
  have hcycles : (100 * century + 4 * four + year : Int) / 400 = 0 := by omega
  constructor
  · omega
  · rcases hrest with hrest | ⟨rfl, rfl, hleap⟩
    · omega
    · omega

/-- A day by the year that is counted from March, and by its place in this year. -/
structure MarchParts (days year : Int) (place : Nat) : Prop where
  day_eq : days + 719468 = marchStart year + place
  place_lt : marchStart year + place < marchStart (year + 1)

/-- The month of the calendar for a month that is counted from March. -/
def civilMonth (month : Nat) : Nat := if month < 10 then month + 3 else month - 9

/-- The date of a place in a year that is counted from March. -/
def ofMarch (year : Int) (place : Nat) : Date :=
  let month := (5 * place + 2) / 153
  ⟨if civilMonth month ≤ 2 then year + 1 else year, civilMonth month,
    place - (153 * month + 2) / 5 + 1⟩

theorem exists_marchParts (days : Int) :
    ∃ year place, MarchParts days year place ∧ ofDays days = ofMarch year place := by
  have hera := Int.fdiv_eq_ediv_of_nonneg (days + 719468) (by decide : (0 : Int) ≤ 146097)
  obtain ⟨era, hdays⟩ : ∃ era, era = (days + 719468).fdiv 146097 := ⟨_, rfl⟩
  obtain ⟨day, hday⟩ : ∃ day, day = (days + 719468 - era * 146097).toNat := ⟨_, rfl⟩
  have hlt : day < 146097 := by omega
  obtain ⟨century, four, year, rest, h⟩ := exists_cycleParts hlt
  obtain ⟨hstart, hend⟩ := h.marchStart_add
  have hplace : day - (365 * cycleYear day + cycleYear day / 4 - cycleYear day / 100) = rest := by
    rw [marchStart_eq] at hstart
    have := h.cycleYear_eq
    obtain ⟨hcentury, hfour, hyear, hrest, heq⟩ := h
    omega
  refine ⟨era * 400 + cycleYear day, rest, ⟨?_, ?_⟩, ?_⟩
  · rw [marchStart_add_cycles]
    omega
  · rw [Int.add_assoc (era * 400), marchStart_add_cycles, marchStart_add_cycles]
    omega
  · rw [← hplace, hday, hdays]
    rfl

/-- A month of a year, and a day of this month. -/
structure InMonth (d : Date) : Prop where
  month_pos : 1 ≤ d.month
  month_le : d.month ≤ 12
  day_pos : 1 ≤ d.day
  day_le : d.day ≤ daysInMonth d.year d.month

theorem toDays_eq (d : Date) : d.toDays =
    marchStart (if d.month ≤ 2 then d.year - 1 else d.year) +
      (((153 * ((d.month + 9) % 12) + 2) / 5 : Nat) + d.day - 1 : Int) - 719468 := by
  rw [toDays, marchStart]
  omega

theorem civilMonth_add {month : Nat} (h : month < 12) : (civilMonth month + 9) % 12 = month := by
  unfold civilMonth
  split <;> omega

theorem MarchParts.place_le {days year : Int} {place : Nat} (h : MarchParts days year place) :
    place ≤ 364 ∨ place = 365 ∧ isLeapYear (year + 1) = true := by
  have hlt := h.place_lt
  rw [marchStart_succ] at hlt
  split at hlt
  · next hleap =>
    rcases Nat.lt_or_ge place 365 with hplace | hplace
    · exact .inl (by omega)
    · exact .inr ⟨by omega, hleap⟩
  · exact .inl (by omega)

theorem MarchParts.toDays_ofMarch {days year : Int} {place : Nat} (h : MarchParts days year place) :
    (ofMarch year place).toDays = days := by
  have hday := h.day_eq
  have hmonth : (5 * place + 2) / 153 < 12 := by
    have hplace := h.place_le
    omega
  have hback : (if civilMonth ((5 * place + 2) / 153) ≤ 2 then
      (if civilMonth ((5 * place + 2) / 153) ≤ 2 then year + 1 else year) - 1
      else if civilMonth ((5 * place + 2) / 153) ≤ 2 then year + 1 else year) = year := by
    split <;> omega
  rw [toDays_eq, ofMarch]
  dsimp only
  rw [hback, civilMonth_add hmonth]
  omega

/-- The days of the months that are counted from March, but for the last one. -/
theorem daysInMonth_civilMonth {month : Nat} (h : month < 11) (year : Int) :
    daysInMonth year (civilMonth month) + (153 * month + 2) / 5 = (153 * (month + 1) + 2) / 5 := by
  have hdays : ∀ month < 11, civilMonth month ≠ 2 ∧
      (if civilMonth month = 4 || civilMonth month = 6 || civilMonth month = 9 ||
        civilMonth month = 11 then 30 else 31) + (153 * month + 2) / 5 =
        (153 * (month + 1) + 2) / 5 := by decide
  obtain ⟨hshort, hlong⟩ := hdays month h
  rw [daysInMonth, if_neg hshort, hlong]

theorem MarchParts.inMonth_ofMarch {days year : Int} {place : Nat}
    (h : MarchParts days year place) : InMonth (ofMarch year place) := by
  have hplace := h.place_le
  have hmonth : (5 * place + 2) / 153 < 12 := by omega
  obtain ⟨month, hm⟩ : ∃ month, month = (5 * place + 2) / 153 := ⟨_, rfl⟩
  unfold ofMarch
  rw [← hm] at hmonth ⊢
  refine ⟨?_, ?_, Nat.le_add_left 1 _, ?_⟩
  · dsimp only
    unfold civilMonth
    split <;> omega
  · dsimp only
    unfold civilMonth
    split <;> omega
  · dsimp only
    rcases Nat.lt_or_ge month 11 with hfull | hlast
    · have hdays := daysInMonth_civilMonth hfull
        (if civilMonth month ≤ 2 then year + 1 else year)
      omega
    · -- The last month is February, which has a day more in leap years.
      obtain rfl : month = 11 := by omega
      change place - 337 + 1 ≤ if isLeapYear (year + 1) then 29 else 28
      split
      · omega
      · next hcommon =>
        have hcommon : place ≤ 364 := hplace.resolve_right fun h => hcommon h.2
        omega

/-- A day number is that of its date. -/
@[simp]
theorem toDays_ofDays (days : Int) : (ofDays days).toDays = days := by
  obtain ⟨year, place, h, hdate⟩ := exists_marchParts days
  rw [hdate, h.toDays_ofMarch]

theorem inMonth_ofDays (days : Int) : InMonth (ofDays days) := by
  obtain ⟨year, place, h, hdate⟩ := exists_marchParts days
  rw [hdate]
  exact h.inMonth_ofMarch

theorem toDays_eq_add (year : Int) (month day : Nat) :
    toDays ⟨year, month, day⟩ = toDays ⟨year, month, 1⟩ + (day - 1) := by
  rw [toDays_eq, toDays_eq]
  dsimp only
  omega

/-- A month begins when the one before it ends. -/
theorem toDays_next_month (year : Int) {month : Nat} (h : 1 ≤ month) (h' : month ≤ 11) :
    toDays ⟨year, month + 1, 1⟩ = toDays ⟨year, month, 1⟩ + daysInMonth year month := by
  have hnext := marchStart_succ (year - 1)
  rw [Int.sub_add_cancel] at hnext
  rw [toDays_eq, toDays_eq]
  dsimp only
  rcases Nat.lt_or_ge 2 month with hlate | hearly
  · have hmonth : civilMonth (month - 3) = month := by
      unfold civilMonth
      split <;> omega
    have hfull : month - 3 < 11 := by omega
    have hdays := daysInMonth_civilMonth hfull year
    rw [hmonth] at hdays
    have hmarch : (month + 9) % 12 = month - 3 := by omega
    have hmarch' : (month + 1 + 9) % 12 = month - 3 + 1 := by omega
    rw [if_neg (by omega), if_neg (by omega), hmarch, hmarch']
    omega
  · obtain rfl | rfl : month = 1 ∨ month = 2 := by omega
    · have hdays : daysInMonth year 1 = 31 := rfl
      rw [if_pos (by decide), if_pos (by decide), hdays]
      omega
    · have hdays : daysInMonth year 2 = if isLeapYear year then 29 else 28 := rfl
      rw [if_neg (by decide), if_pos (by decide), hdays, hnext]
      by_cases hleap : isLeapYear year = true
      · rw [if_pos hleap, if_pos hleap]
        omega
      · rw [if_neg hleap, if_neg hleap]
        omega

theorem toDays_month_mono (year : Int) {month later : Nat} (h : 1 ≤ month) (hle : month ≤ later)
    (h' : later ≤ 12) : toDays ⟨year, month, 1⟩ ≤ toDays ⟨year, later, 1⟩ := by
  induction hle with
  | refl => exact Int.le_refl _
  | @step later hle ih =>
    have hnext := toDays_next_month year (Nat.le_trans h hle) (Nat.le_of_succ_le_succ h')
    have hbefore := ih (Nat.le_of_succ_le h')
    rw [Nat.succ_eq_add_one, hnext]
    omega

/-- A month lies in its year. -/
theorem newYear_le_month (year : Int) {month : Nat} (h : 1 ≤ month) (h' : month ≤ 12) :
    newYear year ≤ toDays ⟨year, month, 1⟩ ∧
      toDays ⟨year, month, 1⟩ + daysInMonth year month ≤ newYear (year + 1) := by
  refine ⟨toDays_month_mono year (Nat.le_refl 1) h h', ?_⟩
  have hdecember : toDays ⟨year, 12, 1⟩ + 31 = newYear (year + 1) := by
    rw [newYear_eq, toDays_eq, Int.add_sub_cancel]
    dsimp only
    rw [if_neg (by decide)]
    omega
  rcases Nat.lt_or_ge month 12 with hearly | hlast
  · have hnext := toDays_next_month year h (Nat.le_of_lt_succ hearly)
    have hle := toDays_month_mono year (Nat.le_add_left 1 month) hearly (Nat.le_refl 12)
    omega
  · obtain rfl : month = 12 := Nat.le_antisymm h' hlast
    have hdays : daysInMonth year 12 = 31 := rfl
    rw [hdays, ← hdecember]
    exact Int.le_refl _

theorem InMonth.toDays_mem {d : Date} (h : InMonth d) :
    newYear d.year ≤ d.toDays ∧ d.toDays < newYear (d.year + 1) := by
  obtain ⟨hfirst, hlast⟩ := newYear_le_month d.year h.month_pos h.month_le
  have hday : d.toDays = toDays ⟨d.year, d.month, 1⟩ + (d.day - 1) :=
    toDays_eq_add d.year d.month d.day
  have hpos := h.day_pos
  have hle := h.day_le
  omega

theorem newYear_mono {year later : Int} (h : year ≤ later) :
    newYear year + 365 * (later - year) ≤ newYear later := by
  have hstart := marchStart_mono (Int.sub_le_sub_right h 1)
  rw [newYear_eq, newYear_eq]
  omega

/-- The year of a day. -/
theorem year_ofDays_eq_iff {days year : Int} :
    (ofDays days).year = year ↔ newYear year ≤ days ∧ days < newYear (year + 1) := by
  have hmem := (inMonth_ofDays days).toDays_mem
  rw [toDays_ofDays] at hmem
  constructor
  · rintro rfl
    exact hmem
  · rintro ⟨hfirst, hlast⟩
    rcases Int.lt_trichotomy (ofDays days).year year with h | h | h
    · have hle := newYear_mono (show (ofDays days).year + 1 ≤ year from h)
      omega
    · exact h
    · have hle := newYear_mono (show year + 1 ≤ (ofDays days).year from h)
      omega

theorem valid_iff {d : Date} : d.valid = true ↔ (1 ≤ d.year ∧ d.year ≤ 9999) ∧ InMonth d := by
  simp only [valid, Bool.and_eq_true, decide_eq_true_eq]
  constructor
  · rintro ⟨⟨⟨⟨⟨hlow, hhigh⟩, hmonth⟩, hmonth'⟩, hday⟩, hday'⟩
    exact ⟨⟨hlow, hhigh⟩, hmonth, hmonth', hday, hday'⟩
  · rintro ⟨⟨hlow, hhigh⟩, hmonth, hmonth', hday, hday'⟩
    exact ⟨⟨⟨⟨⟨hlow, hhigh⟩, hmonth⟩, hmonth'⟩, hday⟩, hday'⟩

/-- The days of the years of four digits have valid dates. -/
theorem valid_ofDays {days : Int} (hfirst : firstDay ≤ days) (hlast : days ≤ lastDay) :
    (ofDays days).valid = true := by
  have hin := inMonth_ofDays days
  have hmem := hin.toDays_mem
  rw [toDays_ofDays] at hmem
  have hlow : 1 ≤ (ofDays days).year := by
    refine Int.not_lt.mp fun h => ?_
    have hle := newYear_mono (show (ofDays days).year + 1 ≤ 1 by omega)
    have hone : newYear 1 = firstDay := rfl
    omega
  have hhigh : (ofDays days).year ≤ 9999 := by
    refine Int.not_lt.mp fun h => ?_
    have hle := newYear_mono (show 10000 ≤ (ofDays days).year by omega)
    have hlate : newYear 10000 = lastDay + 1 := by decide
    omega
  exact valid_iff.mpr ⟨⟨hlow, hhigh⟩, hin⟩

theorem toDays_mem_of_valid {d : Date} (h : d.valid = true) :
    firstDay ≤ d.toDays ∧ d.toDays ≤ lastDay := by
  obtain ⟨⟨hlow, hhigh⟩, hin⟩ := valid_iff.mp h
  obtain ⟨hfirst, hlast⟩ := hin.toDays_mem
  have hafter := newYear_mono hlow
  have hbefore := newYear_mono (show d.year + 1 ≤ 10000 by omega)
  have hone : newYear 1 = firstDay := rfl
  have hlate : newYear 10000 = lastDay + 1 := by decide
  omega

/-- The day after a date. -/
def next (d : Date) : Date := .ofDays (d.toDays + 1)

@[simp] theorem toDays_next (d : Date) : d.next.toDays = d.toDays + 1 := toDays_ofDays _

theorem lt_lastDay_of_next {d : Date} (h : d.next.valid = true) : d.toDays < lastDay := by
  have hnext := (toDays_mem_of_valid h).2
  rw [toDays_next] at hnext
  omega

end Date
end LeagueAudit
