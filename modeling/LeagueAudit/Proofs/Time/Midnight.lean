import LeagueAudit.Proofs.Time.Calendar
import LeagueAudit.Time.Zone

/-!
The days of a zone. Where no change of the clocks touches a midnight, a local day begins at one
instant, its midnight, and holds the instants from there to the next midnight.
-/
namespace LeagueAudit

/-- The day that the clocks of a zone show at a second of universal time. -/
def Zone.dayAt (z : Zone) (second : Int) : Int :=
  (second + z.offsetOfUniversal second).fdiv secondsPerDay

/-- The second of universal time in which the clocks of a zone are read as the midnight that begins
a day. -/
def Zone.midnight (z : Zone) (day : Int) : Int :=
  day * secondsPerDay - z.offsetOfLocal (day * secondsPerDay)

/-- Clocks that are set from one reading to another pass over no midnight, nor do they stop or
start at one. -/
def SparesMidnights (before after : Int) : Prop :=
  ∀ day : Int, ¬(min before after ≤ day * secondsPerDay ∧ day * secondsPerDay ≤ max before after)

/-- The yearly rule of a zone keeps its changes off the midnights. Both changes belong to the year
that they are computed for, and summer time holds the new year in all years or in none: otherwise
the new year would be a change itself. -/
structure SummerTime.SparesMidnights (standard : Int) (s : SummerTime) : Prop where
  offset : -secondsPerDay < s.offset ∧ s.offset < secondsPerDay
  start : ∀ year, LeagueAudit.SparesMidnights (s.start.secondIn year)
    (s.start.secondIn year + (s.offset - standard))
  finish : ∀ year, LeagueAudit.SparesMidnights (s.finish.secondIn year)
    (s.finish.secondIn year - (s.offset - standard))
  start_mem : ∀ year, newYear year * secondsPerDay ≤ s.start.secondIn year ∧
    s.start.secondIn year < newYear (year + 1) * secondsPerDay
  finish_mem : ∀ year, newYear year * secondsPerDay ≤ s.finish.secondIn year ∧
    s.finish.secondIn year < newYear (year + 1) * secondsPerDay
  alike : (∀ year, s.start.secondIn year + (s.offset - standard) < s.finish.secondIn year) ∨
    ∀ year, s.finish.secondIn year ≤ s.start.secondIn year + (s.offset - standard)

/-- A zone whose clocks are not changed around midnight. -/
structure Zone.SparesMidnights (z : Zone) : Prop where
  standard : -secondsPerDay < z.standard ∧ z.standard < secondsPerDay
  summer : ∀ s, z.summer = some s → s.SparesMidnights z.standard

theorem secondsPerDay_eq : secondsPerDay = 86400 := rfl

/-- A change that spares the midnights happens on one side of each of them. -/
theorem SparesMidnights.sides {before after : Int} (h : SparesMidnights before after) (day : Int) :
    (day * secondsPerDay < before ∧ day * secondsPerDay < after) ∨
      (before < day * secondsPerDay ∧ after < day * secondsPerDay) := by
  have hday := h day
  omega

theorem SparesMidnights.sub_lt {before after : Int} (h : SparesMidnights before after) :
    after - before < secondsPerDay ∧ before - after < secondsPerDay := by
  have hday := Int.emod_add_mul_ediv before secondsPerDay
  have hlow := h.sides (before / secondsPerDay)
  have hhigh := h.sides (before / secondsPerDay + 1)
  rw [secondsPerDay_eq] at *
  omega

theorem day_fdiv (day : Int) : (day * secondsPerDay).fdiv secondsPerDay = day := by
  rw [secondsPerDay_eq, Int.fdiv_eq_ediv_of_nonneg _ (by decide)]
  omega

theorem yearOfSecond_midnight (day : Int) :
    yearOfSecond (day * secondsPerDay) = (Date.ofDays day).year := by
  rw [yearOfSecond, day_fdiv]

/-- A second that is less than a day away from a midnight belongs to the year of this midnight, or
to the year before when the midnight is that of a new year. -/
theorem yearOfSecond_near {day second : Int} (hlow : day * secondsPerDay - secondsPerDay < second)
    (hhigh : second < day * secondsPerDay + secondsPerDay) :
    yearOfSecond second = (Date.ofDays day).year ∨
      yearOfSecond second + 1 = (Date.ofDays day).year ∧ day = newYear (Date.ofDays day).year := by
  obtain ⟨hfirst, hlast⟩ := Date.year_ofDays_eq_iff.mp (rfl : (Date.ofDays day).year = _)
  unfold yearOfSecond
  have hdate := Int.fdiv_eq_ediv_of_nonneg second (by decide : (0 : Int) ≤ secondsPerDay)
  generalize second.fdiv secondsPerDay = date at hdate ⊢
  generalize (Date.ofDays day).year = year at *
  rw [secondsPerDay_eq] at hlow hhigh hdate
  obtain rfl | rfl : date = day ∨ date = day - 1 := by omega
  · exact .inl (Date.year_ofDays_eq_iff.mpr ⟨hfirst, hlast⟩)
  · rcases Int.lt_or_eq_of_le hfirst with hlater | hnew
    · exact .inl (Date.year_ofDays_eq_iff.mpr (by omega))
    · have hbefore := Date.newYear_mono (show year - 1 ≤ year by omega)
      have hyear : (Date.ofDays (day - 1)).year = year - 1 :=
        Date.year_ofDays_eq_iff.mpr (by rw [Int.sub_add_cancel]; omega)
      exact .inr ⟨by rw [hyear, Int.sub_add_cancel], hnew.symm⟩

theorem inSpan_iff {start finish moment : Int} : inSpan start finish moment = true ↔
    (start < finish ∧ start ≤ moment ∧ moment < finish) ∨
      (finish ≤ start ∧ ¬(finish ≤ moment ∧ moment < start)) := by
  unfold inSpan
  split
  · simp
    omega
  · simp
    omega

/-- A span is read by the order of its ends and of the moment alone. -/
theorem inSpan_congr {start finish moment start' finish' moment' : Int}
    (hends : start < finish ↔ start' < finish') (hstart : start ≤ moment ↔ start' ≤ moment')
    (hfinish : finish ≤ moment ↔ finish' ≤ moment') :
    inSpan start finish moment = inSpan start' finish' moment' := by
  rw [Bool.eq_iff_iff, inSpan_iff, inSpan_iff]
  omega

section Summer

variable {standard : Int} {s : SummerTime} {day second : Int}

/-- Around a midnight clocks are not changed: summer time holds the seconds around it when it holds
the midnight itself. -/
theorem SummerTime.SparesMidnights.inSpan_near (h : s.SparesMidnights standard)
    (hstandard : -secondsPerDay < standard ∧ standard < secondsPerDay)
    (hlow : day * secondsPerDay - max standard s.offset ≤ second)
    (hhigh : second < day * secondsPerDay - min standard s.offset) :
    inSpan (s.start.secondIn (yearOfSecond second) - standard)
        (s.finish.secondIn (yearOfSecond second) - s.offset) second =
      inSpan (s.start.secondIn (Date.ofDays day).year + (s.offset - standard))
        (s.finish.secondIn (Date.ofDays day).year) (day * secondsPerDay) := by
  have hoffset := h.offset
  have hafter : day * secondsPerDay - secondsPerDay < second := by omega
  have hbefore : second < day * secondsPerDay + secondsPerDay := by omega
  have hnear := yearOfSecond_near hafter hbefore
  generalize yearOfSecond second = year at hnear ⊢
  have hstart := (h.start year).sides day
  have hfinish := (h.finish year).sides day
  rcases hnear with rfl | ⟨hyear, hnew⟩
  · exact inSpan_congr (by omega) (by omega) (by omega)
  · -- The second belongs to the old year, in which both changes are over; those of the new year
    -- lie ahead.
    rw [← hyear] at hnew ⊢
    have hstart' := (h.start (year + 1)).sides day
    have hfinish' := (h.finish (year + 1)).sides day
    have hold := (h.start_mem year).2
    have hold' := (h.finish_mem year).2
    have hahead := (h.start_mem (year + 1)).1
    have hahead' := (h.finish_mem (year + 1)).1
    rw [← hnew] at hold hold' hahead hahead'
    rw [Bool.eq_iff_iff, inSpan_iff, inSpan_iff]
    rcases h.alike with halike | halike
    · have hbefore := halike year
      have hafter := halike (year + 1)
      omega
    · have hbefore := halike year
      have hafter := halike (year + 1)
      omega

end Summer

namespace Zone.SparesMidnights

variable {z : Zone} {day second : Int}

/-- A local day is reached with its midnight. -/
theorem le_dayAt_iff (h : z.SparesMidnights) : day ≤ z.dayAt second ↔ z.midnight day ≤ second := by
  have hdate := Int.fdiv_eq_ediv_of_nonneg (second + z.offsetOfUniversal second)
    (by decide : (0 : Int) ≤ secondsPerDay)
  have hreached : day ≤ z.dayAt second ↔
      day * secondsPerDay ≤ second + z.offsetOfUniversal second := by
    rw [dayAt, hdate, secondsPerDay_eq]
    omega
  rw [hreached, midnight]
  unfold offsetOfUniversal offsetOfLocal
  cases hsummer : z.summer with
  | none =>
    dsimp only
    omega
  | some s =>
    have hspares := h.summer s hsummer
    dsimp only
    rw [yearOfSecond_midnight]
    -- Between the two readings of the midnight both offsets have to be the same one; elsewhere each
    -- of them puts the second on the same side.
    by_cases hnear : day * secondsPerDay - max z.standard s.offset ≤ second ∧
        second < day * secondsPerDay - min z.standard s.offset
    · rw [hspares.inSpan_near h.standard hnear.1 hnear.2]
      split <;> omega
    · split <;> split <;> omega

theorem offsetOfLocal_mem (h : z.SparesMidnights) (second : Int) :
    -secondsPerDay < z.offsetOfLocal second ∧ z.offsetOfLocal second < secondsPerDay := by
  unfold offsetOfLocal
  cases hsummer : z.summer with
  | none => exact h.standard
  | some s =>
    dsimp only
    split
    · exact (h.summer s hsummer).offset
    · exact h.standard

theorem offsetOfUniversal_mem (h : z.SparesMidnights) (second : Int) :
    -secondsPerDay < z.offsetOfUniversal second ∧ z.offsetOfUniversal second < secondsPerDay := by
  unfold offsetOfUniversal
  cases hsummer : z.summer with
  | none => exact h.standard
  | some s =>
    dsimp only
    split
    · exact (h.summer s hsummer).offset
    · exact h.standard

theorem midnight_lt (h : z.SparesMidnights) (day : Int) :
    z.midnight day < z.midnight (day + 1) := by
  have hsecond : (day + 1) * secondsPerDay = day * secondsPerDay + secondsPerDay := by
    rw [Int.add_mul, Int.one_mul]
  unfold midnight offsetOfLocal
  cases hsummer : z.summer with
  | none =>
    dsimp only
    rw [secondsPerDay_eq] at hsecond ⊢
    omega
  | some s =>
    have hgain := ((h.summer s hsummer).start 0).sub_lt
    dsimp only
    rw [hsecond]
    split <;> split <;> omega

end Zone.SparesMidnights

/-- A change of the clocks falls on a weekday of a month, and both of its readings belong to this
day. -/
def YearlyChange.WithinDay (c : YearlyChange) (gain : Int) : Prop :=
  1 ≤ c.month ∧ c.month ≤ 12 ∧ c.week ≤ 5 ∧ 0 < min c.seconds (c.seconds + gain) ∧
    max c.seconds (c.seconds + gain) < secondsPerDay

instance (c : YearlyChange) (gain : Int) : Decidable (c.WithinDay gain) :=
  inferInstanceAs (Decidable (_ ∧ _))

/-- The day of a yearly change. -/
theorem YearlyChange.exists_day (c : YearlyChange) (year : Int) (hweek : c.week ≤ 5) :
    ∃ day : Int, Date.toDays ⟨year, c.month, 1⟩ ≤ day ∧
      day < Date.toDays ⟨year, c.month, 1⟩ + daysInMonth year c.month ∧
      c.secondIn year = day * secondsPerDay + c.seconds := by
  unfold secondIn
  have hlength := (daysInMonth_mem year c.month).1
  generalize hday : (c.weekday + 7 - (weekdayOfDays (Date.toDays ⟨year, c.month, 1⟩) + 1) % 7) % 7 +
    (c.week - 1) * 7 = day
  have hfew : day < 35 := by omega
  dsimp only
  refine ⟨_, ?_, ?_, rfl⟩
  · omega
  · split <;> omega

theorem YearlyChange.WithinDay.sparesMidnights {c : YearlyChange} {gain : Int}
    (h : c.WithinDay gain) (year : Int) :
    SparesMidnights (c.secondIn year) (c.secondIn year + gain) := by
  obtain ⟨-, -, hweek, hlow, hhigh⟩ := h
  obtain ⟨date, -, -, hsecond⟩ := c.exists_day year hweek
  intro day
  rw [hsecond]
  rw [secondsPerDay_eq] at *
  omega

theorem YearlyChange.WithinDay.mem_year {c : YearlyChange} {gain : Int} (h : c.WithinDay gain)
    (year : Int) : newYear year * secondsPerDay ≤ c.secondIn year ∧
      c.secondIn year < newYear (year + 1) * secondsPerDay := by
  obtain ⟨hfirst, hlast, hweek, hlow, hhigh⟩ := h
  obtain ⟨date, hdate, hdate', hsecond⟩ := c.exists_day year hweek
  have hmonth := Date.newYear_le_month year hfirst hlast
  rw [hsecond]
  rw [secondsPerDay_eq] at *
  omega

theorem YearlyChange.WithinDay.lt_of_month {c c' : YearlyChange} {gain gain' : Int}
    (h : c.WithinDay gain) (h' : c'.WithinDay gain') (hmonths : c.month < c'.month) (year : Int) :
    max (c.secondIn year) (c.secondIn year + gain) <
      min (c'.secondIn year) (c'.secondIn year + gain') := by
  obtain ⟨hfirst, hlast, hweek, hlow, hhigh⟩ := h
  obtain ⟨hfirst', hlast', hweek', hlow', hhigh'⟩ := h'
  obtain ⟨date, -, hdate, hsecond⟩ := c.exists_day year hweek
  obtain ⟨date', hdate', -, hsecond'⟩ := c'.exists_day year hweek'
  have hnext := Date.toDays_next_month year hfirst (by omega)
  have hle := Date.toDays_month_mono year (Nat.le_add_left 1 c.month) hmonths hlast'
  rw [hsecond, hsecond']
  rw [secondsPerDay_eq] at *
  omega

/-- Changes that keep within days of two different months spare the midnights. -/
theorem SummerTime.sparesMidnights_of_withinDay {standard : Int} {s : SummerTime}
    (hoffset : -secondsPerDay < s.offset ∧ s.offset < secondsPerDay)
    (hstart : s.start.WithinDay (s.offset - standard))
    (hfinish : s.finish.WithinDay (-(s.offset - standard)))
    (hmonths : s.start.month ≠ s.finish.month) : s.SparesMidnights standard where
  offset := hoffset
  start := hstart.sparesMidnights
  finish := hfinish.sparesMidnights
  start_mem := hstart.mem_year
  finish_mem := hfinish.mem_year
  alike := by
    rcases Nat.lt_or_gt_of_ne hmonths with hmonths | hmonths
    · left
      intro year
      have hlt := hstart.lt_of_month hfinish hmonths year
      omega
    · right
      intro year
      have hlt := hfinish.lt_of_month hstart hmonths year
      omega

/-- No known zone changes its clocks around midnight. -/
theorem sparesMidnights_of_mem_knownZones {z : Zone} (h : z ∈ knownZones) : z.SparesMidnights := by
  have hall : ∀ z ∈ knownZones, (-secondsPerDay < z.standard ∧ z.standard < secondsPerDay) ∧
      ∀ s ∈ z.summer, (-secondsPerDay < s.offset ∧ s.offset < secondsPerDay) ∧
        s.start.WithinDay (s.offset - z.standard) ∧ s.finish.WithinDay (-(s.offset - z.standard)) ∧
        s.start.month ≠ s.finish.month := by decide
  obtain ⟨hstandard, hsummer⟩ := hall z h
  refine ⟨hstandard, fun s hs => ?_⟩
  obtain ⟨hoffset, hstart, hfinish, hmonths⟩ := hsummer s hs
  exact SummerTime.sparesMidnights_of_withinDay hoffset hstart hfinish hmonths

end LeagueAudit
