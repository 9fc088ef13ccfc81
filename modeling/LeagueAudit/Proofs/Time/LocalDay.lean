import LeagueAudit.Proofs.Time.Bounds
import LeagueAudit.Proofs.Time.Limits
import Mathlib.Order.Monotone.Basic

/-!
Dates on the clocks of a zone. Where changes of the clocks spare the midnights, clocks show a date
from the start of its day to the start of the next one, so that the bounds that are read from dates
are those of the instants at which the dates are shown.
-/
namespace LeagueAudit

/-- Different dates are written differently. -/
theorem Date.text_inj {d d' : Date} (hd : d.valid = true) (hd' : d'.valid = true)
    (h : d.text = d'.text) : d = d' := by
  have hread := (isDay_text hd).read
  rw [h, (isDay_text hd').read] at hread
  exact (congrArg LocalTime.date (Option.some.inj hread)).symm

theorem date_of_localParts {z : Zone} {ms : Int} {parts : LocalParts}
    (h : localParts z ms = .ok parts) :
    parts.date = (Date.ofDays (z.dayAt (ms.fdiv 1000))).text := by
  unfold localParts at h
  dsimp only at h
  split at h
  · cases h
  · split at h
    · cases h
    · cases Except.ok.inj h
      rfl

/-- The dates from a first to a last one, which is not the last of the calendar. -/
structure DateRange where
  first : Date
  last : Date
  first_valid : first.valid = true
  last_valid : last.valid = true
  ordered : first.toDays ≤ last.toDays
  followed : last.toDays < lastDay

/-- A range of dates as documents declare it. -/
def DateRange.toJson (range : DateRange) : Json :=
  .obj [("start", .str range.first.text), ("end", .str range.last.text)]

namespace Zone

variable {z : Zone} {range : DateRange} {start ms : Int}

/-- The clocks of a zone show, at an instant, one of the dates of a range. -/
def ShowsDateIn (z : Zone) (range : DateRange) (ms : Int) : Prop :=
  ∃ (parts : LocalParts) (d : Date), localParts z ms = .ok parts ∧ parts.date = d.text ∧
    d.valid = true ∧ range.first.toDays ≤ d.toDays ∧ d.toDays ≤ range.last.toDays

theorem showsDateIn_iff : z.ShowsDateIn range ms ↔ ShowsClocks z ms ∧
    range.first.toDays ≤ z.dayAt (ms.fdiv 1000) ∧
      z.dayAt (ms.fdiv 1000) ≤ range.last.toDays := by
  have hvalid : ShowsClocks z ms → (Date.ofDays (z.dayAt (ms.fdiv 1000))).valid = true := by
    rintro ⟨-, hthere⟩
    obtain ⟨hfirst, hlast⟩ := inCalendar_iff.mp hthere
    exact Date.valid_ofDays hfirst hlast
  constructor
  · rintro ⟨parts, d, hparts, hdate, hd, hfirst, hlast⟩
    have hshows := exists_localParts.mp ⟨parts, hparts⟩
    rw [date_of_localParts hparts] at hdate
    rw [← Date.text_inj (hvalid hshows) hd hdate, Date.toDays_ofDays] at hfirst hlast
    exact ⟨hshows, hfirst, hlast⟩
  · rintro ⟨hshows, hfirst, hlast⟩
    obtain ⟨parts, hparts⟩ := exists_localParts.mpr hshows
    refine ⟨parts, _, hparts, date_of_localParts hparts, hvalid hshows, ?_⟩
    exact ⟨by rwa [Date.toDays_ofDays], by rwa [Date.toDays_ofDays]⟩

namespace SparesMidnights

theorem dayStart_le_iff (h : z.SparesMidnights) {day : Int} :
    z.dayStart day ≤ ms ↔ day ≤ z.dayAt (ms.fdiv 1000) := by
  have hsecond := Int.fdiv_eq_ediv_of_nonneg ms (by decide : (0 : Int) ≤ 1000)
  rw [h.le_dayAt_iff, dayStart, hsecond]
  omega

/-- The day in a zone is at most one day ahead of that of universal time, or one behind it. -/
theorem fdiv_near_dayAt (h : z.SparesMidnights) (second : Int) :
    z.dayAt second - 1 ≤ second.fdiv secondsPerDay ∧
      second.fdiv secondsPerDay ≤ z.dayAt second + 1 := by
  have hoffset := h.offsetOfUniversal_mem second
  rw [dayAt, secondsPerDay_eq, Int.fdiv_eq_ediv_of_nonneg _ (by decide),
    Int.fdiv_eq_ediv_of_nonneg _ (by decide)]
  rw [secondsPerDay_eq] at hoffset
  omega

/-- An instant can be shown when an earlier one can and its day is not the last of the calendar. -/
theorem showsClocks_of_le (h : z.SparesMidnights) (hstart : ShowsClocks z start) (hle : start ≤ ms)
    (hfirst : firstDay ≤ z.dayAt (ms.fdiv 1000)) (hlast : z.dayAt (ms.fdiv 1000) < lastDay) :
    ShowsClocks z ms := by
  have hnear := h.fdiv_near_dayAt (ms.fdiv 1000)
  have hlater : (start.fdiv 1000).fdiv secondsPerDay ≤ (ms.fdiv 1000).fdiv secondsPerDay := by
    rw [secondsPerDay_eq]
    simp only [Int.fdiv_eq_ediv_of_nonneg _ (by decide : (0 : Int) ≤ 1000),
      Int.fdiv_eq_ediv_of_nonneg _ (by decide : (0 : Int) ≤ 86400)]
    omega
  have huniversal := inCalendar_iff.mp hstart.universal
  exact ⟨inCalendar_iff.mpr (by omega), inCalendar_iff.mpr ⟨hfirst, hlast.le⟩⟩

/-- The instant that opens a range of dates. -/
theorem readBound_first (h : z.SparesMidnights) (range : DateRange) :
    readBound z false (.str range.first.text) = .ok (some (z.dayStart range.first.toDays)) := by
  have hdays := Date.toDays_mem_of_valid range.first_valid
  rw [readBound_start z (Date.isDay_text range.first_valid), h.millis_midnight hdays.1 hdays.2]

/-- The instant that closes a range of dates. -/
theorem readBound_last (h : z.SparesMidnights) (range : DateRange) :
    readBound z true (.str range.last.text) = .ok (some (z.dayStart (range.last.toDays + 1))) := by
  have hfirst := (Date.toDays_mem_of_valid range.last_valid).1
  have hlast := range.followed
  have hten : range.last.text.length = 10 := by
    rw [← String.length_toList, Date.length_text range.last_valid]
  rw [readBound_end z (Date.isDay_text range.last_valid) hten hlast,
    h.millis_midnight (by omega) (by omega)]

/-- Clocks show dates of a range from the instant that opens it to the one that closes it. -/
theorem showsDateIn_iff_dayStart (h : z.SparesMidnights) (hstart : ShowsClocks z start)
    (hle : start ≤ ms) : z.ShowsDateIn range ms ↔
      z.dayStart range.first.toDays ≤ ms ∧ ms < z.dayStart (range.last.toDays + 1) := by
  have hlow := (Date.toDays_mem_of_valid range.first_valid).1
  have hhigh := range.followed
  have hfrom : z.dayStart range.first.toDays ≤ ms ↔ range.first.toDays ≤ z.dayAt (ms.fdiv 1000) :=
    h.dayStart_le_iff
  have hbehind : z.dayStart (range.last.toDays + 1) ≤ ms ↔
      range.last.toDays + 1 ≤ z.dayAt (ms.fdiv 1000) := h.dayStart_le_iff
  rw [showsDateIn_iff]
  constructor
  · rintro ⟨-, hday, hday'⟩
    omega
  · rintro ⟨hms, hms'⟩
    have hday := hfrom.mp hms
    have hday' : ¬range.last.toDays + 1 ≤ z.dayAt (ms.fdiv 1000) := fun hlate => by omega
    exact ⟨h.showsClocks_of_le hstart hle (by omega) (by omega), hday, by omega⟩

theorem dayStart_lt (h : z.SparesMidnights) (range : DateRange) :
    z.dayStart range.first.toDays < z.dayStart (range.last.toDays + 1) := by
  have hmono : StrictMono z.midnight := strictMono_int_of_lt_succ h.midnight_lt
  have hlt := hmono (Int.lt_add_one_of_le range.ordered)
  rw [dayStart, dayStart]
  omega

/-- A span of time meets a range of dates when it lies around one of its instants. -/
theorem exists_showsDateIn (h : z.SparesMidnights) (hstart : ShowsClocks z start) {finish : Int}
    (hlt : start < finish) :
    (∃ t, start ≤ t ∧ t < finish ∧ z.ShowsDateIn range t) ↔
      start < z.dayStart (range.last.toDays + 1) ∧ z.dayStart range.first.toDays < finish := by
  have hordered := h.dayStart_lt range
  constructor
  · rintro ⟨t, hle, hbefore, hshows⟩
    obtain ⟨hfrom, hto⟩ := (h.showsDateIn_iff_dayStart hstart hle).mp hshows
    omega
  · rintro ⟨hopen, hclose⟩
    have hle : start ≤ max start (z.dayStart range.first.toDays) := Int.le_max_left _ _
    exact ⟨_, hle, by omega, (h.showsDateIn_iff_dayStart hstart hle).mpr (by omega)⟩

/-- A span of time lies in a range of dates when both its first and its last instant do. -/
theorem forall_showsDateIn (h : z.SparesMidnights) (hstart : ShowsClocks z start) {finish : Int}
    (hlt : start < finish) :
    (∀ t, start ≤ t → t < finish → z.ShowsDateIn range t) ↔
      z.dayStart range.first.toDays ≤ start ∧ finish ≤ z.dayStart (range.last.toDays + 1) := by
  constructor
  · intro hall
    have hfirst := (h.showsDateIn_iff_dayStart hstart (Int.le_refl _)).mp
      (hall start (Int.le_refl _) hlt)
    have hlast := (h.showsDateIn_iff_dayStart hstart (show start ≤ finish - 1 by omega)).mp
      (hall (finish - 1) (by omega) (by omega))
    omega
  · rintro ⟨hopen, hclose⟩ t hle hbefore
    exact (h.showsDateIn_iff_dayStart hstart hle).mpr (by omega)

end SparesMidnights

end Zone
end LeagueAudit
