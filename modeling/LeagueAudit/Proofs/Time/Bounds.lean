import LeagueAudit.Proofs.Number.Quotient
import LeagueAudit.Proofs.Time.Midnight
import LeagueAudit.Proofs.Time.Spelling

/-!
Bounds that are dates. A start bound is the midnight that begins its day, and an end bound of ten
characters the one that ends it.
-/
namespace LeagueAudit

theorem Exact.roundHalfEven_mul (n : Int) : Exact.roundHalfEven (n * stepsPerOne) = n := by
  have hpos : (0 : Int) < stepsPerOne := Int.natCast_pos.mpr (Exact.twoTo_pos 1074)
  have hlow : (n * (stepsPerOne : Int)).fdiv stepsPerOne = n := by
    rw [Int.fdiv_eq_ediv_of_nonneg _ hpos.le, Int.mul_ediv_cancel _ hpos.ne']
  unfold Exact.roundHalfEven
  rw [hlow]
  dsimp only
  rw [Int.sub_self]
  exact if_pos hpos

/-- Whole seconds are found exactly. -/
theorem millisOfMicros_seconds {seconds : Int} (h : (seconds * 1000).natAbs < 2 ^ 53) :
    millisOfMicros (seconds * 1000000) = seconds * 1000 := by
  have hsign : decide (seconds * 1000000 < 0) = decide (seconds < 0) := by
    rw [decide_eq_decide]
    omega
  have habs : (seconds * 1000000).natAbs = seconds.natAbs * 1000000 := by omega
  have hsmall : seconds.natAbs < 2 ^ 53 := by omega
  have hmicros : 0 < 1000000 := by decide
  have hseconds := Exact.ofFloat_nearestFloat_mul hsmall hmicros
  have hthousand : Exact.ofFloat 1000.0 = Exact.ofInt 1000 := by decide +kernel
  unfold millisOfMicros
  rw [hsign, habs]
  dsimp only
  rw [Exact.ofFloat_mul_whole hseconds hthousand h, Exact.ofInt]
  exact Exact.roundHalfEven_mul _

/-- The instant at which a day begins. -/
def Zone.dayStart (z : Zone) (day : Int) : Int := z.midnight day * 1000

theorem micros_midnight (z : Zone) (d : Date) :
    LocalTime.micros z ⟨d, .midnight, none⟩ = z.midnight d.toDays * 1000000 := by
  have hseconds : (Clock.midnight.seconds : Int) = 0 := rfl
  have hmicro : (Clock.midnight.micro : Int) = 0 := rfl
  rw [LocalTime.micros, LocalTime.clockMicros, Zone.midnight]
  dsimp only
  rw [hseconds, hmicro, Int.add_zero, Int.add_zero, Int.sub_mul]

theorem Zone.SparesMidnights.millis_midnight {z : Zone} (h : z.SparesMidnights) {day : Int}
    (hfirst : firstDay ≤ day) (hlast : day ≤ lastDay) :
    millisOfMicros (z.midnight day * 1000000) = z.dayStart day := by
  have hoffset := h.offsetOfLocal_mem (day * secondsPerDay)
  have hfirstDay : firstDay = -719162 := by decide
  have hlastDay : lastDay = 2932896 := by decide
  refine millisOfMicros_seconds ?_
  rw [midnight]
  rw [secondsPerDay_eq] at *
  omega

section Bound

variable {s : String} {d : Date}

theorem boundText_of_isDay (h : Iso.IsDay s.toList d) : boundText (.str s) = s := by
  have htext : (Json.str s).text = s := rfl
  have hnull : (Json.str s).isNull = false := rfl
  rw [boundText, hnull, if_neg Bool.false_ne_true, htext, Text.strip, h.stripped_eq,
    String.ofList_toList]

theorem readInstantText?_of_isDay (z : Zone) (h : Iso.IsDay s.toList d) :
    readInstantText? z s = some (millisOfMicros (z.midnight d.toDays * 1000000)) := by
  rw [readInstantText?, h.stripped_eq, h.read, ← micros_midnight]
  rfl

/-- A date as a start bound is the midnight that begins the day. -/
theorem readBound_start (z : Zone) (h : Iso.IsDay s.toList d) :
    readBound z false (.str s) = .ok (some (millisOfMicros (z.midnight d.toDays * 1000000))) := by
  unfold readBound
  dsimp only
  rw [boundText_of_isDay h, readInstantText?_of_isDay z h]
  rfl

/-- A date of ten characters as an end bound is the midnight that ends the day. -/
theorem readBound_end (z : Zone) (h : Iso.IsDay s.toList d) (hten : s.length = 10)
    (hnext : d.toDays < lastDay) : readBound z true (.str s) =
      .ok (some (millisOfMicros (z.midnight (d.toDays + 1) * 1000000))) := by
  have hplain : s.contains 'T' = false := by
    rw [String.contains_char_eq]
    exact decide_eq_false h.not_mem_T
  have hday : LocalTime.nextDay ⟨d, .midnight, none⟩ =
      .ok ⟨.ofDays (d.toDays + 1), .midnight, none⟩ := by
    unfold LocalTime.nextDay
    exact if_neg (by dsimp only; omega)
  unfold readBound
  dsimp only
  rw [boundText_of_isDay h, hten, hplain, h.read]
  simp [hday, micros_midnight, bind, Except.bind]

/-- A date of another length as an end bound is no other instant than as a start bound. -/
theorem readBound_end_short (z : Zone) (h : Iso.IsDay s.toList d) (hshort : s.length ≠ 10) :
    readBound z true (.str s) = readBound z false (.str s) := by
  unfold readBound
  dsimp only
  rw [boundText_of_isDay h]
  simp [hshort]

/-- A date as an end bound covers its day: it is the same bound as the following day, which is
spelled `following`, is as a start. -/
def Zone.CoversDay (z : Zone) (s following : String) : Prop :=
  readBound z true (.str s) = readBound z false (.str following)

/-- Of the spellings of a date that has a following one, those of ten characters cover the day. The
shorter ones are instead the midnight that begins it, which where changes of the clocks spare the
midnights is another instant. -/
theorem Zone.coversDay_of_length (z : Zone) {following : String} (h : Iso.IsDay s.toList d)
    (hnext : Iso.IsDay following.toList d.next) :
    (s.length = 10 → z.CoversDay s following) ∧
      (s.length ≠ 10 → (s.length = 7 ∨ s.length = 8) ∧
        readBound z true (.str s) = readBound z false (.str s)) ∧
      (z.SparesMidnights → (z.CoversDay s following ↔ s.length = 10)) := by
  have hlast := Date.lt_lastDay_of_next hnext.valid
  have hfollowing := readBound_start z hnext
  rw [Date.toDays_next] at hfollowing
  have hcovers : s.length = 10 → z.CoversDay s following := fun hten =>
    (readBound_end z h hten hlast).trans hfollowing.symm
  refine ⟨hcovers, fun hshort => ⟨?_, readBound_end_short z h hshort⟩,
    fun hspares => ⟨fun hcovered => ?_, hcovers⟩⟩
  · have hlength := h.spelling.length_mem
    rw [String.length_toList] at hlength
    omega
  · refine Decidable.byContradiction fun hshort => ?_
    have hfirst := (Date.toDays_mem_of_valid h.valid).1
    have hsame : millisOfMicros (z.midnight d.toDays * 1000000) =
        millisOfMicros (z.midnight (d.toDays + 1) * 1000000) := by
      rw [CoversDay, readBound_end_short z h hshort, readBound_start z h, hfollowing] at hcovered
      exact Option.some.inj (Except.ok.inj hcovered)
    rw [hspares.millis_midnight hfirst hlast.le,
      hspares.millis_midnight (by omega) (by omega), dayStart, dayStart] at hsame
    have hlater := hspares.midnight_lt d.toDays
    omega

/-- A day of a week in New York, with and without hyphens. -/
theorem Zone.coversDay_of_length_newYork :
    (americanZone "America/New_York" (hours (-5))).CoversDay "2025-W02-1" "20250107" ∧
      ¬(americanZone "America/New_York" (hours (-5))).CoversDay "2025W021" "20250107" := by
  have hnext : Iso.IsDay "20250107".toList (Date.next ⟨2025, 1, 6⟩) :=
    ⟨by decide +kernel, 8, by decide +kernel⟩
  have hspares : (americanZone "America/New_York" (hours (-5))).SparesMidnights :=
    sparesMidnights_of_mem_knownZones (by decide)
  have hlong : Iso.IsDay "2025-W02-1".toList ⟨2025, 1, 6⟩ :=
    ⟨by decide +kernel, 10, by decide +kernel⟩
  have hshort : Iso.IsDay "2025W021".toList ⟨2025, 1, 6⟩ :=
    ⟨by decide +kernel, 8, by decide +kernel⟩
  refine ⟨(Zone.coversDay_of_length _ hlong hnext).1 (by decide), fun hcovers => ?_⟩
  have hten := ((Zone.coversDay_of_length _ hshort hnext).2.2 hspares).mp hcovers
  exact absurd hten (by decide)

/-- The short spellings of the sixth of January 2025 do not cover it. -/
theorem not_coversDay_short :
    Iso.IsDay "2025-01-07".toList (Date.next ⟨2025, 1, 6⟩) ∧
      ∀ s ∈ ["20250106", "2025W021", "2025-W02", "2025W02"],
        Iso.IsDay s.toList ⟨2025, 1, 6⟩ ∧ ¬utc.CoversDay s "2025-01-07" := by
  have hread : ∀ s ∈ ["20250106", "2025W021", "2025-W02", "2025W02"],
      Iso.read? s.toList = some ⟨⟨2025, 1, 6⟩, .midnight, none⟩ ∧
        Iso.dateLength? s.toList = some s.toList.length ∧
        (readBound utc true (.str s)).toOption ≠
          (readBound utc false (.str "2025-01-07")).toOption := by decide +kernel
  refine ⟨⟨by decide +kernel, 10, by decide +kernel⟩, fun s hs => ?_⟩
  obtain ⟨hday, hlength, hbounds⟩ := hread s hs
  exact ⟨⟨hday, _, hlength, Nat.le_refl _⟩, fun hcovers => hbounds (congrArg _ hcovers)⟩

end Bound

end LeagueAudit
