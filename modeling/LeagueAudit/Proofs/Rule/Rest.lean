import LeagueAudit.Proofs.Number.Whole
import LeagueAudit.Proofs.Rule.Sweep

/-!
Rest of teams. The rule compares neighbours only, but games are in order of start; so when it finds
nothing every two games of a team are as far apart as neighbours must be, and none overlap.
-/
namespace LeagueAudit.Rule

open Exact

variable {index : Index} {minHours : Float}

theorem restViolations_eq_ok {violations : List Violation} :
    restViolations minHours index = .ok violations ↔ index.ListsTeams ∧
      violations = teamReports index (shortRests (isShortRest minHours))
        fun team p => restViolation minHours team p.1 p.2 :=
  teamSearch_eq_ok (shortRests (isShortRest minHours))
    fun team p => restViolation minHours team p.1 p.2

theorem restViolations_eq_nil :
    restViolations minHours index = .ok [] ↔ index.ListsTeams ∧
      ∀ team, index.teamInScope team = true → (index.gamesOf team).Pairwise fun a b =>
        isShortRest minHours (restBetween a b) = false := by
  refine restViolations_eq_ok.trans (and_congr_right fun _ => ?_)
  rw [eq_comm, teamReports_eq_nil rfl]
  refine forall₂_congr fun team _ => ?_
  exact shortRests_eq_nil (fun _ _ => isShortRest_of_le) (pairwise_inOrder _)

theorem teamOverlaps_eq_ok_nil :
    teamOverlaps index = .ok [] ↔ index.ListsTeams ∧ ∀ team, index.teamInScope team = true →
      (index.gamesOf team).Pairwise fun a b => a.overlaps b = false := by
  rw [teamOverlaps_eq_ok, eq_comm, teamReports_eq_nil rfl]
  refine and_congr_right fun _ => forall₂_congr fun team _ => ?_
  exact overlapPairs_eq_nil (pairwise_inOrder _)

theorem findsNothing_minRestTime {params : Json}
    (hread : RuleContext.number ⟨params, index⟩ "min_hours" 0.0 = .ok minHours)
    (hpos : 0.0 < minHours) :
    (minRestTime.run ⟨params, index⟩).findsNothing = true ↔
      restViolations minHours index = .ok [] := by
  have hrun : minRestTime.run ⟨params, index⟩ =
      .silent (do .ok { violations := ← restViolations minHours index }) := by
    unfold minRestTime
    dsimp only
    rw [hread]
    exact congrArg RuleRun.silent (if_neg (not_le_of_zero_lt hpos))
  rw [hrun, RuleRun.findsNothing_silent, RuleRun.exists_listed]

/-- Rests that are not too short do not end before they begin. -/
theorem not_overlaps_of_rest (hpos : 0.0 < minHours) {a b : Game}
    (h : isShortRest minHours (restBetween a b) = false) : a.overlaps b = false := by
  have hhour : (0.0 : Float) < msPerHour.toFloat := by decide +kernel
  have hrest : 0 ≤ restBetween a b := by
    by_contra hneg
    rw [isShortRest, intLtFloat_of_neg (notNegative_mul hpos hhour) (by omega)] at h
    cases h
  rw [Game.overlaps_eq, decide_eq_false_iff_not]
  unfold Game.Meets
  unfold restBetween at hrest
  omega

/-- The minimum in milliseconds is exact when it is a whole number of hours and not too large. -/
theorem standsFor_rest {hours : Int} (hhours : ofFloat minHours = ofInt hours)
    (h : (hours * msPerHour).natAbs < 2 ^ 53) :
    StandsFor (minHours * msPerHour.toFloat) (hours * msPerHour) := by
  have hunit : ofFloat msPerHour.toFloat = ofInt msPerHour := by decide +kernel
  exact_mod_cast standsFor_of_ofInt (ofFloat_mul_whole hhours hunit h)

/-- The rule about rests finds nothing exactly when every two games of a team, in order of start and
fixture, are apart by the minimum in milliseconds, as far as a double stands for it; and then no two
games of a team overlap. -/
theorem apart_of_neighbours {params : Json}
    (hread : RuleContext.number ⟨params, index⟩ "min_hours" 0.0 = .ok minHours)
    (hpos : 0.0 < minHours) :
    (∀ hours : ℚ, StandsFor (minHours * msPerHour.toFloat) (hours * msPerHour) →
      ((minRestTime.run ⟨params, index⟩).findsNothing = true ↔ index.ListsTeams ∧
        ∀ team, index.teamInScope team = true → (index.gamesOf team).Pairwise fun a b =>
          hours * msPerHour ≤ b.start - a.finish)) ∧
      ((minRestTime.run ⟨params, index⟩).findsNothing = true →
        ∀ other, (noOverlapTeam.run ⟨other, index⟩).findsNothing = true) := by
  rw [findsNothing_minRestTime hread hpos, restViolations_eq_nil]
  constructor
  · intro hours hexact
    have hrest : ∀ a b : Game, isShortRest minHours (restBetween a b) = false ↔
        hours * msPerHour ≤ b.start - a.finish := by
      intro a b
      rw [← Bool.not_eq_true, isShortRest, intLtFloat_iff hexact, not_lt, restBetween,
        Int.cast_sub]
    simp only [hrest]
  · rintro ⟨hlists, hrests⟩ other
    have hnone : teamOverlaps index = .ok [] := by
      refine teamOverlaps_eq_ok_nil.mpr ⟨hlists, fun team hteam => ?_⟩
      exact (hrests team hteam).imp (not_overlaps_of_rest hpos)
    exact RuleRun.findsNothing_silent.mpr (RuleRun.exists_listed.mpr hnone)

def twoEvenings : Json :=
  .obj [("fixtures", .arr [
    .obj [("id", .str "F"), ("participants", .arr [.str "A", .str "B"])],
    .obj [("id", .str "G"), ("participants", .arr [.str "A", .str "C"])]])]

def twelveHoursApart : Json :=
  .obj [("assignments", .arr [
    .obj [("fixtureId", .str "F"), ("startTime", .str "2025-03-01T10:00:00Z")],
    .obj [("fixtureId", .str "G"), ("startTime", .str "2025-03-01T23:30:00Z")]])]

theorem apart_of_neighbours_twelveHours :
    ∃ index minHours, Index.build (.whole 90) "UTC" twoEvenings twelveHoursApart = .ok index ∧
      RuleContext.number ⟨.obj [("min_hours", .int 12)], index⟩ "min_hours" 0.0 = .ok minHours ∧
      0.0 < minHours ∧ StandsFor (minHours * msPerHour.toFloat) (12 * msPerHour) ∧
      (index.gamesOf "A").map (fun g => (g.start, g.finish)) =
        [(1740823200000, 1740828600000), (1740871800000, 1740877200000)] ∧
      (minRestTime.run ⟨.obj [("min_hours", .int 12)], index⟩).findsNothing = true ∧
      (noOverlapTeam.run ⟨.null, index⟩).findsNothing = true := by
  obtain ⟨index, hindex, hview⟩ := exists_ok_of_toOption_map
    (x := Index.build (.whole 90) "UTC" twoEvenings twelveHoursApart)
    (f := fun index => (index.appearances, decide index.ListsTeams))
    (b := ([("A", ⟨1740823200000, 1740828600000, "F"⟩), ("B", ⟨1740823200000, 1740828600000, "F"⟩),
      ("A", ⟨1740871800000, 1740877200000, "G"⟩), ("C", ⟨1740871800000, 1740877200000, "G"⟩)],
      true)) (by decide +kernel)
  obtain ⟨hgames, hlists⟩ := Prod.mk.inj hview
  have hread : RuleContext.number ⟨.obj [("min_hours", .int 12)], index⟩ "min_hours" 0.0 =
      .ok (Float.ofInt 12) := rfl
  have hpos : (0.0 : Float) < Float.ofInt 12 := by decide +kernel
  have hexact : StandsFor (Float.ofInt 12 * msPerHour.toFloat) (12 * msPerHour) :=
    standsFor_rest (ofFloat_ofInt (by decide)) (by decide)
  have hteam : ∀ team, index.gamesOf team = valuesOf team index.appearances :=
    Index.gamesOf_eq_valuesOf (by rw [hgames]; decide)
  have happart := apart_of_neighbours hread hpos
  have hsilent : (minRestTime.run ⟨.obj [("min_hours", .int 12)], index⟩).findsNothing = true := by
    refine (happart.1 12 hexact).mpr ⟨of_decide_eq_true hlists, fun team _ => ?_⟩
    rw [hteam, hgames]
    exact pairwise_valuesOf (by simp [msPerHour]; norm_num) team
  refine ⟨index, _, hindex, hread, hpos, hexact, ?_, hsilent, happart.2 hsilent .null⟩
  rw [hteam, hgames]
  rfl

end LeagueAudit.Rule
