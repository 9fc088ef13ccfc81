import LeagueAudit.Proofs.Json.Members
import LeagueAudit.Proofs.Number.Total
import LeagueAudit.Proofs.Rule.Default
import LeagueAudit.Proofs.Schedule.Shuffle

/-!
The default rules on schedules that list their assignments in different orders. Each of them lists
the same violations in another order at most, and measures the same; opponent spacing adds up what
gaps lack in the order in which pairs first meet, so it measures the same when its sums do.
-/
namespace LeagueAudit

/-- Outcomes that differ in the order of their violations at most. -/
structure Outcome.Reordered (o o' : Outcome) : Prop where
  violations : o.violations.Perm o'.violations
  amount : o.amount = o'.amount
  count : o.count = o'.count
  explanation : o.explanation = o'.explanation

theorem Outcome.Reordered.refl (o : Outcome) : o.Reordered o := ⟨.refl _, rfl, rfl, rfl⟩

/-- What was handed back are outcomes that differ in the order of their violations at most. -/
inductive Returned.Reordered : Returned → Returned → Prop where
  | outcome {o o' : Outcome} (h : o.Reordered o') : Reordered (.outcome o) (.outcome o')

/-- Runs of a rule that both fail, or come to the same but for the order of violations. -/
structure RuleRun.Alike (run run' : RuleRun) : Prop where
  warnings : run.warnings = run'.warnings
  result : Agree Returned.Reordered run.result run'.result

/-- A rule that hands back nothing but violations. -/
theorem Outcome.agree_of_violations {x x' : Except Fault (List Violation)}
    (h : Agree List.Perm x x') :
    Agree Outcome.Reordered (do .ok { violations := ← x }) (do .ok { violations := ← x' }) := by
  refine h.bind fun violations violations' hperm => ?_
  exact .ok ⟨hperm, rfl, rfl, rfl⟩

theorem RuleRun.alike_silent {x x' : Except Fault Outcome} (h : Agree Outcome.Reordered x x') :
    (silent x).Alike (silent x') :=
  ⟨rfl, h.map fun _ _ => .outcome⟩

namespace Rule

variable {index index' : Index}

def gameOf (a : Assignment) : Option Game := a.span?.map fun (s, f) => ⟨s, f, a.fixture⟩

theorem fixture_of_gameOf (a : Assignment) (g : Game) (h : gameOf a = some g) :
    g.fixture = a.fixture := by
  obtain ⟨span, -, rfl⟩ := Option.map_eq_some_iff.mp h
  rfl

theorem gameOf_of_participantGames {a : Assignment} {games : List (String × Game)}
    (h : participantGames index a = .ok games) {p : String × Game} (hp : p ∈ games) :
    gameOf a = some p.2 := by
  unfold participantGames at h
  unfold gameOf
  split at h
  · cases Except.ok.inj h
    simp at hp
  · next start finish hspan =>
    obtain ⟨teams, -, h⟩ := bind_eq_ok.mp h
    rw [← Except.ok.inj h] at hp
    obtain ⟨team, -, rfl⟩ := List.mem_map.mp hp
    rw [hspan]
    rfl

theorem agree_teamGames (h : index.Shuffled index') :
    Agree List.Perm (teamGames index) (teamGames index') := by
  have hread : participantGames index' = participantGames index := by
    funext a
    unfold participantGames
    rw [h.participants, h.teamInScope]
  unfold teamGames
  rw [hread]
  refine (h.agree_mapM fun a => rfl).bind_of fun found found' hfound _ hperm => ?_
  refine .ok (groupGames_perm hperm.flatten (h.told fixture_of_gameOf ?_))
  intro g hg
  obtain ⟨p, hp, rfl⟩ := List.mem_map.mp hg
  obtain ⟨games, hgames, hp⟩ := List.mem_flatten.mp hp
  obtain ⟨a, ha, hread⟩ := exists_source_of_mapM_eq_ok hfound hgames
  exact ⟨a, ha, gameOf_of_participantGames hread hp⟩

theorem agree_flatMap_teamGames (h : index.Shuffled index')
    (find : String × List Game → List Violation) :
    Agree List.Perm (do .ok ((← teamGames index).flatMap find))
      (do .ok ((← teamGames index').flatMap find)) := by
  refine (agree_teamGames h).bind fun groups groups' hgroups => ?_
  exact .ok (hgroups.flatMap_right find)

theorem alike_noOverlapTeam (h : index.Shuffled index') (params : Json) :
    (noOverlapTeam.run ⟨params, index⟩).Alike (noOverlapTeam.run ⟨params, index'⟩) := by
  apply RuleRun.alike_silent
  apply Outcome.agree_of_violations
  exact agree_flatMap_teamGames h _

theorem placeGames_perm (h : index.Shuffled index') (perResource : Bool) :
    (placeGames perResource index).Perm (placeGames perResource index') := by
  have hread : placedGame perResource index' = placedGame perResource index := by
    funext a
    unfold placedGame
    rw [h.venueInScope]
  unfold placeGames
  rw [hread]
  refine groupGames_perm (h.perm_filterMap fun a => rfl) (h.told fixture_of_gameOf ?_)
  intro g hg
  obtain ⟨p, hp, rfl⟩ := List.mem_map.mp hg
  obtain ⟨a, ha, hplaced⟩ := List.mem_filterMap.mp hp
  refine ⟨a, ha, ?_⟩
  unfold placedGame at hplaced
  obtain ⟨⟨start, finish⟩, hspan, hplaced⟩ := Option.bind_eq_some_iff.mp hplaced
  obtain ⟨venue, -, hplaced⟩ := Option.bind_eq_some_iff.mp hplaced
  split at hplaced
  · rw [← Option.some.inj hplaced, gameOf, hspan]
    rfl
  · cases hplaced

theorem alike_noOverlapVenueResource (h : index.Shuffled index') (params : Json) :
    (noOverlapVenueResource.run ⟨params, index⟩).Alike
      (noOverlapVenueResource.run ⟨params, index'⟩) := by
  refine RuleRun.alike_silent (.ok ⟨?_, rfl, rfl, rfl⟩)
  exact (placeGames_perm h _).flatMap_right _

theorem alike_minRestTime (h : index.Shuffled index') (params : Json) :
    (minRestTime.run ⟨params, index⟩).Alike (minRestTime.run ⟨params, index'⟩) := by
  refine RuleRun.alike_silent (Agree.bind_self fun minHours => ?_)
  split
  · exact .ok (.refl _)
  · apply Outcome.agree_of_violations
    exact agree_flatMap_teamGames h _

theorem alike_maxGamesInWindow (h : index.Shuffled index') (params : Json) :
    (maxGamesInWindow.run ⟨params, index⟩).Alike (maxGamesInWindow.run ⟨params, index'⟩) := by
  refine RuleRun.alike_silent (Agree.bind_self fun maxGames => ?_)
  refine Agree.bind_self fun limit => ?_
  refine Agree.bind_self fun windowDays => ?_
  split
  · exact .ok (.refl _)
  · apply Outcome.agree_of_violations
    exact agree_flatMap_teamGames h _

theorem alike_lockedVenue (h : index.Shuffled index') (params : Json) :
    (lockedVenue.run ⟨params, index⟩).Alike (lockedVenue.run ⟨params, index'⟩) := by
  have hread : lockedViolation? index' = lockedViolation? index := by
    funext a
    unfold lockedViolation?
    rw [h.fixture?]
  refine RuleRun.alike_silent (.ok ⟨?_, rfl, rfl, rfl⟩)
  dsimp only
  rw [hread]
  exact h.perm_filterMap fun a => rfl

theorem alike_blackoutDates (h : index.Shuffled index') (params : Json) :
    (blackoutDates.run ⟨params, index⟩).Alike (blackoutDates.run ⟨params, index'⟩) := by
  have hdeclared : declaredWindows ⟨params, index'⟩ = declaredWindows ⟨params, index⟩ := by
    unfold declaredWindows
    rw [h.league]
    rfl
  have houtcome : ∀ windows,
      (blackoutOutcome index windows).Reordered (blackoutOutcome index' windows) := by
    intro windows
    unfold blackoutOutcome
    split
    · exact .refl _
    · exact ⟨h.perm_flatMap fun a => rfl, rfl, rfl, rfl⟩
  unfold blackoutDates
  dsimp only
  rw [hdeclared, h.zone]
  split
  · exact ⟨rfl, .error _ _⟩
  · refine ⟨rfl, (agree_self _).map ?_⟩
    rintro windows _ rfl
    exact .outcome (houtcome windows)

theorem agree_allSides (h : index.Shuffled index') :
    Agree List.Perm (allSides index) (allSides index') := by
  unfold allSides
  simp only [h.fixture?, h.participants]
  exact h.agree_mapM fun a => rfl

theorem gamesOf_eq_of_perm {sides sides' : List (Option String × Option String)}
    (h : sides.Perm sides') (team : String) : gamesOf sides team = gamesOf sides' team := by
  unfold gamesOf
  rw [h.countP_eq, h.countP_eq]

theorem alike_homeAwayBalance (h : index.Shuffled index') (params : Json) :
    (homeAwayBalance.run ⟨params, index⟩).Alike (homeAwayBalance.run ⟨params, index'⟩) := by
  refine RuleRun.alike_silent (Agree.bind_self fun maxDelta => ?_)
  refine (agree_allSides h).bind fun sides sides' hperm => ?_
  -- The teams are listed in their own order, so the rows are the same.
  have hrows : unbalanced maxDelta index'.teams.ids sides' =
      unbalanced maxDelta index.teams.ids sides := by
    unfold unbalanced
    simp only [h.teams, gamesOf_eq_of_perm hperm]
  dsimp only
  rw [hrows]
  exact .ok (.refl _)

theorem alike_broadcastWindow (h : index.Shuffled index') (params : Json) :
    (broadcastWindow.run ⟨params, index⟩).Alike (broadcastWindow.run ⟨params, index'⟩) := by
  refine RuleRun.alike_silent (Agree.bind_self fun items => ?_)
  split
  · exact .ok (.refl _)
  · refine Agree.bind_self fun slots => ?_
    refine (h.agree_mapM fun a => rfl).bind fun found found' hperm => ?_
    have hviolations := hperm.filterMap fun v => v
    refine .ok ⟨hviolations, ?_, ?_, ?_⟩
    · unfold slotOutcome
      rw [hviolations.length_eq]
    · unfold slotOutcome
      rw [hviolations.length_eq]
    · unfold slotOutcome
      rw [hviolations.isEmpty_eq]

def meetingOf (a : Assignment) : Option Game := a.start.map fun s => ⟨s, s, a.fixture⟩

theorem meetingOf_of_meeting? {a : Assignment} {p : Opponents × Game}
    (h : meeting? index a = .ok (some p)) : meetingOf a = some p.2 := by
  unfold meeting? at h
  obtain ⟨participants, -, h⟩ := bind_eq_ok.mp h
  unfold meetingOf
  split at h
  · next start t1 t2 rest hstart =>
    have h := Except.ok.inj h
    split at h
    · rw [hstart, ← Option.some.inj h]
      rfl
    · cases h
  · cases Except.ok.inj h

theorem agree_meetings (h : index.Shuffled index') :
    Agree List.Perm (meetings index) (meetings index') := by
  have hread : meeting? index' = meeting? index := by
    funext a
    unfold meeting?
    simp only [h.participants, h.teamInScope]
  have hfixture : ∀ a g, meetingOf a = some g → g.fixture = a.fixture := by
    intro a g hg
    obtain ⟨start, -, rfl⟩ := Option.map_eq_some_iff.mp hg
    rfl
  unfold meetings
  rw [hread]
  refine (h.agree_mapM fun a => rfl).bind_of fun found found' hfound _ hperm => ?_
  refine .ok (groupGames_perm (hperm.filterMap _) (h.told hfixture ?_))
  intro g hg
  obtain ⟨p, hp, rfl⟩ := List.mem_map.mp hg
  obtain ⟨met, hmet, rfl⟩ := List.mem_filterMap.mp hp
  obtain ⟨a, ha, hread⟩ := exists_source_of_mapM_eq_ok hfound hmet
  exact ⟨a, ha, meetingOf_of_meeting? hread⟩

theorem agree_allShortGaps (h : index.Shuffled index') (minDays : Float) :
    Agree List.Perm (allShortGaps minDays index) (allShortGaps minDays index') :=
  (agree_meetings h).bind fun _ _ hgroups => .ok (hgroups.flatMap_right _)

/-- Whatever short gaps lack is added up as in exact arithmetic. -/
def AddsExactly (sum : List Float → Float) (ctx : RuleContext) : Prop :=
  ∀ minDays gaps, ctx.number "min_days" 0.0 = .ok minDays →
    allShortGaps minDays ctx.index = .ok gaps →
    sum (shortfalls minDays gaps) = exactTotal (shortfalls minDays gaps)

theorem addsExactly_exactTotal (ctx : RuleContext) : AddsExactly exactTotal ctx :=
  fun _ _ _ _ => rfl

theorem alike_opponentSpacingBy {sum : List Float → Float} (h : index.Shuffled index')
    {params : Json} (hsum : AddsExactly sum ⟨params, index⟩)
    (hsum' : AddsExactly sum ⟨params, index'⟩) :
    ((opponentSpacingBy sum).run ⟨params, index⟩).Alike
      ((opponentSpacingBy sum).run ⟨params, index'⟩) := by
  refine RuleRun.alike_silent ((agree_self _).bind_of ?_)
  rintro minDays _ hminDays - rfl
  split
  · exact .ok (.refl _)
  · refine (agree_allShortGaps h minDays).bind_of fun gaps gaps' hgaps hgaps' hperm => ?_
    refine .ok ⟨hperm.map _, ?_, ?_, ?_⟩
    · unfold spacingOutcome
      dsimp only
      rw [hsum minDays gaps hminDays hgaps, hsum' minDays gaps' hminDays hgaps']
      exact exactTotal_eq_of_perm (hperm.map _)
    · unfold spacingOutcome
      rw [hperm.length_eq]
    · unfold spacingOutcome
      rw [hperm.isEmpty_eq]

end Rule

namespace Catalog

/-- The default catalog, with what gaps between meetings lack added up by `sum`. -/
def summing (sum : List Float → Float) : Catalog :=
  { Catalog.default with
    rules := Catalog.default.rules.map fun (id, rule) =>
      (id, if id = "opponent_spacing" then Rule.opponentSpacingBy sum else rule) }

theorem summing_inTurn : summing Rule.inTurn = Catalog.default := rfl

theorem rules_summing (sum : List Float → Float) :
    (summing sum).rules.map (·.2) =
      [Rule.noOverlapTeam, Rule.noOverlapVenueResource, Rule.minRestTime, Rule.lockedVenue,
        Rule.blackoutDates, Rule.maxGamesInWindow, Rule.homeAwayBalance,
        Rule.opponentSpacingBy sum, Rule.broadcastWindow] := rfl

/-- Every default rule comes to the same on shuffled schedules, but for the order of violations. -/
theorem alike_of_get? {sum : List Float → Float} {name : String} {rule : Rule}
    (hfound : (summing sum).get? name = some rule) {index index' : Index}
    (h : index.Shuffled index') {params : Json}
    (hsum : rule.id = "opponent_spacing" → Rule.AddsExactly sum ⟨params, index⟩)
    (hsum' : rule.id = "opponent_spacing" → Rule.AddsExactly sum ⟨params, index'⟩) :
    (rule.run ⟨params, index⟩).Alike (rule.run ⟨params, index'⟩) := by
  have hmem : rule ∈ (summing sum).rules.map (·.2) := by
    unfold get? at hfound
    split at hfound
    · cases hfound
    · exact List.mem_map_of_mem (f := (·.2)) (Json.mem_of_lookup hfound)
  rw [rules_summing] at hmem
  simp only [List.mem_cons, List.not_mem_nil, or_false] at hmem
  rcases hmem with rfl | rfl | rfl | rfl | rfl | rfl | rfl | rfl | rfl
  · exact Rule.alike_noOverlapTeam h params
  · exact Rule.alike_noOverlapVenueResource h params
  · exact Rule.alike_minRestTime h params
  · exact Rule.alike_lockedVenue h params
  · exact Rule.alike_blackoutDates h params
  · exact Rule.alike_maxGamesInWindow h params
  · exact Rule.alike_homeAwayBalance h params
  · exact Rule.alike_opponentSpacingBy h (hsum rfl) (hsum' rfl)
  · exact Rule.alike_broadcastWindow h params

end Catalog
end LeagueAudit
