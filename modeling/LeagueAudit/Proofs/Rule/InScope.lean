import LeagueAudit.Proofs.Rule.Meetings
import LeagueAudit.Proofs.Rule.Rest
import LeagueAudit.Proofs.Rule.Window
import LeagueAudit.Proofs.Selector.Scope
import LeagueAudit.Schedule.Build

/-!
Rules on a scope. Entities that a scope keeps are listed, those that it drops are excluded. Of an
index that was built both say the same of everything that is declared, so what rules report on a
scope is about entities that are in it or that nobody declared.
-/
namespace LeagueAudit

namespace Index

/-- A declared entity that a scope does not keep. -/
def ScopesOut (index part : Index) (kind : EntityKind) (id : String) : Prop :=
  id ∈ (index.entities kind).ids ∧ id ∉ (part.entities kind).ids

theorem mem_dropped {entities : Entities} {ids : Option (List String)} {id : String} :
    id ∈ dropped entities ids ↔ id ∈ entities.ids ∧ id ∉ (keep entities ids).ids := by
  cases ids with
  | none => simp [dropped, keep]
  | some ids =>
    rw [mem_keep, dropped, List.mem_filter]
    refine and_congr_right fun hdeclared => ?_
    simp [hdeclared]

variable {index part : Index} {s : Selector}

theorem not_scopesOut_iff {kind : EntityKind} {id : String} (h : id ∈ (index.entities kind).ids) :
    ¬index.ScopesOut part kind id ↔ id ∈ (part.entities kind).ids := by
  simp [ScopesOut, h]

theorem teamInScope_eq_false {team : String} :
    index.teamInScope team = false ↔ team ∈ index.excludedTeams := by
  simp [teamInScope]

theorem venueInScope_eq_false {venue : String} :
    index.venueInScope (some venue) = false ↔ venue ∈ index.excludedVenues := by
  simp [venueInScope]

/-- A scope excludes what was excluded before, and what it drops. -/
theorem excluded_of_scope (h : index.scope s = .ok part) (id : String) :
    (id ∈ part.excludedTeams ↔ id ∈ index.excludedTeams ∨ index.ScopesOut part .team id) ∧
      (id ∈ part.excludedVenues ↔ id ∈ index.excludedVenues ∨ index.ScopesOut part .venue id) := by
  rcases scope_eq_ok h with rfl | ⟨teams, venues, fixtures, rfl⟩
  · simp [ScopesOut]
  · constructor
    · exact mem_union.trans (or_congr_right mem_dropped)
    · exact mem_union.trans (or_congr_right mem_dropped)

theorem excluded_of_build {default : Minutes} {fallback : String} {league result : Json}
    (h : build default fallback league result = .ok index) :
    index.excludedTeams = [] ∧ index.excludedVenues = [] := by
  unfold build at h
  obtain ⟨zone, -, h⟩ := bind_eq_ok.mp h
  obtain ⟨minutes, -, h⟩ := bind_eq_ok.mp h
  obtain ⟨found, -, h⟩ := bind_eq_ok.mp h
  obtain ⟨whole, -, h⟩ := bind_eq_ok.mp h
  cases Except.ok.inj h
  exact ⟨rfl, rfl⟩

end Index

/-- Whatever a run hands back is an outcome with violations of one sort. -/
def RuleRun.ReportsOnly (run : RuleRun) (sort : Violation → Prop) : Prop :=
  ∀ returned, run.result = .ok returned →
    ∃ o : Outcome, returned = .outcome o ∧ ∀ v ∈ o.violations, sort v

namespace RuleRun

variable {run : RuleRun} {sort sort' : Violation → Prop}

theorem reportsOnly_silent {x : Except Fault Outcome} :
    (silent x).ReportsOnly sort ↔ ∀ o, x = .ok o → ∀ v ∈ o.violations, sort v := by
  cases x with
  | error f => simp [silent, ReportsOnly, Except.map]
  | ok o => simp [silent, ReportsOnly, Except.map]

theorem ReportsOnly.imp (h : run.ReportsOnly sort) (hsort : ∀ v, sort v → sort' v) :
    run.ReportsOnly sort' := by
  intro returned hreturned
  obtain ⟨o, rfl, ho⟩ := h returned hreturned
  exact ⟨o, rfl, fun v hv => hsort v (ho v hv)⟩

end RuleRun

namespace Rule

variable {index : Index} (params : Json)

def OfTeam (index : Index) (v : Violation) : Prop :=
  ∃ team, index.teamInScope team = true ∧ v.isAbout team = true

theorem ofTeam_of_search {β : Type} {search : List Game → List β} {report : String → β → Violation}
    {x : Except Fault (List Violation)} {o : Outcome}
    (hx : ∀ violations, x = .ok violations → violations = teamReports index search report)
    (hfirst : ∀ team found, (report team found).entities.head? = some team)
    (ho : (do .ok { violations := ← x }) = Except.ok o) : ∀ v ∈ o.violations, OfTeam index v := by
  intro v hv
  obtain ⟨violations, hviolations, ho⟩ := bind_eq_ok.mp ho
  cases Except.ok.inj ho
  obtain rfl := hx violations hviolations
  exact exists_isAbout_of_mem hfirst hv

theorem reportsOnly_noOverlapTeam :
    (noOverlapTeam.run ⟨params, index⟩).ReportsOnly (OfTeam index) := by
  apply RuleRun.reportsOnly_silent.mpr
  intro o ho
  exact ofTeam_of_search (fun _ h => (teamOverlaps_eq_ok.mp h).2) (fun _ _ => rfl) ho

theorem reportsOnly_minRestTime :
    (minRestTime.run ⟨params, index⟩).ReportsOnly (OfTeam index) := by
  apply RuleRun.reportsOnly_silent.mpr
  intro o ho
  obtain ⟨minHours, -, ho⟩ := bind_eq_ok.mp ho
  split at ho
  · cases Except.ok.inj ho
    exact nofun
  · exact ofTeam_of_search (fun _ h => (restViolations_eq_ok.mp h).2) (fun _ _ => rfl) ho

theorem reportsOnly_maxGamesInWindow :
    (maxGamesInWindow.run ⟨params, index⟩).ReportsOnly (OfTeam index) := by
  apply RuleRun.reportsOnly_silent.mpr
  intro o ho
  obtain ⟨given, -, ho⟩ := bind_eq_ok.mp ho
  obtain ⟨limit, -, ho⟩ := bind_eq_ok.mp ho
  obtain ⟨windowDays, -, ho⟩ := bind_eq_ok.mp ho
  split at ho
  · cases Except.ok.inj ho
    exact nofun
  · exact ofTeam_of_search (fun _ h => (burstViolations_eq_ok.mp h).2) (fun _ _ => rfl) ho

theorem reportsOnly_homeAwayBalance :
    (homeAwayBalance.run ⟨params, index⟩).ReportsOnly fun v =>
      ∃ team ∈ index.teams.ids, v.isAbout team = true := by
  apply RuleRun.reportsOnly_silent.mpr
  intro o ho v hv
  obtain ⟨maxDelta, -, ho⟩ := bind_eq_ok.mp ho
  obtain ⟨sides, -, ho⟩ := bind_eq_ok.mp ho
  cases Except.ok.inj ho
  obtain ⟨row, hrow, rfl⟩ := List.mem_map.mp hv
  obtain ⟨team, hteam, rfl⟩ := List.mem_map.mp (List.mem_filter.mp hrow).1
  exact ⟨team, hteam, beq_self_eq_true _⟩

/-- A violation is about two opponents, at least one of them in scope. -/
def OfOpponents (index : Index) (v : Violation) : Prop :=
  ∃ t1 t2 rest, v.entities = t1 :: t2 :: rest ∧
    (index.teamInScope t1 = true ∨ index.teamInScope t2 = true)

theorem inScope_of_orderedOpponents {a : Assignment} {pair : Opponents}
    (h : index.orderedOpponents a = some pair) :
    index.teamInScope pair.first = true ∨ index.teamInScope pair.second = true := by
  unfold Index.orderedOpponents at h
  split at h
  · split at h
    · next hscope =>
      rw [Bool.or_eq_true] at hscope
      rw [← Option.some.inj h]
      unfold Opponents.of
      split
      · exact hscope.symm
      · exact hscope
    · cases h
  · cases h

theorem reportsOnly_opponentSpacing :
    (opponentSpacing.run ⟨params, index⟩).ReportsOnly (OfOpponents index) := by
  apply RuleRun.reportsOnly_silent.mpr
  intro o ho v hv
  obtain ⟨minDays, -, ho⟩ := bind_eq_ok.mp ho
  split at ho
  · cases Except.ok.inj ho
    cases hv
  · obtain ⟨found, hfound, ho⟩ := bind_eq_ok.mp ho
    obtain ⟨groups, hgroups, hfound⟩ := bind_eq_ok.mp hfound
    cases Except.ok.inj ho
    cases Except.ok.inj hfound
    obtain ⟨-, rfl⟩ := Index.meetings_eq_ok.mp hgroups
    obtain ⟨gap, hgap, rfl⟩ := List.mem_map.mp hv
    obtain ⟨group, hgroup, hgap⟩ := List.mem_flatMap.mp hgap
    obtain ⟨pair, -, rfl⟩ := List.mem_map.mp hgap
    obtain ⟨game, hgame⟩ := exists_of_mem_groupGames hgroup
    obtain ⟨a, -, ha⟩ := List.mem_filterMap.mp hgame
    obtain ⟨start, -, ha⟩ := Option.bind_eq_some_iff.mp ha
    obtain ⟨opponents, hopponents, heq⟩ := Option.map_eq_some_iff.mp ha
    cases heq
    exact ⟨_, _, _, rfl, inScope_of_orderedOpponents hopponents⟩

theorem reportsOnly_noOverlapVenueResource :
    (noOverlapVenueResource.run ⟨params, index⟩).ReportsOnly fun v =>
      ∃ venue, index.venueInScope (some venue) = true ∧ v.isAbout venue = true := by
  apply RuleRun.reportsOnly_silent.mpr
  intro o ho v hv
  cases Except.ok.inj ho
  obtain ⟨group, hgroup, hv⟩ := List.mem_flatMap.mp hv
  obtain ⟨pair, -, rfl⟩ := List.mem_map.mp hv
  obtain ⟨game, hgame⟩ := exists_of_mem_groupGames hgroup
  obtain ⟨a, -, ha⟩ := List.mem_filterMap.mp hgame
  rw [placedGame_eq] at ha
  obtain ⟨slot, -, ha⟩ := Option.bind_eq_some_iff.mp ha
  obtain ⟨venue, -, ha⟩ := Option.bind_eq_some_iff.mp ha
  split at ha
  · next hscope =>
    refine ⟨group.1.venue, ?_, beq_self_eq_true _⟩
    rw [← (Prod.mk.inj (Option.some.inj ha)).1]
    exact hscope
  · cases ha

end Rule

namespace Index

open Rule

/-- What an index says of the entities of a scope, and whom the rules report on the scope. -/
structure ReportsInScope (index part : Index) : Prop where
  team : ∀ id ∈ index.teams.ids, (part.teamInScope id = true ↔ id ∈ part.teams.ids)
  venue : ∀ id ∈ index.venues.ids, (part.venueInScope (some id) = true ↔ id ∈ part.venues.ids)
  undeclaredTeam : ∀ id, id ∉ index.teams.ids → part.teamInScope id = true
  undeclaredVenue : ∀ venue : Option String, (∀ id ∈ venue, id ∉ index.venues.ids) →
    part.venueInScope venue = true
  games (params : Json) : ∀ rule ∈ [noOverlapTeam, minRestTime, maxGamesInWindow],
    (rule.run ⟨params, part⟩).ReportsOnly fun v =>
      ∃ team, v.isAbout team = true ∧ ¬index.ScopesOut part .team team
  balance (params : Json) : (homeAwayBalance.run ⟨params, part⟩).ReportsOnly fun v =>
    ∃ team ∈ part.teams.ids, v.isAbout team = true
  spacing (params : Json) : (opponentSpacing.run ⟨params, part⟩).ReportsOnly fun v =>
    ∃ t1 t2 rest, v.entities = t1 :: t2 :: rest ∧
      (¬index.ScopesOut part .team t1 ∨ ¬index.ScopesOut part .team t2)
  places (params : Json) : (noOverlapVenueResource.run ⟨params, part⟩).ReportsOnly fun v =>
    ∃ venue, v.isAbout venue = true ∧ ¬index.ScopesOut part .venue venue

/-- A scope of an index that was built excludes the declared entities that it does not keep. -/
theorem reportsInScope {default : Minutes} {fallback : String} {league result : Json}
    {index part : Index} {s : Selector}
    (hbuild : build default fallback league result = .ok index)
    (hscope : index.scope s = .ok part) : index.ReportsInScope part := by
  -- Nothing was excluded before, so the scope excludes just what it drops.
  obtain ⟨hteams, hvenues⟩ := excluded_of_build hbuild
  have hteam : ∀ team, part.teamInScope team = true ↔ ¬index.ScopesOut part .team team := by
    intro team
    rw [← Bool.not_eq_false, teamInScope_eq_false, (excluded_of_scope hscope team).1, hteams]
    simp
  have hvenue : ∀ venue, part.venueInScope (some venue) = true ↔
      ¬index.ScopesOut part .venue venue := by
    intro venue
    rw [← Bool.not_eq_false, venueInScope_eq_false, (excluded_of_scope hscope venue).2, hvenues]
    simp
  refine ⟨?team, ?venue, ?undeclaredTeam, ?undeclaredVenue, ?games, ?balance, ?spacing, ?places⟩
  case team =>
    intro id hid
    exact (hteam id).trans (not_scopesOut_iff hid)
  case venue =>
    intro id hid
    exact (hvenue id).trans (not_scopesOut_iff hid)
  case undeclaredTeam =>
    intro id hid
    exact (hteam id).mpr fun h => hid h.1
  case undeclaredVenue =>
    intro venue hundeclared
    cases venue with
    | none => rfl
    | some id => exact (hvenue id).mpr fun h => hundeclared id rfl h.1
  case games =>
    intro params rule hrule
    have hsort : ∀ v, OfTeam part v →
        ∃ team, v.isAbout team = true ∧ ¬index.ScopesOut part .team team := by
      rintro v ⟨team, hscope, habout⟩
      exact ⟨team, habout, (hteam team).mp hscope⟩
    simp only [List.mem_cons, List.not_mem_nil, or_false] at hrule
    rcases hrule with rfl | rfl | rfl
    · exact (reportsOnly_noOverlapTeam params).imp hsort
    · exact (reportsOnly_minRestTime params).imp hsort
    · exact (reportsOnly_maxGamesInWindow params).imp hsort
  case balance =>
    intro params
    exact reportsOnly_homeAwayBalance params
  case spacing =>
    intro params
    apply (reportsOnly_opponentSpacing params).imp
    rintro v ⟨t1, t2, rest, hentities, hscope⟩
    exact ⟨t1, t2, rest, hentities, hscope.imp (hteam t1).mp (hteam t2).mp⟩
  case places =>
    intro params
    apply (reportsOnly_noOverlapVenueResource params).imp
    rintro v ⟨venue, hscope, habout⟩
    exact ⟨venue, habout, (hvenue venue).mp hscope⟩

/-- Both teams are declared, but not the one that the first of them meets last. -/
def threeMeetings : Json :=
  .obj [("teams", .arr [.obj [("id", .str "A"), ("tags", .arr [.str "senior"])],
      .obj [("id", .str "B")]]),
    ("fixtures", .arr ([("F", "A", "B"), ("G", "B", "A"), ("H", "A", "X")].map
      fun (fixture, home, away) =>
        .obj [("id", .str fixture), ("participants", .arr [.str home, .str away])]))]

/-- Two games at once and one a week later. -/
def gamesAtOnce : Json :=
  .obj [("assignments", .arr ([("F", "01"), ("G", "01"), ("H", "08")].map fun (fixture, day) =>
    .obj [("fixtureId", .str fixture), ("startTime", .str s!"2025-03-{day}T10:00:00Z")]))]

def seniorTeams : Json := .obj [("entityType", .str "team"), ("tags", .arr [.str "senior"])]

theorem reportsInScope_seniorTeams :
    ∃ index s part o, build (.whole 90) "UTC" threeMeetings gamesAtOnce = .ok index ∧
      Selector.read seniorTeams = .ok s ∧ index.scope s = .ok part ∧
      (noOverlapTeam.run ⟨.null, part⟩).result = .ok (.outcome o) ∧
      o.violations.map (·.entities) = [["A", "F", "G"]] ∧ index.ScopesOut part .team "B" ∧
      part.teamInScope "A" = true ∧ part.teamInScope "B" = false ∧
      part.teamInScope "X" = true := by
  obtain ⟨index, hindex, hview⟩ := exists_ok_of_toOption_map
    (x := build (.whole 90) "UTC" threeMeetings gamesAtOnce)
    (f := fun index => (index.teams.ids,
      (index.scope (.entityScope .team (.allOf [.leaf (.tags ["senior"])]))).toOption.map
        fun part : Index =>
          (part.teams.ids, decide part.ListsTeams, part.teamMeetings.map (·.entities))))
    (b := (["A", "B"], some (["A"], true, [["A", "F", "G"]]))) (by decide +kernel)
  obtain ⟨hdeclared, hscope⟩ := Prod.mk.inj hview
  obtain ⟨part, hpart, hkept⟩ := exists_ok_of_toOption_map hscope
  obtain ⟨hteams, hrest⟩ := Prod.mk.inj hkept
  obtain ⟨hlists, hmeetings⟩ := Prod.mk.inj hrest
  have hread : Selector.read seniorTeams =
      .ok (.entityScope .team (.allOf [.leaf (.tags ["senior"])])) := rfl
  have hoverlaps := teamOverlaps_eq_ok.mpr ⟨of_decide_eq_true hlists, rfl⟩
  have hresult := RuleRun.result_listed_eq_ok.mpr ⟨_, hoverlaps, rfl⟩
  have hentities := (teamOverlaps_perm hoverlaps).map (·.entities)
  rw [hmeetings, List.perm_singleton] at hentities
  have h := reportsInScope hindex hpart
  have hin := (h.team "A" (by simp [hdeclared])).mpr (by simp [hteams])
  have hout := (h.team "B" (by simp [hdeclared])).not.mpr (by simp [hteams])
  have hnobody := h.undeclaredTeam "X" (by simp [hdeclared])
  exact ⟨index, _, part, _, hindex, hread, hpart, hresult, hentities,
    ⟨by simp [entities, hdeclared], by simp [entities, hteams]⟩, hin,
    Bool.eq_false_iff.mpr hout, hnobody⟩

end Index

end LeagueAudit
