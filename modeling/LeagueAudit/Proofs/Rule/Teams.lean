import LeagueAudit.Proofs.Rule.Relaxing
import LeagueAudit.Proofs.Rule.Shuffle
import LeagueAudit.Proofs.Schedule.Pairs

/-!
Rules about the games of teams. Such a rule comes to an end exactly when the participants of every
fixture with a slot can be listed, and then it reports of each team what it finds in its games.
-/
namespace LeagueAudit

/-- A violation is about the entity that it names first. -/
def Violation.isAbout (v : Violation) (id : String) : Bool := v.entities.head? == some id

/-- What a run hands back that reports nothing but a list of violations. -/
theorem RuleRun.result_listed_eq_ok {x : Except Fault (List Violation)} {returned : Returned} :
    (silent (do .ok { violations := ← x })).result = .ok returned ↔
      ∃ violations, x = .ok violations ∧ returned = .outcome { violations } := by
  cases x with
  | error f => simp [silent, Except.map, bind, Except.bind]
  | ok violations => simp [silent, Except.map, bind, Except.bind, eq_comm]

namespace Index

/-- The participants of a fixture, none when they cannot be listed. -/
def listed (index : Index) (fixture : String) : List String :=
  (index.participants fixture).toOption.getD []

/-- The participants of every fixture with a slot can be listed. -/
def ListsTeams (index : Index) : Prop :=
  ∀ a ∈ index.assignments, a.timed = true → ∃ teams, index.participants a.fixture = .ok teams

theorem listsTeams_iff {index : Index} : index.ListsTeams ↔ ∀ a ∈ index.assignments,
    a.timed = true → (index.participants a.fixture).toOption.isSome := by
  refine forall₃_congr fun a _ _ => ?_
  cases index.participants a.fixture with
  | ok teams => exact iff_of_true ⟨teams, rfl⟩ rfl
  | error f => exact iff_of_false nofun nofun

instance (index : Index) : Decidable index.ListsTeams := decidable_of_iff' _ listsTeams_iff

/-- The games that teams play: one for each assignment with readable times and each time that a team
in scope is listed among the participants of its fixture. -/
def appearances (index : Index) : List (String × Game) :=
  index.assignments.flatMap fun a => (Rule.gameOf a).toList.flatMap fun game =>
    ((index.listed a.fixture).filter index.teamInScope).map (·, game)

/-- The games of a team in order of start and fixture. -/
def gamesOf (index : Index) (team : String) : List Game :=
  inOrder (valuesOf team index.appearances)

variable {index : Index}

theorem teamInScope_of_mem_appearances {team : String} {game : Game}
    (h : (team, game) ∈ index.appearances) : index.teamInScope team = true := by
  obtain ⟨a, -, h⟩ := List.mem_flatMap.mp h
  obtain ⟨g, -, h⟩ := List.mem_flatMap.mp h
  obtain ⟨t, ht, heq⟩ := List.mem_map.mp h
  cases heq
  exact (List.mem_filter.mp ht).2

/-- Games that are listed in order stay in that order. -/
theorem gamesOf_eq_valuesOf
    (h : index.appearances.Pairwise fun p q => p.1 = q.1 → p.2.before q.2 = true) (team : String) :
    index.gamesOf team = valuesOf team index.appearances :=
  List.mergeSort_of_pairwise (pairwise_valuesOf h team)

end Index

namespace Rule

variable {index : Index}

theorem participantGames_eq {a : Assignment}
    (h : a.timed = true → ∃ teams, index.participants a.fixture = .ok teams) :
    participantGames index a = .ok ((gameOf a).toList.flatMap fun game =>
      ((index.listed a.fixture).filter index.teamInScope).map (·, game)) := by
  unfold participantGames gameOf Index.listed
  cases hspan : a.span? with
  | none => rfl
  | some span =>
    obtain ⟨teams, hteams⟩ := h (Option.isSome_iff_exists.mpr ⟨span, hspan⟩)
    simp [hteams, bind, Except.bind, Except.toOption]

theorem listed_of_participantGames {a : Assignment} {games : List (String × Game)}
    (h : participantGames index a = .ok games) (htimed : a.timed = true) :
    ∃ teams, index.participants a.fixture = .ok teams := by
  obtain ⟨span, hspan⟩ := Option.isSome_iff_exists.mp htimed
  unfold participantGames at h
  rw [hspan] at h
  obtain ⟨teams, hteams, -⟩ := bind_eq_ok.mp h
  exact ⟨teams, hteams⟩

theorem teamGames_eq_ok {groups : List (String × List Game)} :
    teamGames index = .ok groups ↔ index.ListsTeams ∧ groups = groupGames index.appearances := by
  have hread : index.ListsTeams → index.assignments.mapM (participantGames index) =
      .ok (index.assignments.map fun a => (gameOf a).toList.flatMap fun game =>
        ((index.listed a.fixture).filter index.teamInScope).map (·, game)) := by
    intro hlists
    rw [mapM_eq_ok, List.forall₂_map_right_iff, List.forall₂_same]
    exact fun a ha => participantGames_eq (hlists a ha)
  unfold teamGames
  rw [bind_eq_ok]
  constructor
  · rintro ⟨games, hgames, h⟩
    have hlists : index.ListsTeams := by
      intro a ha
      obtain ⟨gs, -, hgs⟩ := exists_of_mapM_eq_ok hgames ha
      exact listed_of_participantGames hgs
    rw [hread hlists] at hgames
    cases Except.ok.inj hgames
    exact ⟨hlists, (Except.ok.inj h).symm⟩
  · rintro ⟨hlists, rfl⟩
    exact ⟨_, hread hlists, rfl⟩

section Search

variable {β : Type}

/-- What a search in the games of every team reports. -/
def teamReports (index : Index) (search : List Game → List β) (report : String → β → Violation) :
    List Violation :=
  (groupGames index.appearances).flatMap fun (team, games) => (search games).map (report team)

theorem teamSearch_eq_ok (search : List Game → List β) (report : String → β → Violation)
    {violations : List Violation} :
    (do .ok ((← teamGames index).flatMap fun (team, games) => (search games).map (report team))) =
        (.ok violations : Except Fault (List Violation)) ↔
      index.ListsTeams ∧ violations = teamReports index search report := by
  rw [bind_eq_ok]
  constructor
  · rintro ⟨groups, hgroups, h⟩
    obtain ⟨hlists, rfl⟩ := teamGames_eq_ok.mp hgroups
    exact ⟨hlists, (Except.ok.inj h).symm⟩
  · rintro ⟨hlists, rfl⟩
    exact ⟨_, teamGames_eq_ok.mpr ⟨hlists, rfl⟩, rfl⟩

variable {search : List Game → List β} {report : String → β → Violation}

/-- A search in the games of teams comes to an end when these can be listed. -/
theorem exists_result_iff {x : Except Fault (List Violation)}
    (hx : ∀ violations, x = .ok violations ↔
      index.ListsTeams ∧ violations = teamReports index search report) :
    (∃ returned, (RuleRun.silent (do .ok { violations := ← x })).result = .ok returned) ↔
      index.ListsTeams := by
  simp only [RuleRun.result_listed_eq_ok]
  constructor
  · rintro ⟨_, violations, hviolations, -⟩
    exact ((hx violations).mp hviolations).1
  · exact fun hlists => ⟨_, _, (hx _).mpr ⟨hlists, rfl⟩, rfl⟩

theorem teamReports_eq :
    teamReports index search report = ((grouped index.appearances).map (·.1)).flatMap fun team =>
      (search (index.gamesOf team)).map (report team) := by
  rw [teamReports, groupGames_eq, List.flatMap_map]
  rfl

theorem gamesOf_eq_nil_of_notMem {team : String}
    (h : team ∉ (grouped index.appearances).map (·.1)) : index.gamesOf team = [] := by
  have hnone : valuesOf team index.appearances = [] := by
    refine List.map_eq_nil_iff.mpr (List.filter_eq_nil_iff.mpr fun p hp hteam => h ?_)
    obtain rfl : p.1 = team := by simpa using hteam
    exact ((keys_grouped _).2 _).mpr (List.mem_map_of_mem hp)
  rw [Index.gamesOf, hnone, inOrder, List.mergeSort_nil]

/-- Nothing is reported when nothing is found in the games of any team. -/
theorem teamReports_eq_nil (hnil : search [] = []) :
    teamReports index search report = [] ↔
      ∀ team, index.teamInScope team = true → search (index.gamesOf team) = [] := by
  rw [teamReports_eq, List.flatMap_eq_nil_iff]
  constructor
  · intro h team _
    by_cases hteam : team ∈ (grouped index.appearances).map (·.1)
    · exact List.map_eq_nil_iff.mp (h team hteam)
    · rw [gamesOf_eq_nil_of_notMem hteam, hnil]
  · intro h team hteam
    obtain ⟨⟨_, game⟩, hmem, rfl⟩ := List.mem_map.mp (((keys_grouped _).2 team).mp hteam)
    rw [h _ (Index.teamInScope_of_mem_appearances hmem), List.map_nil]

/-- Whatever is reported is about a team in scope. -/
theorem exists_isAbout_of_mem
    (hfirst : ∀ team found, (report team found).entities.head? = some team) {v : Violation}
    (h : v ∈ teamReports index search report) :
    ∃ team, index.teamInScope team = true ∧ v.isAbout team = true := by
  rw [teamReports_eq] at h
  obtain ⟨team, hteam, h⟩ := List.mem_flatMap.mp h
  obtain ⟨found, -, rfl⟩ := List.mem_map.mp h
  obtain ⟨⟨_, game⟩, hmem, rfl⟩ := List.mem_map.mp (((keys_grouped _).2 team).mp hteam)
  refine ⟨_, Index.teamInScope_of_mem_appearances hmem, ?_⟩
  rw [Violation.isAbout, hfirst, beq_self_eq_true]

/-- What is reported of a team is what is found in its games. -/
theorem filter_isAbout_teamReports (hnil : search [] = [])
    (hfirst : ∀ team found, (report team found).entities.head? = some team) (team : String) :
    (teamReports index search report).filter (·.isAbout team) =
      (search (index.gamesOf team)).map (report team) := by
  have hall : ∀ other, ∀ v ∈ (search (index.gamesOf other)).map (report other),
      v.isAbout team = true ↔ other = team := by
    intro other v hv
    obtain ⟨found, -, rfl⟩ := List.mem_map.mp hv
    rw [Violation.isAbout, hfirst, beq_iff_eq, Option.some.injEq]
  have heach : ∀ other, ((search (index.gamesOf other)).map (report other)).filter
      (·.isAbout team) =
        if other = team then (search (index.gamesOf team)).map (report team) else [] := by
    intro other
    split
    · next h =>
      rw [← h]
      exact List.filter_eq_self.mpr fun v hv => h ▸ (hall other v hv).mpr h
    · next h => exact List.filter_eq_nil_iff.mpr fun v hv => (hall other v hv).not.mpr h
  rw [teamReports_eq, List.filter_flatMap]
  simp only [heach]
  rw [flatMap_ite_eq (keys_grouped _).1]
  split
  · rfl
  · next h => rw [gamesOf_eq_nil_of_notMem h, hnil, List.map_nil]

end Search

end Rule
end LeagueAudit
