import LeagueAudit.Proofs.Rule.Teams

/-!
The sweep against a comparison of all pairs. Games are sorted and scanned only as far as their ends;
the rules about overlapping games report the same as if every two games of a team, and every two
assignments at a venue, were compared once.
-/
namespace LeagueAudit

variable {β κ : Type}

namespace Game

/-- Slots meet when each starts before the other one ends. A slot that does not end after its start
has no instant; it meets those that start before its end and end after its start. -/
def Meets (a b : Game) : Prop := a.start < b.finish ∧ b.start < a.finish

instance (a b : Game) : Decidable (a.Meets b) := inferInstanceAs (Decidable (_ ∧ _))

theorem overlaps_eq (a b : Game) : a.overlaps b = decide (a.Meets b) := by
  rw [Bool.eq_iff_iff, decide_eq_true_iff]
  simp [overlaps, Meets]

theorem meets_comm {a b : Game} : a.Meets b ↔ b.Meets a := and_comm

/-- Slots that end after they start meet when they have an instant in common. -/
theorem meets_iff_exists {a b : Game} (ha : a.start < a.finish) (hb : b.start < b.finish) :
    a.Meets b ↔ ∃ t, (a.start ≤ t ∧ t < a.finish) ∧ b.start ≤ t ∧ t < b.finish := by
  unfold Meets
  constructor
  · intro h
    exact ⟨max a.start b.start, by omega, by omega⟩
  · rintro ⟨t, hta, htb⟩
    omega

end Game

/-- What is said of two games, the one with the smaller start and fixture being named first. -/
def sayInTurn (say : Game → Game → β) (a b : Game) : β := if a.before b then say a b else say b a

/-- What is said of two games that meet. -/
def meeting (say : Game → Game → β) (p : Game × Game) : Option β :=
  if p.1.Meets p.2 then some (sayInTurn say p.1 p.2) else none

/-- Only the fixtures of games matter for what is said, so that games of the same fixture may be
named in any order. -/
def NamesFixtures (say : Game → Game → β) : Prop :=
  ∀ a b, a.fixture = b.fixture → say a b = say b a

section Sweep

variable {say : Game → Game → β}

theorem sayInTurn_comm (hsay : NamesFixtures say) (a b : Game) :
    sayInTurn say a b = sayInTurn say b a := by
  unfold sayInTurn
  cases hab : a.before b with
  | true =>
    cases hba : b.before a with
    | true =>
      have hfixture : a.fixture = b.fixture := by
        rw [Game.before_iff] at hab hba
        rcases hab with hab | ⟨hstart, hab⟩ <;> rcases hba with hba | ⟨hstart', hba⟩
        · omega
        · omega
        · omega
        · exact String.le_antisymm hab hba
      exact hsay a b hfixture
    | false => rfl
  | false =>
    have hba : b.before a = true := by
      have htotal := Game.before_total a b
      rwa [hab, Bool.false_or] at htotal
    rw [hba]
    rfl

theorem meeting_comm (hsay : NamesFixtures say) (a b : Game) :
    meeting say (a, b) = meeting say (b, a) := by
  unfold meeting
  simp only [Game.meets_comm (a := a), sayInTurn_comm hsay a]

/-- A sweep over games in order says the same as a comparison of all pairs of them. -/
theorem overlapPairs_inOrder_perm (hsay : NamesFixtures say) (games : List Game) :
    ((overlapPairs (inOrder games)).map fun p => say p.1 p.2).Perm
      ((pairsOf games).filterMap (meeting say)) := by
  have hbefore : ∀ p ∈ pairsOf (inOrder games), p.1.before p.2 = true :=
    forall_pairsOf_iff.mpr
      (List.pairwise_mergeSort Game.before_trans Game.before_total games)
  have hsweep : (overlapPairs (inOrder games)).map (fun p => say p.1 p.2) =
      (pairsOf (inOrder games)).filterMap (meeting say) := by
    rw [overlapPairs_eq_filter (pairwise_inOrder games), ← List.filterMap_eq_map,
      List.filterMap_filter]
    refine List.filterMap_congr fun p hp => ?_
    rw [meeting, sayInTurn, hbefore p hp, if_pos rfl, Game.overlaps_eq]
    simp only [decide_eq_true_eq, Function.comp_apply]
  rw [hsweep]
  exact filterMap_pairsOf_perm (meeting_comm hsay) (inOrder_perm games)

/-- Sweeps over the games of every key say the same as a comparison of all pairs of entries that
have the same key. -/
theorem groupGames_sweep_perm [DecidableEq κ] {say : κ → Game → Game → β}
    (hsay : ∀ key, NamesFixtures (say key)) (items : List (κ × Game)) :
    ((groupGames items).flatMap fun (key, games) =>
      (overlapPairs games).map fun (a, b) => say key a b).Perm
      ((pairsOf items).filterMap fun p =>
        if p.1.1 = p.2.1 then meeting (say p.1.1) (p.1.2, p.2.2) else none) := by
  rw [groupGames_eq, List.flatMap_map]
  refine (List.Perm.flatMap_left _ fun key _ => overlapPairs_inOrder_perm (hsay key) _).trans ?_
  refine flatMap_pairsOf_perm (fun key => meeting (say key)) (keys_grouped items).1 ?_
  intro item hitem
  exact ((keys_grouped items).2 _).mpr (List.mem_map_of_mem hitem)

end Sweep

namespace Index

/-- What a comparison of all games finds: two games of one team that meet. -/
def teamMeetings (index : Index) : List Violation :=
  (pairsOf index.appearances).filterMap fun ((team, a), (other, b)) =>
    if team = other then meeting (Rule.teamOverlap team) (a, b) else none

/-- Assignments are at the same venue, which is in scope, and with `perResource` at the same
resource of it. -/
def SharesVenue (index : Index) (perResource : Bool) (a b : Assignment) : Prop :=
  a.venue = b.venue ∧ index.venueInScope a.venue = true ∧
    (perResource = true → a.resource = b.resource)

instance (index : Index) (perResource : Bool) (a b : Assignment) :
    Decidable (index.SharesVenue perResource a b) := inferInstanceAs (Decidable (_ ∧ _))

/-- What a comparison of all assignments finds: two at one venue whose games meet. -/
def venueMeetings (index : Index) (perResource : Bool) : List Violation :=
  (pairsOf index.assignments).filterMap fun (a, b) => do
    let game ← Rule.gameOf a
    let other ← Rule.gameOf b
    let venue ← a.venue
    if index.SharesVenue perResource a b then
      meeting (Rule.placeOverlap ⟨venue, if perResource then a.resource else none⟩) (game, other)
    else none

/-- The rules about overlapping games report what a comparison of all pairs finds. -/
structure ComparesAll (index : Index) (params : Json) : Prop where
  listed : (∃ returned, (Rule.noOverlapTeam.run ⟨params, index⟩).result = .ok returned) ↔
    index.ListsTeams
  teams : ∀ returned, (Rule.noOverlapTeam.run ⟨params, index⟩).result = .ok returned →
    ∃ o, returned = .outcome o ∧ o.violations.Perm index.teamMeetings
  venues : ∃ o, (Rule.noOverlapVenueResource.run ⟨params, index⟩).result = .ok (.outcome o) ∧
    o.violations.Perm (index.venueMeetings (params.field "per_resource").truthy)
  instants : ∀ a b : Game, a.start < a.finish → b.start < b.finish →
    (a.Meets b ↔ ∃ t, (a.start ≤ t ∧ t < a.finish) ∧ b.start ≤ t ∧ t < b.finish)

end Index

namespace Rule

variable {index : Index}

theorem namesFixtures_teamOverlap (team : String) : NamesFixtures (teamOverlap team) := by
  intro a b h
  rw [teamOverlap, teamOverlap, h]

theorem namesFixtures_placeOverlap (place : Place) : NamesFixtures (placeOverlap place) := by
  intro a b h
  rw [placeOverlap, placeOverlap, h]

theorem teamOverlaps_eq_ok {violations : List Violation} :
    teamOverlaps index = .ok violations ↔ index.ListsTeams ∧
      violations = teamReports index overlapPairs fun team p => teamOverlap team p.1 p.2 :=
  teamSearch_eq_ok overlapPairs fun team p => teamOverlap team p.1 p.2

theorem teamOverlaps_perm {violations : List Violation}
    (h : teamOverlaps index = .ok violations) : violations.Perm index.teamMeetings := by
  obtain ⟨-, rfl⟩ := teamOverlaps_eq_ok.mp h
  exact groupGames_sweep_perm namesFixtures_teamOverlap index.appearances

theorem placedGame_eq (perResource : Bool) (a : Assignment) :
    placedGame perResource index a = (gameOf a).bind fun game => a.venue.bind fun venue =>
      if index.venueInScope (some venue) = true then
        some (⟨venue, if perResource then a.resource else none⟩, game)
      else none := by
  unfold placedGame gameOf
  cases a.span? with
  | none => rfl
  | some span => cases a.venue <;> rfl

/-- Assignments are compared when they are placed at the same place in scope. -/
theorem sharesVenue_iff {perResource : Bool} {a b : Assignment} {venue venue' : String}
    (ha : a.venue = some venue) (hb : b.venue = some venue') :
    index.SharesVenue perResource a b ↔ index.venueInScope (some venue) = true ∧
      (⟨venue, if perResource then a.resource else none⟩ : Place) =
        ⟨venue', if perResource then b.resource else none⟩ := by
  rw [Index.SharesVenue, ha, hb, Option.some.injEq, Place.mk.injEq, and_left_comm]
  cases perResource <;> simp

theorem placeOverlaps_perm (perResource : Bool) (index : Index) :
    (placeOverlaps perResource index).Perm (index.venueMeetings perResource) := by
  refine (groupGames_sweep_perm namesFixtures_placeOverlap _).trans (.of_eq ?_)
  rw [pairsOf_filterMap, List.filterMap_filterMap]
  refine List.filterMap_congr fun (a, b) _ => ?_
  -- Nothing is said unless both have a slot and a venue.
  simp only [placedGame_eq]
  cases gameOf a with
  | none => rfl
  | some game =>
    cases gameOf b with
    | none => cases a.venue <;> simp
    | some other =>
      cases ha : a.venue with
      | none => rfl
      | some venue =>
        cases hb : b.venue with
        | none => simp [Index.SharesVenue, ha, hb]
        | some venue' =>
          simp only [Option.bind_some, Option.bind_eq_bind, sharesVenue_iff ha hb]
          by_cases hscope : index.venueInScope (some venue) = true
          · by_cases hsame : venue = venue'
            · subst hsame
              simp [hscope]
            · simp [hscope, hsame]
          · simp [hscope]

theorem comparesAll (index : Index) (params : Json) : index.ComparesAll params where
  listed := exists_result_iff fun _ => teamOverlaps_eq_ok
  teams := by
    intro returned h
    obtain ⟨violations, hviolations, rfl⟩ := RuleRun.result_listed_eq_ok.mp h
    exact ⟨_, rfl, teamOverlaps_perm hviolations⟩
  venues := by
    have hper : (RuleContext.param? ⟨params, index⟩ "per_resource").any Json.truthy =
        (params.field "per_resource").truthy := by
      unfold RuleContext.param? Json.notNull?
      cases params.field "per_resource" <;> rfl
    refine ⟨_, rfl, ?_⟩
    dsimp only
    rw [hper]
    exact placeOverlaps_perm _ index
  instants _ _ := Game.meets_iff_exists

end Rule
end LeagueAudit
