import LeagueAudit.Proofs.Rule.Relaxing
import LeagueAudit.Proofs.Schedule.Build
import LeagueAudit.Rule.HomeAway
import LeagueAudit.Selector.Basic

/-!
Sides of a fixture. Each side is the team that the fixture names for it, else the participant in its
place, and the two are looked up apart from each other. So a team that is named for one side keeps
the other one when it stands in its place.
-/
namespace LeagueAudit

namespace Side

/-- The member that names a side. -/
def key : Side → String
  | .home => "homeTeamId"
  | .away => "awayTeamId"

/-- The place of the participant that a side falls to. -/
def place : Side → Nat
  | .home => 0
  | .away => 1

def of {α : Type} (side : Side) (both : α × α) : α :=
  match side with
  | .home => both.1
  | .away => both.2

@[simp] theorem of_home {α : Type} (both : α × α) : home.of both = both.1 := rfl

@[simp] theorem of_away {α : Type} (both : α × α) : away.of both = both.2 := rfl

end Side

/-- The text of a value that is there. -/
def given? (fixture : Json) (side : Side) : Option String :=
  (fixture.field side.key).notNull?.map Json.sealedText

/-- The team that a fixture names for a side. -/
def named? (fixture : Json) (side : Side) : Option String :=
  if (fixture.field side.key).truthy then some (fixture.field side.key).sealedText else none

theorem given?_of_named? {fixture : Json} {side : Side} {team : String}
    (h : named? fixture side = some team) : given? fixture side = some team := by
  unfold named? at h
  unfold given? Json.notNull?
  split at h
  · next htruthy =>
    cases hvalue : fixture.field side.key with
    | null => rw [hvalue] at htruthy; cases htruthy
    | _ => rw [hvalue] at h; exact h
  · cases h

theorem of_sidesOf (side : Side) (fixture : Json) (participants : List String) :
    side.of (Rule.sidesOf fixture participants) =
      (named? fixture side).or ((participants[side.place]?).filter (!·.isEmpty)) := by
  cases side with
  | home => by_cases h : (fixture.field "homeTeamId").truthy <;>
      simp [named?, Rule.sidesOf, Side.of, Side.key, Side.place, h]
  | away => by_cases h : (fixture.field "awayTeamId").truthy <;>
      simp [named?, Rule.sidesOf, Side.of, Side.key, Side.place, h]

namespace Index

/-- The home and the away team of an assignment. -/
def sidesIn (index : Index) (a : Assignment) : Except Fault (Option String × Option String) :=
  match index.fixture? a.fixture with
  | none => .ok (none, none)
  | some fixture => do .ok (Rule.sidesOf fixture (← index.participants a.fixture))

/-- An assignment counts as a game of a team on a side. -/
def countsAs (index : Index) (side : Side) (a : Assignment) (team : String) : Bool :=
  (index.sidesIn a).toOption.any fun sides => side.of sides == some team

variable {index : Index}

/-- The games of a team are the assignments that count as such. -/
theorem gamesOf_allSides {sides : List (Option String × Option String)}
    (h : Rule.allSides index = .ok sides) (team : String) :
    Rule.gamesOf sides team = (index.assignments.countP (index.countsAs .home · team),
      index.assignments.countP (index.countsAs .away · team)) := by
  have hside : ∀ side : Side, sides.map (fun s => side.of s == some team) =
      index.assignments.map (index.countsAs side · team) := by
    intro side
    apply map_eq_of_mapM_eq_ok (f := index.sidesIn) h
    intro a _ s hs
    simp [countsAs, hs, Except.toOption]
  have hcount : ∀ side : Side, sides.countP (fun s => side.of s == some team) =
      index.assignments.countP (index.countsAs side · team) := by
    intro side
    have heq := congrArg (List.countP id) (hside side)
    rwa [List.countP_map, List.countP_map] at heq
  exact Prod.ext (hcount .home) (hcount .away)

/-- The fixture of an assignment has two participants, and whoever is given for a side is one of
them, another one for each side. -/
structure TwoSided (index : Index) (a : Assignment) (fixture : Json) (p q : String) : Prop where
  found : index.fixture? a.fixture = some fixture
  participants : index.participants a.fixture = .ok [p, q]
  distinct : p ≠ q
  given : ∀ side, ∀ team ∈ given? fixture side, team = p ∨ team = q
  apart : ∀ team ∈ given? fixture .home, team ∉ given? fixture .away

/-- Every assignment with two sides counts as a home game of one participant and as an away game of
the other one, and of nobody else. -/
def SeparatesSides (index : Index) : Prop :=
  ∀ a ∈ index.assignments, ∀ fixture p q, index.TwoSided a fixture p q →
    ∃ home away, (home = p ∧ away = q ∨ home = q ∧ away = p) ∧
      ∀ team, (index.countsAs .home a team = true ↔ team = home) ∧
        (index.countsAs .away a team = true ↔ team = away)

/-- The team that takes a side of a fixture of two. -/
def taker (fixture : Json) (p q : String) (side : Side) : String :=
  (named? fixture side).getD (side.of (p, q))

/-- The sides are taken by different teams, and not by somebody without an id. -/
structure SidesApart (fixture : Json) (p q : String) : Prop where
  different : taker fixture p q .home ≠ taker fixture p q .away
  home : named? fixture .home = none → p ≠ ""
  away : named? fixture .away = none → q ≠ ""

/-- Both sides are named or none is, or the only one that is named is so for whom it would fall to;
and nobody without an id takes a side by place. -/
inductive NamesInPlace (fixture : Json) (p q : String) : Prop where
  | neither (home : named? fixture .home = none) (away : named? fixture .away = none)
    (hp : p ≠ "") (hq : q ≠ "")
  | home (home : named? fixture .home = some p) (away : named? fixture .away = none) (hq : q ≠ "")
  | away (home : named? fixture .home = none) (away : named? fixture .away = some q) (hp : p ≠ "")
  | both {x y : String} (home : named? fixture .home = some x)
    (away : named? fixture .away = some y)

theorem countsAs_iff {a : Assignment} {fixture : Json} {participants : List String}
    (hfound : index.fixture? a.fixture = some fixture)
    (hparticipants : index.participants a.fixture = .ok participants) {side : Side}
    {team : String} : index.countsAs side a team = true ↔
      (named? fixture side).or ((participants[side.place]?).filter (!·.isEmpty)) = some team := by
  have hsides : index.sidesIn a = .ok (Rule.sidesOf fixture participants) := by
    unfold sidesIn
    rw [hfound, hparticipants]
    rfl
  unfold countsAs
  rw [hsides, ← of_sidesOf]
  exact beq_iff_eq

section TwoSided

variable {a : Assignment} {fixture : Json} {p q : String}

theorem TwoSided.countsAs_iff (h : index.TwoSided a fixture p q) {side : Side} {team : String} :
    index.countsAs side a team = true ↔
      taker fixture p q side = team ∧ (named? fixture side = none → side.of (p, q) ≠ "") := by
  have hplace : [p, q][side.place]? = some (side.of (p, q)) := by cases side <;> rfl
  rw [Index.countsAs_iff h.found h.participants, hplace]
  unfold taker
  cases named? fixture side with
  | some named => simp
  | none =>
    rw [Option.none_or, Option.filter_eq_some_iff, Option.some.injEq, Option.getD_none]
    simp only [Bool.not_eq_true', String.isEmpty_eq_false_iff, forall_const]
    exact and_congr_right fun heq => by rw [heq]

theorem TwoSided.taker_mem (h : index.TwoSided a fixture p q) (side : Side) :
    taker fixture p q side = p ∨ taker fixture p q side = q := by
  unfold taker
  cases hnamed : named? fixture side with
  | some team => exact h.given side team (given?_of_named? hnamed)
  | none =>
    cases side with
    | home => exact .inl rfl
    | away => exact .inr rfl

theorem TwoSided.separates_iff (h : index.TwoSided a fixture p q) :
    (∃ home away, (home = p ∧ away = q ∨ home = q ∧ away = p) ∧
      ∀ team, (index.countsAs .home a team = true ↔ team = home) ∧
        (index.countsAs .away a team = true ↔ team = away)) ↔ SidesApart fixture p q := by
  constructor
  · rintro ⟨home, away, hpair, hteam⟩
    obtain ⟨rfl, hhome⟩ := h.countsAs_iff.mp ((hteam home).1.mpr rfl)
    obtain ⟨rfl, haway⟩ := h.countsAs_iff.mp ((hteam away).2.mpr rfl)
    refine ⟨fun hsame => ?_, hhome, haway⟩
    rcases hpair with ⟨hp, hq⟩ | ⟨hq, hp⟩
    · exact h.distinct (hp.symm.trans (hsame.trans hq))
    · exact h.distinct (hp.symm.trans (hsame.symm.trans hq))
  · intro hapart
    have hteam : ∀ side team, index.countsAs side a team = true ↔
        team = taker fixture p q side := by
      intro side team
      rw [h.countsAs_iff, eq_comm]
      cases side with
      | home => exact and_iff_left hapart.home
      | away => exact and_iff_left hapart.away
    refine ⟨_, _, ?_, fun team => ⟨hteam .home team, hteam .away team⟩⟩
    rcases h.taker_mem .home with hhome | hhome
    · left
      exact ⟨hhome, (h.taker_mem .away).resolve_left fun haway =>
        hapart.different (hhome.trans haway.symm)⟩
    · right
      exact ⟨hhome, (h.taker_mem .away).resolve_right fun haway =>
        hapart.different (hhome.trans haway.symm)⟩

theorem TwoSided.sidesApart_iff (h : index.TwoSided a fixture p q) :
    SidesApart fixture p q ↔ NamesInPlace fixture p q := by
  constructor
  · intro hapart
    have hdifferent := hapart.different
    unfold taker at hdifferent
    cases hhome : named? fixture .home with
    | none =>
      cases haway : named? fixture .away with
      | none => exact .neither hhome haway (hapart.home hhome) (hapart.away haway)
      | some y =>
        -- The away team is not the one to which the home side falls, and there are only two.
        rw [hhome, haway] at hdifferent
        have hy := (h.given .away y (given?_of_named? haway)).resolve_left (Ne.symm hdifferent)
        exact .away hhome (hy ▸ haway) (hapart.home hhome)
    | some x =>
      cases haway : named? fixture .away with
      | none =>
        rw [hhome, haway] at hdifferent
        have hx := (h.given .home x (given?_of_named? hhome)).resolve_right hdifferent
        exact .home (hx ▸ hhome) haway (hapart.away haway)
      | some y => exact .both hhome haway
  · intro hplace
    have hdifferent : taker fixture p q .home ≠ taker fixture p q .away := by
      cases hplace with
      | neither hhome haway => simpa [taker, hhome, haway] using h.distinct
      | home hhome haway => simpa [taker, hhome, haway] using h.distinct
      | away hhome haway => simpa [taker, hhome, haway] using h.distinct
      | both hhome haway =>
        intro hsame
        simp only [taker, hhome, haway, Option.getD_some] at hsame
        exact h.apart _ (given?_of_named? hhome) (hsame ▸ given?_of_named? haway)
    refine ⟨hdifferent, ?_, ?_⟩
    · cases hplace with
      | neither _ _ hp => exact fun _ => hp
      | home hhome => simp [hhome]
      | away _ _ hp => exact fun _ => hp
      | both hhome => simp [hhome]
    · cases hplace with
      | neither _ _ _ hq => exact fun _ => hq
      | home _ _ hq => exact fun _ => hq
      | away _ haway => simp [haway]
      | both _ haway => simp [haway]

end TwoSided

/-- The rule about balance counts the assignments on each side of a team. It tells two sides apart
exactly when a side that alone is named is so for the participant in its own place. -/
theorem separatesSides_iff :
    (∀ sides, Rule.allSides index = .ok sides → ∀ team,
      Rule.gamesOf sides team = (index.assignments.countP (index.countsAs .home · team),
        index.assignments.countP (index.countsAs .away · team))) ∧
      (index.SeparatesSides ↔ ∀ a ∈ index.assignments, ∀ fixture p q,
        index.TwoSided a fixture p q → NamesInPlace fixture p q) := by
  refine ⟨fun sides h => gamesOf_allSides h, ?_⟩
  unfold SeparatesSides
  refine forall₂_congr fun a _ => forall₃_congr fun fixture p q => ?_
  exact forall_congr' fun h => h.separates_iff.trans h.sidesApart_iff

/-- A game whose second participant is named as the home team. -/
def guestAtHome : Json :=
  .obj [("id", .str "F"), ("participants", .arr [.str "A", .str "B"]), ("homeTeamId", .str "B")]

def guestLeague : Json :=
  .obj [("teams", .arr [.obj [("id", .str "A")], .obj [("id", .str "B")]]),
    ("fixtures", .arr [guestAtHome])]

def oneSlot : Json := .obj [("assignments", .arr [.obj [("fixtureId", .str "F")]])]

/-- The team that is named takes both sides, and no imbalance is found. -/
theorem not_separatesSides_guestAtHome :
    ∃ index, build (.whole 90) "UTC" guestLeague oneSlot = .ok index ∧ ¬index.SeparatesSides ∧
      (index.assignments.map fun a => (index.countsAs .home a "B", index.countsAs .away a "B")) =
        [(true, true)] ∧
      (Rule.homeAwayBalance.run ⟨.obj [("max_delta", .int 0)], index⟩).findsNothing = true := by
  obtain ⟨index, hindex, hview⟩ := exists_ok_of_toOption_map
    (x := build (.whole 90) "UTC" guestLeague oneSlot)
    (f := fun index => (index.assignments.map (·.fixture),
      index.assignments.map fun a => (index.countsAs .home a "B", index.countsAs .away a "B"),
      (Rule.homeAwayBalance.run ⟨.obj [("max_delta", .int 0)], index⟩).findsNothing))
    (b := (["F"], [(true, true)], true)) (by decide +kernel)
  obtain ⟨hassigned, hrest⟩ := Prod.mk.inj hview
  obtain ⟨hcounts, hsilent⟩ := Prod.mk.inj hrest
  refine ⟨index, hindex, fun hseparates => ?_, hcounts, hsilent⟩
  obtain ⟨a, hall, hfixture⟩ := List.map_eq_singleton_iff.mp hassigned
  rw [hall, List.map_singleton, List.singleton_inj, Prod.mk.injEq] at hcounts
  have hdoc : index.fixture? a.fixture = some guestAtHome := by
    rw [hfixture, (build_eq_ok hindex).fixture]
    rfl
  have htwo : index.TwoSided a guestAtHome "A" "B" := by
    have hhome : given? guestAtHome .home = some "B" := rfl
    have haway : given? guestAtHome .away = none := rfl
    refine ⟨hdoc, ?_, by decide, ?_, by simp [haway]⟩
    · unfold participants
      rw [hdoc]
      rfl
    · intro side team hteam
      cases side with
      | home => exact .inr (by simpa [hhome, eq_comm] using hteam)
      | away => simp [haway] at hteam
  obtain ⟨home, away, hpair, hteam⟩ := hseparates a (by simp [hall]) _ _ _ htwo
  have hhome := (hteam "B").1.mp hcounts.1
  have haway := (hteam "B").2.mp hcounts.2
  rw [← hhome, ← haway] at hpair
  revert hpair
  decide

end Index

end LeagueAudit
