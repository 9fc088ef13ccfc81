import LeagueAudit.Proofs.Rule.Sides
import LeagueAudit.Selector.Parser
import LeagueAudit.Selector.Scope

/-!
The role of a participant. Selectors look the sides of a fixture up among its values, and the
balance of games among their texts. They agree on the ids that are texts.
-/
namespace LeagueAudit

/-- The value that takes a side: what the fixture names, else the participant in its place. -/
def takes? (fixture : Json) (side : Side) (participants : List Json) : Option Json :=
  if (fixture.field side.key).truthy then some (fixture.field side.key)
  else participants[side.place]?

theorem sideOf_eq (fixture : Json) (side : Side) (participants : List Json) :
    sideOf fixture side participants = (takes? fixture side participants).getD .null := by
  cases side with
  | home => by_cases h : (fixture.field "homeTeamId").truthy <;>
      simp [takes?, sideOf, Json.orElse, Side.key, Side.place, h]
  | away => by_cases h : (fixture.field "awayTeamId").truthy <;>
      simp [takes?, sideOf, Json.orElse, Side.key, Side.place, h]

theorem Json.isText_iff {v : Json} {text : String} : v.isText text = true ↔ v = .str text := by
  cases v <;> simp [Json.isText]

/-- The selector of the games of a team on a side. -/
def roleSelector (side : Side) : Json := .obj [("role", .str side.name)]

theorem read_roleSelector (side : Side) :
    Selector.read (roleSelector side) = .ok (.leaf (.role side)) := by
  cases side <;> rfl

/-- A fixture as a participant sees it has a role when the value that takes the side is its id. -/
theorem matchesOne_role {z : Zone} {c : Candidate} {side : Side} {team : String}
    {items : List Json} (hkind : c.kind = .fixture) (hteam : c.teamId = some team)
    (hitems : (c.entity.field "participants").listedOrNone = .ok items) :
    (Selector.leaf (.role side)).matchesOne z c = .ok true ↔
      takes? c.entity side items = some (.str team) := by
  have hbears : (Leaf.role side).bearsOn .fixture = true := rfl
  have hmatches : (Selector.leaf (.role side)).matchesOne z c =
      .ok ((sideOf c.entity side items).isText team) := by
    unfold Selector.matchesOne Leaf.holds Leaf.test
    dsimp only
    rw [hkind, hbears, if_pos rfl, hteam]
    dsimp only
    rw [hitems]
    rfl
  rw [hmatches, Except.ok.injEq, Json.isText_iff, sideOf_eq]
  cases takes? c.entity side items with
  | none => simp
  | some v => simp

namespace Index

variable {index : Index} {fixture : String} {doc : Json} {items : List Json}

theorem participants_eq_map (hdoc : index.fixture? fixture = some doc)
    (hitems : (doc.field "participants").listedOrNone = .ok items) :
    index.participants fixture = .ok (items.map Json.sealedText) := by
  unfold participants participantsOf
  rw [hdoc]
  dsimp only
  rw [hitems]
  rfl

/-- An assignment counts as a game of whoever has the text of the value that takes the side. -/
theorem countsAs_iff_takes {a : Assignment} {side : Side} {team : String}
    (hdoc : index.fixture? a.fixture = some doc)
    (hitems : (doc.field "participants").listedOrNone = .ok items) (hteam : team ≠ "") :
    index.countsAs side a team = true ↔
      ∃ v, takes? doc side items = some v ∧ v.sealedText = team := by
  rw [countsAs_iff hdoc (participants_eq_map hdoc hitems)]
  unfold named? takes?
  split
  · simp
  · rw [Option.none_or, List.getElem?_map, Option.filter_eq_some_iff, Option.map_eq_some_iff]
    exact and_iff_left (by simpa using hteam)

theorem exists_views (hdoc : index.fixture? fixture = some doc)
    (hitems : (doc.field "participants").listedOrNone = .ok items) :
    ∃ views, index.fixtureCandidates fixture doc = .ok views ∧
      (∀ c ∈ views, c.kind = .fixture ∧ c.entity = doc) ∧
      ∀ team, (∃ c ∈ views, c.teamId = some team) ↔ team ∈ items.map Json.sealedText := by
  have hteams := participants_eq_map hdoc hitems
  unfold fixtureCandidates
  rw [hteams]
  cases items.map Json.sealedText with
  | nil => exact ⟨_, rfl, by simp, by simp⟩
  | cons team teams =>
    refine ⟨_, rfl, by simp, fun other => ?_⟩
    simp only [List.mem_map, List.mem_cons, exists_exists_and_eq_and, Option.some.injEq]
    exact exists_eq_right

theorem exists_items {views : List Candidate} (hdoc : index.fixture? fixture = some doc)
    (hviews : index.fixtureCandidates fixture doc = .ok views) :
    ∃ items, (doc.field "participants").listedOrNone = .ok items := by
  obtain ⟨teams, hteams, -⟩ := bind_eq_ok.mp hviews
  unfold participants at hteams
  rw [hdoc] at hteams
  obtain ⟨items, hitems, -⟩ := bind_eq_ok.mp hteams
  exact ⟨items, hitems⟩

/-- Seen by a participant, a fixture that is scheduled has a role exactly when the rule about
balance counts it so. -/
def AgreesOnSides (index : Index) : Prop :=
  ∀ fixture doc views, index.fixture? fixture = some doc →
    (∃ a ∈ index.assignments, a.fixture = fixture) →
    index.fixtureCandidates fixture doc = .ok views →
    ∀ c ∈ views, ∀ team ∈ c.teamId, team ≠ "" →
      ∀ side s, Selector.read (roleSelector side) = .ok s →
        (s.matchesOne index.zone c = .ok true ↔
          ∃ a ∈ index.assignments, a.fixture = fixture ∧ index.countsAs side a team = true)

/-- Selectors and the rule about balance agree exactly when each side of a fixture that is scheduled
is taken by a text, if it is taken by a participant at all. -/
theorem agreesOnSides_iff : index.AgreesOnSides ↔
    ∀ fixture doc items, index.fixture? fixture = some doc →
      (∃ a ∈ index.assignments, a.fixture = fixture) →
      (doc.field "participants").listedOrNone = .ok items →
      ∀ side, ∀ v ∈ takes? doc side items, v.sealedText ∈ items.map Json.sealedText →
        v.sealedText ≠ "" → ∃ text, v = .str text := by
  constructor
  · intro hagrees fixture doc items hdoc hassigned hitems side v hv hmem hne
    obtain ⟨views, hviews, hkinds, hteams⟩ := exists_views hdoc hitems
    obtain ⟨c, hc, hteam⟩ := (hteams v.sealedText).mpr hmem
    obtain ⟨hkind, rfl⟩ := hkinds c hc
    obtain ⟨a, ha, rfl⟩ := hassigned
    have hcounts := (countsAs_iff_takes hdoc hitems hne).mpr ⟨v, hv, rfl⟩
    have hmatches := (hagrees _ _ views hdoc ⟨a, ha, rfl⟩ hviews c hc _ hteam hne side _
      (read_roleSelector side)).mpr ⟨a, ha, rfl, hcounts⟩
    have htakes := (matchesOne_role hkind hteam hitems).mp hmatches
    exact ⟨_, Option.some.inj (hv.symm.trans htakes)⟩
  · -- A text is its own text, so both look for the same.
    intro htexts fixture doc views hdoc hassigned hviews c hc team hteam hne side s hs
    obtain ⟨items, hitems⟩ := exists_items hdoc hviews
    obtain ⟨views', hviews', hkinds, hteams⟩ := exists_views hdoc hitems
    obtain rfl := Except.ok.inj (hviews.symm.trans hviews')
    obtain ⟨hkind, rfl⟩ := hkinds c hc
    have hmem := (hteams team).mp ⟨c, hc, hteam⟩
    rw [← Except.ok.inj ((read_roleSelector side).symm.trans hs),
      matchesOne_role hkind hteam hitems]
    constructor
    · intro htakes
      obtain ⟨a, ha, rfl⟩ := hassigned
      exact ⟨a, ha, rfl, (countsAs_iff_takes hdoc hitems hne).mpr ⟨_, htakes, rfl⟩⟩
    · rintro ⟨a, ha, rfl, hcounts⟩
      obtain ⟨v, hv, rfl⟩ := (countsAs_iff_takes hdoc hitems hne).mp hcounts
      obtain ⟨text, rfl⟩ := htexts _ _ items hdoc hassigned hitems side v hv hmem hne
      exact hv

/-- A game of teams whose ids are numbers. -/
def numberedGame : Json := .obj [("id", .str "F"), ("participants", .arr [.int 1, .int 2])]

def numberedLeague : Json := .obj [("fixtures", .arr [numberedGame])]

/-- The first team plays at home, but no game with a home team is found. -/
theorem not_agreesOnSides_numberedLeague :
    ∃ index, build (.whole 90) "UTC" numberedLeague oneSlot = .ok index ∧
      ¬index.AgreesOnSides ∧
      index.assignments.map (index.countsAs .home · "1") = [true] ∧
      (index.scope (.leaf (.role .home))).toOption.map (·.fixtures.ids) = some [] := by
  obtain ⟨index, hindex, hview⟩ := exists_ok_of_toOption_map
    (x := build (.whole 90) "UTC" numberedLeague oneSlot)
    (f := fun index => (index.assignments.map (·.fixture),
      index.assignments.map (index.countsAs .home · "1"),
      (index.scope (.leaf (.role .home))).toOption.map (·.fixtures.ids)))
    (b := (["F"], [true], some [])) (by decide +kernel)
  obtain ⟨hassigned, hrest⟩ := Prod.mk.inj hview
  obtain ⟨hcounts, hscope⟩ := Prod.mk.inj hrest
  refine ⟨index, hindex, fun hagrees => ?_, hcounts, hscope⟩
  obtain ⟨a, hall, hfixture⟩ := List.map_eq_singleton_iff.mp hassigned
  rw [hall, List.map_singleton, List.singleton_inj] at hcounts
  have hdoc : index.fixture? a.fixture = some numberedGame := by
    rw [hfixture, (build_eq_ok hindex).fixture]
    rfl
  have hitems : (numberedGame.field "participants").listedOrNone = .ok [.int 1, .int 2] := rfl
  obtain ⟨views, hviews, hkinds, hteams⟩ := exists_views hdoc hitems
  obtain ⟨c, hc, hteam⟩ := (hteams "1").mpr (by decide)
  have hmatches := (hagrees _ _ views hdoc ⟨a, by simp [hall], rfl⟩ hviews c hc _ hteam (by decide)
    .home _ (read_roleSelector .home)).mpr ⟨a, by simp [hall], rfl, hcounts⟩
  obtain ⟨hkind, hentity⟩ := hkinds c hc
  rw [← hentity] at hitems
  have htakes := (matchesOne_role hkind hteam hitems).mp hmatches
  rw [hentity] at htakes
  cases htakes

end Index

end LeagueAudit
