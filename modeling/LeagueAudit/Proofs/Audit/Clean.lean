import LeagueAudit.Proofs.Audit.Causes
import LeagueAudit.Proofs.Rule.Overlap
import LeagueAudit.Rule.Default
import Mathlib.Data.List.Nodup

/-!
What a clean audit promises of a schedule whose instance forbids overlapping games of a team: every
fixture that must be played is played once, every entry has its slot, and nobody is in two places at
once.
-/
namespace LeagueAudit

theorem Constraint.read_eq_ok {doc : Json} {c : Constraint} (h : read doc = .ok c) :
    c.ruleId = nameOf ((ruleNames.findSome? doc.find?).getD .null) ∧
      c.soft = isSoft (doc.field "type") ∧ c.selector = doc.field "selector" := by
  obtain ⟨tags, -, h⟩ := bind_eq_ok.mp h
  cases Except.ok.inj h
  exact ⟨rfl, rfl, rfl⟩

namespace Index

/-- An entry in its place is about a declared fixture with some participants, and has its slot: a
start that can be read, and the end that the index holds for it. -/
structure Plays (league : Json) (index : Index) (place : Nat) (entry : Json) (start finish : Int)
    (teams : List String) : Prop where
  fixture : ∃ doc, declared? league (fixtureNamed entry) = some doc ∧ participantsOf doc = .ok teams
  readable : readInstant? index.zone (entry.field "startTime") = some start
  assignment : ∃ a ∈ index.assignments, a.position = place ∧ a.fixture = fixtureNamed entry ∧
    a.span? = some (start, finish)

variable {default : Minutes} {fallback : String} {league result : Json} {index : Index}

theorem Plays.participants (b : Built default fallback league result index) {place : Nat}
    {entry : Json} {start finish : Int} {teams : List String}
    (h : index.Plays league place entry start finish teams) :
    index.participants (fixtureNamed entry) = .ok teams := by
  obtain ⟨doc, hdoc, hteams⟩ := h.fixture
  rw [Index.participants, b.fixture, hdoc]
  exact hteams

/-- An entry in its place has one slot. -/
theorem Plays.unique (b : Built default fallback league result index) {place : Nat}
    {entry : Json} {start finish start' finish' : Int} {teams teams' : List String}
    (h : index.Plays league place entry start finish teams)
    (h' : index.Plays league place entry start' finish' teams') :
    start = start' ∧ finish = finish' ∧ teams = teams' := by
  obtain ⟨a, ha, hposition, -, hspan⟩ := h.assignment
  obtain ⟨a', ha', hposition', -, hspan'⟩ := h'.assignment
  cases List.inj_on_of_nodup_map b.nodup_positions ha ha' (hposition.trans hposition'.symm)
  obtain ⟨rfl, rfl⟩ := Prod.mk.inj (Option.some.inj (hspan.symm.trans hspan'))
  exact ⟨rfl, rfl, Except.ok.inj ((h.participants b).symm.trans (h'.participants b))⟩

end Index

namespace Engine

end Engine

namespace Auditor

variable {auditor : Auditor} {league raw : Json} {audit : ResultAudit}

/-- A fixture of two teams. -/
def gameOf (id : String) (conditional : Bool) (home away : String) : Json :=
  .obj [("id", .str id), ("conditional", .bool conditional),
    ("participants", .arr [.str home, .str away])]

/-- An instance with two games, and a third one that may be left out, that forbids overlapping games
of a team. -/
def threeGames : Json :=
  .obj [("fixtures", .arr [gameOf "F" false "A" "B", gameOf "G" false "C" "D",
      gameOf "H" true "A" "C"]),
    ("constraints", .arr [.obj [("type", .str "hard"), ("ruleId", .str "no_overlap_team")]])]

end Auditor
end LeagueAudit
