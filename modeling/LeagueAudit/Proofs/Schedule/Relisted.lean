import LeagueAudit.Proofs.Json.Members
import LeagueAudit.Proofs.Schedule.Build
import LeagueAudit.Proofs.Schedule.Shuffle

/-!
Results that list their assignments in different orders. Each entry is read by itself, wherever it
stands, so the indexes of two such results are shuffled, and something is wrong with the entries of
one list exactly when something is wrong with those of the other.
-/
namespace LeagueAudit

open Index

/-- Results that differ in the order of their assignments at most, and assign no fixture twice. -/
structure Relisted (result result' : Json) : Prop where
  others : Json.AgreeBut "assignments" result result'
  listed : (result.field "assignments").isArray = true
  listed' : (result'.field "assignments").isArray = true
  perm : (result.field "assignments").items.Perm (result'.field "assignments").items
  distinct : (((result.field "assignments").items.filter namesFixture).map fixtureNamed).Nodup

namespace Index

variable {z : Zone} {default : Minutes} {fixtures : Entities}

def namelessIssue : Issue := ⟨.malformedAssignment, "Assignment has no fixtureId", none⟩

/-- What an entry comes to wherever it stands: the assignment, if it names a fixture, and what is
wrong with it. -/
def readEntry (z : Zone) (default : Minutes) (fixtures : Entities) (raw : Json) :
    Except Fault (Option Assignment × List Issue) :=
  if namesFixture raw then do
    let (a, issues) ← annotate z default fixtures 0 raw
    .ok (some a, issues)
  else .ok (none, [namelessIssue])

theorem annotate_eq_map (position : Nat) (raw : Json) :
    annotate z default fixtures position raw =
      (annotate z default fixtures 0 raw).map fun q => ({ q.1 with position }, q.2) := by
  unfold annotate
  dsimp only
  cases finishOf z default (fixtures.lookup (raw.field "fixtureId").text) raw
      (readInstant? z (raw.field "startTime")) with
  | error f => rfl
  | ok finish =>
    cases readInstant? z (raw.field "startTime") with
    | none => rfl
    | some s =>
      cases hparts : localParts z s with
      | error f => simp [hparts, bind, Except.bind, Except.map]
      | ok parts => simp [hparts, bind, Except.bind, Except.map]

theorem mapM_readEntry {position : Nat} {entries : List Json}
    {found : List Assignment × List Issue}
    (h : annotateAll z default fixtures position entries = .ok found) :
    ∃ read, entries.mapM (readEntry z default fixtures) = .ok read ∧
      found.1.map Assignment.unplaced = read.filterMap (·.1) ∧
      (found.2 = [] ↔ ∀ p ∈ read, p.2 = []) := by
  -- The entries behind are read from the next place on, so the place varies in the induction.
  induction entries generalizing position found with
  | nil =>
    cases Except.ok.inj h
    exact ⟨[], rfl, rfl, by simp⟩
  | cons entry rest ih =>
    rw [annotateAll] at h
    split at h
    · next hnames =>
      obtain ⟨q, hq, h⟩ := bind_eq_ok.mp h
      obtain ⟨more, hmore, h⟩ := bind_eq_ok.mp h
      cases Except.ok.inj h
      rw [annotate_eq_map] at hq
      obtain ⟨⟨a, issues⟩, ha, rfl⟩ := map_eq_ok.mp hq
      have hplace : a.position = 0 := (annotate_eq_ok ha).position
      obtain ⟨read, hread, hassignments, hissues⟩ := ih hmore
      have hentry : readEntry z default fixtures entry = .ok (some a, issues) := by
        rw [readEntry, if_pos (show namesFixture entry = true from hnames), ha]
        rfl
      refine ⟨(some a, issues) :: read, ?_, ?_, ?_⟩
      · rw [List.mapM_cons, hentry, hread]
        rfl
      · rw [List.map_cons, hassignments, List.filterMap_cons]
        obtain ⟨fixture, venue, start, finish, parts, resource, officials, place⟩ := a
        cases hplace
        rfl
      · rw [List.forall_mem_cons, ← hissues, List.append_eq_nil_iff]
    · next hnames =>
      obtain ⟨more, hmore, h⟩ := bind_eq_ok.mp h
      cases Except.ok.inj h
      obtain ⟨read, hread, hassignments, hissues⟩ := ih hmore
      have hentry : readEntry z default fixtures entry = .ok (none, [namelessIssue]) := by
        rw [readEntry, if_neg (show ¬namesFixture entry = true from hnames)]
      refine ⟨(none, [namelessIssue]) :: read, ?_, ?_, ?_⟩
      · rw [List.mapM_cons, hentry, hread]
        rfl
      · rw [hassignments]
        rfl
      · simp

theorem nodup_fixtures {fallback : String} {league result : Json} {index : Index}
    (b : Built default fallback league result index)
    (h : (((result.field "assignments").items.filter namesFixture).map fixtureNamed).Nodup) :
    (index.assignments.map (·.fixture)).Nodup := by
  obtain ⟨minutes, read, -, hread, has, -⟩ := b.read
  rw [has, fixtures_of_read hread]
  exact h

theorem shuffled_of_build {fallback : String} {league result result' : Json} {index index' : Index}
    (hresults : Relisted result result') (h : build default fallback league result = .ok index)
    (h' : build default fallback league result' = .ok index') :
    Shuffled index index' ∧ (index.issues = [] ↔ index'.issues = []) := by
  have hdistinct := nodup_fixtures (build_eq_ok h) hresults.distinct
  unfold build at h h'
  obtain ⟨⟨zone, known⟩, hzone, h⟩ := bind_eq_ok.mp h
  obtain ⟨⟨zone', known'⟩, hzone', h'⟩ := bind_eq_ok.mp h'
  cases hzone.symm.trans hzone'
  obtain ⟨minutes, hminutes, h⟩ := bind_eq_ok.mp h
  obtain ⟨minutes', hminutes', h'⟩ := bind_eq_ok.mp h'
  cases hminutes.symm.trans hminutes'
  obtain ⟨found, hfound, h⟩ := bind_eq_ok.mp h
  obtain ⟨found', hfound', h'⟩ := bind_eq_ok.mp h'
  obtain ⟨whole, hwhole, h⟩ := bind_eq_ok.mp h
  obtain ⟨whole', hwhole', h'⟩ := bind_eq_ok.mp h'
  cases Except.ok.inj h
  cases Except.ok.inj h'
  obtain ⟨read, hread, hassignments, hissues⟩ := mapM_readEntry hfound
  obtain ⟨read', hread', hassignments', hissues'⟩ := mapM_readEntry hfound'
  have hperm : read.Perm read' := (agree_mapM_of_perm hresults.perm _).related hread hread'
  constructor
  · refine ⟨rfl, rfl, rfl, rfl, rfl, rfl, rfl, ?_, hdistinct⟩
    rw [hassignments, hassignments']
    exact hperm.filterMap _
  · have hnone : found.2 = [] ↔ found'.2 = [] := by
      rw [hissues, hissues']
      exact forall_congr' fun p => imp_congr_left hperm.mem_iff
    simp only [List.append_eq_nil_iff, hnone]

end Index
end LeagueAudit
