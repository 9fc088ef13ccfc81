import LeagueAudit.Proofs.Schedule.Buildable

/-!
How an index is put together. One pass over the entries gives the assignments and the issues about
them; the other issues name no fixture, and what is counted and missed follows from the assignments.
-/
namespace LeagueAudit.Index

variable {default : Minutes} {fallback : String} {league result : Json} {index : Index}

/-- An issue about no entry of the assignments. -/
def IsAside (issue : Issue) : Prop :=
  subject issue = (.unknownTimezone, none) ∨ subject issue = (.malformedEntity, none)

/-- The parts of an index and where they come from. -/
structure Assembled (default : Minutes) (league result : Json) (index : Index) : Prop where
  fixtures : index.fixtures = (collect .fixture 0 [] (league.field "fixtures").items).1
  read : ∃ minutes aside issues,
    minutesOr default (league.field "defaultFixtureDuration") = .ok minutes ∧
    annotateAll index.zone minutes index.fixtures 0 (result.field "assignments").items =
      .ok (index.assignments, issues) ∧
    index.issues = aside ++ issues ∧ ∀ issue ∈ aside, IsAside issue
  counts : index.counts = tally (index.assignments.map (·.fixture))
  unassigned : index.unassigned = (index.fixtures.filter fun (id, doc) =>
    (index.counts.lookup id).isNone && !(doc.field "conditional").truthy).map (·.1)

/-- What can be wrong with an entry that names a fixture, which is then named by the flaw. -/
theorem mem_entryFlaws {z : Zone} {doc : Option Json} {entry : Json}
    (hnames : namesFixture entry = true) {flaw : IssueKind × Option String} :
    flaw ∈ entryFlaws z doc entry ↔ flaw.2 = some (fixtureNamed entry) ∧
      (flaw.1 = .unknownFixture ∧ doc = none ∨
        flaw.1 = .invalidStart ∧ readInstant? z (entry.field "startTime") = none ∨
        flaw.1 = .invalidEnd ∧ (entry.field "endTime").isNull = false ∧
          readInstant? z (entry.field "endTime") = none) := by
  have hflaw : ∀ (bad : Bool) (kind : IssueKind),
      flaw ∈ (if bad then [(kind, some (fixtureNamed entry))] else [] :
        List (IssueKind × Option String)) ↔
        flaw.2 = some (fixtureNamed entry) ∧ flaw.1 = kind ∧ bad = true := by
    intro bad kind
    cases bad with
    | true => simp [Prod.ext_iff, and_comm]
    | false => simp
  have hend : ((entry.field "endTime").notNull?.isSome &&
      (readInstant? z (entry.field "endTime")).isNone) = true ↔
        (entry.field "endTime").isNull = false ∧
          readInstant? z (entry.field "endTime") = none := by
    cases hnull : (entry.field "endTime").isNull <;> simp [Json.notNull?, hnull]
  rw [entryFlaws, if_pos hnames]
  dsimp only
  rw [List.mem_append, List.mem_append, hflaw, hflaw, hflaw, hend, ← and_or_left, ← and_or_left,
    Option.isNone_iff_eq_none, Option.isNone_iff_eq_none, or_assoc]

theorem aside_of_mem_collect {kind : EntityKind} {position : Nat} {found : Entities}
    {items : List Json} {issue : Issue} (h : issue ∈ (collect kind position found items).2) :
    IsAside issue := by
  have hmem := List.mem_map_of_mem (f := subject) h
  rw [map_subject_collect, entityFlaws, List.mem_map] at hmem
  obtain ⟨item, -, hflaw⟩ := hmem
  exact .inr hflaw.symm

theorem assembled_of_build (h : build default fallback league result = .ok index) :
    Assembled default league result index := by
  unfold build at h
  obtain ⟨⟨zone, known⟩, -, h⟩ := bind_eq_ok.mp h
  obtain ⟨minutes, hminutes, h⟩ := bind_eq_ok.mp h
  obtain ⟨⟨assignments, issues⟩, hread, h⟩ := bind_eq_ok.mp h
  obtain ⟨whole, -, h⟩ := bind_eq_ok.mp h
  cases Except.ok.inj h
  refine ⟨rfl, ⟨minutes, _, issues, hminutes, hread, rfl, ?_⟩, rfl, rfl⟩
  simp only [List.forall_mem_append]
  refine ⟨⟨⟨?_, fun _ => aside_of_mem_collect⟩, fun _ => aside_of_mem_collect⟩,
    fun _ => aside_of_mem_collect⟩
  intro issue hissue
  split at hissue
  · cases hissue
  · rw [List.mem_singleton.mp hissue]
    exact .inl rfl

end LeagueAudit.Index
