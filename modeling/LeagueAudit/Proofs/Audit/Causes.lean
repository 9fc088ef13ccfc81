import LeagueAudit.Proofs.Audit.Stages
import LeagueAudit.Proofs.Evaluation.Ending
import LeagueAudit.Proofs.Schedule.Build
import LeagueAudit.Proofs.Score.Ledger

/-!
What each class of findings of an audit comes from: failed rules and differing scores, violations of
hard constraints, and, below them, fixtures, starts and constraints that are not as they must be.
-/
namespace LeagueAudit

theorem Difference.exitCode_entry (d : Difference) (suffix : String) :
    (d.entry suffix).exitCode = 4 := by
  rw [Entry.exitCode_eq_four]
  cases d <;> simp [Difference.entry, Difference.check, Entry.scoringChecks]

namespace Evaluation

variable {ev : Evaluation}

theorem Accounted.exists_four (h : ev.Accounted) :
    (∃ e ∈ ev.errors, e.exitCode = 4) ↔ ev.status = .failed := by
  simp only [Entry.exitCode_eq_four]
  unfold Accounted at h
  cases hs : ev.status <;> simp only [hs] at h
  case invalid =>
    obtain ⟨e, he, hcheck⟩ := h
    simp [he, hcheck]
  case failed =>
    obtain ⟨e, he, hcheck⟩ := h
    simp [he, hcheck, Entry.scoringChecks]
  all_goals simp [h]

theorem Accounted.errors_eq_nil (h : ev.Accounted) :
    ev.errors = [] ↔ ev.status ≠ .failed ∧ ev.status ≠ .invalid := by
  unfold Accounted at h
  cases hs : ev.status <;> simp only [hs] at h
  case invalid =>
    obtain ⟨e, he, -⟩ := h
    simp [he]
  case failed =>
    obtain ⟨e, he, -⟩ := h
    simp [he]
  all_goals simp [h]

end Evaluation

namespace Index

/-- A declared fixture that must be scheduled is not assigned exactly once. -/
def MissesFixture (league result : Json) : Prop :=
  ∃ id doc, declared? league id = some doc ∧ (doc.field "conditional").truthy = false ∧
    timesNamed result id ≠ 1

/-- An entry names a fixture that nobody declares. -/
def NamesUnknown (league result : Json) : Prop :=
  ∃ entry ∈ (result.field "assignments").items, namesFixture entry = true ∧
    declared? league (fixtureNamed entry) = none

/-- An entry about a fixture of some kind has a start that cannot be read. -/
def LacksStart (z : Zone) (result : Json) (wanted : String → Prop) : Prop :=
  ∃ entry ∈ (result.field "assignments").items, namesFixture entry = true ∧
    wanted (fixtureNamed entry) ∧ readInstant? z (entry.field "startTime") = none

end Index

namespace ResultAudit

open Index

variable {default : Minutes} {fallback : String} {league result : Json} {index : Index}

theorem exitCode_of_mem_cardinalityErrors {e : Entry} (h : e ∈ cardinalityErrors index) :
    e.exitCode = 1 := by
  obtain ⟨⟨id, doc⟩, -, he⟩ := List.mem_filterMap.mp h
  dsimp only at he
  split at he
  · cases he
  · cases Option.some.inj he
    rfl

theorem exitCode_issueEntry (issue : Issue) : (issueEntry issue).exitCode = 1 := by
  unfold issueEntry issueCheck Entry.exitCode
  cases issue.kind <;> rfl

theorem cardinalityErrors_eq_nil (b : Built default fallback league result index) :
    cardinalityErrors index = [] ↔ ¬MissesFixture league result := by
  unfold cardinalityErrors MissesFixture
  rw [List.filterMap_eq_nil_iff]
  constructor
  · rintro hall ⟨id, doc, hdeclared, hneeded, htimes⟩
    rw [← b.fixture] at hdeclared
    have hnone := hall (id, doc) ((Json.mem_iff_lookup b.distinct).mpr hdeclared)
    simp [hneeded, b.countOf, htimes] at hnone
  · rintro hnone ⟨id, doc⟩ hmem
    have hdeclared := (b.fixture id).symm.trans ((Json.mem_iff_lookup b.distinct).mp hmem)
    dsimp only
    split
    · rfl
    · next hbad =>
      simp only [b.countOf, Bool.or_eq_true, decide_eq_true_eq, not_or, Bool.not_eq_true] at hbad
      exact absurd ⟨id, doc, hdeclared, hbad.1, hbad.2⟩ hnone

theorem issueErrors_eq_nil (b : Built default fallback league result index)
    (timed : List String) :
    issueErrors index timed = [] ↔
      ¬NamesUnknown league result ∧ ¬LacksStart index.zone result (· ∈ timed) := by
  have hunknown := b.exists_unknown
  have hstart := b.exists_unreadable fun fixture => fixture.any timed.contains = true
  unfold issueErrors NamesUnknown LacksStart
  rw [List.map_eq_nil_iff, List.filter_eq_nil_iff, ← hunknown]
  simp only [Option.any_some, List.contains_iff_mem] at hstart
  rw [← hstart]
  simp only [isIssueError, Bool.or_eq_true, Bool.and_eq_true, decide_eq_true_eq]
  grind

end ResultAudit

namespace Engine

/-- A checked hard constraint whose rule reads times is about a fixture. -/
def ReadsTimesOf (engine : Engine) (index : Index) (ev : Evaluation) (id : String) : Prop :=
  ev.checked = true ∧ ev.constraint.soft = false ∧
    ∃ ruleId rule scope, engine.Scopes ev.constraint index ruleId rule scope ∧
      rule.usesTime = true ∧ id ∈ scope.fixtures.ids

variable {engine : Engine} {index : Index} {c : Constraint} {ev : Evaluation}

theorem Scopes.unique {ruleId ruleId' : String} {rule rule' : Rule} {scope scope' : Index}
    (h : engine.Scopes c index ruleId rule scope)
    (h' : engine.Scopes c index ruleId' rule' scope') :
    rule = rule' ∧ scope = scope' := by
  obtain ⟨selector, hselector, hscope⟩ := h.selected
  obtain ⟨selector', hselector', hscope'⟩ := h'.selected
  cases h.named.symm.trans h'.named
  cases h.found.symm.trans h'.found
  cases hselector.symm.trans hselector'
  cases hscope.symm.trans hscope'
  exact ⟨rfl, rfl⟩

/-- The fixtures whose times a checked constraint has read. -/
theorem Settles.mem_timed {doc : Json} (h : Settles engine index doc ev)
    (hchecked : ev.checked = true) (id : String) :
    id ∈ ev.timed.getD [] ↔ ∃ ruleId rule scope,
      engine.Scopes ev.constraint index ruleId rule scope ∧ rule.usesTime = true ∧
      id ∈ scope.fixtures.ids := by
  obtain ⟨c, ruleId, rule, scope, model, returned, warnings, -, hs, -, habsorb⟩ :=
    h.of_checked hchecked
  obtain ⟨r, amount, penalty, -, rfl⟩ := absorb_eq_ok habsorb
  dsimp only
  constructor
  · intro hmem
    split at hmem
    · next htimes => exact ⟨ruleId, rule, scope, hs, htimes, by simpa using hmem⟩
    · simp at hmem
  · rintro ⟨ruleId', rule', scope', hs', htimes, hmem⟩
    obtain ⟨rfl, rfl⟩ := hs.unique hs'
    simpa [htimes] using hmem

theorem mem_timedFixtures {docs : List Json} {evs : List Evaluation}
    (h : engine.evaluateAll index docs = .ok evs) (id : String) :
    id ∈ ResultAudit.timedFixtures evs ↔ ∃ ev ∈ evs, engine.ReadsTimesOf index ev id := by
  unfold ResultAudit.timedFixtures ReadsTimesOf
  simp only [List.mem_flatMap, List.mem_filter, Bool.and_eq_true, Bool.not_eq_true', and_assoc]
  refine exists_congr fun ev => and_congr_right fun hev => and_congr_right fun hchecked =>
    and_congr_right fun _ => ?_
  obtain ⟨doc, -, hdoc⟩ := exists_source_of_mapM_eq_ok h hev
  exact (evaluateAmong_eq_ok hdoc).mem_timed hchecked id

end Engine

namespace Staged

open Index Scorekeeper

variable {auditor : Auditor} {league : Json} {audit : ResultAudit} {index : Index}
  {r : Reconciliation}

/-- The evaluations and the ledger behind a staged audit. -/
theorem reconciles (h : Staged auditor league audit index r) :
    auditor.engine.evaluateAll index (league.field "constraints").items = .ok r.evaluations ∧
      ∃ ledger, Reconciles auditor.scorekeeper audit.document r.evaluations ledger r := by
  obtain ⟨evaluations, hevaluations, hr⟩ := bind_eq_ok.mp h.reconciled
  obtain ⟨ledger, hr⟩ := reconcileWith_eq_ok hr
  cases hr.same
  exact ⟨hevaluations, ledger, hr⟩

theorem accounted (h : Staged auditor league audit index r) {ev : Evaluation}
    (hev : ev ∈ r.evaluations) : ev.Accounted :=
  Engine.accounted_of_mem h.reconciles.1 hev

theorem fix_eq (h : Staged auditor league audit index r) : r.fix = auditor.config.fixScores := by
  obtain ⟨-, ledger, hr⟩ := h.reconciles
  exact hr.fixing

theorem exists_four_errors (h : Staged auditor league audit index r) :
    (∃ e ∈ r.errors, e.exitCode = 4) ↔ (∃ ev ∈ r.evaluations, ev.status = .failed) ∨
      auditor.config.fixScores = false ∧ r.differences ≠ [] := by
  have hevs : (∃ e ∈ r.evaluations.flatMap (·.errors), e.exitCode = 4) ↔
      ∃ ev ∈ r.evaluations, ev.status = .failed := by
    constructor
    · rintro ⟨e, he, hcode⟩
      obtain ⟨ev, hev, he⟩ := List.mem_flatMap.mp he
      exact ⟨ev, hev, (h.accounted hev).exists_four.mp ⟨e, he, hcode⟩⟩
    · rintro ⟨ev, hev, hs⟩
      obtain ⟨e, he, hcode⟩ := (h.accounted hev).exists_four.mpr hs
      exact ⟨e, List.mem_flatMap.mpr ⟨ev, hev, he⟩, hcode⟩
  have hdifferences : (∃ e ∈ r.differences.map fun d => d.entry "", e.exitCode = 4) ↔
      r.differences ≠ [] := by
    cases r.differences <;> simp [Difference.exitCode_entry]
  rw [Reconciliation.errors, h.fix_eq]
  simp only [List.mem_append, or_and_right, exists_or, hevs]
  cases auditor.config.fixScores with
  | true => simp
  | false => simp [← hdifferences]

/-- Findings about scores are failed rules, and differences that are not corrected. -/
theorem aboutScores_iff (h : Staged auditor league audit index r) :
    audit.report.aboutScores = true ↔ (∃ ev ∈ r.evaluations, ev.status = .failed) ∨
      auditor.config.fixScores = false ∧ r.differences ≠ [] := by
  rw [← h.exists_four_errors, Report.aboutScores, h.errors, List.any_eq_true]
  simp only [List.mem_map, List.mem_append, beq_iff_eq]
  constructor
  · rintro ⟨f, ⟨e, (he | he) | he, rfl⟩, hcode⟩
    · have hone := ResultAudit.exitCode_of_mem_cardinalityErrors he
      rw [Finding.exitCode_entry] at hcode
      omega
    · exact ⟨e, he, hcode⟩
    · obtain ⟨issue, -, rfl⟩ := List.mem_map.mp he
      have hone := ResultAudit.exitCode_issueEntry issue
      rw [Finding.exitCode_entry] at hcode
      omega
  · rintro ⟨e, he, hcode⟩
    exact ⟨.entry e, ⟨e, .inl (.inr he), rfl⟩, hcode⟩

/-- What a report shows of hard constraints are the violations that their rules list. -/
theorem hardViolations_iff (h : Staged auditor league audit index r) :
    audit.report.hardViolations.isEmpty = false ↔
      ∃ ev ∈ r.evaluations, ev.constraint.soft = false ∧ ev.status = .violated ∧
        ev.violations ≠ [] := by
  rw [h.hardViolations, List.isEmpty_eq_false_iff, Reconciliation.hardViolations, Ne,
    List.flatMap_eq_nil_iff]
  simp only [List.mem_filter, List.map_eq_nil_iff, Bool.and_eq_true, Bool.not_eq_true',
    decide_eq_true_eq]
  grind

/-- A report without errors. -/
theorem errors_eq_nil_iff (h : Staged auditor league audit index r) :
    audit.report.errors = [] ↔ ¬MissesFixture league audit.document ∧
      ((∀ ev ∈ r.evaluations, ev.status ≠ .failed ∧ ev.status ≠ .invalid) ∧
        (auditor.config.fixScores = false → r.differences = [])) ∧
      ¬NamesUnknown league audit.document ∧
      ¬LacksStart index.zone audit.document fun id =>
        ∃ ev ∈ r.evaluations, auditor.engine.ReadsTimesOf index ev id := by
  have b := build_eq_ok h.built
  have hevs : r.evaluations.flatMap (·.errors) = [] ↔
      ∀ ev ∈ r.evaluations, ev.status ≠ .failed ∧ ev.status ≠ .invalid := by
    rw [List.flatMap_eq_nil_iff]
    exact forall₂_congr fun ev hev => (h.accounted hev).errors_eq_nil
  have htimed : (fun id => id ∈ ResultAudit.timedFixtures r.evaluations) =
      fun id => ∃ ev ∈ r.evaluations, auditor.engine.ReadsTimesOf index ev id :=
    funext fun id => propext (Engine.mem_timedFixtures h.reconciles.1 id)
  rw [h.errors, List.map_eq_nil_iff, List.append_eq_nil_iff, List.append_eq_nil_iff,
    ResultAudit.cardinalityErrors_eq_nil b, ResultAudit.issueErrors_eq_nil b, htimed,
    Reconciliation.errors, List.append_eq_nil_iff, hevs, h.fix_eq, and_assoc]
  cases auditor.config.fixScores <;> simp

end Staged
end LeagueAudit
