import LeagueAudit.Proofs.Audit.Warned
import LeagueAudit.Proofs.Schedule.Relisted
import LeagueAudit.Proofs.Score.Shuffle

/-!
Audits of results that list their assignments in different orders. What an audit finds wrong with
the entries is found in any order, and the constraints come to the same on both indexes; so the
order that a solver chooses for its assignments does not bear on the verdict.
-/
namespace LeagueAudit

open Index ResultAudit

/-- Two audits that come to the same verdict. -/
structure ResultAudit.SameVerdict (audit audit' : ResultAudit) : Prop where
  exitCode : audit.report.exitCode = audit'.report.exitCode
  hardViolations : audit.report.hardViolations.Perm audit'.report.hardViolations
  evaluations : ∃ r r', audit.reconciliation = some r ∧ audit'.reconciliation = some r' ∧
    List.Forall₂ Evaluation.Alike r.evaluations r'.evaluations

/-- Reports with findings of the same classes have the same exit code. -/
theorem Report.exitCode_congr {r r' : Report} (hscores : r.aboutScores = r'.aboutScores)
    (hhard : r.hardViolations.isEmpty = r'.hardViolations.isEmpty)
    (hinfeasible : r.infeasible = r'.infeasible)
    (hfail : r.failOnWarnings = r'.failOnWarnings) (herrors : r.errors = [] ↔ r'.errors = [])
    (hwarnings : r.errors = [] → (r.warnings = [] ↔ r'.warnings = [])) :
    r.exitCode = r'.exitCode := by
  have hcomplains : r.complains = r'.complains := by
    unfold complains
    rw [Bool.eq_iff_iff]
    simp only [Bool.or_eq_true, Bool.and_eq_true, Bool.not_eq_true', ← Bool.not_eq_true,
      List.isEmpty_iff, hfail]
    by_cases hclean : r.errors = []
    · simp only [hclean, herrors.mp hclean, hwarnings hclean]
    · simp only [hclean, mt herrors.mpr hclean, not_false_eq_true, true_or]
  rw [exitCode_eq, exitCode_eq, hscores, hhard, hinfeasible, hcomplains]

namespace Relisted

variable {league result result' : Json}

theorem canonical {members members' : List (String × Json)}
    (h : Relisted (.obj members) (.obj members')) :
    Relisted (Canonical.ofMembers members).toJson (Canonical.ofMembers members').toJson ∧
      (Canonical.ofMembers members).warnings = (Canonical.ofMembers members').warnings := by
  have htruthy : ((Json.obj members).field "assignments").truthy =
      ((Json.obj members').field "assignments").truthy := by
    have hitems : ∀ j : Json, j.isArray = true → j.truthy = !j.items.isEmpty := by
      intro j hj
      cases j with
      | arr items => rfl
      | _ => cases hj
    rw [hitems _ h.listed, hitems _ h.listed', h.perm.isEmpty_eq]
  obtain ⟨hothers, hwarnings⟩ :=
    Canonical.agreeBut_assignments h.others h.listed h.listed' htruthy
  refine ⟨?_, hwarnings⟩
  have hassignments := Canonical.field_assignments h.listed
  have hassignments' := Canonical.field_assignments h.listed'
  constructor
  · exact hothers
  · rw [hassignments]; exact h.listed
  · rw [hassignments']; exact h.listed'
  · rw [hassignments, hassignments']; exact h.perm
  · rw [hassignments]; exact h.distinct

theorem isFeasible (h : Relisted result result') :
    ResultAudit.isFeasible result = ResultAudit.isFeasible result' := by
  unfold ResultAudit.isFeasible
  rw [h.others.field (by decide)]

theorem missesFixture_iff (h : Relisted result result') :
    MissesFixture league result ↔ MissesFixture league result' := by
  have htimes : ∀ id, timesNamed result id = timesNamed result' id := by
    intro id
    exact h.perm.countP_eq _
  unfold MissesFixture
  simp only [htimes]

theorem namesUnknown_iff (h : Relisted result result') :
    NamesUnknown league result ↔ NamesUnknown league result' := by
  unfold NamesUnknown
  simp only [h.perm.mem_iff]

theorem lacksStart_iff (h : Relisted result result') (z : Zone) (wanted : String → Prop) :
    LacksStart z result wanted ↔ LacksStart z result' wanted := by
  unfold LacksStart
  simp only [h.perm.mem_iff]

end Relisted

theorem ResultAudit.venueWarnings_perm {index index' : Index} (h : index.Shuffled index') :
    (venueWarnings index).Perm (venueWarnings index') := by
  unfold venueWarnings
  rw [h.venues]
  split
  · exact .refl _
  · exact h.perm_filterMap fun a => rfl

/-- An audit without errors warns of all issues of its index. -/
theorem Staged.issueWarnings_eq_nil_iff {auditor : Auditor} {league : Json} {audit : ResultAudit}
    {index : Index} {r : Reconciliation} (h : Staged auditor league audit index r)
    (hclean : audit.report.errors = []) :
    issueWarnings index (timedFixtures r.evaluations) = [] ↔ index.issues = [] := by
  rw [h.errors, List.map_eq_nil_iff, List.append_eq_nil_iff] at hclean
  rw [issues_eq_nil_iff index (timedFixtures r.evaluations)]
  exact (and_iff_right hclean.2).symm

/-- Two staged audits of results that list the same assignments, whose constraints come to the
same. -/
structure Parallel (auditor : Auditor) (league : Json) (audit audit' : ResultAudit)
    (index index' : Index) (r r' : Reconciliation) : Prop where
  staged : Staged auditor league audit index r
  staged' : Staged auditor league audit' index' r'
  documents : Relisted audit.document audit'.document
  shuffled : index.Shuffled index'
  issues : index.issues = [] ↔ index'.issues = []
  alike : List.Forall₂ Evaluation.Alike r.evaluations r'.evaluations
  differences : r.differences = r'.differences
  unknown : r.unknown = r'.unknown

namespace Parallel

variable {auditor : Auditor} {league : Json} {audit audit' : ResultAudit} {index index' : Index}
  {r r' : Reconciliation}

theorem exists_status_iff (h : Parallel auditor league audit audit' index index' r r')
    (status : Status) :
    (∃ ev ∈ r.evaluations, ev.status = status) ↔ ∃ ev ∈ r'.evaluations, ev.status = status :=
  exists_iff_of_alike h.alike fun ev ev' halike => by rw [halike.status]

theorem aboutScores_eq (h : Parallel auditor league audit audit' index index' r r') :
    audit.report.aboutScores = audit'.report.aboutScores := by
  rw [Bool.eq_iff_iff, h.staged.aboutScores_iff, h.staged'.aboutScores_iff, h.exists_status_iff,
    h.differences]

theorem hardViolations_perm (h : Parallel auditor league audit audit' index index' r r') :
    audit.report.hardViolations.Perm audit'.report.hardViolations := by
  rw [h.staged.hardViolations, h.staged'.hardViolations]
  exact Reconciliation.hardViolations_perm h.alike

theorem errors_eq_nil_iff (h : Parallel auditor league audit audit' index index' r r') :
    audit.report.errors = [] ↔ audit'.report.errors = [] := by
  have hwanted : (fun id => ∃ ev ∈ r.evaluations, auditor.engine.ReadsTimesOf index ev id) =
      fun id => ∃ ev ∈ r'.evaluations, auditor.engine.ReadsTimesOf index' ev id := by
    funext id
    rw [← Engine.mem_timedFixtures h.staged.reconciles.1,
      ← Engine.mem_timedFixtures h.staged'.reconciles.1, timedFixtures_alike h.alike]
  have hstatus : (∀ ev ∈ r.evaluations, ev.status ≠ .failed ∧ ev.status ≠ .invalid) ↔
      ∀ ev ∈ r'.evaluations, ev.status ≠ .failed ∧ ev.status ≠ .invalid := by
    have hfailed := not_congr (h.exists_status_iff .failed)
    have hinvalid := not_congr (h.exists_status_iff .invalid)
    push Not at hfailed hinvalid
    rw [forall₂_and, forall₂_and, hfailed, hinvalid]
  rw [h.staged.errors_eq_nil_iff, h.staged'.errors_eq_nil_iff, hwanted, hstatus, h.differences,
    h.documents.missesFixture_iff, h.documents.namesUnknown_iff, h.documents.lacksStart_iff,
    h.shuffled.zone]

theorem warnings_eq_nil_iff {members members' : List (String × Json)}
    (h : Parallel auditor league audit audit' index index' r r')
    (hschemas : auditor.schemas = none)
    (haudit : auditor.auditResult league (.obj members) = .ok audit)
    (haudit' : auditor.auditResult league (.obj members') = .ok audit')
    (hnotes : (Canonical.ofMembers members).warnings = (Canonical.ofMembers members').warnings)
    (hclean : audit.report.errors = []) :
    audit.report.warnings = [] ↔ audit'.report.warnings = [] := by
  have hfeasible : feasibleWarnings audit.document = feasibleWarnings audit'.document := by
    unfold feasibleWarnings
    rw [h.documents.isFeasible]
  have hran : ∀ ev ∈ r.evaluations, ev.status ≠ .failed :=
    fun ev hev => ((h.staged.errors_eq_nil_iff.mp hclean).2.1.1 ev hev).1
  have hwarnings : r.warnings = r'.warnings :=
    Reconciliation.warnings_alike h.alike hran (h.staged.fix_eq.trans h.staged'.fix_eq.symm)
      h.differences h.unknown
  have hissues : issueWarnings index (timedFixtures r.evaluations) = [] ↔
      issueWarnings index' (timedFixtures r'.evaluations) = [] := by
    rw [h.staged.issueWarnings_eq_nil_iff hclean, h.issues,
      h.staged'.issueWarnings_eq_nil_iff (h.errors_eq_nil_iff.mp hclean)]
  have hvenues : venueWarnings index = [] ↔ venueWarnings index' = [] := by
    rw [← List.isEmpty_iff, ← List.isEmpty_iff, (venueWarnings_perm h.shuffled).isEmpty_eq]
  rw [Auditor.warnings_of_object hschemas haudit h.staged,
    Auditor.warnings_of_object hschemas haudit' h.staged']
  simp only [List.map_eq_nil_iff, List.append_eq_nil_iff, hnotes, hfeasible, hwarnings, hissues,
    hvenues]

theorem exitCode_eq {members members' : List (String × Json)}
    (h : Parallel auditor league audit audit' index index' r r')
    (hschemas : auditor.schemas = none)
    (haudit : auditor.auditResult league (.obj members) = .ok audit)
    (haudit' : auditor.auditResult league (.obj members') = .ok audit')
    (hnotes : (Canonical.ofMembers members).warnings = (Canonical.ofMembers members').warnings) :
    audit.report.exitCode = audit'.report.exitCode := by
  apply Report.exitCode_congr
  · exact h.aboutScores_eq
  · exact h.hardViolations_perm.isEmpty_eq
  · rw [h.staged.infeasible, h.staged'.infeasible, h.documents.isFeasible]
  · rw [h.staged.failOnWarnings, h.staged'.failOnWarnings]
  · exact h.errors_eq_nil_iff
  · exact h.warnings_eq_nil_iff hschemas haudit haudit' hnotes

end Parallel

namespace Auditor

variable {auditor : Auditor} {league raw raw' : Json} {audit audit' : ResultAudit}
  {sum : List Float → Float}

/-- The sums of what gaps lack come out exact wherever an audit takes them. -/
def AddsExactly (auditor : Auditor) (sum : List Float → Float) (league : Json)
    (audit : ResultAudit) : Prop :=
  ∀ index, audit.index = some index →
    auditor.engine.AddsExactly sum index (league.field "constraints").items

theorem addsExactly_exactTotal (audit : ResultAudit) :
    auditor.AddsExactly exactTotal league audit :=
  fun _ _ _ _ _ _ _ _ _ _ _ => Rule.addsExactly_exactTotal _

/-- Audits of results that list their assignments in different orders, each fixture being assigned
at most once, come to the same verdict. -/
theorem sameVerdict_of_relisted (hschemas : auditor.schemas = none)
    (hcatalog : auditor.catalog = .summing sum) (h : Relisted raw raw')
    (haudit : auditor.auditResult league raw = .ok audit)
    (haudit' : auditor.auditResult league raw' = .ok audit')
    (hsum : auditor.AddsExactly sum league audit)
    (hsum' : auditor.AddsExactly sum league audit') : audit.SameVerdict audit' := by
  have hobject : ∀ j : Json, (j.field "assignments").isArray = true → j.isObject = true := by
    intro j hj
    cases j with
    | obj members => rfl
    | _ => cases hj
  obtain ⟨members, rfl⟩ := Json.exists_eq_obj (hobject raw h.listed)
  obtain ⟨members', rfl⟩ := Json.exists_eq_obj (hobject raw' h.listed')
  obtain ⟨hdocument, index, r, hstaged⟩ := staged_of_object hschemas haudit
  obtain ⟨hdocument', index', r', hstaged'⟩ := staged_of_object hschemas haudit'
  obtain ⟨hdocuments, hnotes⟩ := h.canonical
  rw [← hdocument, ← hdocument'] at hdocuments
  obtain ⟨hshuffled, hissues⟩ := Index.shuffled_of_build hdocuments hstaged.built hstaged'.built
  have halike : List.Forall₂ Evaluation.Alike r.evaluations r'.evaluations :=
    Engine.alike_of_evaluateAll hcatalog hshuffled (hsum index hstaged.holdsIndex)
      (hsum' index' hstaged'.holdsIndex) hstaged.reconciles.1 hstaged'.reconciles.1
  -- Both ledgers are compared with what the evaluations come to, so it remains to relate them.
  obtain ⟨evaluations, hevaluations, hr⟩ := bind_eq_ok.mp hstaged.reconciled
  obtain ⟨evaluations', hevaluations', hr'⟩ := bind_eq_ok.mp hstaged'.reconciled
  cases hevaluations.symm.trans hstaged.reconciles.1
  cases hevaluations'.symm.trans hstaged'.reconciles.1
  obtain ⟨hdifferences, hunknown⟩ :=
    Scorekeeper.differences_alike (hdocuments.others.field (by decide)) halike hr hr'
  have hparallel : Parallel auditor league audit audit' index index' r r' :=
    ⟨hstaged, hstaged', hdocuments, hshuffled, hissues, halike, hdifferences, hunknown⟩
  exact ⟨hparallel.exitCode_eq hschemas haudit haudit' hnotes, hparallel.hardViolations_perm, r, r',
    hstaged.holdsReconciliation, hstaged'.holdsReconciliation, halike⟩

/-- An instance with two games that are locked to a venue. -/
def lockedGames : Json :=
  let game (id home away : String) : Json :=
    .obj [("id", .str id), ("participants", .arr [.str home, .str away]),
      ("lockedVenueId", .str "V")]
  .obj [("fixtures", .arr [game "F" "A" "B", game "G" "C" "D"]),
    ("constraints", .arr [
      .obj [("type", .str "hard"), ("ruleId", .str "locked_venue")],
      .obj [("type", .str "soft"), ("ruleId", .str "opponent_spacing"),
        ("params", .obj [("min_days", .int 2)]),
        ("penalty", .obj [("model", .str "linear"), ("weight", .int 1)])]])]

def listing (entries : List Json) : Json :=
  .obj (Json.setMember "assignments" (.arr entries) [("feasible", .bool true)])

/-- Both games at another venue. -/
def elsewhere : List Json :=
  let slot (id start : String) : Json :=
    .obj [("fixtureId", .str id), ("startTime", .str start), ("venueId", .str "W")]
  [slot "F" "2025-03-01T10:00:00Z", slot "G" "2025-03-01T10:10:00Z"]

/-- What an audit is made with that adds exactly, and corrects the reported scores. -/
def exactAuditor : Auditor :=
  { catalog := .summing exactTotal, config := { fixScores := true } }

theorem relisted_elsewhere : Relisted (listing elsewhere) (listing elsewhere.reverse) := by
  refine ⟨?_, rfl, rfl, (List.reverse_perm elsewhere).symm, by decide +kernel⟩
  exact Json.agreeBut_setMember "assignments" _ _ [("feasible", .bool true)]

theorem sameVerdict_of_relisted_lockedGames :
    ∃ forwards backwards,
      exactAuditor.auditResult lockedGames (listing elsewhere) = .ok forwards ∧
      exactAuditor.auditResult lockedGames (listing elsewhere.reverse) = .ok backwards ∧
      forwards.report.exitCode = 3 ∧ forwards.SameVerdict backwards := by
  obtain ⟨forwards, hforwards, hcode⟩ := exists_ok_of_toOption_map
    (x := exactAuditor.auditResult lockedGames (listing elsewhere))
    (f := fun audit => audit.report.exitCode) (b := 3) (by decide +kernel)
  obtain ⟨backwards, hbackwards, -⟩ := exists_ok_of_toOption_map
    (x := exactAuditor.auditResult lockedGames (listing elsewhere.reverse))
    (f := fun audit => audit.report.exitCode) (b := 3) (by decide +kernel)
  exact ⟨forwards, backwards, hforwards, hbackwards, hcode,
    sameVerdict_of_relisted rfl rfl relisted_elsewhere hforwards hbackwards
      (addsExactly_exactTotal forwards) (addsExactly_exactTotal backwards)⟩

end Auditor
end LeagueAudit
