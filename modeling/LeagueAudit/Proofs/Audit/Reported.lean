import LeagueAudit.Proofs.Audit.Causes
import LeagueAudit.Proofs.Canonical

/-!
What a solver reports about its own scores. An audit compares the reported ledger with the
recomputed one, and the recomputed one does not depend on it.
-/
namespace LeagueAudit

open ResultAudit

/-- Two audits that come to the same scores. -/
structure ResultAudit.SameScores (audit audit' : ResultAudit) : Prop where
  evaluations : audit.reconciliation.map (·.evaluations) = audit'.reconciliation.map (·.evaluations)
  totalPenalty :
    audit.reconciliation.map (·.totalPenalty) = audit'.reconciliation.map (·.totalPenalty)
  byConstraint :
    audit.reconciliation.map (·.byConstraint) = audit'.reconciliation.map (·.byConstraint)
  hardViolations : audit.report.hardViolations = audit'.report.hardViolations
  details : ∀ key ∈ ["totalPenalty", "hardViolations", "byConstraint", "constraints"],
    audit.report.detail key = audit'.report.detail key

theorem Reconciliation.byConstraint_congr {r r' : Reconciliation}
    (h : r.evaluations = r'.evaluations) : r.byConstraint = r'.byConstraint := by
  unfold byConstraint lines
  rw [h]

theorem Reconciliation.hardViolations_congr {r r' : Reconciliation}
    (h : r.evaluations = r'.evaluations) : r.hardViolations = r'.hardViolations := by
  unfold hardViolations
  rw [h]

namespace Auditor

variable {auditor : Auditor} {league raw raw' : Json} {audit audit' : ResultAudit}

theorem resultCheck_of_withoutSchemas (h : auditor.schemas = none) :
    auditor.resultCheck = none := by
  unfold resultCheck
  rw [h]
  rfl

/-- Without schemas, only what is no object has a broken structure, and nothing is told of it. -/
theorem broken_of_not_object (hschemas : auditor.schemas = none) (hraw : raw.isObject = false)
    (h : auditor.auditResult league raw = .ok audit) :
    audit.reconciliation = none ∧ audit.report.details = [] := by
  have hlacks : auditor.lacksResultSchema = false := by
    unfold lacksResultSchema
    rw [hschemas]
    rfl
  have hbroken : structureOf none raw =
      .ok (.broken [] [schemaError (Canonical.notObject raw.typeName).message]) := by
    cases raw with
    | obj members => cases hraw
    | _ => rfl
  unfold auditResult at h
  rw [resultCheck_of_withoutSchemas hschemas, hbroken, hlacks] at h
  cases Except.ok.inj h
  exact ⟨rfl, rfl⟩

theorem structureOf_object (hschemas : auditor.schemas = none) (members : List (String × Json)) :
    structureOf auditor.resultCheck (.obj members) =
      .ok (.sound false ((Canonical.ofMembers members).warnings.map fun message =>
        { check := "NormalizationApplied", message }) (Canonical.ofMembers members).toJson) := by
  rw [resultCheck_of_withoutSchemas hschemas]
  rfl

/-- Without schemas, an object is audited in its canonical layout. -/
theorem staged_of_object {members : List (String × Json)} (hschemas : auditor.schemas = none)
    (h : auditor.auditResult league (.obj members) = .ok audit) :
    audit.document = (Canonical.ofMembers members).toJson ∧
      ∃ index r, Staged auditor league audit index r := by
  have hsound := structureOf_object hschemas members
  rcases auditResult_eq_ok h with ⟨_, _, hbroken, -⟩ | ⟨_, _, hstructure, hstaged⟩
  · cases hsound.symm.trans hbroken
  · have hsame := Except.ok.inj (hsound.symm.trans hstructure)
    exact ⟨(Structure.sound.inj hsame).2.2.symm, hstaged⟩

/-- The scores of an audit are those of its evaluations and their total. -/
theorem sameScores_of_evaluations {r r' : Reconciliation}
    (haudit : auditor.auditResult league raw = .ok audit)
    (haudit' : auditor.auditResult league raw' = .ok audit')
    (hr : audit.reconciliation = some r) (hr' : audit'.reconciliation = some r')
    (hevaluations : r.evaluations = r'.evaluations) (htotal : r.totalPenalty = r'.totalPenalty) :
    audit.SameScores audit' := by
  have hlines := Reconciliation.byConstraint_congr hevaluations
  have hhard := Reconciliation.hardViolations_congr hevaluations
  obtain ⟨before, index, hreport⟩ := report_eq_setDetails haudit hr
  obtain ⟨before', index', hreport'⟩ := report_eq_setDetails haudit' hr'
  refine ⟨?_, ?_, ?_, ?_, ?_⟩
  · simp only [hr, hr', Option.map_some, hevaluations]
  · simp only [hr, hr', Option.map_some, htotal]
  · simp only [hr, hr', Option.map_some, hlines]
  · rw [hreport, hreport', hardViolations_setDetails, hardViolations_setDetails, hhard]
  · intro key hkey
    have hvalue : ∃ value, (key, value) ∈ details index r ∧ (key, value) ∈ details index' r' := by
      simp only [List.mem_cons, List.not_mem_nil, or_false] at hkey
      rcases hkey with rfl | rfl | rfl | rfl <;> simp [details, hevaluations, htotal, hlines, hhard]
    obtain ⟨value, hvalue, hvalue'⟩ := hvalue
    rw [hreport, hreport', detail_setDetails _ _ _ hvalue, detail_setDetails _ _ _ hvalue']

theorem sameScores_of_not_object (hschemas : auditor.schemas = none)
    (hraw : raw.isObject = false) (hraw' : raw'.isObject = false)
    (haudit : auditor.auditResult league raw = .ok audit)
    (haudit' : auditor.auditResult league raw' = .ok audit') : audit.SameScores audit' := by
  obtain ⟨hnone, hdetails⟩ := broken_of_not_object hschemas hraw haudit
  obtain ⟨hnone', hdetails'⟩ := broken_of_not_object hschemas hraw' haudit'
  have hdetail : ∀ key, audit.report.detail key = audit'.report.detail key := by
    intro key
    unfold Report.detail
    rw [hdetails, hdetails']
  refine ⟨?_, ?_, ?_, ?_, fun key _ => hdetail key⟩
  · rw [hnone, hnone']
  · rw [hnone, hnone']
  · rw [hnone, hnone']
  · unfold Report.hardViolations Report.hardViolations?
    rw [hdetail]

/-- Audits of results that differ only in the scores they report come to the same scores. -/
theorem sameScores_of_agreeBut_scores (hschemas : auditor.schemas = none)
    (hbut : Json.AgreeBut "scores" raw raw') (haudit : auditor.auditResult league raw = .ok audit)
    (haudit' : auditor.auditResult league raw' = .ok audit') : audit.SameScores audit' := by
  by_cases hraw : raw.isObject = true
  · obtain ⟨members, rfl⟩ := Json.exists_eq_obj hraw
    obtain ⟨members', rfl⟩ := Json.exists_eq_obj (hbut.isObject ▸ hraw)
    obtain ⟨hdocument, index, r, h⟩ := staged_of_object hschemas haudit
    obtain ⟨hdocument', index', r', h'⟩ := staged_of_object hschemas haudit'
    have hassignments :
        audit.document.field "assignments" = audit'.document.field "assignments" := by
      rw [hdocument, hdocument']
      exact (Canonical.agreeBut_scores hbut).field (by decide)
    -- The scores are part of neither the instance nor the assignments, so the indexes are one.
    have hindex : index = index' := by
      have hbuilt := h.built
      unfold Auditor.index at hbuilt
      rw [Index.build_congr hassignments] at hbuilt
      exact Except.ok.inj (hbuilt.symm.trans h'.built)
    subst hindex
    obtain ⟨hevaluations, ledger, hr⟩ := h.reconciles
    obtain ⟨hevaluations', ledger', hr'⟩ := h'.reconciles
    have hsame : r.evaluations = r'.evaluations :=
      Except.ok.inj (hevaluations.symm.trans hevaluations')
    have htotal : r.totalPenalty = r'.totalPenalty := by
      have hsum := hr.sum
      rw [hsame] at hsum
      exact Except.ok.inj (hsum.symm.trans hr'.sum)
    exact sameScores_of_evaluations haudit haudit' h.holdsReconciliation h'.holdsReconciliation
      hsame htotal
  · have hraw := Bool.eq_false_iff.mpr hraw
    exact sameScores_of_not_object hschemas hraw (hbut.isObject ▸ hraw) haudit haudit'

/-- An instance with a soft constraint on the balance of home and away games. -/
def balanceLeague : Json :=
  .obj [("teams", .arr [.obj [("id", .str "A")]]),
    ("fixtures", .arr [.obj [("id", .str "F"), ("participants", .arr [.str "A", .str "B"])]]),
    ("constraints", .arr [.obj [("id", .str "S"), ("type", .str "soft"),
      ("ruleId", .str "home_away_balance"),
      ("penalty", .obj [("model", .str "linear"), ("weight", .int 2)])]])]

def schedule : List (String × Json) :=
  [("feasible", .bool true), ("assignments", .arr [.obj [("fixtureId", .str "F")]])]

/-- A result with one line of scores. -/
def reporting (violations penalty : Int) : Json :=
  .obj (Json.setMember "scores" (.obj [("byConstraint", .arr [.obj [("constraintId", .str "S"),
    ("violations", .int violations), ("penalty", .int penalty)]])]) schedule)

theorem sameScores_of_agreeBut_scores_balanceLeague :
    ∃ honest flattered, ({} : Auditor).auditResult balanceLeague (reporting 1 2) = .ok honest ∧
      ({} : Auditor).auditResult balanceLeague (reporting 0 0) = .ok flattered ∧
      honest.report.exitCode = 0 ∧ flattered.report.exitCode = 4 ∧
      honest.SameScores flattered := by
  obtain ⟨honest, hhonest, hzero⟩ := exists_ok_of_toOption_map
    (x := ({} : Auditor).auditResult balanceLeague (reporting 1 2))
    (f := fun audit => audit.report.exitCode) (b := 0) (by decide +kernel)
  obtain ⟨flattered, hflattered, hfour⟩ := exists_ok_of_toOption_map
    (x := ({} : Auditor).auditResult balanceLeague (reporting 0 0))
    (f := fun audit => audit.report.exitCode) (b := 4) (by decide +kernel)
  have hbut : Json.AgreeBut "scores" (reporting 1 2) (reporting 0 0) :=
    Json.agreeBut_setMember "scores" _ _ schedule
  exact ⟨honest, flattered, hhonest, hflattered, hzero, hfour,
    sameScores_of_agreeBut_scores rfl hbut hhonest hflattered⟩

end Auditor
end LeagueAudit
