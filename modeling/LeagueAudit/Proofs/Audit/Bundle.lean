import LeagueAudit.Audit.Bundle
import LeagueAudit.Proofs.Audit.Declared
import Mathlib.Order.MinMax

/-!
Bundles of examples. Folding a report into another one makes the higher of the two exit codes, as
long as both count warnings alike; so the worst example decides the exit code of a bundle.
-/
namespace LeagueAudit

namespace Report

/-- The warnings of a part count in a whole as they do in the part. -/
def CountsAlike (whole part : Report) : Prop :=
  part.warnings = [] ∨ part.failOnWarnings = whole.failOnWarnings

/-- Settling the checks of findings changes nothing else. -/
theorem exists_settle_eq (r : Report) (fs : List Finding) :
    ∃ checks, (r.settle fs).1 = { r with checks } := by
  induction fs generalizing r with
  | nil => exact ⟨r.checks, rfl⟩
  | cons f rest ih =>
    rw [settle]
    split
    · next check _ => exact ih { r with checks := fail r.checks check.text }
    · exact ⟨r.checks, rfl⟩

theorem hardViolations_congr {r s : Report}
    (h : r.detail "hardViolations" = s.detail "hardViolations") :
    r.hardViolations = s.hardViolations := by
  unfold hardViolations hardViolations?
  rw [h]

theorem detail_setDetail_of_ne {key other : String} (h : other ≠ key) (r : Report)
    (value : Json) : (r.setDetails [(key, value)]).detail other = r.detail other := by
  rw [detail, setDetails, Json.setMembers_cons, Json.setMembers_nil,
    Json.lookup_setMember_of_ne h, detail]

/-- A detail of another name bears on no exit code. -/
theorem exitCode_setDetail {key : String} (h : "hardViolations" ≠ key) (r : Report)
    (value : Json) : (r.setDetails [(key, value)]).exitCode = r.exitCode := by
  unfold exitCode codes
  rw [hardViolations_congr (detail_setDetail_of_ne h r value)]
  rfl

end Report

namespace Bundle

open Report

theorem exitCode_tagged (name : String) (f : Finding) : (tagged name f).exitCode = f.exitCode := by
  cases f <;> rfl

/-- A report in which a part is folded holds the findings of both. -/
structure Merged (name : String) (whole part merged : Report) : Prop where
  errors : merged.errors = whole.errors ++ part.errors.map (tagged name)
  warnings : merged.warnings = whole.warnings ++ part.warnings.map (tagged name)
  infeasible : merged.infeasible = (whole.infeasible || part.infeasible)
  failOnWarnings : merged.failOnWarnings = whole.failOnWarnings
  hardViolations : merged.hardViolations =
    whole.hardViolations ++ part.hardViolations.map (taggedViolation name)

theorem merged_merge (name : String) (whole part : Report) :
    Merged name whole part (merge name whole part) := by
  obtain ⟨checks, hsettle⟩ := exists_settle_eq
    { whole with
      errors := whole.errors ++ part.errors.map (tagged name)
      warnings := whole.warnings ++ part.warnings.map (tagged name) }
    (part.errors.map (tagged name))
  unfold merge
  dsimp only
  rw [hsettle]
  split
  · next hnone =>
    refine ⟨rfl, rfl, rfl, rfl, ?_⟩
    rw [List.isEmpty_iff.mp hnone, List.append_nil]
    rfl
  · exact ⟨rfl, rfl, rfl, rfl, hardViolations_of_detail (detail_setDetail_self _ _ _)⟩

namespace Merged

variable {name : String} {whole part merged : Report}

/-- A code is reached in a merged report when it is reached in one of the two. -/
theorem succ_le_exitCode (h : Merged name whole part merged) (halike : whole.CountsAlike part)
    (n : Nat) : n + 1 ≤ merged.exitCode ↔ n + 1 ≤ whole.exitCode ∨ n + 1 ≤ part.exitCode := by
  have herrors : (∃ f ∈ merged.errors, n + 1 ≤ f.exitCode) ↔
      (∃ f ∈ whole.errors, n + 1 ≤ f.exitCode) ∨ ∃ f ∈ part.errors, n + 1 ≤ f.exitCode := by
    rw [h.errors]
    simp only [List.mem_append, List.mem_map, or_and_right, exists_or, exists_exists_and_eq_and,
      exitCode_tagged]
  have hhard : merged.hardViolations.isEmpty = false ↔
      whole.hardViolations.isEmpty = false ∨ part.hardViolations.isEmpty = false := by
    rw [h.hardViolations]
    cases whole.hardViolations <;> cases part.hardViolations <;> simp
  have hwarnings : (merged.failOnWarnings = true ∧ merged.warnings.isEmpty = false) ↔
      (whole.failOnWarnings = true ∧ whole.warnings.isEmpty = false) ∨
        (part.failOnWarnings = true ∧ part.warnings.isEmpty = false) := by
    rw [h.failOnWarnings, h.warnings]
    rcases halike with hnone | hflag
    · simp [hnone]
    · rw [hflag]
      cases whole.warnings <;> cases part.warnings <;> simp
  rw [Report.succ_le_exitCode, Report.succ_le_exitCode, Report.succ_le_exitCode, herrors,
    h.infeasible, hhard, hwarnings, Bool.or_eq_true]
  simp only [and_or_left, or_assoc, or_left_comm]

theorem exitCode_eq (h : Merged name whole part merged) (halike : whole.CountsAlike part) :
    merged.exitCode = max whole.exitCode part.exitCode := by
  refine eq_of_forall_le_iff fun n => ?_
  cases n with
  | zero => simp
  | succ n => rw [h.succ_le_exitCode halike, le_max_iff]

end Merged

/-- Folding in the reports of an example makes the higher of the two exit codes. -/
theorem exitCode_mergeExample {whole : Report} {item : ExampleAudit}
    (halike : ∀ part ∈ item.reports, whole.CountsAlike part) :
    (mergeExample whole item).exitCode = max whole.exitCode item.exitCode ∧
      (mergeExample whole item).failOnWarnings = whole.failOnWarnings := by
  obtain ⟨hleague, hresult⟩ := List.forall_mem_cons.mp halike
  have hfirst := merged_merge item.name whole item.league
  unfold mergeExample ExampleAudit.reports ExampleAudit.exitCode
  rw [List.foldl_cons]
  cases hr : item.result with
  | none =>
    refine ⟨?_, hfirst.failOnWarnings⟩
    rw [Option.map_none, Option.getD_none, Nat.max_zero]
    exact hfirst.exitCode_eq hleague
  | some result =>
    have hsecond := merged_merge item.name (merge item.name whole item.league) result
    have halike' : (merge item.name whole item.league).CountsAlike result := by
      unfold CountsAlike
      rw [hfirst.failOnWarnings]
      exact hresult result (by rw [hr]; exact List.mem_singleton_self result)
    refine ⟨?_, hsecond.failOnWarnings.trans hfirst.failOnWarnings⟩
    rw [Option.map_some, Option.getD_some, ← Nat.max_assoc, ← hfirst.exitCode_eq hleague]
    exact hsecond.exitCode_eq halike'

/-- Folding in the reports of several examples makes the highest exit code. -/
theorem exitCode_foldl_mergeExample {whole : Report} {examples : List ExampleAudit}
    (halike : ∀ item ∈ examples, ∀ part ∈ item.reports, whole.CountsAlike part) :
    (examples.foldl mergeExample whole).exitCode =
      (examples.map ExampleAudit.exitCode).foldl max whole.exitCode := by
  induction examples generalizing whole with
  | nil => rfl
  | cons item rest ih =>
    obtain ⟨hitem, hrest⟩ := List.forall_mem_cons.mp halike
    obtain ⟨hcode, hflag⟩ := exitCode_mergeExample hitem
    rw [List.foldl_cons, ih, hcode]
    · rfl
    · intro other hother part hpart
      unfold CountsAlike
      rw [hflag]
      exact hrest other hother part hpart

theorem detail_ofExamples (report : Report) (folder : Path) (examples : List ExampleAudit) :
    (ofExamples report folder examples).report.detail "bundle" =
      .arr (examples.map ExampleAudit.row) := by
  unfold ofExamples
  dsimp only
  split <;> exact detail_setDetail_self _ _ _

/-- Any examples at all: the worst one decides. -/
theorem exitCode_ofExamples {report : Report} {folder : Path} {examples : List ExampleAudit}
    (hsome : examples ≠ [])
    (halike : ∀ item ∈ examples, ∀ part ∈ item.reports, report.CountsAlike part) :
    (ofExamples report folder examples).report.exitCode =
      (examples.map ExampleAudit.exitCode).foldl max report.exitCode := by
  unfold ofExamples
  dsimp only
  rw [if_neg (by simpa using hsome), exitCode_setDetail (by decide),
    exitCode_foldl_mergeExample halike]

end Bundle

/-- Every step that returned keeps a part of what is folded. -/
theorem foldlM_keeps {ε α β γ : Type} (kept : β → γ) {f : β → α → Except ε β} {items : List α}
    (hstep : ∀ b a c, f b a = .ok c → kept c = kept b) {start last : β}
    (h : items.foldlM f start = .ok last) : kept last = kept start := by
  induction items generalizing start with
  | nil => rw [Except.ok.inj h]
  | cons item rest ih =>
    rw [List.foldlM_cons] at h
    obtain ⟨next, hnext, h⟩ := bind_eq_ok.mp h
    exact (ih h).trans (hstep _ _ _ hnext)

namespace InstanceAudit

theorem failOnWarnings_checkStructure {schemas : Option StructureCheck} {league : Json}
    {report later : Report} (h : checkStructure schemas league report = .ok later) :
    later.failOnWarnings = report.failOnWarnings := by
  unfold checkStructure at h
  split at h
  · rw [Except.ok.inj h]
  · split at h
    · rw [← Except.ok.inj h]
      rfl
    · obtain ⟨messages, -, h⟩ := bind_eq_ok.mp h
      rw [← Except.ok.inj h]
      exact ((Report.adds_addErrors _ _).trans (Report.adds_markPassed _ _)).failOnWarnings

theorem failOnWarnings_checkObjectives {registry : Option Registry} {league : Json}
    {report later : Report} (h : checkObjectives registry league report = .ok later) :
    later.failOnWarnings = report.failOnWarnings := by
  unfold checkObjectives at h
  split at h
  · rw [Except.ok.inj h]
  · obtain ⟨warnings, -, h⟩ := bind_eq_ok.mp h
    rw [← Except.ok.inj h]
    rfl

theorem failOnWarnings_checkConstraints {auditor : Auditor} {league : Json}
    {report later : Report} (h : checkConstraints auditor league report = .ok later) :
    later.failOnWarnings = report.failOnWarnings := by
  unfold checkConstraints at h
  split at h
  · refine foldlM_keeps Report.failOnWarnings ?_ h
    rintro before ⟨doc, position⟩ after hstep
    obtain ⟨warnings, heq⟩ := exists_checkConstraint_eq auditor before doc position
    obtain ⟨es, -, rfl⟩ := map_eq_ok.mp (heq ▸ hstep)
    exact (before.adds_extend es warnings).failOnWarnings
  · rw [← Except.ok.inj h]
    rfl

theorem failOnWarnings_checkReferences {index : Index} {report later : Report}
    (h : checkReferences index report = .ok later) :
    later.failOnWarnings = report.failOnWarnings := by
  unfold checkReferences at h
  obtain ⟨checked, hchecked, h⟩ := bind_eq_ok.mp h
  have hkept := foldlM_keeps Report.failOnWarnings (fun before fixture after hstep => by
    obtain ⟨participants, -, hafter⟩ := bind_eq_ok.mp hstep
    rw [← Except.ok.inj hafter]
    exact (Report.adds_extend before _ _).failOnWarnings) hchecked
  rw [← Except.ok.inj h, (checked.adds_markPassed _).failOnWarnings, hkept]
  rfl

end InstanceAudit

namespace Auditor

open LeagueAudit.Bundle ExampleAudit

variable {auditor : Auditor} {files : Files} {requireResults : Bool} {folder : Path}

theorem exitCode_report (auditor : Auditor) (subject : String) :
    (auditor.report subject).exitCode = 0 := by
  have hhard : (auditor.report subject).hardViolations = [] := rfl
  rw [Report.exitCode_eq, hhard]
  simp [Auditor.report, Report.aboutScores, Report.complains]

theorem failOnWarnings_auditInstance {league : Json} {report : Report}
    (h : auditor.auditInstance league = .ok report) :
    report.failOnWarnings = auditor.config.failOnWarnings := by
  unfold auditInstance at h
  dsimp only at h
  split at h
  · rw [← Except.ok.inj h]
    rfl
  · obtain ⟨structured, hstructured, h⟩ := bind_eq_ok.mp h
    obtain ⟨aimed, haimed, h⟩ := bind_eq_ok.mp h
    obtain ⟨constrained, hconstrained, h⟩ := bind_eq_ok.mp h
    obtain ⟨index, -, h⟩ := bind_eq_ok.mp h
    obtain ⟨referred, hreferred, h⟩ := bind_eq_ok.mp h
    rw [← Except.ok.inj h]
    calc referred.failOnWarnings
        = constrained.failOnWarnings := InstanceAudit.failOnWarnings_checkReferences hreferred
      _ = aimed.failOnWarnings := InstanceAudit.failOnWarnings_checkConstraints hconstrained
      _ = structured.failOnWarnings := InstanceAudit.failOnWarnings_checkObjectives haimed
      _ = auditor.config.failOnWarnings :=
        InstanceAudit.failOnWarnings_checkStructure hstructured

theorem failOnWarnings_auditResult {league raw : Json} {audit : ResultAudit}
    (h : auditor.auditResult league raw = .ok audit) :
    audit.report.failOnWarnings = auditor.config.failOnWarnings := by
  rcases auditResult_eq_ok h with ⟨notes, errors, hbroken, -⟩ | ⟨_, _, -, _, _, hstaged⟩
  · obtain ⟨audit', haudit', -, -, hadds, -⟩ := auditResult_of_broken hbroken league
    cases Except.ok.inj (h.symm.trans haudit')
    exact hadds.failOnWarnings
  · exact hstaged.failOnWarnings

/-- Reports of examples that were audited count their warnings as the bundle does, and those of
files that are missing or unreadable have none. -/
theorem countsAlike_auditExampleResult {league : Json} {result : Option Report}
    {alarms : List String} {whole : Report}
    (hwhole : whole.failOnWarnings = auditor.config.failOnWarnings)
    (h : auditor.auditExampleResult files requireResults folder league = .ok (result, alarms)) :
    ∀ part ∈ result, whole.CountsAlike part := by
  unfold auditExampleResult at h
  obtain ⟨there, -, h⟩ := bind_eq_ok.mp h
  rintro part hpart
  split at h
  · split at h
    · cases Except.ok.inj h
      cases hpart
      exact .inl rfl
    · cases h
    · obtain ⟨audit, haudit, h⟩ := bind_eq_ok.mp h
      cases Except.ok.inj h
      cases hpart
      exact .inr ((failOnWarnings_auditResult haudit).trans hwhole.symm)
  · cases Except.ok.inj h
    split at hpart
    · cases hpart
      exact .inl rfl
    · cases hpart

theorem countsAlike_auditExample {item : ExampleAudit} {whole : Report}
    (h : auditor.auditExample files requireResults folder = .ok item)
    (hwhole : whole.failOnWarnings = auditor.config.failOnWarnings) :
    ∀ part ∈ item.reports, whole.CountsAlike part := by
  unfold auditExample at h
  obtain ⟨there, -, h⟩ := bind_eq_ok.mp h
  have hlone : ∀ {lone : ExampleAudit}, lone = item → lone.result = none →
      lone.league.warnings = [] → ∀ part ∈ item.reports, whole.CountsAlike part := by
    rintro lone rfl hresult hwarnings part hpart
    rw [ExampleAudit.reports, hresult] at hpart
    rw [List.mem_singleton.mp hpart]
    exact .inl hwarnings
  split at h
  · exact hlone (Except.ok.inj h) rfl rfl
  · split at h
    · exact hlone (Except.ok.inj h) rfl rfl
    · cases h
    · obtain ⟨league, hleague, h⟩ := bind_eq_ok.mp h
      obtain ⟨⟨result, alarms⟩, hresult, h⟩ := bind_eq_ok.mp h
      cases Except.ok.inj h
      refine List.forall_mem_cons.mpr
        ⟨.inr ((failOnWarnings_auditInstance hleague).trans hwhole.symm), ?_⟩
      simpa using countsAlike_auditExampleResult hwhole hresult

/-- The worst example decides: the exit code of a bundle with any examples is the highest of those
in its rows. -/
theorem exitCode_eq_worst {bundle : Bundle}
    (h : auditor.auditBundle files requireResults folder = .ok bundle)
    (hsome : exampleFolders files folder ≠ []) :
    ∃ codes : List Nat,
      (bundle.report.detail "bundle").items.map (·.field "exitCode") =
        codes.map (fun code => .int code) ∧
      codes.length = (exampleFolders files folder).length ∧
      codes.max? = some bundle.report.exitCode := by
  unfold auditBundle at h
  obtain ⟨there, -, h⟩ := bind_eq_ok.mp h
  split at h
  · cases h
  · obtain ⟨examples, hexamples, h⟩ := bind_eq_ok.mp h
    cases Except.ok.inj h
    have hlength : examples.length = (exampleFolders files folder).length := by
      rw [← (mapM_eq_ok.mp hexamples).length_eq, auditExamples, List.length_map]
    have halike : ∀ item ∈ examples, ∀ part ∈ item.reports,
        (auditor.report "Bundle").CountsAlike part := by
      intro item hitem
      obtain ⟨audit, haudit, hok⟩ := exists_source_of_mapM_eq_ok hexamples hitem
      obtain ⟨path, -, rfl⟩ := List.mem_map.mp haudit
      exact countsAlike_auditExample hok rfl
    have hexamples : examples ≠ [] := by
      intro hnone
      rw [hnone] at hlength
      exact hsome (List.eq_nil_of_length_eq_zero hlength.symm)
    refine ⟨examples.map ExampleAudit.exitCode, ?_, by rw [List.length_map, hlength], ?_⟩
    · rw [detail_ofExamples, Json.items, List.map_map, List.map_map]
      rfl
    · rw [exitCode_ofExamples hexamples halike]
      obtain ⟨worst, rest, hcons⟩ := List.exists_cons_of_ne_nil hexamples
      rw [hcons, List.map_cons, List.max?_cons', List.foldl_cons, exitCode_report, Nat.zero_max]

/-- Three examples: one whose instance is unreadable, one without files, and one with an empty
instance and an empty result. -/
def mixedExamples : Files :=
  ⟨[(⟨"", ["all", "broken", "osss-instance.json"]⟩, .file [91]),
    (⟨"", ["all", "empty"]⟩, .folder),
    (⟨"", ["all", "sound", "osss-instance.json"]⟩, .file [123, 125]),
    (⟨"", ["all", "sound", "osss-results.json"]⟩, .file [123, 125])]⟩

theorem exampleFolders_mixedExamples : exampleFolders mixedExamples ⟨"", ["all"]⟩ =
    [⟨"", ["all", "broken"]⟩, ⟨"", ["all", "empty"]⟩, ⟨"", ["all", "sound"]⟩] := by
  have hplace : mixedExamples.place ⟨"", ["all"]⟩ = .ok ⟨"", ["all"]⟩ := by rfl
  -- The files are listed in order, so there is nothing to sort.
  have hsorted : (mixedExamples.stepsBelow ⟨"", ["all"]⟩).mergeSort Path.stepsNotAfter =
      mixedExamples.stepsBelow ⟨"", ["all"]⟩ := List.mergeSort_of_pairwise (by decide +kernel)
  unfold exampleFolders Files.children Files.below
  rw [hplace]
  dsimp only
  rw [hsorted]
  decide +kernel

theorem exitCode_eq_worst_mixedExamples : ∃ bundle,
    ({} : Auditor).auditBundle mixedExamples true ⟨"", ["all"]⟩ = .ok bundle ∧
      exampleFolders mixedExamples ⟨"", ["all"]⟩ ≠ [] ∧
      (∃ codes : List Nat,
        (bundle.report.detail "bundle").items.map (·.field "exitCode") =
          codes.map (fun code => .int code) ∧
        codes.length = (exampleFolders mixedExamples ⟨"", ["all"]⟩).length ∧
        codes.max? = some bundle.report.exitCode) ∧
      bundle.report.exitCode = 2 := by
  have hsome : exampleFolders mixedExamples ⟨"", ["all"]⟩ ≠ [] := by
    rw [exampleFolders_mixedExamples]
    exact List.cons_ne_nil _ _
  have hview : (({} : Auditor).auditBundle mixedExamples true ⟨"", ["all"]⟩).toOption.map
      (·.report.exitCode) = some 2 := by
    unfold auditBundle auditExamples
    rw [exampleFolders_mixedExamples]
    decide +kernel
  obtain ⟨bundle, hbundle, hcode⟩ := exists_ok_of_toOption_map hview
  exact ⟨bundle, hbundle, hsome, exitCode_eq_worst hbundle hsome, hcode⟩

end Auditor
end LeagueAudit
