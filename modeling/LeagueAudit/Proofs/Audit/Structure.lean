import LeagueAudit.Proofs.Audit.Warned

/-!
The structure of results under any schema. A result that fits is audited as it is; one that does not
fit is validated once more in the canonical layout; and an audit that ends there says why.
-/
namespace LeagueAudit

namespace ResultAudit

/-- The structure of a result, with the validation of a document as a step of any kind. -/
def structureBy {m : Type → Type} [Monad m] (check : Option (Json → m (List String)))
    (raw : Json) : m Structure := do
  let errors ←
    match check with
    | none => pure []
    | some check => check raw
  if check.isSome && errors.isEmpty && raw.isObject then
    pure (.sound true [] raw)
  else
    match Canonical.read raw with
    | .error t =>
      pure (.broken [] ((if errors.isEmpty then [t.message] else errors).map (schemaError ·)))
    | .ok canonical =>
      let notes := canonical.warnings.map fun message =>
        ({ check := "NormalizationApplied", message } : Entry)
      match check with
      | none => pure (.sound false notes canonical.toJson)
      | some check =>
        if (← check canonical.toJson).isEmpty then pure (.sound true notes canonical.toJson)
        else pure (.broken notes (errors.map (schemaError · (some fixStructure))))

theorem structureOf_eq (check : Option (Json → Except Fault (List String))) (raw : Json) :
    structureOf check raw = structureBy check raw := by
  unfold structureOf structureBy
  cases check <;> cases raw <;> rfl

/-- A validation that keeps account of the documents it was asked about. -/
def recorded (validates : Json → List String) (document : Json) :
    StateM (List Json) (List String) :=
  fun asked => (validates document, asked ++ [document])

/-- The structure of a result and the documents that were validated for it, in order. -/
def recordedStructure (validates : Json → List String) (raw : Json) : Structure × List Json :=
  (structureBy (some (recorded validates)) raw).run []

/-- The documents that are validated to settle the structure of a result, in order. -/
def validated (validates : Json → List String) (raw : Json) : List Json :=
  (recordedStructure validates raw).2

/-- The notes about the layout of a result. -/
def layoutNotes (messages : List String) : List Entry :=
  messages.map fun message => { check := "NormalizationApplied", message }

section Recorded

variable (validates : Json → List String) (raw : Json)

theorem recordedStructure_eq :
    recordedStructure validates raw =
      if (validates raw).isEmpty && raw.isObject then (.sound true [] raw, [raw])
      else
        match Canonical.read raw with
        | .error t => (.broken [] ((if (validates raw).isEmpty then [t.message]
            else validates raw).map (schemaError ·)), [raw])
        | .ok canonical =>
          (if (validates canonical.toJson).isEmpty then
            .sound true (layoutNotes canonical.warnings) canonical.toJson
          else
            .broken (layoutNotes canonical.warnings)
              ((validates raw).map (schemaError · (some fixStructure))),
          [raw, canonical.toJson]) := by
  unfold recordedStructure structureBy
  change StateT.run (if (validates raw).isEmpty && raw.isObject then _ else _) [raw] = _
  split
  · rfl
  · cases Canonical.read raw with
    | error t => rfl
    | ok canonical =>
      change StateT.run (if (validates canonical.toJson).isEmpty then _ else _)
        [raw, canonical.toJson] = _
      dsimp only
      split <;> rfl

theorem structureOf_recorded :
    structureOf (some fun document => .ok (validates document)) raw =
      .ok (recordedStructure validates raw).1 := by
  rw [structureOf_eq, recordedStructure_eq]
  unfold structureBy
  change (if (validates raw).isEmpty && raw.isObject then _ else _) = _
  split
  · rfl
  · cases Canonical.read raw with
    | error t => rfl
    | ok canonical =>
      change (if (validates canonical.toJson).isEmpty then _ else _) = _
      dsimp only
      split <;> rfl

variable {raw}

theorem recordedStructure_of_fits (hobject : raw.isObject = true) (hfits : validates raw = []) :
    recordedStructure validates raw = (.sound true [] raw, [raw]) := by
  rw [recordedStructure_eq, hobject, hfits]
  rfl

theorem recordedStructure_of_misfit {members : List (String × Json)}
    (hmisfit : validates (.obj members) ≠ []) :
    recordedStructure validates (.obj members) =
      (if (validates (Canonical.ofMembers members).toJson).isEmpty then
        .sound true (layoutNotes (Canonical.ofMembers members).warnings)
          (Canonical.ofMembers members).toJson
      else
        .broken (layoutNotes (Canonical.ofMembers members).warnings)
          ((validates (.obj members)).map (schemaError · (some fixStructure))),
      [.obj members, (Canonical.ofMembers members).toJson]) := by
  have hsome : (validates (.obj members)).isEmpty = false := by simpa using hmisfit
  rw [recordedStructure_eq, hsome]
  rfl

theorem recordedStructure_of_not_object (hobject : raw.isObject = false) :
    recordedStructure validates raw =
      (.broken [] ((if validates raw = [] then [(Canonical.notObject raw.typeName).message]
        else validates raw).map (schemaError ·)), [raw]) := by
  have hread : Canonical.read raw = .error (Canonical.notObject raw.typeName) := by
    cases raw with
    | obj members => cases hobject
    | _ => rfl
  rw [recordedStructure_eq, hobject, Bool.and_false, hread, if_neg Bool.false_ne_true]
  simp only [List.isEmpty_iff]

end Recorded

end ResultAudit

/-- The message of a note about the layout of a result. -/
def Finding.layoutNote? : Finding → Option String
  | .entry e => if e.check = "NormalizationApplied" then some e.message else none
  | .given _ => none

namespace ResultAudit

/-- What a report tells about the layout of the result. -/
def layoutMessages (report : Report) : List String := report.warnings.filterMap Finding.layoutNote?

theorem filterMap_layoutNotes (messages : List String) :
    ((layoutNotes messages).map Finding.entry).filterMap Finding.layoutNote? = messages := by
  induction messages with
  | nil => rfl
  | cons message rest ih =>
    have hhead : Finding.layoutNote? (.entry { check := "NormalizationApplied", message }) =
        some message := by simp [Finding.layoutNote?]
    rw [layoutNotes, List.map_cons, List.map_cons, List.filterMap_cons_some hhead]
    exact congrArg _ ih

theorem filterMap_other {es : List Entry} (h : ∀ e ∈ es, e.check ≠ "NormalizationApplied") :
    (es.map Finding.entry).filterMap Finding.layoutNote? = [] := by
  simpa [List.filterMap_eq_nil_iff, Finding.layoutNote?] using h

theorem check_of_feasibleWarnings {document : Json} {e : Entry}
    (he : e ∈ feasibleWarnings document) : e.check ≠ "NormalizationApplied" := by
  unfold feasibleWarnings at he
  split at he
  · cases he
  · rw [List.mem_singleton.mp he]
    decide

theorem check_of_issueWarnings {index : Index} {timed : List String} {e : Entry}
    (he : e ∈ issueWarnings index timed) : e.check ≠ "NormalizationApplied" := by
  obtain ⟨issue, -, rfl⟩ := List.mem_map.mp he
  unfold issueEntry issueCheck
  cases issue.kind <;> simp

theorem check_of_venueWarnings {index : Index} {e : Entry} (he : e ∈ venueWarnings index) :
    e.check ≠ "NormalizationApplied" := by
  unfold venueWarnings at he
  split at he
  · cases he
  · obtain ⟨a, -, ha⟩ := List.mem_filterMap.mp he
    split at ha
    · cases ha
    · split at ha
      · cases ha
      · cases Option.some.inj ha
        simp

end ResultAudit

theorem Difference.check_ne (d : Difference) (suffix : String) :
    (d.entry suffix).check ≠ "NormalizationApplied" := by
  unfold entry check
  cases d <;> simp

theorem Scorekeeper.check_of_warning {k : Scorekeeper} {engine : Engine}
    {league result : Json} {index : Index} {r : Reconciliation}
    (h : k.reconcile engine league result index = .ok r) {e : Entry} (he : e ∈ r.warnings) :
    e.check ≠ "NormalizationApplied" := by
  obtain ⟨evaluations, hevaluations, h⟩ := bind_eq_ok.mp h
  obtain ⟨ledger, hr⟩ := reconcileWith_eq_ok h
  unfold Reconciliation.warnings at he
  rw [hr.same, List.mem_append, List.mem_append] at he
  rcases he with (he | he) | he
  · obtain ⟨ev, hev, he⟩ := List.mem_flatMap.mp he
    have hcheck := Engine.check_of_warning_of_mem hevaluations hev he
    intro hsame
    rw [hsame] at hcheck
    exact absurd hcheck (by decide)
  · split at he
    · obtain ⟨d, -, rfl⟩ := List.mem_map.mp he
      exact d.check_ne _
    · cases he
  · obtain ⟨constraint, -, rfl⟩ := List.mem_map.mp he
    simp [Reconciliation.unknownEntry]

open ResultAudit

namespace Auditor

variable {auditor : Auditor} {league raw document : Json} {notes messages : List String}

/-- The report that the structural stage hands on with a document that fits a schema. -/
def soundReport (auditor : Auditor) (notes : List String) : Report :=
  (((auditor.report "Result").addWarnings (layoutNotes notes)).markPassed
    "SchemaViolation").setDetails [("normalized", .bool !notes.isEmpty)]

/-- The audit goes on with a document: it is that of the later stages, and it tells just these
notes about the layout. -/
structure GoesOn (auditor : Auditor) (league raw document : Json) (notes : List String) :
    Prop where
  continues : auditor.auditResult league raw =
    auditor.auditDocument league document (auditor.soundReport notes)
  told : ∀ audit, auditor.auditResult league raw = .ok audit →
    audit.document = document ∧ audit.reconciliation.isSome = true ∧
      layoutMessages audit.report = notes

/-- The audit stops at the structure: it tells these messages, at least one, and nothing later
ran. -/
def Stops (auditor : Auditor) (league raw : Json) (messages : List String) : Prop :=
  ∃ (audit : ResultAudit) (errors : List Entry), auditor.auditResult league raw = .ok audit ∧
    audit.index = none ∧ audit.reconciliation = none ∧
    audit.report.errors = errors.map Finding.entry ∧
    (∀ e ∈ errors, e.check = "SchemaViolation") ∧
    errors.map (·.message) = messages ∧ messages ≠ [] ∧ audit.report.exitCode = 1

theorem not_goesOn_of_stops (h : auditor.Stops league raw messages) :
    ¬ auditor.GoesOn league raw document notes := by
  obtain ⟨audit, errors, haudit, -, hnone, -⟩ := h
  intro hgoes
  have hsome := (hgoes.told audit haudit).2.1
  rw [hnone] at hsome
  cases hsome

theorem layoutMessages_auditDocument {audit : ResultAudit}
    (h : auditor.auditDocument league document (auditor.soundReport notes) = .ok audit) :
    audit.document = document ∧ audit.reconciliation.isSome = true ∧
      layoutMessages audit.report = notes := by
  have hstart := ((Report.adds_addWarnings (auditor.report "Result") (layoutNotes notes)).trans
    (Report.adds_markPassed _ "SchemaViolation")).trans
    (Report.adds_setDetails _ [("normalized", .bool !notes.isEmpty)])
  have hclean : (auditor.soundReport notes).errors = [] := by
    rw [soundReport, hstart.errors]
    rfl
  obtain ⟨hdocument, index, r, hstaged⟩ :=
    auditDocument_eq_ok h hclean hstart.infeasible hstart.failOnWarnings
  refine ⟨hdocument, by rw [hstaged.holdsReconciliation]; rfl, ?_⟩
  have hbefore : (auditor.soundReport notes).warnings = (layoutNotes notes).map .entry := by
    rw [soundReport, Report.setDetails, Report.warnings_markPassed]
    rfl
  have hlater : ∀ e ∈ feasibleWarnings document ++ (r.warnings ++
      (issueWarnings index (timedFixtures r.evaluations) ++ venueWarnings index)),
      e.check ≠ "NormalizationApplied" := by
    intro e he
    simp only [List.mem_append] at he
    rcases he with he | he | he | he
    · exact check_of_feasibleWarnings he
    · exact Scorekeeper.check_of_warning hstaged.reconciled he
    · exact check_of_issueWarnings he
    · exact check_of_venueWarnings he
  rw [layoutMessages, warnings_auditDocument h hstaged.holdsIndex hstaged.holdsReconciliation,
    hbefore, List.filterMap_append, filterMap_layoutNotes, filterMap_other hlater, List.append_nil]

theorem goesOn_of_sound (hlacks : auditor.lacksResultSchema = false)
    (h : structureOf auditor.resultCheck raw = .ok (.sound true (layoutNotes notes) document)) :
    auditor.GoesOn league raw document notes := by
  have hcontinues : auditor.auditResult league raw =
      auditor.auditDocument league document (auditor.soundReport notes) := by
    unfold auditResult
    rw [h, hlacks]
    simp [bind, Except.bind, soundReport, layoutNotes]
  exact ⟨hcontinues, fun audit haudit => layoutMessages_auditDocument (hcontinues ▸ haudit)⟩

theorem stops_of_broken {notes : List Entry} {action : Option String}
    (h : structureOf auditor.resultCheck raw =
      .ok (.broken notes (messages.map (schemaError · action)))) (hsome : messages ≠ [])
    (league : Json) : auditor.Stops league raw messages := by
  obtain ⟨audit, haudit, hindex, hnone, hadds, hdetails⟩ :=
    auditResult_of_broken h league
  have herrors : audit.report.errors =
      (messages.map (schemaError · action)).map Finding.entry := hadds.errors
  have hhard : audit.report.hardViolations = [] := by
    unfold Report.hardViolations Report.hardViolations? Report.detail
    rw [hdetails]
    rfl
  have hinfeasible : audit.report.infeasible = false := hadds.infeasible
  have hscores : audit.report.aboutScores = false := by
    rw [Report.aboutScores, herrors, List.map_map]
    simp [schemaError, Entry.exitCode, Entry.scoringChecks]
  have hcomplains : audit.report.complains = true := by
    rw [Report.complains, herrors]
    simp [hsome]
  refine ⟨audit, _, haudit, hindex, hnone, herrors, ?_, ?_, hsome, ?_⟩
  · intro e he
    obtain ⟨message, -, rfl⟩ := List.mem_map.mp he
    rfl
  · rw [List.map_map]
    exact List.map_id _
  · rw [Report.exitCode_eq, hscores, hhard, hinfeasible, hcomplains]
    rfl

section Schema

variable {resolve : List String → Option String} {validates : Json → String → List String}
  {name : String}

/-- Under any schema of results, an object that fits is audited as it is, and nothing is told of its
layout. Any other object is validated once more, in the canonical layout: the audit goes on with
that document if it fits, and only then. When the audit stops, it tells the errors of the document
as it was given, or if there were none that it is no object. -/
theorem structure_under_schema
    (hschemas : auditor.schemas =
      some ⟨resolve, fun document name => .ok (validates document name)⟩)
    (hname : resolve schemaNames = some name) (league raw : Json) :
    structureOf auditor.resultCheck raw = .ok (recordedStructure (validates · name) raw).1 ∧
    (raw.isObject = true → validates raw name = [] →
      validated (validates · name) raw = [raw] ∧ auditor.GoesOn league raw raw []) ∧
    (∀ members, raw = .obj members → validates raw name ≠ [] →
      validated (validates · name) raw = [raw, (Canonical.ofMembers members).toJson] ∧
      (auditor.GoesOn league raw (Canonical.ofMembers members).toJson
          (Canonical.ofMembers members).warnings ↔
        validates (Canonical.ofMembers members).toJson name = []) ∧
      (validates (Canonical.ofMembers members).toJson name ≠ [] →
        auditor.Stops league raw (validates raw name))) ∧
    (raw.isObject = false →
      validated (validates · name) raw = [raw] ∧
      auditor.Stops league raw (if validates raw name = [] then
        [(Canonical.notObject raw.typeName).message] else validates raw name)) := by
  have hcheck : auditor.resultCheck = some fun document => .ok (validates document name) := by
    unfold resultCheck
    rw [hschemas, Option.bind_some]
    dsimp only
    rw [hname, Option.map_some]
  have hlacks : auditor.lacksResultSchema = false := by
    unfold lacksResultSchema
    rw [hcheck, Option.isNone_some, Bool.and_false]
  have hsettled : structureOf auditor.resultCheck raw =
      .ok (recordedStructure (validates · name) raw).1 := by
    rw [hcheck]
    exact structureOf_recorded (validates · name) raw
  refine ⟨hsettled, ?_, ?_, ?_⟩
  · intro hobject hfits
    have hrecorded := recordedStructure_of_fits (validates · name) hobject hfits
    rw [hrecorded] at hsettled
    exact ⟨congrArg Prod.snd hrecorded, goesOn_of_sound hlacks hsettled⟩
  · rintro members rfl hmisfit
    have hrecorded := recordedStructure_of_misfit (validates · name) hmisfit
    rw [hrecorded] at hsettled
    refine ⟨congrArg Prod.snd hrecorded, ?_⟩
    by_cases hagain : validates (Canonical.ofMembers members).toJson name = []
    · simp only [hagain, List.isEmpty_nil, if_true] at hsettled
      exact ⟨iff_of_true (goesOn_of_sound hlacks hsettled) hagain, fun h => absurd hagain h⟩
    · simp only [List.isEmpty_iff, hagain, if_false] at hsettled
      have hstops := stops_of_broken hsettled hmisfit league
      exact ⟨iff_of_false (not_goesOn_of_stops hstops) hagain, fun _ => hstops⟩
  · intro hobject
    have hrecorded := recordedStructure_of_not_object (validates · name) hobject
    rw [hrecorded] at hsettled
    refine ⟨congrArg Prod.snd hrecorded, stops_of_broken hsettled ?_ league⟩
    split
    · exact List.cons_ne_nil _ _
    · assumption

/-- A schema that asks for a list of assignments. -/
def needsAssignments (document : Json) (_ : String) : List String :=
  if (document.field "assignments").isArray then [] else ["'assignments' is a required property"]

/-- An auditor with that schema. -/
def needyAuditor : Auditor :=
  { schemas := some ⟨fun _ => some "results", fun document name =>
      .ok (needsAssignments document name)⟩ }

/-- A schema that every document fits. -/
def needsNothing (_ : Json) (_ : String) : List String := []

/-- An auditor with that schema. -/
def easyAuditor : Auditor :=
  { schemas := some ⟨fun _ => some "results", fun document name =>
      .ok (needsNothing document name)⟩ }

/-- A result that keeps its assignments elsewhere. -/
def nestedResult : Json := .obj [("schedule", .obj [("fixtures", .arr [])])]

theorem structure_under_schema_nestedResult :
    validated (needsAssignments · "results") nestedResult =
        [nestedResult, (Canonical.ofMembers nestedResult.members).toJson] ∧
      needyAuditor.GoesOn (.obj []) nestedResult
        (Canonical.ofMembers nestedResult.members).toJson
        (Canonical.ofMembers nestedResult.members).warnings ∧
      needyAuditor.Stops (.obj []) (.obj []) ["'assignments' is a required property"] ∧
      easyAuditor.Stops (.obj []) .null ["Result must be a JSON object, got NoneType"] := by
  have hneedy : needyAuditor.schemas = some ⟨fun _ => some "results", fun document name =>
      .ok (needsAssignments document name)⟩ := rfl
  have heasy : easyAuditor.schemas = some ⟨fun _ => some "results", fun document name =>
      .ok (needsNothing document name)⟩ := rfl
  obtain ⟨hvalidated, hgoes, -⟩ :=
    (structure_under_schema hneedy rfl (.obj []) nestedResult).2.2.1 _ rfl (by decide)
  obtain ⟨-, -, hstops⟩ :=
    (structure_under_schema hneedy rfl (.obj []) (.obj [])).2.2.1 _ rfl (by decide)
  obtain ⟨-, hnull⟩ := (structure_under_schema heasy rfl (.obj []) .null).2.2.2 rfl
  exact ⟨hvalidated, hgoes.mpr (by decide), hstops (by decide), hnull⟩

end Schema

end Auditor
end LeagueAudit
