import LeagueAudit.Audit.Instance
import LeagueAudit.Proofs.Audit.Stages
import LeagueAudit.Proofs.Evaluation.Isolation

/-!
Declarations are checked twice: before there is a result, where every flaw is listed, and when a
constraint is evaluated, where the first one ends the evaluation. Both find the same declarations
flawed, and the flaw that ends an evaluation is the first one listed.
-/
namespace LeagueAudit

namespace InstanceAudit

open Engine

/-- The flaws of a constraint that can be read, in the order in which they are looked for. -/
def flawsOf (auditor : Auditor) (c : Constraint) : Except Fault (List Entry) :=
  match c.ruleId with
  | none => .ok [withoutRule c]
  | some rule => do
    .ok ((← paramsErrors auditor.registry c rule) ++ selectorErrors c ++ penaltyErrors c)

def malformedAt (position : Nat) (m : Misfit) : Entry :=
  { check := "InvalidConstraint"
    message := s!"Constraint #{position} is malformed: {Constraint.misfitText m}" }

/-- The flaws of the constraint at a position. -/
def flaws (auditor : Auditor) (doc : Json) (position : Nat) : Except Fault (List Entry) :=
  match Constraint.read doc with
  | .ok c => flawsOf auditor c
  | .error m => .ok [malformedAt position m]

variable {auditor : Auditor} {c : Constraint} {report later : Report} {doc : Json} {position : Nat}
  {es : List Entry}

/-- The check of a constraint adds its flaws to the report, along with some warnings. -/
theorem exists_checkConstraint_eq (auditor : Auditor) (report : Report) (doc : Json)
    (position : Nat) : ∃ warnings, checkConstraint auditor report (doc, position) =
      (flaws auditor doc position).map fun es => report.extend es warnings := by
  have hone : ∀ e : Entry, report.addError e = report.extend [e] [] := by
    intro e
    simp [Report.extend, Report.addErrors, Report.addWarnings]
  unfold checkConstraint flaws
  dsimp only
  cases Constraint.read doc with
  | error m => exact ⟨[], congrArg Except.ok (hone _)⟩
  | ok c =>
    dsimp only
    unfold checkDeclared flawsOf
    dsimp only
    cases c.ruleId with
    | none => exact ⟨[], congrArg Except.ok (hone _)⟩
    | some rule =>
      refine ⟨registryWarnings auditor.registry c rule ++
        implementationWarnings auditor.catalog c rule, ?_⟩
      dsimp only
      cases paramsErrors auditor.registry c rule <;> rfl

theorem checkConstraint_eq_ok (h : checkConstraint auditor report (doc, position) = .ok later) :
    ∃ es, flaws auditor doc position = .ok es ∧ later.errors = report.errors ++ es.map .entry := by
  obtain ⟨warnings, heq⟩ := exists_checkConstraint_eq auditor report doc position
  obtain ⟨es, hes, rfl⟩ := map_eq_ok.mp (heq ▸ h)
  exact ⟨es, hes, (report.adds_extend es warnings).errors⟩

/-- A constraint whose flaws can be listed is checked. -/
theorem checkConstraint_of_flaws (report : Report) (h : flaws auditor doc position = .ok es) :
    ∃ later, checkConstraint auditor report (doc, position) = .ok later ∧
      later.errors = report.errors ++ es.map .entry := by
  obtain ⟨warnings, heq⟩ := exists_checkConstraint_eq auditor report doc position
  exact ⟨report.extend es warnings, heq.trans (map_eq_ok.mpr ⟨es, h, rfl⟩),
    (report.adds_extend es warnings).errors⟩

/-- The contract of the parameters is the same one in both checks. -/
theorem paramsErrors_of_contract {rule : String} {problems : List String}
    (h : auditor.engine.contractProblems c rule = .ok problems) :
    paramsErrors auditor.registry c rule = .ok (if problems.isEmpty then []
      else [Evaluation.entry c "InvalidParams" (contractMessage rule problems)]) := by
  unfold contractProblems at h
  unfold paramsErrors
  rw [show auditor.engine.registry = auditor.registry from rfl] at h
  cases hregistry : auditor.registry with
  | none =>
    simp only [hregistry] at h
    cases Except.ok.inj h
    rfl
  | some registry =>
    simp only [hregistry] at h
    exact bind_eq_ok.mpr ⟨problems, h, rfl⟩

/-- What an evaluation makes of the flaws of a declaration: an invalid constraint has the first of
them for its error, and every flaw of a constraint with a known rule makes it invalid. -/
structure Heeded (catalog : Catalog) (c : Constraint) (es : List Entry) (ev : Evaluation) :
    Prop where
  first : ev.status = .invalid → ∃ e rest, es = e :: rest ∧ ev.errors = [e]
  invalid : es ≠ [] → (∀ ruleId, c.ruleId = some ruleId → catalog.has ruleId = true) →
    ev.status = .invalid

theorem heeded_rejected {catalog : Catalog} {warnings : List Entry} {reason check message : String}
    {action : Option String} {rest : List Entry} :
    Heeded catalog c (Evaluation.entry c check message action :: rest)
      (Evaluation.rejected c warnings reason check message action) where
  first _ := ⟨_, rest, rfl, rfl⟩
  invalid _ _ := rfl

theorem heeded_of_flawless {catalog : Catalog} {ev : Evaluation} (h : ev.status ≠ .invalid) :
    Heeded catalog c [] ev where
  first hinvalid := absurd hinvalid h
  invalid hflaw := absurd rfl hflaw

theorem status_of_runRule {ruleId : String} {rule : Rule} {model : Option PenaltyModel}
    {warnings : List Entry} {scope : Index} {ev : Evaluation}
    (h : runRule c ruleId rule model warnings scope = .ok ev) : ev.status ≠ .invalid := by
  unfold runRule at h
  dsimp only at h
  split at h
  · obtain ⟨r, amount, penalty, -, rfl⟩ := absorb_eq_ok h
    dsimp only
    split <;> simp
  · cases h
  · cases Except.ok.inj h
    simp [Evaluation.faulty]

/-- A constraint without an implementation is not invalid unless audits are strict. -/
theorem heeded_withoutImplementation (hlenient : auditor.config.strict = false)
    {warnings : List Entry} {ruleId : String} (hid : c.ruleId = some ruleId)
    (hfound : auditor.catalog.get? ruleId = none) :
    Heeded auditor.catalog c es (auditor.engine.withoutImplementation c warnings ruleId) := by
  have hstrict : (!c.soft && auditor.engine.strict) = false := by
    rw [show auditor.engine.strict = false from hlenient, Bool.and_false]
  unfold Engine.withoutImplementation
  simp only [hstrict, Bool.false_eq_true, if_false]
  constructor
  · intro h
    cases h
  · intro _ hknown
    have hhas := hknown ruleId hid
    rw [Catalog.has, hfound] at hhas
    cases hhas

/-- A soft constraint without a readable price is invalid, a fault that the check lists. -/
theorem heeded_of_modelOf {catalog : Catalog} {warnings : List Entry} {ev : Evaluation}
    (h : modelOf c warnings = .error ev) : Heeded catalog c (penaltyErrors c) ev := by
  unfold modelOf at h
  unfold penaltyErrors
  split at h
  · cases h
  · next hsoft =>
    rw [if_neg hsoft]
    split at h
    · next hnull =>
      rw [if_pos hnull]
      cases Except.error.inj h
      exact heeded_rejected
    · next hgiven =>
      rw [if_neg hgiven]
      cases hread : PenaltyModel.read c.penalty with
      | ok model => simp [hread] at h
      | error f =>
        simp only [hread] at h
        cases Except.error.inj h
        exact heeded_rejected

theorem penaltyErrors_of_modelOf {warnings : List Entry} {model : Option PenaltyModel}
    (h : modelOf c warnings = .ok model) : penaltyErrors c = [] := by
  unfold modelOf at h
  unfold penaltyErrors
  split at h
  · next hhard => rw [if_pos hhard]
  · next hsoft =>
    rw [if_neg hsoft]
    split at h
    · cases h
    · next hgiven =>
      rw [if_neg hgiven]
      cases hread : PenaltyModel.read c.penalty with
      | ok model => rfl
      | error f => simp [hread] at h

/-- The two checks run in parallel: the first stage of the evaluation that does not go on is the
first one that lists a flaw. -/
theorem heeded_of_evaluateRead (hlenient : auditor.config.strict = false) {index : Index}
    {ev : Evaluation} (h : auditor.engine.evaluateRead c index = .ok ev) :
    ∃ es, flawsOf auditor c = .ok es ∧ Heeded auditor.catalog c es ev := by
  unfold evaluateRead at h
  unfold flawsOf
  cases hid : c.ruleId with
  | none =>
    simp only [hid] at h
    cases Except.ok.inj h
    exact ⟨_, rfl, heeded_rejected⟩
  | some ruleId =>
    simp only [hid] at h
    obtain ⟨problems, hproblems, h⟩ := bind_eq_ok.mp h
    refine ⟨_, bind_eq_ok.mpr ⟨_, paramsErrors_of_contract hproblems, rfl⟩, ?_⟩
    split at h
    · next hsome =>
      rw [if_neg (by simpa using hsome)]
      cases Except.ok.inj h
      exact heeded_rejected
    · next hnone =>
      rw [if_pos (by simpa using hnone), List.nil_append]
      split at h
      · next hfound =>
        cases Except.ok.inj h
        exact heeded_withoutImplementation hlenient hid hfound
      · unfold selectorErrors
        cases hselector : Selector.read c.selector with
        | error f =>
          simp only [hselector] at h
          cases Except.ok.inj h
          exact heeded_rejected
        | ok selector =>
          simp only [hselector] at h
          obtain ⟨scope, -, h⟩ := bind_eq_ok.mp h
          rw [List.nil_append]
          split at h
          · next ev hmodel =>
            cases Except.ok.inj h
            exact heeded_of_modelOf hmodel
          · next model hmodel =>
            rw [penaltyErrors_of_modelOf hmodel]
            exact heeded_of_flawless (status_of_runRule h)

/-- An evaluation that returns has gone through a declaration whose flaws can be listed. -/
theorem flaws_of_evaluate (hlenient : auditor.config.strict = false) {index : Index}
    {ev : Evaluation} (h : auditor.engine.evaluate index doc = .ok ev) (position : Nat) :
    ∃ es, flaws auditor doc position = .ok es ∧
      (ev.status = .invalid → ∃ first rest error, es = first :: rest ∧ ev.errors = [error] ∧
        first.check = error.check) ∧
      (es ≠ [] → (∀ ruleId, (Constraint.declared doc).ruleId = some ruleId →
        auditor.catalog.has ruleId = true) → ev.status = .invalid) := by
  unfold Engine.evaluate at h
  unfold flaws Constraint.declared
  cases hread : Constraint.read doc with
  | error m =>
    simp only [hread] at h
    cases Except.ok.inj h
    exact ⟨_, rfl, fun _ => ⟨_, [], _, rfl, rfl, rfl⟩, fun _ _ => rfl⟩
  | ok c =>
    simp only [hread] at h
    obtain ⟨es, hes, hheeded⟩ := heeded_of_evaluateRead hlenient h
    refine ⟨es, hes, fun hinvalid => ?_, hheeded.invalid⟩
    obtain ⟨e, rest, hes, herrors⟩ := hheeded.first hinvalid
    exact ⟨e, rest, e, hes, herrors, rfl⟩

end InstanceAudit

namespace Auditor

open InstanceAudit

/-- When audits are not strict, an evaluation calls a constraint invalid only if the check of the
instance adds errors for it, the first of them of the same kind as the error of the evaluation; and
when that check adds an error for a constraint with a known rule, or without a rule to look for, the
evaluation calls it invalid. -/
theorem invalid_iff_flawed {auditor : Auditor} (hlenient : auditor.config.strict = false)
    {index : Index} {doc : Json} {ev : Evaluation}
    (h : auditor.engine.evaluate index doc = .ok ev) (report : Report) (position : Nat) :
    (ev.status = .invalid → ∃ later first rest error,
      checkConstraint auditor report (doc, position) = .ok later ∧
        later.errors = report.errors ++ (first :: rest).map .entry ∧
        ev.errors = [error] ∧ first.check = error.check) ∧
      ∀ later, checkConstraint auditor report (doc, position) = .ok later →
        later.errors ≠ report.errors →
        (∀ ruleId, (Constraint.declared doc).ruleId = some ruleId →
          auditor.catalog.has ruleId = true) → ev.status = .invalid := by
  obtain ⟨es, hes, hfirst, hinvalid⟩ := flaws_of_evaluate hlenient h position
  constructor
  · intro hstatus
    obtain ⟨first, rest, error, rfl, herror, hcheck⟩ := hfirst hstatus
    obtain ⟨later, hlater, herrors⟩ := checkConstraint_of_flaws report hes
    exact ⟨later, first, rest, error, hlater, herrors, herror, hcheck⟩
  · intro later hlater hadded
    obtain ⟨es', hes', herrors⟩ := checkConstraint_eq_ok hlater
    cases Except.ok.inj (hes.symm.trans hes')
    refine hinvalid fun hnone => hadded ?_
    rw [herrors, hnone, List.map_nil, List.append_nil]

/-- A soft constraint with a known rule, an unreadable selector and no price. -/
def flawedTwice : Json :=
  .obj [("type", .str "soft"), ("ruleId", .str "no_overlap_team"), ("selector", .int 7)]

theorem invalid_iff_flawed_flawedTwice :
    ∃ index ev later first rest error,
      ({} : Auditor).index (.obj []) (.obj []) = .ok index ∧
        ({} : Auditor).engine.evaluate index flawedTwice = .ok ev ∧ ev.status = .invalid ∧
        checkConstraint {} (({} : Auditor).report "Instance") (flawedTwice, 0) = .ok later ∧
        later.errors = (first :: rest).map .entry ∧ ev.errors = [error] ∧
        first.check = error.check := by
  obtain ⟨index, hindex, hview⟩ := exists_ok_of_toOption_map
    (x := ({} : Auditor).index (.obj []) (.obj []))
    (f := fun index => (({} : Auditor).engine.evaluate index flawedTwice).toOption.map (·.status))
    (b := some .invalid) (by decide +kernel)
  obtain ⟨ev, hev, hstatus⟩ := exists_ok_of_toOption_map hview
  obtain ⟨later, first, rest, error, hlater, herrors, herror, hcheck⟩ :=
    (invalid_iff_flawed rfl hev (({} : Auditor).report "Instance") 0).1 hstatus
  exact ⟨index, ev, later, first, rest, error, hindex, hev, hstatus, hlater, herrors, herror,
    hcheck⟩

end Auditor
end LeagueAudit
