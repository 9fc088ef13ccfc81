import LeagueAudit.Evaluation
import LeagueAudit.Proofs.Outcome

/-!
How evaluations end. Every evaluation that is not stopped by a fault ends in one of few ways, and
the errors that it records go with its status: an invalid constraint has one error that is not about
scores, a failed rule has one that says so, and every other evaluation has none.
-/
namespace LeagueAudit

/-- The errors of an evaluation are those that its status calls for. -/
def Evaluation.Accounted (ev : Evaluation) : Prop :=
  match ev.status with
  | .invalid => ∃ e : Entry, ev.errors = [e] ∧ e.check ∉ Entry.scoringChecks
  | .failed => ∃ e : Entry, ev.errors = [e] ∧ e.check = "RuleExecution"
  | _ => ev.errors = []

/-- The error of an evaluation is about a rule that failed, or not about scores at all. -/
theorem Evaluation.Accounted.check_of_mem {ev : Evaluation} (h : ev.Accounted) {e : Entry}
    (he : e ∈ ev.errors) : e.check = "RuleExecution" ∨ e.check ∉ Entry.scoringChecks := by
  unfold Accounted at h
  cases hs : ev.status <;> simp only [hs] at h
  case invalid =>
    obtain ⟨e', he', hcheck⟩ := h
    cases List.mem_singleton.mp (he' ▸ he)
    exact .inr hcheck
  case failed =>
    obtain ⟨e', he', hcheck⟩ := h
    cases List.mem_singleton.mp (he' ▸ he)
    exact .inl hcheck
  all_goals simp [h] at he

/-- The checks that an evaluation may warn of. -/
def Evaluation.warningChecks : List String := ["MissingRegistryEntry", "MissingRule", "RuleWarning"]

/-- The checks of constraints that have no price. -/
def Evaluation.priceChecks : List String := ["MissingPenalty", "InvalidPenaltyModel"]

/-- The checks that an evaluation may record an error of. -/
def Evaluation.errorChecks : List String :=
  ["InvalidConstraint", "InvalidParams", "MissingRule", "InvalidSelector", "RuleExecution"] ++
    priceChecks

namespace Engine

open Evaluation

/-- The rule of a constraint is implemented and its selector leads to a scope. -/
structure Scopes (engine : Engine) (c : Constraint) (index : Index) (ruleId : String) (rule : Rule)
    (scope : Index) : Prop where
  named : c.ruleId = some ruleId
  found : engine.catalog.get? ruleId = some rule
  selected : ∃ selector, Selector.read c.selector = .ok selector ∧ index.scope selector = .ok scope

/-- The run of a rule for a constraint. -/
def runOf (c : Constraint) (rule : Rule) (scope : Index) : RuleRun :=
  rule.run ⟨if c.params.isObject then c.params else .obj [], scope⟩

/-- The warnings of a constraint whose rule ran. -/
def runWarnings (engine : Engine) (c : Constraint) (ruleId : String) (run : RuleRun) : List Entry :=
  engine.registryWarnings c ruleId ++ run.warnings.map (entry c "RuleWarning")

/-- How the evaluation of a constraint that can be read ends. -/
inductive Ends (engine : Engine) (c : Constraint) (index : Index) : Evaluation → Prop where
  | withoutRule (h : c.ruleId = none) : Ends engine c index (withoutRule c)
  | breaksContract {ruleId : String} {problems : List String} (hid : c.ruleId = some ruleId)
      (hproblems : engine.contractProblems c ruleId = .ok problems)
      (hsome : problems.isEmpty = false) :
      Ends engine c index
        (rejected c (engine.registryWarnings c ruleId) (contractMessage ruleId problems)
          "InvalidParams" (contractMessage ruleId problems))
  | withoutImplementation {ruleId : String} (hid : c.ruleId = some ruleId)
      (hfound : engine.catalog.get? ruleId = none) :
      Ends engine c index
        (engine.withoutImplementation c (engine.registryWarnings c ruleId) ruleId)
  | withoutSelector {ruleId : String} {f : SelectorFault} (hid : c.ruleId = some ruleId)
      (hselector : Selector.read c.selector = .error f) :
      Ends engine c index
        (rejected c (engine.registryWarnings c ruleId) s!"Invalid selector: {f.message}"
          "InvalidSelector" s!"Constraint '{c.label}': {f.message}")
  | withoutPrice {ruleId : String} {rule : Rule} {scope : Index} {ev : Evaluation}
      (hs : engine.Scopes c index ruleId rule scope)
      (hmodel : modelOf c (engine.registryWarnings c ruleId) = .error ev) : Ends engine c index ev
  | failed {ruleId : String} {rule : Rule} {scope : Index} {f : Fault}
      (hs : engine.Scopes c index ruleId rule scope)
      (hrun : (runOf c rule scope).result = .error f) :
      Ends engine c index
        (faulty c (engine.runWarnings c ruleId (runOf c rule scope)) (ruleTrouble c ruleId f))
  | ran {ruleId : String} {rule : Rule} {scope : Index} {model : Option PenaltyModel}
      {returned : Returned} {ev : Evaluation} (hs : engine.Scopes c index ruleId rule scope)
      (hmodel : modelOf c (engine.registryWarnings c ruleId) = .ok model)
      (hrun : (runOf c rule scope).result = .ok returned)
      (habsorb : absorb c rule model (engine.runWarnings c ruleId (runOf c rule scope)) scope
        returned = .ok ev) : Ends engine c index ev

variable {engine : Engine} {c : Constraint} {index : Index} {ev : Evaluation}

theorem evaluateRead_eq_ok (h : engine.evaluateRead c index = .ok ev) : Ends engine c index ev := by
  unfold evaluateRead at h
  split at h
  · next hid => exact Except.ok.inj h ▸ .withoutRule hid
  · next ruleId hid =>
    obtain ⟨problems, hproblems, h⟩ := bind_eq_ok.mp h
    split at h
    · next hsome => exact Except.ok.inj h ▸ .breaksContract hid hproblems (by simpa using hsome)
    · split at h
      · next hfound => exact Except.ok.inj h ▸ .withoutImplementation hid hfound
      · next rule hfound =>
        split at h
        · next f hselector => exact Except.ok.inj h ▸ .withoutSelector hid hselector
        · next selector hselector =>
          obtain ⟨scope, hscope, h⟩ := bind_eq_ok.mp h
          have hs : engine.Scopes c index ruleId rule scope :=
            ⟨hid, hfound, selector, hselector, hscope⟩
          split at h
          · next hmodel => exact Except.ok.inj h ▸ .withoutPrice hs hmodel
          · next model hmodel =>
            unfold runRule at h
            dsimp only at h
            split at h
            · next returned hrun => exact .ran hs hmodel hrun h
            · simp at h
            · next f _ hrun => exact Except.ok.inj h ▸ .failed hs hrun

/-- What the outcome of a rule leads to. -/
theorem absorb_eq_ok {rule : Rule} {model : Option PenaltyModel} {warnings : List Entry}
    {scope : Index} {returned : Returned}
    (h : absorb c rule model warnings scope returned = .ok ev) :
    ∃ r amount penalty, Reading.ofReturned returned = .ok r ∧
      ev =
        { constraint := c
          status := if r.violations.isEmpty && r.count = 0 then .ok else .violated
          violations := r.violations, amount, count := r.count, penalty
          explanation := r.explanation, warnings, extra := r.extra
          timed :=
            if rule.usesTime then some (scope.fixtures.ids.mergeSort (· ≤ ·)) else none } := by
  unfold absorb at h
  obtain ⟨r, hr, h⟩ := bind_eq_ok.mp h
  cases model with
  | none => exact ⟨r, 0.0, 0.0, hr, (Except.ok.inj h).symm⟩
  | some model =>
    obtain ⟨amount, -, h⟩ := bind_eq_ok.mp h
    obtain ⟨penalty, -, h⟩ := bind_eq_ok.mp h
    exact ⟨r, amount, penalty, hr, (Except.ok.inj h).symm⟩

theorem accounted_rejected {warnings : List Entry} {reason check message : String}
    {action : Option String} (h : check ∉ Entry.scoringChecks) :
    (rejected c warnings reason check message action).Accounted :=
  ⟨_, rfl, h⟩

theorem accounted_faulty (warnings : List Entry) (t : Trouble) :
    (faulty c warnings t).Accounted :=
  ⟨_, rfl, rfl⟩

theorem check_of_rejected {warnings : List Entry} {reason check message : String}
    {action : Option String} {e : Entry} (h : check ∈ errorChecks)
    (he : e ∈ (rejected c warnings reason check message action).errors) :
    e.check ∈ errorChecks := by
  rw [List.mem_singleton.mp he]
  exact h

theorem check_of_faulty {warnings : List Entry} {t : Trouble} {e : Entry}
    (he : e ∈ (faulty c warnings t).errors) : e.check ∈ errorChecks := by
  rw [List.mem_singleton.mp he, entry, errorChecks]
  simp

/-- A soft constraint without a readable price is rejected for that. -/
theorem modelOf_eq_error {warnings : List Entry} (h : modelOf c warnings = .error ev) :
    ∃ reason check message action, ev = rejected c warnings reason check message action ∧
      check ∈ priceChecks := by
  unfold modelOf at h
  split at h
  · cases h
  · split at h
    · exact ⟨_, _, _, _, (Except.error.inj h).symm, by decide⟩
    · split at h
      · cases h
      · exact ⟨_, _, _, _, (Except.error.inj h).symm, by decide⟩

theorem not_mem_scoringChecks_of_price {check : String} (h : check ∈ priceChecks) :
    check ∉ Entry.scoringChecks := by
  revert check
  decide

theorem accounted_of_modelOf {warnings : List Entry} (h : modelOf c warnings = .error ev) :
    ev.Accounted ∧ ev.status = .invalid := by
  obtain ⟨reason, check, message, action, rfl, hcheck⟩ := modelOf_eq_error h
  exact ⟨accounted_rejected (not_mem_scoringChecks_of_price hcheck), rfl⟩

theorem accounted_of_absorb {rule : Rule} {model : Option PenaltyModel} {warnings : List Entry}
    {scope : Index} {returned : Returned}
    (h : absorb c rule model warnings scope returned = .ok ev) : ev.Accounted := by
  obtain ⟨r, amount, penalty, -, rfl⟩ := absorb_eq_ok h
  unfold Accounted
  dsimp only
  split <;> grind

theorem check_of_registryWarnings {ruleId : String} {w : Entry}
    (hw : w ∈ engine.registryWarnings c ruleId) : w.check ∈ warningChecks := by
  unfold registryWarnings at hw
  split at hw
  · cases hw
  · split at hw
    · cases hw
    · rw [List.mem_singleton.mp hw]
      exact List.mem_cons_self

theorem check_of_runWarnings {ruleId : String} {run : RuleRun} {w : Entry}
    (hw : w ∈ engine.runWarnings c ruleId run) : w.check ∈ warningChecks := by
  rcases List.mem_append.mp hw with hw | hw
  · exact check_of_registryWarnings hw
  · obtain ⟨text, -, rfl⟩ := List.mem_map.mp hw
    simp [entry, warningChecks]

namespace Ends

/-- Evaluations warn of what is missing around a rule, and of what the rule itself tells. -/
theorem check_of_warning (h : Ends engine c index ev) {w : Entry} (hw : w ∈ ev.warnings) :
    w.check ∈ warningChecks := by
  cases h with
  | withoutRule => cases hw
  | breaksContract => exact check_of_registryWarnings hw
  | withoutImplementation =>
    unfold Engine.withoutImplementation at hw
    dsimp only at hw
    split at hw
    · exact check_of_registryWarnings hw
    · rcases List.mem_append.mp hw with hw | hw
      · exact check_of_registryWarnings hw
      · rw [List.mem_singleton.mp hw]
        simp [entry, warningChecks]
  | withoutSelector => exact check_of_registryWarnings hw
  | withoutPrice _ hmodel =>
    obtain ⟨reason, check, message, action, rfl, -⟩ := modelOf_eq_error hmodel
    exact check_of_registryWarnings hw
  | failed => exact check_of_runWarnings hw
  | ran _ _ _ habsorb =>
    obtain ⟨r, amount, penalty, -, rfl⟩ := absorb_eq_ok habsorb
    exact check_of_runWarnings hw

/-- Evaluations record errors of constraints that are not as they must be, and of rules that
failed. -/
theorem check_of_error (h : Ends engine c index ev) {e : Entry} (he : e ∈ ev.errors) :
    e.check ∈ errorChecks := by
  cases h with
  | withoutRule => exact check_of_rejected (by decide) he
  | breaksContract => exact check_of_rejected (by decide) he
  | withoutImplementation =>
    unfold Engine.withoutImplementation at he
    dsimp only at he
    split at he
    · exact check_of_rejected (by decide) he
    · cases he
  | withoutSelector => exact check_of_rejected (by decide) he
  | withoutPrice _ hmodel =>
    obtain ⟨reason, check, message, action, rfl, hcheck⟩ := modelOf_eq_error hmodel
    exact check_of_rejected (List.mem_append_right _ hcheck) he
  | failed => exact check_of_faulty he
  | ran _ _ _ habsorb =>
    obtain ⟨r, amount, penalty, -, rfl⟩ := absorb_eq_ok habsorb
    cases he

theorem accounted (h : Ends engine c index ev) : ev.Accounted := by
  cases h with
  | withoutRule => exact accounted_rejected (by decide)
  | breaksContract => exact accounted_rejected (by decide)
  | withoutImplementation =>
    unfold Engine.withoutImplementation
    dsimp only
    split
    · exact accounted_rejected (by decide)
    · exact rfl
  | withoutSelector => exact accounted_rejected (by decide)
  | withoutPrice _ hmodel => exact (accounted_of_modelOf hmodel).1
  | failed => exact accounted_faulty _ _
  | ran _ _ _ habsorb => exact accounted_of_absorb habsorb

/-- Only a rule that ran leads to a checked constraint. -/
theorem ran_of_checked (h : Ends engine c index ev) (hchecked : ev.checked = true) :
    ∃ ruleId rule scope model returned, engine.Scopes c index ruleId rule scope ∧
      modelOf c (engine.registryWarnings c ruleId) = .ok model ∧
      (runOf c rule scope).result = .ok returned ∧
      absorb c rule model (engine.runWarnings c ruleId (runOf c rule scope)) scope returned =
        .ok ev := by
  cases h with
  | withoutRule => simp [checked, Engine.withoutRule, rejected] at hchecked
  | breaksContract => simp [checked, rejected] at hchecked
  | withoutImplementation =>
    unfold Engine.withoutImplementation at hchecked
    dsimp only at hchecked
    split at hchecked
    · simp [checked, rejected] at hchecked
    · simp [checked] at hchecked
  | withoutSelector => simp [checked, rejected] at hchecked
  | withoutPrice _ hmodel => simp [checked, (accounted_of_modelOf hmodel).2] at hchecked
  | failed => simp [checked, faulty] at hchecked
  | ran hs hmodel hrun habsorb => exact ⟨_, _, _, _, _, hs, hmodel, hrun, habsorb⟩

theorem of_checked (h : Ends engine c index ev) (hchecked : ev.checked = true) :
    ∃ ruleId rule scope model returned warnings, engine.Scopes c index ruleId rule scope ∧
      (runOf c rule scope).result = .ok returned ∧
      absorb c rule model warnings scope returned = .ok ev := by
  obtain ⟨ruleId, rule, scope, model, returned, hs, -, hrun, habsorb⟩ := h.ran_of_checked hchecked
  exact ⟨ruleId, rule, scope, model, returned, _, hs, hrun, habsorb⟩

end Ends

/-- How the evaluation of a constraint document ends. -/
inductive Settles (engine : Engine) (index : Index) (doc : Json) : Evaluation → Prop where
  | read {c : Constraint} {ev : Evaluation} (hread : Constraint.read doc = .ok c)
      (hends : Ends engine c index ev) : Settles engine index doc ev
  | malformed (m : Misfit) : Settles engine index doc (malformed doc m)
  | timedOut (seconds : Float) : Settles engine index doc (timedOut seconds doc)

variable {doc : Json} {docs : List Json}

theorem evaluate_eq_ok (h : engine.evaluate index doc = .ok ev) : Settles engine index doc ev := by
  unfold evaluate at h
  split at h
  · next c hread => exact .read hread (evaluateRead_eq_ok h)
  · exact Except.ok.inj h ▸ .malformed _

theorem evaluateAmong_eq_ok (h : engine.evaluateAmong index docs doc = .ok ev) :
    Settles engine index doc ev := by
  unfold evaluateAmong at h
  split at h
  · exact Except.ok.inj h ▸ .timedOut _
  · exact evaluate_eq_ok h

namespace Settles

theorem accounted (h : Settles engine index doc ev) : ev.Accounted := by
  cases h with
  | read _ hends => exact hends.accounted
  | malformed => exact accounted_rejected (by decide)
  | timedOut => exact accounted_faulty _ _

/-- A checked constraint was read, scoped, and judged by its rule. -/
theorem of_checked (h : Settles engine index doc ev) (hchecked : ev.checked = true) :
    ∃ c ruleId rule scope model returned warnings, Constraint.read doc = .ok c ∧
      engine.Scopes c index ruleId rule scope ∧ (runOf c rule scope).result = .ok returned ∧
      absorb c rule model warnings scope returned = .ok ev := by
  cases h with
  | read hread hends =>
    obtain ⟨ruleId, rule, scope, model, returned, warnings, h⟩ := hends.of_checked hchecked
    exact ⟨_, ruleId, rule, scope, model, returned, warnings, hread, h⟩
  | malformed => simp [checked, Engine.malformed, rejected] at hchecked
  | timedOut => simp [checked, Engine.timedOut, faulty] at hchecked

end Settles

theorem check_of_warning_of_mem {evs : List Evaluation}
    (h : engine.evaluateAll index docs = .ok evs) (hev : ev ∈ evs) {w : Entry}
    (hw : w ∈ ev.warnings) : w.check ∈ warningChecks := by
  obtain ⟨doc, -, hdoc⟩ := exists_source_of_mapM_eq_ok h hev
  cases evaluateAmong_eq_ok hdoc with
  | read _ hends => exact hends.check_of_warning hw
  | malformed => cases hw
  | timedOut => cases hw

theorem check_of_error_of_mem {evs : List Evaluation}
    (h : engine.evaluateAll index docs = .ok evs) (hev : ev ∈ evs) {e : Entry}
    (he : e ∈ ev.errors) : e.check ∈ errorChecks := by
  obtain ⟨doc, -, hdoc⟩ := exists_source_of_mapM_eq_ok h hev
  cases evaluateAmong_eq_ok hdoc with
  | read _ hends => exact hends.check_of_error he
  | malformed => exact check_of_rejected (by decide) he
  | timedOut => exact check_of_faulty he

theorem accounted_of_mem {evs : List Evaluation} (h : engine.evaluateAll index docs = .ok evs)
    (hev : ev ∈ evs) : ev.Accounted := by
  obtain ⟨doc, -, hdoc⟩ := exists_source_of_mapM_eq_ok h hev
  exact (evaluateAmong_eq_ok hdoc).accounted

end Engine
end LeagueAudit
