import LeagueAudit.Proofs.Evaluation.Ending
import LeagueAudit.Rule.Default
import LeagueAudit.Schedule.Build
import LeagueAudit.Score.Reconcile

/-!
Every evaluation accounts for its constraint in exactly one of four ways: the rule ran, or an error
or a warning says why it did not. A constraint whose outcome is not known costs nothing and hides
among neither the lines of the ledger nor the hard violations.
-/
namespace LeagueAudit

/-- How a constraint is accounted for. -/
inductive Account where
  | checked
  | rejected
  | unchecked
  | failed
  deriving DecidableEq, Repr

namespace Evaluation

/-- An evaluation that measures nothing, so that reconciliations are the same with it and without
it. -/
structure Idle (ev : Evaluation) : Prop where
  count : ev.count = 0
  amount : ev.amount = 0.0
  penalty : ev.penalty = 0.0
  lines : ∀ (r : Reconciliation) before after, r.evaluations = before ++ ev :: after →
    r.byConstraint = { r with evaluations := before ++ after }.byConstraint
  hardViolations : ∀ (r : Reconciliation) before after, r.evaluations = before ++ ev :: after →
    r.hardViolations = { r with evaluations := before ++ after }.hardViolations

/-- What shows that a constraint is accounted for in some way. -/
def Shows (ev : Evaluation) : Account → Prop
  | .checked => (ev.status = .ok ∨ ev.status = .violated) ∧ ev.errors = []
  | .rejected => ev.status = .invalid ∧
      (∃ e : Entry, ev.errors = [e] ∧ e.check ≠ "RuleExecution") ∧ ev.violations ≠ [] ∧ ev.Idle
  | .unchecked => ev.status = .unchecked ∧ ev.errors = [] ∧
      (∃ w ∈ ev.warnings, w.check = "MissingRule") ∧ ev.Idle
  | .failed => ev.status = .failed ∧
      (∃ e : Entry, ev.errors = [e] ∧ e.check = "RuleExecution") ∧ ev.Idle

variable {ev : Evaluation} {c : Constraint} {warnings : List Entry}

/-- What was not checked and has no numbers is left out of every sum and every list. -/
theorem idle_of_not_checked (hchecked : ev.checked = false) (hcount : ev.count = 0)
    (hamount : ev.amount = 0.0) (hpenalty : ev.penalty = 0.0) : ev.Idle where
  count := hcount
  amount := hamount
  penalty := hpenalty
  lines r before after h := by
    simp [Reconciliation.byConstraint, Reconciliation.lines, Reconciliation.linesOf, h, hchecked]
  hardViolations r before after h := by
    have hviolated : ev.status ≠ .violated := by
      intro hviolated
      simp [checked, hviolated] at hchecked
    simp [Reconciliation.hardViolations, h, hviolated]

theorem shows_rejected {reason check message : String} {action : Option String}
    (h : check ≠ "RuleExecution") :
    (rejected c warnings reason check message action).Shows .rejected :=
  ⟨rfl, ⟨_, rfl, h⟩, List.cons_ne_nil _ _, idle_of_not_checked rfl rfl rfl rfl⟩

theorem shows_faulty (t : Trouble) : (faulty c warnings t).Shows .failed :=
  ⟨rfl, ⟨_, rfl, rfl⟩, idle_of_not_checked rfl rfl rfl rfl⟩

/-- The account that a status stands for. -/
def accountOf : Status → Account
  | .ok => .checked
  | .violated => .checked
  | .unchecked => .unchecked
  | .invalid => .rejected
  | .failed => .failed

theorem Shows.eq_accountOf {account : Account} (h : ev.Shows account) :
    account = accountOf ev.status := by
  cases account with
  | checked =>
    rcases h.1 with hok | hviolated
    · rw [hok]
      rfl
    · rw [hviolated]
      rfl
  | rejected =>
    rw [h.1]
    rfl
  | unchecked =>
    rw [h.1]
    rfl
  | failed =>
    rw [h.1]
    rfl

end Evaluation

namespace Engine

open Evaluation

variable {engine : Engine} {c : Constraint} {index : Index} {doc : Json} {ev : Evaluation}
  {warnings : List Entry}

/-- A rule without an implementation is passed over with a warning, unless it must hold and audits
are strict. -/
theorem shows_withoutImplementation (ruleId : String) :
    ∃ account, (engine.withoutImplementation c warnings ruleId).Shows account ∧
      (account = .unchecked → engine.strict = true →
        (engine.withoutImplementation c warnings ruleId).constraint.soft = true) := by
  unfold withoutImplementation
  dsimp only
  split
  · exact ⟨.rejected, shows_rejected (by decide), nofun⟩
  · next hlenient =>
    have hwarned : ∀ message, ∃ w ∈ warnings ++ [entry c "MissingRule" message],
        w.check = "MissingRule" :=
      fun _ => ⟨_, List.mem_append_right _ (List.mem_singleton_self _), rfl⟩
    refine ⟨.unchecked, ⟨rfl, rfl, hwarned _, idle_of_not_checked rfl rfl rfl rfl⟩, ?_⟩
    intro _ hstrict
    simpa [hstrict] using hlenient

theorem shows_of_modelOf (h : modelOf c warnings = .error ev) : ev.Shows .rejected := by
  obtain ⟨reason, check, message, action, rfl, hcheck⟩ := modelOf_eq_error h
  refine shows_rejected fun hexecution => ?_
  rw [hexecution] at hcheck
  exact absurd hcheck (by decide)

theorem shows_of_absorb {rule : Rule} {model : Option PenaltyModel} {scope : Index}
    {returned : Returned} (h : absorb c rule model warnings scope returned = .ok ev) :
    ev.Shows .checked := by
  obtain ⟨r, amount, penalty, -, rfl⟩ := absorb_eq_ok h
  refine ⟨?_, rfl⟩
  dsimp only
  split
  · exact .inl rfl
  · exact .inr rfl

/-- Each end accounts for its constraint. -/
theorem Ends.shows (h : Ends engine c index ev) :
    ∃ account, ev.Shows account ∧
      (account = .unchecked → engine.strict = true → ev.constraint.soft = true) := by
  cases h with
  | withoutRule => exact ⟨.rejected, shows_rejected (by decide), nofun⟩
  | breaksContract => exact ⟨.rejected, shows_rejected (by decide), nofun⟩
  | withoutImplementation => exact shows_withoutImplementation _
  | withoutSelector => exact ⟨.rejected, shows_rejected (by decide), nofun⟩
  | withoutPrice _ hmodel => exact ⟨.rejected, shows_of_modelOf hmodel, nofun⟩
  | failed => exact ⟨.failed, shows_faulty _, nofun⟩
  | ran _ _ _ habsorb => exact ⟨.checked, shows_of_absorb habsorb, nofun⟩

theorem Settles.shows (h : Settles engine index doc ev) :
    ∃ account, ev.Shows account ∧
      (account = .unchecked → engine.strict = true → ev.constraint.soft = true) := by
  cases h with
  | read _ hends => exact hends.shows
  | malformed => exact ⟨.rejected, shows_rejected (by decide), nofun⟩
  | timedOut => exact ⟨.failed, shows_faulty _, nofun⟩

/-- A constraint that is evaluated is accounted for in exactly one way, and strict audits leave no
hard constraint unchecked. -/
theorem existsUnique_account (h : engine.evaluate index doc = .ok ev) :
    (∃! account, ev.Shows account) ∧
      (engine.strict = true → ev.constraint.soft = false → ev.status ≠ .unchecked) := by
  obtain ⟨account, hshows, hsoft⟩ := (evaluate_eq_ok h).shows
  refine ⟨⟨account, hshows, fun other hother => ?_⟩, fun hstrict hhard hunchecked => ?_⟩
  · exact hother.eq_accountOf.trans hshows.eq_accountOf.symm
  · have haccount : account = .unchecked := by rw [hshows.eq_accountOf, hunchecked, accountOf]
    rw [hsoft haccount hstrict] at hhard
    cases hhard

/-- A hard constraint with a rule that nobody implements. -/
def unknownRule : Json := .obj [("type", .str "hard"), ("ruleId", .str "no_rain")]

theorem existsUnique_account_unknownRule :
    ∃ index strictly leniently,
      Index.build (.whole 90) "UTC" (.obj []) (.obj []) = .ok index ∧
        Engine.evaluate { catalog := .default, strict := true } index unknownRule = .ok strictly ∧
        Engine.evaluate { catalog := .default } index unknownRule = .ok leniently ∧
        strictly.status = .invalid ∧ leniently.status = .unchecked ∧
        (∃! account, strictly.Shows account) ∧ ∃! account, leniently.Shows account := by
  obtain ⟨index, hindex, hview⟩ := exists_ok_of_toOption_map
    (x := Index.build (.whole 90) "UTC" (.obj []) (.obj []))
    (f := fun index => [true, false].map fun strict =>
      (Engine.evaluate { catalog := .default, strict } index unknownRule).toOption.map (·.status))
    (b := [some .invalid, some .unchecked]) (by decide +kernel)
  obtain ⟨hstrict, hrest⟩ := List.cons.inj hview
  obtain ⟨strictly, hstrictly, hinvalid⟩ := exists_ok_of_toOption_map hstrict
  obtain ⟨leniently, hleniently, hunchecked⟩ :=
    exists_ok_of_toOption_map (List.cons.inj hrest).1
  exact ⟨index, strictly, leniently, hindex, hstrictly, hleniently, hinvalid, hunchecked,
    (existsUnique_account hstrictly).1, (existsUnique_account hleniently).1⟩

end Engine
end LeagueAudit
