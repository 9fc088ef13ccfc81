import LeagueAudit.Proofs.Json.Members
import LeagueAudit.Proofs.Report.ExitCode
import Mathlib.Data.List.Induction

/-!
Reports that grow operation by operation. In whatever order errors, warnings, passed checks, hard
violations and infeasibility come in, a check has failed exactly when an error names it, and the
exit code only depends on what came in and never goes down.
-/
namespace LeagueAudit.Report

theorem lookup_foldl_fail (names : List String) (checks : List (String × Bool)) (check : String) :
    (names.foldl fail checks).lookup check =
      if check ∈ names then some false else checks.lookup check := by
  induction names generalizing checks with
  | nil => rfl
  | cons name rest ih =>
    rw [List.foldl_cons, ih, fail, Json.lookup_setMember]
    by_cases hrest : check ∈ rest <;> simp [hrest]

theorem nodup_foldl_fail (names : List String) {checks : List (String × Bool)}
    (h : (checks.map (·.1)).Nodup) : ((names.foldl fail checks).map (·.1)).Nodup := by
  induction names generalizing checks with
  | nil => exact h
  | cons name rest ih => exact ih (Json.nodup_keys_setMember h)

theorem addErrors_eq (r : Report) (es : List Entry) :
    r.addErrors es =
      { r with
        errors := r.errors ++ es.map .entry
        checks := (es.map Entry.check).foldl fail r.checks } := by
  induction es generalizing r with
  | nil => rw [List.map_nil, List.append_nil]; rfl
  | cons e rest ih =>
    change (r.addError e).addErrors rest = _
    rw [ih, addError, List.map_cons, List.map_cons, List.append_assoc]
    rfl

theorem lookup_markPassed (r : Report) (name check : String) :
    (r.markPassed name).checks.lookup check =
      (r.checks.lookup check).or (if check ∈ [name] then some true else none) := by
  unfold markPassed
  split
  · next hsettled =>
    split
    · next hname =>
      obtain rfl := List.mem_singleton.mp hname
      obtain ⟨passed, hpassed⟩ := Option.isSome_iff_exists.mp hsettled
      rw [hpassed, Option.some_or]
    · rw [Option.or_none]
  · rw [List.lookup_append, Json.lookup_cons_eq]
    simp

theorem nodup_markPassed {r : Report} (h : (r.checks.map (·.1)).Nodup) (name : String) :
    ((r.markPassed name).checks.map (·.1)).Nodup := by
  unfold markPassed
  split
  · exact h
  · next hnew =>
    rw [Json.isSome_lookup_iff] at hnew
    have hset : ((Json.setMember name true r.checks).map (·.1)).Nodup :=
      Json.nodup_keys_setMember h
    rwa [Json.setMember_of_notMem hnew] at hset

/-- An error made elsewhere: a value that names its check. -/
structure NamedError where
  value : Json
  check : String
  names : value.required "check" = .ok (.str check)

namespace NamedError

def finding (e : NamedError) : Finding := .given e.value

theorem check_finding (e : NamedError) : e.finding.check = .ok (.str e.check) := by
  rw [finding, Finding.check, e.names]
  rfl

end NamedError

theorem settle_named (r : Report) (es : List NamedError) :
    r.settle (es.map NamedError.finding) =
      ({ r with checks := (es.map NamedError.check).foldl fail r.checks }, none) := by
  induction es generalizing r with
  | nil => rfl
  | cons e rest ih =>
    rw [List.map_cons, settle, e.check_finding]
    exact ih _

theorem extendGiven_named (r : Report) (es : List NamedError) (ws : List Json) :
    r.extendGiven (.arr (es.map NamedError.value)) (.arr ws) =
      ({ r with
        errors := r.errors ++ es.map NamedError.finding
        warnings := r.warnings ++ ws.map .given
        checks := (es.map NamedError.check).foldl fail r.checks }, none) := by
  have hfound : (es.map NamedError.value).map Finding.given = es.map NamedError.finding := by
    rw [List.map_map]
    rfl
  rw [← hfound]
  unfold extendGiven
  dsimp only [Json.listed]
  rw [hfound]
  exact settle_named _ es

theorem exists_markPassed_eq (r : Report) (check : String) :
    ∃ checks, r.markPassed check = { r with checks } := by
  unfold markPassed
  split
  · exact ⟨r.checks, rfl⟩
  · exact ⟨_, rfl⟩

/-- Hard violations that stand in a list are what the list holds. -/
theorem hardViolations?_of_detail {r : Report} {vs : List Json}
    (h : r.detail "hardViolations" = .arr vs) : r.hardViolations? = .ok vs := by
  rw [hardViolations?, h]
  cases vs <;> rfl

theorem hardViolations_eq {r : Report} {vs : List Json} (h : r.hardViolations? = .ok vs) :
    r.hardViolations = vs := by
  rw [hardViolations, h]

theorem detail_setDetail_self (r : Report) (key : String) (value : Json) :
    (r.setDetails [(key, value)]).detail key = value := by
  rw [detail, setDetails, Json.setMembers_cons, Json.setMembers_nil, Json.lookup_setMember_self,
    Option.getD_some]

/-- One more hard violation behind the others. -/
def addHardViolation (r : Report) (v : Json) : Report :=
  r.setDetails [("hardViolations", .arr (r.hardViolations ++ [v]))]

/-- What can be done to a report. -/
inductive Operation where
  | error (e : Entry)
  | warning (e : Entry)
  | extend (errors warnings : List Entry)
  | extendGiven (errors : List NamedError) (warnings : List Json)
  | pass (check : String)
  /-- The solver reports that there is no schedule. -/
  | infeasible
  /-- A hard constraint is violated. -/
  | violation (v : Json)

namespace Operation

/-- The report after an operation, and why the operation failed. -/
def run (r : Report) : Operation → Report × Option Fault
  | error e => (r.addError e, none)
  | warning e => (r.addWarning e, none)
  | extend errors warnings => (r.extend errors warnings, none)
  | extendGiven errors warnings =>
    r.extendGiven (.arr (errors.map NamedError.value)) (.arr warnings)
  | pass check => (r.markPassed check, none)
  | infeasible => ({ r with infeasible := true }, none)
  | violation v => (r.addHardViolation v, none)

def errors : Operation → List Finding
  | error e => [.entry e]
  | extend errors _ => errors.map .entry
  | extendGiven errors _ => errors.map NamedError.finding
  | _ => []

def warnings : Operation → List Finding
  | warning e => [.entry e]
  | extend _ warnings => warnings.map .entry
  | extendGiven _ warnings => warnings.map .given
  | _ => []

def violations : Operation → List Json
  | violation v => [v]
  | _ => []

def isInfeasible : Operation → Bool
  | infeasible => true
  | _ => false

/-- The checks that the errors of an operation name. -/
def failed : Operation → List String
  | error e => [e.check]
  | extend errors _ => errors.map Entry.check
  | extendGiven errors _ => errors.map NamedError.check
  | _ => []

def passed : Operation → List String
  | pass check => [check]
  | _ => []

theorem map_check_errors (op : Operation) :
    op.errors.map Finding.check = op.failed.map fun check => .ok (.str check) := by
  cases op with
  | error e => rfl
  | extend errors warnings => simp [Operation.errors, failed, Finding.check]
  | extendGiven errors warnings => simp [Operation.errors, failed, NamedError.check_finding]
  | _ => rfl

theorem mem_passed {op : Operation} {check : String} : check ∈ op.passed ↔ op = .pass check := by
  cases op <;> simp [passed, eq_comm]

end Operation

/-- What an operation makes of a report. -/
structure Takes (r : Report) (op : Operation) (later : Report) : Prop where
  errors : later.errors = r.errors ++ op.errors
  warnings : later.warnings = r.warnings ++ op.warnings
  hardViolations : ∀ vs, r.hardViolations? = .ok vs →
    later.hardViolations? = .ok (vs ++ op.violations)
  infeasible : later.infeasible = (r.infeasible || op.isInfeasible)
  failOnWarnings : later.failOnWarnings = r.failOnWarnings
  distinct : (r.checks.map (·.1)).Nodup → (later.checks.map (·.1)).Nodup
  /-- A failed check stays failed, and one that is settled already is not passed again. -/
  checks : ∀ check, later.checks.lookup check =
    if check ∈ op.failed then some false
    else (r.checks.lookup check).or (if check ∈ op.passed then some true else none)

/-- Errors and warnings are told at the end, and the checks of the errors fail. -/
theorem takes_findings {r : Report} {op : Operation} {later : Report}
    (hlater : later =
      { r with
        errors := r.errors ++ op.errors
        warnings := r.warnings ++ op.warnings
        checks := op.failed.foldl fail r.checks })
    (hviolations : op.violations = []) (hfeasible : op.isInfeasible = false)
    (hpassed : op.passed = []) : r.Takes op later := by
  subst hlater
  refine ⟨rfl, rfl, fun vs h => ?_, ?_, rfl, nodup_foldl_fail _, fun check => ?_⟩
  · rw [hviolations, List.append_nil]
    exact h
  · rw [hfeasible, Bool.or_false]
  · rw [lookup_foldl_fail, hpassed, if_neg List.not_mem_nil, Option.or_none]

theorem takes_run (r : Report) (op : Operation) : r.Takes op (op.run r).1 := by
  cases op with
  | error e =>
    refine takes_findings ?_ rfl rfl rfl
    simp only [Operation.warnings, List.append_nil]
    rfl
  | warning e =>
    refine takes_findings ?_ rfl rfl rfl
    simp only [Operation.errors, List.append_nil]
    rfl
  | extend errors warnings =>
    refine takes_findings ?_ rfl rfl rfl
    rw [Operation.run, Report.extend, addWarnings, addErrors_eq]
    rfl
  | extendGiven errors warnings =>
    refine takes_findings ?_ rfl rfl rfl
    rw [Operation.run, extendGiven_named]
    rfl
  | pass check =>
    obtain ⟨checks, hchecks⟩ := r.exists_markPassed_eq check
    have hlookup := r.lookup_markPassed check
    have hdistinct (h : (r.checks.map (·.1)).Nodup) := nodup_markPassed h check
    rw [hchecks] at hlookup hdistinct
    rw [Operation.run, hchecks]
    exact ⟨(List.append_nil _).symm, (List.append_nil _).symm,
      fun vs h => h.trans (congrArg _ (List.append_nil vs).symm), (Bool.or_false _).symm, rfl,
      hdistinct, hlookup⟩
  | infeasible =>
    exact ⟨(List.append_nil _).symm, (List.append_nil _).symm,
      fun vs h => h.trans (congrArg _ (List.append_nil vs).symm), (Bool.or_true _).symm, rfl,
      id, fun check => Option.or_none.symm⟩
  | violation v =>
    refine ⟨(List.append_nil _).symm, (List.append_nil _).symm, fun vs h => ?_,
      (Bool.or_false _).symm, rfl, id, fun check => Option.or_none.symm⟩
    rw [Operation.run, addHardViolation, hardViolations_eq h]
    exact hardViolations?_of_detail (detail_setDetail_self _ _ _)

theorem run_returns (r : Report) (op : Operation) : (op.run r).2 = none := by
  cases op with
  | extendGiven errors warnings => rw [Operation.run, extendGiven_named]
  | _ => rfl

/-- The report after operations. -/
def after (r : Report) (ops : List Operation) : Report := ops.foldl (fun r op => (op.run r).1) r

theorem after_append_singleton (r : Report) (ops : List Operation) (op : Operation) :
    r.after (ops ++ [op]) = (op.run (r.after ops)).1 := by
  rw [after, List.foldl_append]
  rfl

/-- A report holds what operations told, and each check is settled by all of them together. -/
structure Holds (failOnWarnings : Bool) (ops : List Operation) (r : Report) : Prop where
  errors : r.errors = ops.flatMap Operation.errors
  warnings : r.warnings = ops.flatMap Operation.warnings
  hardViolations : r.hardViolations? = .ok (ops.flatMap Operation.violations)
  infeasible : r.infeasible = ops.any Operation.isInfeasible
  failOnWarnings : r.failOnWarnings = failOnWarnings
  distinct : (r.checks.map (·.1)).Nodup
  checks : ∀ check, r.checks.lookup check =
    if check ∈ ops.flatMap Operation.failed then some false
    else if check ∈ ops.flatMap Operation.passed then some true else none

theorem Holds.next {failOnWarnings : Bool} {ops : List Operation} {op : Operation}
    {r later : Report} (h : Holds failOnWarnings ops r) (htakes : r.Takes op later) :
    Holds failOnWarnings (ops ++ [op]) later where
  errors := by rw [htakes.errors, h.errors, List.flatMap_append, List.flatMap_singleton]
  warnings := by rw [htakes.warnings, h.warnings, List.flatMap_append, List.flatMap_singleton]
  hardViolations := by
    rw [htakes.hardViolations _ h.hardViolations, List.flatMap_append, List.flatMap_singleton]
  infeasible := by
    rw [htakes.infeasible, h.infeasible, List.any_append, List.any_cons, List.any_nil,
      Bool.or_false]
  failOnWarnings := htakes.failOnWarnings.trans h.failOnWarnings
  distinct := htakes.distinct h.distinct
  checks := by
    intro check
    rw [htakes.checks, h.checks]
    simp only [List.flatMap_append, List.flatMap_singleton, List.mem_append]
    -- It failed now, it failed before, or only what was passed counts.
    by_cases hnew : check ∈ op.failed
    · simp only [hnew, or_true, if_true]
    · by_cases hold : check ∈ ops.flatMap Operation.failed
      · simp only [hold, hnew, true_or, if_true, if_false, Option.some_or]
      · simp only [hold, hnew, or_self, if_false]
        by_cases hpassed : check ∈ ops.flatMap Operation.passed <;> simp [hpassed]

theorem holds_after (subject : String) (failOnWarnings : Bool) (ops : List Operation) :
    Holds failOnWarnings ops (({ subject, failOnWarnings } : Report).after ops) := by
  induction ops using List.reverseRecOn with
  | nil => exact ⟨rfl, rfl, rfl, rfl, rfl, .nil, fun _ => rfl⟩
  | append_singleton ops op ih =>
    rw [after_append_singleton]
    exact ih.next (takes_run _ op)

theorem forM_check_eq_ok {fs : List Finding} (h : ∀ f ∈ fs, ∃ check, f.check = .ok check) :
    (fs.forM fun f => do
      let _ ← f.check
      .ok ()) = (.ok () : Except Fault Unit) := by
  induction fs with
  | nil => rfl
  | cons f rest ih =>
    obtain ⟨⟨check, hcheck⟩, hrest⟩ := List.forall_mem_cons.mp h
    rw [List.forM_eq_forM, List.forM_cons, hcheck]
    exact ih hrest

namespace Holds

variable {failOnWarnings : Bool} {ops more : List Operation} {r later : Report}

theorem map_check_errors (h : Holds failOnWarnings ops r) :
    r.errors.map Finding.check =
      (ops.flatMap Operation.failed).map fun check => .ok (.str check) := by
  simp only [h.errors, List.map_flatMap, Operation.map_check_errors]

theorem mem_failed (h : Holds failOnWarnings ops r) (check : String) :
    check ∈ ops.flatMap Operation.failed ↔ ∃ f ∈ r.errors, f.check = .ok (.str check) := by
  rw [← List.mem_map, h.map_check_errors, List.mem_map]
  simp

theorem mem_passed {check : String} :
    check ∈ ops.flatMap Operation.passed ↔ .pass check ∈ ops := by
  simp [List.mem_flatMap, Operation.mem_passed]

theorem readable (h : Holds failOnWarnings ops r) : r.readable = .ok () := by
  have hnamed : ∀ f ∈ r.errors, ∃ check, f.check = .ok check := by
    intro f hf
    have hmem := List.mem_map_of_mem (f := Finding.check) hf
    rw [h.map_check_errors] at hmem
    obtain ⟨check, -, hcheck⟩ := List.mem_map.mp hmem
    exact ⟨_, hcheck.symm⟩
  rw [Report.readable, forM_check_eq_ok hnamed, h.hardViolations]
  rfl

/-- Operations that comprise others lead at least to their exit code. -/
theorem exitCode_le (h : Holds failOnWarnings ops r) (hlater : Holds failOnWarnings more later)
    (hsub : ops ⊆ more) : r.exitCode ≤ later.exitCode := by
  have hflat {α : Type} (f : Operation → List α) : ops.flatMap f ⊆ more.flatMap f := by
    intro x hx
    obtain ⟨op, hop, hxop⟩ := List.mem_flatMap.mp hx
    exact List.mem_flatMap.mpr ⟨op, hsub hop, hxop⟩
  apply exitCode_le_of_subset
  · rw [h.errors, hlater.errors]
    exact hflat _
  · rw [h.warnings, hlater.warnings]
    exact hflat _
  · rw [hardViolations_eq h.hardViolations, hardViolations_eq hlater.hardViolations]
    exact hflat _
  · rw [h.infeasible, hlater.infeasible, List.any_eq_true, List.any_eq_true]
    rintro ⟨op, hop, hinfeasible⟩
    exact ⟨op, hsub hop, hinfeasible⟩
  · rw [h.failOnWarnings, hlater.failOnWarnings]

end Holds

/-- What holds of a report after operations. -/
structure Consistent (start : Report) (ops : List Operation) : Prop where
  holds : Holds start.failOnWarnings ops (start.after ops)
  /-- Any operation can follow, and the exit code can be told. -/
  returns : ∀ op : Operation, (op.run (start.after ops)).2 = none
  readable : (start.after ops).readable = .ok ()
  failed : ∀ check, (start.after ops).checks.lookup check = some false ↔
    ∃ f ∈ (start.after ops).errors, f.check = .ok (.str check)
  passed : ∀ check, (start.after ops).checks.lookup check = some true ↔
    .pass check ∈ ops ∧ ¬∃ f ∈ (start.after ops).errors, f.check = .ok (.str check)
  grows : ∀ more, (start.after ops).exitCode ≤ (start.after (ops ++ more)).exitCode
  unordered : ∀ others : List Operation, others.Perm ops →
    (start.after others).exitCode = (start.after ops).exitCode
  valid : (start.after ops).valid = true ↔
    (start.after ops).errors = [] ∧ (start.after ops).hardViolations = [] ∧
      (start.after ops).infeasible = false ∧
      (start.failOnWarnings = true → (start.after ops).warnings = [])

theorem consistent_after (subject : String) (failOnWarnings : Bool) (ops : List Operation) :
    Consistent { subject, failOnWarnings } ops := by
  have hholds := holds_after subject failOnWarnings
  have h := hholds ops
  refine ⟨h, run_returns _, h.readable, fun check => ?_, fun check => ?_, fun more => ?_,
    fun others hperm => ?_, ?_⟩
  · rw [h.checks, ← h.mem_failed]
    split
    · simp [*]
    · split <;> simp [*]
  · rw [h.checks, ← h.mem_failed, ← Holds.mem_passed]
    split
    · simp [*]
    · split <;> simp [*]
  · exact h.exitCode_le (hholds _) (List.subset_append_left ops more)
  · exact Nat.le_antisymm ((hholds others).exitCode_le h hperm.subset)
      (h.exitCode_le (hholds others) hperm.symm.subset)
  · rw [Report.valid, beq_iff_eq, exitCode_eq_zero_iff, h.failOnWarnings]

example : (({} : Report).after
    [.pass "Layout", .error { check := "Layout", message := "" }, .pass "Layout"]).checks =
      [("Layout", false)] := by decide

end LeagueAudit.Report
