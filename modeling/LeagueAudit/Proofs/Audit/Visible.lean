import LeagueAudit.Proofs.Audit.Causes
import LeagueAudit.Proofs.Schedule.Restrict
import LeagueAudit.Rule.Default

/-!
Rules that read times skip the assignments without them. After an audit without errors there is
nothing to skip: whatever a checked hard constraint was about had its times.
-/
namespace LeagueAudit

namespace Index

variable {default : Minutes} {fallback : String} {league result : Json} {index scope : Index}

/-- When all names are known and the starts of the fixtures in scope can be read, every assignment
in scope has its slot. -/
theorem Built.span_of_scope (b : Built default fallback league result index)
    (hunknown : ¬NamesUnknown league result) {s : Selector} (hscope : index.scope s = .ok scope)
    (hstart : ¬LacksStart index.zone result (· ∈ scope.fixtures.ids)) {a : Assignment}
    (ha : a ∈ scope.assignments) : ∃ start finish, a.span? = some (start, finish) := by
  obtain ⟨hmem, hkept⟩ := mem_of_scope hscope ha
  obtain ⟨entry, hentry, hnames, hfixture, hastart, hafinish⟩ := b.entry_of hmem
  have hdeclared : a.fixture ∈ index.fixtures.ids := by
    refine Json.isSome_lookup_iff.mp (Option.isSome_iff_ne_none.mpr fun hnone => ?_)
    have hname : declared? league a.fixture = none := (b.fixture a.fixture).symm.trans hnone
    exact hunknown ⟨entry, hentry, hnames, hfixture ▸ hname⟩
  obtain ⟨start, hread⟩ : ∃ start, a.start = some start := by
    refine Option.ne_none_iff_exists'.mp fun hnone => ?_
    exact hstart ⟨entry, hentry, hnames, hfixture ▸ hkept hdeclared, hastart.symm.trans hnone⟩
  obtain ⟨finish, hfinish⟩ := Option.isSome_iff_exists.mp (hafinish (by rw [hread]; rfl))
  exact ⟨start, finish, by rw [Assignment.span?, hread, hfinish]⟩

end Index

namespace Auditor

variable {auditor : Auditor} {league raw : Json} {audit : ResultAudit} {index : Index}
  {r : Reconciliation} {ev : Evaluation}

/-- After an audit without errors, every assignment in the scope of a checked hard constraint has a
start and an end if the rule of the constraint reads times. -/
theorem timed_of_errors_eq_nil (haudit : auditor.auditResult league raw = .ok audit)
    (hindex : audit.index = some index) (hr : audit.reconciliation = some r)
    (hclean : audit.report.errors = []) (hev : ev ∈ r.evaluations)
    (hhard : ev.constraint.soft = false) (hstatus : ev.status = .ok ∨ ev.status = .violated) :
    ∃ ruleId rule scope, auditor.engine.Scopes ev.constraint index ruleId rule scope ∧
      (rule.usesTime = true →
        ∀ a ∈ scope.assignments, ∃ start finish, a.span? = some (start, finish)) := by
  rcases auditResult_eq_ok haudit with ⟨_, _, -, -, hnone⟩ | ⟨_, _, -, index', r', h⟩
  · rw [hr] at hnone
    cases hnone
  cases hindex.symm.trans h.holdsIndex
  cases hr.symm.trans h.holdsReconciliation
  obtain ⟨-, -, hunknown, hstart⟩ := h.errors_eq_nil_iff.mp hclean
  have hchecked : ev.checked = true := by
    rcases hstatus with hstatus | hstatus <;> simp [Evaluation.checked, hstatus]
  obtain ⟨doc, -, hdoc⟩ := exists_source_of_mapM_eq_ok h.reconciles.1 hev
  obtain ⟨c, ruleId, rule, scope, model, returned, warnings, -, hs, -, habsorb⟩ :=
    (Engine.evaluateAmong_eq_ok hdoc).of_checked hchecked
  obtain ⟨o, amount, penalty, -, rfl⟩ := Engine.absorb_eq_ok habsorb
  refine ⟨ruleId, rule, scope, hs, fun htimes a ha => ?_⟩
  obtain ⟨selector, -, hscope⟩ := hs.selected
  refine (Index.build_eq_ok h.built).span_of_scope hunknown hscope ?_ ha
  rintro ⟨entry, hentry, hnames, hid, hnone⟩
  -- The fixture is one whose times the rule reads, so its start would have been an error.
  exact hstart ⟨entry, hentry, hnames, ⟨_, hev, hchecked, hhard, ruleId, rule, scope, hs, htimes,
    hid⟩, hnone⟩

/-- Two games, of which only the one of the first team is about a hard constraint. -/
def firstTeamOnly : Json :=
  .obj [("teams", .arr (["A", "B", "C", "D"].map fun team => .obj [("id", .str team)])),
    ("fixtures", .arr ([("F", "A", "B"), ("G", "C", "D")].map fun (fixture, home, away) =>
      .obj [("id", .str fixture), ("participants", .arr [.str home, .str away])])),
    ("constraints", .arr [.obj [("type", .str "hard"), ("ruleId", .str "no_overlap_team"),
      ("selector", .obj [("entityType", .str "team"), ("ids", .arr [.str "A"])])]])]

/-- A result that gives no time to the other game. -/
def otherGameUntimed : Json :=
  .obj [("feasible", .bool true), ("assignments", .arr [
    .obj [("fixtureId", .str "F"), ("startTime", .str "2025-03-01T10:00:00Z")],
    .obj [("fixtureId", .str "G"), ("startTime", .str "soon")]])]

theorem timed_of_errors_eq_nil_firstTeamOnly :
    ∃ audit index r ev ruleId rule scope,
      ({} : Auditor).auditResult firstTeamOnly otherGameUntimed = .ok audit ∧
        audit.index = some index ∧ audit.reconciliation = some r ∧ audit.report.errors = [] ∧
        r.evaluations = [ev] ∧ ev.constraint.soft = false ∧ ev.status = .ok ∧
        ({} : Auditor).engine.Scopes ev.constraint index ruleId rule scope ∧
        (rule.usesTime = true →
          ∀ a ∈ scope.assignments, ∃ start finish, a.span? = some (start, finish)) := by
  obtain ⟨audit, haudit, hview⟩ := exists_ok_of_toOption_map
    (x := ({} : Auditor).auditResult firstTeamOnly otherGameUntimed)
    (f := fun audit => (audit.report.errors.isEmpty, audit.index.isSome,
      audit.reconciliation.map fun r =>
        r.evaluations.map fun ev => (ev.constraint.soft, ev.status)))
    (b := (true, true, some [(false, .ok)])) (by decide +kernel)
  obtain ⟨herrors, hview⟩ := Prod.mk.inj hview
  obtain ⟨hindex, hview⟩ := Prod.mk.inj hview
  obtain ⟨index, hindex⟩ := Option.isSome_iff_exists.mp hindex
  obtain ⟨r, hr, hview⟩ := Option.map_eq_some_iff.mp hview
  obtain ⟨ev, hevs, hev⟩ := List.map_eq_singleton_iff.mp hview
  obtain ⟨hhard, hok⟩ := Prod.mk.inj hev
  have hclean := List.isEmpty_iff.mp herrors
  obtain ⟨ruleId, rule, scope, hs, htimed⟩ := timed_of_errors_eq_nil haudit hindex hr hclean
    (hevs ▸ List.mem_singleton_self ev) hhard (.inl hok)
  exact ⟨audit, index, r, ev, ruleId, rule, scope, haudit, hindex, hr, hclean, hevs, hhard, hok, hs,
    htimed⟩

end Auditor
end LeagueAudit
