import LeagueAudit.Proofs.Evaluation.Ending
import LeagueAudit.Rule.Default

/-!
The default rules count what they list. So a hard constraint with one of them is violated only when
there is a violation to show.
-/
namespace LeagueAudit

/-- An outcome counts its violations: either it names no count, or that of its list. -/
def Outcome.Lists (o : Outcome) : Prop := ∀ n ∈ o.count, n = o.violations.length

/-- Whatever a rule hands back is an outcome that counts its violations. -/
def Rule.Lists (rule : Rule) : Prop :=
  ∀ ctx returned, (rule.run ctx).result = .ok returned →
    ∃ o : Outcome, returned = .outcome o ∧ o.Lists

namespace Rule

theorem exists_outcome_of_silent {x : Except Fault Outcome} {returned : Returned}
    (h : (RuleRun.silent x).result = .ok returned) (hx : ∀ o, x = .ok o → o.Lists) :
    ∃ o : Outcome, returned = .outcome o ∧ o.Lists := by
  obtain ⟨o, ho, rfl⟩ := map_eq_ok.mp h
  exact ⟨o, rfl, hx o ho⟩

theorem lists_noOverlapTeam : noOverlapTeam.Lists := by
  intro ctx returned h
  refine exists_outcome_of_silent h fun o ho => ?_
  obtain ⟨violations, -, ho⟩ := bind_eq_ok.mp ho
  cases Except.ok.inj ho
  simp [Outcome.Lists]

theorem lists_noOverlapVenueResource : noOverlapVenueResource.Lists := by
  intro ctx returned h
  refine exists_outcome_of_silent h fun o ho => ?_
  cases Except.ok.inj ho
  simp [Outcome.Lists]

theorem lists_minRestTime : minRestTime.Lists := by
  intro ctx returned h
  refine exists_outcome_of_silent h fun o ho => ?_
  obtain ⟨minHours, -, ho⟩ := bind_eq_ok.mp ho
  split at ho
  · cases Except.ok.inj ho
    simp [Outcome.Lists]
  · obtain ⟨violations, -, ho⟩ := bind_eq_ok.mp ho
    cases Except.ok.inj ho
    simp [Outcome.Lists]

theorem lists_lockedVenue : lockedVenue.Lists := by
  intro ctx returned h
  refine exists_outcome_of_silent h fun o ho => ?_
  cases Except.ok.inj ho
  simp [Outcome.Lists]

theorem lists_blackoutDates : blackoutDates.Lists := by
  intro ctx returned h
  unfold blackoutDates at h
  dsimp only at h
  split at h
  · cases h
  · obtain ⟨windows, -, rfl⟩ := map_eq_ok.mp h
    refine ⟨_, rfl, ?_⟩
    unfold blackoutOutcome
    split <;> simp [Outcome.Lists]

theorem lists_maxGamesInWindow : maxGamesInWindow.Lists := by
  intro ctx returned h
  refine exists_outcome_of_silent h fun o ho => ?_
  obtain ⟨given, -, ho⟩ := bind_eq_ok.mp ho
  obtain ⟨limit, -, ho⟩ := bind_eq_ok.mp ho
  obtain ⟨windowDays, -, ho⟩ := bind_eq_ok.mp ho
  split at ho
  · cases Except.ok.inj ho
    simp [Outcome.Lists]
  · obtain ⟨violations, -, ho⟩ := bind_eq_ok.mp ho
    cases Except.ok.inj ho
    simp [Outcome.Lists]

theorem lists_homeAwayBalance : homeAwayBalance.Lists := by
  intro ctx returned h
  refine exists_outcome_of_silent h fun o ho => ?_
  obtain ⟨maxDelta, -, ho⟩ := bind_eq_ok.mp ho
  obtain ⟨sides, -, ho⟩ := bind_eq_ok.mp ho
  cases Except.ok.inj ho
  simp [Outcome.Lists, balanceOutcome]

theorem lists_opponentSpacing : opponentSpacing.Lists := by
  intro ctx returned h
  refine exists_outcome_of_silent h fun o ho => ?_
  obtain ⟨minDays, -, ho⟩ := bind_eq_ok.mp ho
  split at ho
  · cases Except.ok.inj ho
    simp [Outcome.Lists]
  · obtain ⟨gaps, -, ho⟩ := bind_eq_ok.mp ho
    cases Except.ok.inj ho
    simp [Outcome.Lists, spacingOutcome]

theorem lists_broadcastWindow : broadcastWindow.Lists := by
  intro ctx returned h
  refine exists_outcome_of_silent h fun o ho => ?_
  obtain ⟨items, -, ho⟩ := bind_eq_ok.mp ho
  split at ho
  · cases Except.ok.inj ho
    simp [Outcome.Lists]
  · obtain ⟨slots, -, ho⟩ := bind_eq_ok.mp ho
    obtain ⟨violations, -, ho⟩ := bind_eq_ok.mp ho
    cases Except.ok.inj ho
    simp [Outcome.Lists, slotOutcome]

end Rule

namespace Catalog

theorem lists_of_mem_defaultRules {rule : Rule} (h : rule ∈ defaultRules) : rule.Lists := by
  simp only [defaultRules, List.mem_cons, List.not_mem_nil, or_false] at h
  rcases h with rfl | rfl | rfl | rfl | rfl | rfl | rfl | rfl | rfl
  · exact Rule.lists_noOverlapTeam
  · exact Rule.lists_noOverlapVenueResource
  · exact Rule.lists_minRestTime
  · exact Rule.lists_lockedVenue
  · exact Rule.lists_blackoutDates
  · exact Rule.lists_maxGamesInWindow
  · exact Rule.lists_homeAwayBalance
  · exact Rule.lists_opponentSpacing
  · exact Rule.lists_broadcastWindow

theorem mem_defaultRules_of_get? {name : String} {rule : Rule}
    (h : Catalog.default.get? name = some rule) : rule ∈ defaultRules := by
  unfold get? at h
  split at h
  · cases h
  · obtain ⟨before, after, hsplit, -⟩ := List.lookup_eq_some_iff.mp h
    have hmem : ((Catalog.default.aliases.lookup name).getD name, rule) ∈
        Catalog.default.rules := by
      rw [hsplit]
      exact List.mem_append_right _ List.mem_cons_self
    obtain ⟨other, hother, hpair⟩ := List.mem_map.mp hmem
    exact (Prod.mk.inj hpair).2 ▸ hother

end Catalog

/-- A violation of a default rule has something to show. -/
theorem Engine.violations_ne_nil_of_violated {engine : Engine} {index : Index} {doc : Json}
    {ev : Evaluation} (hcatalog : engine.catalog = .default)
    (h : Engine.Settles engine index doc ev) (hviolated : ev.status = .violated) :
    ev.violations ≠ [] := by
  obtain ⟨c, ruleId, rule, scope, model, returned, warnings, -, hs, hrun, habsorb⟩ :=
    h.of_checked (by simp [Evaluation.checked, hviolated])
  obtain ⟨r, amount, penalty, hr, rfl⟩ := absorb_eq_ok habsorb
  have hlists := Catalog.lists_of_mem_defaultRules
    (Catalog.mem_defaultRules_of_get? (hcatalog ▸ hs.found))
  obtain ⟨o, rfl, ho⟩ := hlists _ _ hrun
  cases Except.ok.inj hr
  intro hnone
  dsimp only at hnone hviolated
  have hcount : o.count.getD o.violations.length = 0 := by
    cases hc : o.count with
    | none => simp [hnone]
    | some n => simp [ho n hc, hnone]
  simp [hnone] at hviolated
  simp [hnone] at hcount
  omega

end LeagueAudit
