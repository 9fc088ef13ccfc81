import LeagueAudit.Proofs.Evaluation.Ending
import LeagueAudit.Proofs.Number.Positive
import LeagueAudit.Proofs.Rule.Broadcast
import LeagueAudit.Proofs.Rule.Measured

/-!
Soft constraints that are met. What the rules of the default catalog list, count and measure agrees
on whether a soft constraint is met, and one that is met is free under every penalty model.
-/
namespace LeagueAudit

open Exact

/-- The numbers of an evaluation agree on whether its constraint is met, which is then free. -/
structure Evaluation.FreeIfMet (ev : Evaluation) : Prop where
  listed : ev.count = ev.violations.length
  counted : ev.status = .ok ↔ ev.count = 0
  measured : ev.count = 0 ↔ (ev.amount == 0.0) = true
  free : ev.status = .ok → ev.penalty = 0.0

theorem PenaltyModel.priceOf_zero (model : PenaltyModel) : model.priceOf 0.0 = 0.0 := by
  have hnone : ((0.0 : Float).isFinite && decide ((0.0 : Float) > 0.0)) = false := by decide +kernel
  rw [priceOf, hnone]
  rfl

namespace Engine

open Evaluation

/-- What the outcome of a rule leads to when it is priced. -/
theorem absorb_priced_eq_ok {c : Constraint} {rule : Rule} {model : PenaltyModel}
    {warnings : List Entry} {scope : Index} {returned : Returned} {ev : Evaluation}
    (h : absorb c rule (some model) warnings scope returned = .ok ev) :
    ∃ r, Reading.ofReturned returned = .ok r ∧ r.amountFor rule.kind = .ok ev.amount ∧
      r.priceFor model ev.amount = .ok ev.penalty ∧ ev.violations = r.violations ∧
      ev.count = r.count ∧
      ev.status = if r.violations.isEmpty && r.count = 0 then .ok else .violated := by
  obtain ⟨r, hr, h⟩ := bind_eq_ok.mp h
  obtain ⟨amount, hamount, h⟩ := bind_eq_ok.mp h
  obtain ⟨penalty, hpenalty, h⟩ := bind_eq_ok.mp h
  cases Except.ok.inj h
  exact ⟨r, hr, hamount, hpenalty, rfl, rfl, rfl⟩

/-- Soft constraints are priced. -/
theorem exists_model_of_soft {c : Constraint} {warnings : List Entry} {model : Option PenaltyModel}
    (h : modelOf c warnings = .ok model) (hsoft : c.soft = true) : ∃ m, model = some m := by
  unfold modelOf at h
  rw [hsoft] at h
  split at h
  · next hhard => cases hhard
  · split at h
    · cases h
    · split at h
      · exact ⟨_, (Except.ok.inj h).symm⟩
      · cases h

/-- What is read off an outcome that counts what it lists. -/
theorem reading_of_outcome {o : Outcome} {r : Reading}
    (hr : Reading.ofReturned (.outcome o) = .ok r) (hlists : o.Lists) :
    r.violations = o.violations ∧ r.count = o.violations.length ∧ r.amount = .float o.amount ∧
      r.price = none := by
  cases Except.ok.inj hr
  refine ⟨rfl, ?_, rfl, rfl⟩
  cases hcount : o.count with
  | none => simp
  | some n => simp [hlists n hcount]

/-- The amount of an outcome is zero if nothing is listed, and more than zero otherwise: what a soft
rule measures is, and so is the number of violations of any other rule. -/
theorem amount_of_outcome {o : Outcome} {r : Reading} {kind : RuleKind} {amount : Float}
    (hr : Reading.ofReturned (.outcome o) = .ok r) (hlists : o.Lists)
    (hmeasures : kind = .soft → o.Measures) (hamount : r.amountFor kind = .ok amount) :
    (o.violations = [] → amount = 0.0) ∧ (o.violations ≠ [] → 0.0 < amount) := by
  obtain ⟨-, hcount, hmeasured, -⟩ := reading_of_outcome hr hlists
  unfold Reading.amountFor at hamount
  split at hamount
  · next hkind =>
    rw [hmeasured] at hamount
    cases Except.ok.inj hamount
    exact ⟨(hmeasures hkind).nothing, (hmeasures hkind).something⟩
  · rw [hcount] at hamount
    constructor
    · intro hnone
      have hzero : (intToFloat 0).toOption = some 0.0 := by decide +kernel
      rw [hnone] at hamount
      change intToFloat 0 = .ok amount at hamount
      rw [hamount] at hzero
      exact Option.some.inj hzero
    · intro hsome
      exact zero_lt_of_intToFloat (Int.natCast_pos.mpr (List.length_pos_iff.mpr hsome)) hamount

/-- What a priced outcome leads to. -/
theorem freeIfMet_of_absorb {c : Constraint} {rule : Rule} {model : PenaltyModel}
    {warnings : List Entry} {scope : Index} {o : Outcome} {ev : Evaluation} (hlists : o.Lists)
    (hmeasures : rule.kind = .soft → o.Measures)
    (h : absorb c rule (some model) warnings scope (.outcome o) = .ok ev) : ev.FreeIfMet := by
  obtain ⟨r, hr, hamount, hpenalty, hviolations, hcount, hstatus⟩ := absorb_priced_eq_ok h
  obtain ⟨hlisted, hlength, -, hprice⟩ := reading_of_outcome hr hlists
  obtain ⟨hnothing, hsomething⟩ := amount_of_outcome hr hlists hmeasures hamount
  rw [hlisted] at hviolations
  rw [hlength] at hcount
  have hmet : ev.status = .ok ↔ o.violations = [] := by
    rw [hstatus, hlisted, hlength]
    cases o.violations <;> simp
  have hnone : ev.count = 0 ↔ o.violations = [] := by
    rw [hcount, Int.natCast_eq_zero, List.length_eq_zero_iff]
  refine ⟨?_, hmet.trans hnone.symm, ?_, fun hok => ?_⟩
  · rw [hcount, hviolations]
  · rw [hnone]
    constructor
    · intro h
      rw [hnothing h]
      decide +kernel
    · intro hzero
      by_contra hsome
      rw [ne_zero_of_zero_lt (hsomething hsome)] at hzero
      cases hzero
  · rw [Reading.priceFor, hprice, hnothing (hmet.mp hok), PenaltyModel.priceOf_zero] at hpenalty
    exact (Except.ok.inj hpenalty).symm

/-- A soft constraint with a rule of the default catalog is met exactly when nothing is counted, and
when nothing is measured, and costs nothing then. -/
theorem freeIfMet_of_checked {engine : Engine} {index : Index} {doc : Json} {ev : Evaluation}
    (hcatalog : engine.catalog = .default) (hindex : index.Derived)
    (h : engine.evaluate index doc = .ok ev) (hchecked : ev.checked = true)
    (hsoft : ev.constraint.soft = true) : ev.FreeIfMet := by
  cases evaluate_eq_ok h with
  | malformed => simp [checked, Engine.malformed, rejected] at hchecked
  | timedOut => simp [checked, Engine.timedOut, faulty] at hchecked
  | read hread hends =>
    obtain ⟨ruleId, rule, scope, model, returned, hs, hmodel, hrun, habsorb⟩ :=
      hends.ran_of_checked hchecked
    obtain ⟨selector, -, hscope⟩ := hs.selected
    have hdefault := Catalog.mem_defaultRules_of_get? (hcatalog ▸ hs.found)
    obtain ⟨o, rfl, hlists⟩ := Catalog.lists_of_mem_defaultRules hdefault _ _ hrun
    have hmeasures : rule.kind = .soft → o.Measures := by
      intro hkind
      obtain ⟨o', heq, hmeasures⟩ :=
        Rule.measures_of_mem_defaultRules (hindex.scope hscope) hdefault hkind _ _ hrun
      cases heq
      exact hmeasures
    obtain ⟨r, amount, penalty, -, hev⟩ := absorb_eq_ok habsorb
    rw [hev] at hsoft
    obtain ⟨m, rfl⟩ := exists_model_of_soft hmodel hsoft
    exact freeIfMet_of_absorb hlists hmeasures habsorb

/-- Games on Saturday morning until a time of day, at a charge for each violation on top. -/
def saturdayUntil (finish : String) : Json :=
  .obj [("type", .str "soft"), ("ruleId", .str "broadcast_window"),
    ("params", Rule.slotParams [Rule.slotJson "Saturday" "09:00" finish]),
    ("penalty", .obj [("model", .str "linear"), ("weight", .int 1), ("perViolation", .int 5)])]

/-- Games at ten o'clock and a minute later are free in a window that holds both, and cost six
points in one that ends between them. -/
theorem freeIfMet_saturdayUntil :
    ∃ index met missed,
      Index.build (.whole 90) "UTC" Rule.saturdayLeague Rule.saturdayGames = .ok index ∧
      Engine.evaluate { catalog := .default } index (saturdayUntil "10:01") = .ok met ∧
      Engine.evaluate { catalog := .default } index (saturdayUntil "10:00") = .ok missed ∧
      met.FreeIfMet ∧ met.penalty = 0.0 ∧ missed.FreeIfMet ∧ missed.penalty = 6.0 := by
  obtain ⟨index, hindex, hview⟩ := exists_ok_of_toOption_map
    (x := Index.build (.whole 90) "UTC" Rule.saturdayLeague Rule.saturdayGames)
    (f := fun index => ["10:01", "10:00"].map fun finish =>
      (Engine.evaluate { catalog := .default } index (saturdayUntil finish)).toOption.map fun ev =>
        (ev.status, ev.constraint.soft, ev.penalty))
    (b := [some (.ok, true, 0.0), some (.violated, true, 6.0)]) (by decide +kernel)
  obtain ⟨hmet, hrest⟩ := List.cons.inj hview
  obtain ⟨met, hmet, hfree⟩ := exists_ok_of_toOption_map hmet
  obtain ⟨missed, hmissed, hcharged⟩ := exists_ok_of_toOption_map (List.cons.inj hrest).1
  simp only [Prod.mk.injEq] at hfree hcharged
  obtain ⟨hok, hsoft, -⟩ := hfree
  obtain ⟨hviolated, hsoft', hsix⟩ := hcharged
  have h := freeIfMet_of_checked rfl (.built hindex) hmet (by rw [checked, hok]; rfl) hsoft
  have h' :=
    freeIfMet_of_checked rfl (.built hindex) hmissed (by rw [checked, hviolated]; rfl) hsoft'
  exact ⟨index, met, missed, hindex, hmet, hmissed, h, h.free hok, h', hsix⟩

end Engine
end LeagueAudit
