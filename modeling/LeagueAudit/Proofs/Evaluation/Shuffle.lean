import LeagueAudit.Proofs.Evaluation.Ending
import LeagueAudit.Proofs.Rule.Shuffle
import LeagueAudit.Proofs.Selector.Shuffle

/-!
Evaluations of constraints on schedules that list their assignments in different orders. Everything
that is read off the constraint itself is the same, its scopes are shuffled again, and so its rule
comes to the same, or fails in both schedules.
-/
namespace LeagueAudit

/-- Evaluations that come to the same, but for the order of violations and for what is told of a
rule that failed. -/
structure Evaluation.Alike (ev ev' : Evaluation) : Prop where
  constraint : ev.constraint = ev'.constraint
  status : ev.status = ev'.status
  violations : ev.violations.Perm ev'.violations
  amount : ev.amount = ev'.amount
  count : ev.count = ev'.count
  penalty : ev.penalty = ev'.penalty
  timed : ev.timed = ev'.timed
  warnings : ev.status ≠ .failed → ev.warnings = ev'.warnings

theorem Evaluation.Alike.refl (ev : Evaluation) : ev.Alike ev :=
  ⟨rfl, rfl, .refl _, rfl, rfl, rfl, rfl, fun _ => rfl⟩

theorem Evaluation.alike_faulty (c : Constraint) (warnings warnings' : List Entry)
    (t t' : Trouble) : (faulty c warnings t).Alike (faulty c warnings' t') :=
  ⟨rfl, rfl, .refl _, rfl, rfl, rfl, rfl, fun h => absurd rfl h⟩

namespace Engine

open Evaluation

/-- A constraint ends with a fault, or with a rule that failed. -/
def Fails (c : Constraint) (x : Except Fault Evaluation) : Prop :=
  (∃ f, x = .error f) ∨ ∃ warnings t, x = .ok (faulty c warnings t)

/-- Two ways of evaluating a constraint fail, or come to the same. -/
def Matched (c : Constraint) (x x' : Except Fault Evaluation) : Prop :=
  (∃ ev ev', x = .ok ev ∧ x' = .ok ev' ∧ ev.Alike ev') ∨ Fails c x ∧ Fails c x'

theorem matched_of_agree {c : Constraint} {x x' : Except Fault Evaluation}
    (h : Agree Evaluation.Alike x x') : Matched c x x' := by
  cases h with
  | ok h => exact .inl ⟨_, _, rfl, rfl, h⟩
  | error e f => exact .inr ⟨.inl ⟨e, rfl⟩, .inl ⟨f, rfl⟩⟩

theorem matched_self (c : Constraint) (ev : Evaluation) : Matched c (.ok ev) (.ok ev) :=
  matched_of_agree (.ok (.refl ev))

theorem matched_bind {c : Constraint} {α β : Type} {R : α → β → Prop} {x : Except Fault α}
    {y : Except Fault β} {f : α → Except Fault Evaluation} {g : β → Except Fault Evaluation}
    (h : Agree R x y) (hfg : ∀ a b, x = .ok a → y = .ok b → R a b → Matched c (f a) (g b)) :
    Matched c (x >>= f) (y >>= g) := by
  cases h with
  | ok h => exact hfg _ _ rfl rfl h
  | error e f => exact matched_of_agree (.error e f)

/-- The sums of what gaps lack come out exact in all scopes of the constraints. -/
def AddsExactly (engine : Engine) (sum : List Float → Float) (index : Index) (docs : List Json) :
    Prop :=
  ∀ doc ∈ docs, ∀ c ruleId rule scope, Constraint.read doc = .ok c →
    engine.Scopes c index ruleId rule scope → rule.id = "opponent_spacing" →
    Rule.AddsExactly sum ⟨if c.params.isObject then c.params else .obj [], scope⟩

variable {engine : Engine} {c : Constraint} {index index' scope scope' : Index} {doc : Json}
  {docs : List Json}

theorem agree_absorb {rule : Rule} {model : Option PenaltyModel} {warnings : List Entry}
    {o o' : Outcome} (hscope : scope.Shuffled scope') (h : o.Reordered o') :
    Agree Evaluation.Alike (absorb c rule model warnings scope (.outcome o))
      (absorb c rule model warnings scope' (.outcome o')) := by
  obtain ⟨violations, amount, count, explanation⟩ := o
  obtain ⟨violations', amount', count', explanation'⟩ := o'
  obtain ⟨hviolations, rfl, rfl, rfl⟩ := h
  dsimp only at hviolations
  unfold absorb Reading.ofReturned
  simp only [bind, Except.bind, hscope.fixtures, hviolations.length_eq, hviolations.isEmpty_eq]
  cases model with
  | none => exact .ok ⟨rfl, rfl, hviolations, rfl, rfl, rfl, rfl, fun _ => rfl⟩
  | some model =>
    unfold Reading.amountFor Reading.priceFor
    dsimp only
    split
    · exact .error _ _
    · exact .ok ⟨rfl, rfl, hviolations, rfl, rfl, rfl, rfl, fun _ => rfl⟩

theorem fails_runRule {ruleId : String} {rule : Rule} {model : Option PenaltyModel}
    {warnings : List Entry} {f : Fault} (h : (runOf c rule scope).result = .error f) :
    Fails c (runRule c ruleId rule model warnings scope) := by
  unfold runOf at h
  unfold runRule
  dsimp only
  rw [h]
  split
  · next heq => cases heq
  · exact .inl ⟨_, rfl⟩
  · exact .inr ⟨_, _, rfl⟩

theorem matched_runRule {ruleId : String} {rule : Rule} {model : Option PenaltyModel}
    {warnings : List Entry} (hscope : scope.Shuffled scope')
    (hrun : (runOf c rule scope).Alike (runOf c rule scope')) :
    Matched c (runRule c ruleId rule model warnings scope)
      (runRule c ruleId rule model warnings scope') := by
  obtain ⟨hwarnings, hresult⟩ := hrun
  generalize hx : (runOf c rule scope).result = x at hresult
  generalize hx' : (runOf c rule scope').result = x' at hresult
  cases hresult with
  | error e f => exact .inr ⟨fails_runRule hx, fails_runRule hx'⟩
  | ok h =>
    cases h with
    | outcome h =>
      unfold runOf at hx hx' hwarnings
      unfold runRule
      dsimp only
      rw [hx, hx', hwarnings]
      exact matched_of_agree (agree_absorb hscope h)

/-- A constraint fails in both schedules, or comes to the same. -/
theorem matched_evaluateRead {sum : List Float → Float} (hcatalog : engine.catalog = .summing sum)
    (h : index.Shuffled index')
    (hsum : ∀ ruleId rule scope, engine.Scopes c index ruleId rule scope →
      rule.id = "opponent_spacing" →
      Rule.AddsExactly sum ⟨if c.params.isObject then c.params else .obj [], scope⟩)
    (hsum' : ∀ ruleId rule scope, engine.Scopes c index' ruleId rule scope →
      rule.id = "opponent_spacing" →
      Rule.AddsExactly sum ⟨if c.params.isObject then c.params else .obj [], scope⟩) :
    Matched c (engine.evaluateRead c index) (engine.evaluateRead c index') := by
  -- Nothing but the scope depends on the schedule, so both evaluations take the same branches.
  unfold evaluateRead
  split
  · exact matched_self _ _
  · next ruleId hid =>
    dsimp only
    refine matched_bind (agree_self _) ?_
    rintro problems _ - - rfl
    split
    · exact matched_self _ _
    · split
      · exact matched_self _ _
      · next rule hfound =>
        split
        · exact matched_self _ _
        · next selector hselector =>
          refine matched_bind (h.scope selector) fun scope scope' hscope hscope' hshuffled => ?_
          split
          · exact matched_self _ _
          · have hs : engine.Scopes c index ruleId rule scope :=
              ⟨hid, hfound, selector, hselector, hscope⟩
            have hs' : engine.Scopes c index' ruleId rule scope' :=
              ⟨hid, hfound, selector, hselector, hscope'⟩
            exact matched_runRule hshuffled (Catalog.alike_of_get? (hcatalog ▸ hfound) hshuffled
              (hsum ruleId rule scope hs) (hsum' ruleId rule scope' hs'))

theorem evaluateAmong_of_evaluate {ev : Evaluation} (h : engine.evaluate index doc = .ok ev) :
    engine.evaluateAmong index docs doc = .ok ev := by
  unfold evaluateAmong
  rw [h]

/-- Whoever waits for a rule that fails learns that it failed. -/
theorem exists_faulty_of_fails (hread : Constraint.read doc = .ok c)
    (h : Fails c (engine.evaluate index doc)) {ev : Evaluation}
    (hev : engine.evaluateAmong index docs doc = .ok ev) :
    ∃ warnings t, ev = faulty c warnings t := by
  unfold evaluateAmong at hev
  split at hev
  · rw [← Except.ok.inj hev]
    unfold timedOut
    rw [hread]
    exact ⟨_, _, rfl⟩
  · rcases h with ⟨f, hf⟩ | ⟨warnings, t, hfaulty⟩
    · cases hf.symm.trans hev
    · exact ⟨warnings, t, Except.ok.inj (hev.symm.trans hfaulty)⟩

theorem alike_of_evaluateAll {sum : List Float → Float} (hcatalog : engine.catalog = .summing sum)
    (h : index.Shuffled index') (hsum : engine.AddsExactly sum index docs)
    (hsum' : engine.AddsExactly sum index' docs) {evs evs' : List Evaluation}
    (hevs : engine.evaluateAll index docs = .ok evs)
    (hevs' : engine.evaluateAll index' docs = .ok evs') :
    List.Forall₂ Evaluation.Alike evs evs' := by
  refine forall₂_of_mapM_eq_ok hevs hevs' fun doc hdoc ev ev' hev hev' => ?_
  cases hread : Constraint.read doc with
  | error m =>
    unfold evaluateAmong evaluate at hev hev'
    rw [hread] at hev hev'
    cases Except.ok.inj hev
    cases Except.ok.inj hev'
    exact .refl _
  | ok c =>
    have hmatched : Matched c (engine.evaluate index doc) (engine.evaluate index' doc) := by
      unfold evaluate
      rw [hread]
      exact matched_evaluateRead hcatalog h
        (fun ruleId rule scope => hsum doc hdoc c ruleId rule scope hread)
        (fun ruleId rule scope => hsum' doc hdoc c ruleId rule scope hread)
    rcases hmatched with ⟨found, found', hfound, hfound', halike⟩ | ⟨hfails, hfails'⟩
    · cases (evaluateAmong_of_evaluate hfound).symm.trans hev
      cases (evaluateAmong_of_evaluate hfound').symm.trans hev'
      exact halike
    · obtain ⟨warnings, t, rfl⟩ := exists_faulty_of_fails hread hfails hev
      obtain ⟨warnings', t', rfl⟩ := exists_faulty_of_fails hread hfails' hev'
      exact alike_faulty c _ _ _ _

end Engine
end LeagueAudit
