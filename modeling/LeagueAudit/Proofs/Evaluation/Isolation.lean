import LeagueAudit.Proofs.Evaluation.Ending
import LeagueAudit.Rule.Default
import LeagueAudit.Schedule.Build

/-!
Faults and their constraints. A rule that fails is recorded with its own constraint. A fault in the
contract of the parameters, in the scope of the selector or in what the rule hands back is recorded
nowhere: it ends the evaluation of all constraints.
-/
namespace LeagueAudit

/-- The constraint that an evaluation of a document is about. -/
def Constraint.declared (doc : Json) : Constraint :=
  match Constraint.read doc with
  | .ok c => c
  | .error _ => Constraint.malformed doc

namespace Engine

open Evaluation

/-- The rule of a constraint is run on a scope, and its outcome is to be priced by a model. -/
structure Runs (engine : Engine) (c : Constraint) (index : Index) (ruleId : String) (rule : Rule)
    (scope : Index) (model : Option PenaltyModel) : Prop where
  contract : engine.contractProblems c ruleId = .ok []
  scopes : engine.Scopes c index ruleId rule scope
  priced : modelOf c (engine.registryWarnings c ruleId) = .ok model

/-- A fault that the evaluation of a constraint meets and does not record. -/
inductive Escapes (engine : Engine) (c : Constraint) (index : Index) : Fault → Prop where
  | contract {ruleId : String} {f : Fault} (hid : c.ruleId = some ruleId)
      (hcontract : engine.contractProblems c ruleId = .error f) : Escapes engine c index f
  | scoping {ruleId : String} {rule : Rule} {selector : Selector} {f : Fault}
      (hid : c.ruleId = some ruleId) (hcontract : engine.contractProblems c ruleId = .ok [])
      (hfound : engine.catalog.get? ruleId = some rule)
      (hselector : Selector.read c.selector = .ok selector)
      (hscope : index.scope selector = .error f) : Escapes engine c index f
  | silence {ruleId : String} {rule : Rule} {scope : Index} {model : Option PenaltyModel}
      (hruns : engine.Runs c index ruleId rule scope model)
      (hrun : (runOf c rule scope).result = .error .silence) : Escapes engine c index .silence
  | outcome {ruleId : String} {rule : Rule} {scope : Index} {model : Option PenaltyModel}
      {returned : Returned} {f : Fault} (hruns : engine.Runs c index ruleId rule scope model)
      (hrun : (runOf c rule scope).result = .ok returned)
      (habsorb : absorb c rule model (engine.runWarnings c ruleId (runOf c rule scope)) scope
        returned = .error f) : Escapes engine c index f

/-- Evaluations that stand for their constraints, each for its own. -/
structure Isolated (engine : Engine) (index : Index) (docs : List Json) (evs : List Evaluation) :
    Prop where
  constraints : evs.map (·.constraint) = docs.map Constraint.declared
  /-- What stands in other places of the list makes no difference. -/
  others : ∀ (docs' : List Json) (evs' : List Evaluation), docs'.length = docs.length →
    engine.evaluateAll index docs' = .ok evs' →
    ∀ place : Nat, docs'[place]? = docs[place]? → evs'[place]? = evs[place]?
  /-- A rule that fails is told by the evaluation of its constraint. -/
  recorded : ∀ (place : Nat) doc c ruleId rule scope model f, docs[place]? = some doc →
    Constraint.read doc = .ok c → engine.Runs c index ruleId rule scope model →
    (runOf c rule scope).result = .error f → f ≠ .silence →
    evs[place]? =
      some (faulty c (engine.runWarnings c ruleId (runOf c rule scope)) (ruleTrouble c ruleId f))

variable {engine : Engine} {c : Constraint} {index : Index} {doc : Json} {docs : List Json}
  {evs : List Evaluation} {f : Fault}

theorem evaluateRead_of_runs {ruleId : String} {rule : Rule} {scope : Index}
    {model : Option PenaltyModel} (h : engine.Runs c index ruleId rule scope model) :
    engine.evaluateRead c index =
      match (runOf c rule scope).result with
      | .ok returned =>
        absorb c rule model (engine.runWarnings c ruleId (runOf c rule scope)) scope returned
      | .error .silence => .error .silence
      | .error f =>
        .ok (faulty c (engine.runWarnings c ruleId (runOf c rule scope))
          (ruleTrouble c ruleId f)) := by
  obtain ⟨hcontract, hs, hmodel⟩ := h
  obtain ⟨selector, hselector, hscope⟩ := hs.selected
  unfold evaluateRead
  simp only [hs.named, hcontract, hs.found, hselector, hscope, hmodel, bind, Except.bind]
  rfl

theorem evaluateRead_eq_error :
    engine.evaluateRead c index = .error f ↔ Escapes engine c index f := by
  constructor
  · intro h
    -- Every stage ends the evaluation, fails, or leads to the next one.
    unfold evaluateRead at h
    split at h
    · cases h
    · next ruleId hid =>
      rcases bind_eq_error.mp h with hcontract | ⟨problems, hcontract, h⟩
      · exact .contract hid hcontract
      split at h
      · cases h
      · next hnone =>
        obtain rfl : problems = [] := by simpa using hnone
        split at h
        · cases h
        · next rule hfound =>
          split at h
          · cases h
          · next selector hselector =>
            rcases bind_eq_error.mp h with hscope | ⟨scope, hscope, h⟩
            · exact .scoping hid hcontract hfound hselector hscope
            have hs : engine.Scopes c index ruleId rule scope :=
              ⟨hid, hfound, selector, hselector, hscope⟩
            split at h
            · cases h
            · next model hmodel =>
              have hruns : engine.Runs c index ruleId rule scope model := ⟨hcontract, hs, hmodel⟩
              unfold runRule at h
              dsimp only at h
              split at h
              · next returned hrun => exact .outcome hruns hrun h
              · next hrun =>
                cases h
                exact .silence hruns hrun
              · cases h
  · intro h
    cases h with
    | contract hid hcontract =>
      unfold evaluateRead
      simp only [hid, hcontract, bind, Except.bind]
    | scoping hid hcontract hfound hselector hscope =>
      unfold evaluateRead
      simp only [hid, hcontract, hfound, hselector, hscope, bind, Except.bind]
      rfl
    | silence hruns hrun => rw [evaluateRead_of_runs hruns, hrun]
    | outcome hruns hrun habsorb =>
      rw [evaluateRead_of_runs hruns, hrun]
      exact habsorb

theorem evaluate_eq_error : engine.evaluate index doc = .error f ↔
    ∃ c, Constraint.read doc = .ok c ∧ Escapes engine c index f := by
  unfold evaluate
  cases hread : Constraint.read doc with
  | ok c => simp [evaluateRead_eq_error]
  | error m =>
    -- A constraint that cannot be read has an evaluation that says so.
    simp

/-- Of what an evaluation does not record, only a silent rule is waited for and given up. -/
theorem evaluateAmong_eq_error : engine.evaluateAmong index docs doc = .error f ↔
    (∃ c, Constraint.read doc = .ok c ∧ Escapes engine c index f) ∧
      ¬(f = .silence ∧ (engine.waitsFor? docs).isSome) := by
  rw [← evaluate_eq_error]
  unfold evaluateAmong
  split
  · next hsilent hwaits =>
    simp [hsilent, hwaits, eq_comm]
  · next result hother =>
    constructor
    · intro h
      refine ⟨h, ?_⟩
      rintro ⟨rfl, hwaits⟩
      obtain ⟨seconds, hwaits⟩ := Option.isSome_iff_exists.mp hwaits
      exact hother seconds h hwaits
    · exact And.left

theorem Ends.constraint {ev : Evaluation} (h : Ends engine c index ev) : ev.constraint = c := by
  cases h with
  | withoutImplementation =>
    unfold Engine.withoutImplementation
    dsimp only
    split <;> rfl
  | withoutPrice _ hmodel =>
    obtain ⟨reason, check, message, action, rfl, -⟩ := modelOf_eq_error hmodel
    rfl
  | ran _ _ _ habsorb =>
    obtain ⟨r, amount, penalty, -, rfl⟩ := absorb_eq_ok habsorb
    rfl
  | _ => rfl

theorem constraint_of_evaluateAmong {ev : Evaluation}
    (h : engine.evaluateAmong index docs doc = .ok ev) :
    ev.constraint = Constraint.declared doc := by
  unfold evaluateAmong at h
  split at h
  · exact Except.ok.inj h ▸ rfl
  · unfold evaluate at h
    unfold Constraint.declared
    cases hread : Constraint.read doc with
    | ok c =>
      rw [hread] at h
      exact (evaluateRead_eq_ok h).constraint
    | error m =>
      rw [hread] at h
      exact Except.ok.inj h ▸ rfl

theorem isolated_of_evaluateAll (h : engine.evaluateAll index docs = .ok evs) :
    Isolated engine index docs evs where
  constraints := map_eq_of_mapM_eq_ok h fun _ _ _ hev => constraint_of_evaluateAmong hev
  others := by
    intro docs' evs' hlength h' place hsame
    -- Only the number of constraints decides whether a rule is waited for, and how long.
    have hwaits : engine.waitsFor? docs' = engine.waitsFor? docs := by
      unfold waitsFor?
      rw [hlength]
    have hamong : engine.evaluateAmong index docs' = engine.evaluateAmong index docs := by
      funext doc
      unfold evaluateAmong
      rw [hwaits]
    rw [getElem?_of_mapM_eq_ok h' place, getElem?_of_mapM_eq_ok h place, hsame, hamong]
  recorded := by
    intro place doc c ruleId rule scope model f hdoc hread hruns hrun hf
    have hev : engine.evaluate index doc =
        .ok (faulty c (engine.runWarnings c ruleId (runOf c rule scope))
          (ruleTrouble c ruleId f)) := by
      unfold evaluate
      rw [hread]
      dsimp only
      rw [evaluateRead_of_runs hruns, hrun]
      cases f with
      | silence => exact absurd rfl hf
      | _ => rfl
    have hamong : engine.evaluateAmong index docs doc = engine.evaluate index doc := by
      unfold evaluateAmong
      rw [hev]
    rw [getElem?_of_mapM_eq_ok h place, hdoc, Option.bind_some, hamong, hev]
    rfl

/-- Every constraint has its own evaluation, whatever befalls the others, exactly when no constraint
meets a fault that is not recorded, or only the silence of a rule that is given up in time. -/
theorem isolated_iff_not_escapes :
    (∃ evs, engine.evaluateAll index docs = .ok evs ∧ Isolated engine index docs evs) ↔
      ∀ doc ∈ docs, ∀ c, Constraint.read doc = .ok c → ∀ f, Escapes engine c index f →
        f = .silence ∧ (engine.waitsFor? docs).isSome := by
  -- Evaluations that there are stand for their constraints, so only faults are in question.
  have hexists : (∃ evs, engine.evaluateAll index docs = .ok evs ∧
      Isolated engine index docs evs) ↔ ∃ evs, engine.evaluateAll index docs = .ok evs :=
    exists_congr fun evs => and_iff_left_of_imp isolated_of_evaluateAll
  unfold evaluateAll at hexists
  unfold evaluateAll
  rw [hexists, exists_mapM_eq_ok]
  refine forall₂_congr fun doc _ => ?_
  simp only [ne_eq, evaluateAmong_eq_error, not_and_not_right, forall_exists_index, and_imp]
  exact ⟨fun h c hread f hf => h f c hread hf, fun h f c hread hf => h c hread f hf⟩

/-- The end of the last day is no instant. -/
theorem readBound_lastDay (z : Zone) :
    readBound z true (.str "9999-12-31") = .error .dateOutOfRange := by
  have hread : Iso.read? "9999-12-31".toList = some ⟨⟨9999, 12, 31⟩, .midnight, none⟩ := by
    decide +kernel
  have htext : boundText (.str "9999-12-31") = "9999-12-31" := by decide +kernel
  have hday : ("9999-12-31".length = 10 && !"9999-12-31".contains 'T') = true := by
    rw [String.contains_char_eq]
    decide
  unfold readBound
  simp only [htext, Bool.true_and, hday, if_true, hread]
  rfl

def untilLastDay : Selector := .leaf (.dateRange none (some "9999-12-31"))

theorem scope_untilLastDay {id : String} {doc : Json} {first : Candidate} {rest : List Candidate}
    (hmem : (id, doc) ∈ index.fixtures)
    (hseen : index.fixtureCandidates id doc = .ok (first :: rest)) (hkind : first.kind = .fixture)
    (htimed : (first.assignment.bind Assignment.span?).isSome) :
    ∃ f, index.scope untilLastDay = .error f := by
  have hmatch : Index.someMatches index.zone untilLastDay (first :: rest) =
      .error .dateOutOfRange := by
    obtain ⟨span, hspan⟩ := Option.isSome_iff_exists.mp htimed
    have hbears : (Leaf.dateRange none (some "9999-12-31")).bearsOn first.kind = true := by
      rw [hkind]
      rfl
    simp only [Index.someMatches, untilLastDay, Selector.matchesOne, Leaf.holds, hbears, if_true,
      Leaf.test, hspan, Leaf.meetsBound, readBound_lastDay, bind, Except.bind]
  cases hscope : index.scope untilLastDay with
  | error f => exact ⟨f, rfl⟩
  | ok scope =>
    obtain ⟨_, -, hscope⟩ := bind_eq_ok.mp hscope
    obtain ⟨_, -, hscope⟩ := bind_eq_ok.mp hscope
    obtain ⟨_, -, hscope⟩ := bind_eq_ok.mp hscope
    obtain ⟨_, -, hscope⟩ := bind_eq_ok.mp hscope
    obtain ⟨_, hfixtures, -⟩ := bind_eq_ok.mp hscope
    obtain ⟨_, hfixtures, -⟩ := bind_eq_ok.mp hfixtures
    obtain ⟨b, hb⟩ := (filterM_eq_ok.mp hfixtures).1 _ hmem
    obtain ⟨candidates, hcandidates, hb⟩ := bind_eq_ok.mp hb
    cases hseen.symm.trans hcandidates
    cases hmatch.symm.trans hb

def oneGame : Json :=
  .obj [("fixtures", .arr [.obj
    [("id", .str "F"), ("participants", .arr [.str "A", .str "B"])]])]

def oneSlot : Json :=
  .obj [("assignments", .arr [.obj
    [("fixtureId", .str "F"), ("startTime", .str "2025-03-01T10:00:00Z")]])]

/-- A constraint about all days until the last one that there is. -/
def restUntilLastDay : Json :=
  .obj [("id", .str "H1"), ("ruleId", .str "no_overlap_team"),
    ("selector", .obj [("dateRange", .obj [("end", .str "9999-12-31")])])]

def restAlways : Json := .obj [("id", .str "H2"), ("ruleId", .str "no_overlap_team")]

/-- A constraint can take the evaluation of another one away. -/
theorem not_isolated_restUntilLastDay :
    ∃ index, Index.build (.whole 90) "UTC" oneGame oneSlot = .ok index ∧
      (∃ ev, Engine.evaluateAll { catalog := .default } index [restAlways] = .ok [ev]) ∧
      ¬∃ evs, Engine.evaluateAll { catalog := .default } index [restUntilLastDay, restAlways] =
          .ok evs ∧
        Isolated { catalog := .default } index [restUntilLastDay, restAlways] evs := by
  obtain ⟨index, hindex, hview⟩ := exists_ok_of_toOption_map
    (x := Index.build (.whole 90) "UTC" oneGame oneSlot)
    (f := fun index =>
      ((Engine.evaluateAll { catalog := .default } index [restAlways]).toOption.map List.length,
        index.fixtures.head?.bind fun p => (index.fixtureCandidates p.1 p.2).toOption.map
          fun candidates => candidates.head?.map fun c =>
            (c.kind, (c.assignment.bind Assignment.span?).isSome)))
    (b := (some 1, some (some (.fixture, true)))) (by decide +kernel)
  obtain ⟨hone, hseen⟩ := Prod.mk.inj hview
  obtain ⟨evs, hevs, hlength⟩ := exists_ok_of_toOption_map hone
  obtain ⟨ev, rfl⟩ := List.length_eq_one_iff.mp hlength
  refine ⟨index, hindex, ⟨ev, hevs⟩, ?_⟩
  obtain ⟨⟨id, doc⟩, hhead, hseen⟩ := Option.bind_eq_some_iff.mp hseen
  obtain ⟨candidates, hcandidates, hfirst⟩ := exists_ok_of_toOption_map hseen
  obtain ⟨first, hfirst, hview⟩ := Option.map_eq_some_iff.mp hfirst
  obtain ⟨rest, rfl⟩ := List.head?_eq_some_iff.mp hfirst
  obtain ⟨hkind, htimed⟩ := Prod.mk.inj hview
  obtain ⟨f, hscope⟩ := scope_untilLastDay (List.mem_of_mem_head? hhead) hcandidates hkind htimed
  have hread : ∃ c, Constraint.read restUntilLastDay = .ok c ∧
      Escapes { catalog := .default } c index f :=
    ⟨_, rfl, .scoping rfl rfl rfl rfl hscope⟩
  rintro ⟨evs, hall, -⟩
  refine exists_mapM_eq_ok.mp ⟨evs, hall⟩ _ List.mem_cons_self f
    (evaluateAmong_eq_error.mpr ⟨hread, ?_⟩)
  rintro ⟨-, hwaits⟩
  cases hwaits

end Engine
end LeagueAudit
