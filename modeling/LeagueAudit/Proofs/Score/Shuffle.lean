import LeagueAudit.Audit.Result
import LeagueAudit.Proofs.Evaluation.Shuffle
import LeagueAudit.Proofs.Score.Ledger
import LeagueAudit.Proofs.Schedule.Build

/-!
Reconciliations of evaluations that come to the same. The reported ledger is compared with the same
numbers, so it differs in the same places, and the same violations of hard constraints are shown.
-/
namespace LeagueAudit

open Evaluation

variable {evs evs' : List Evaluation}

theorem map_eq_of_alike {β : Type} {f : Evaluation → β} (h : List.Forall₂ Alike evs evs')
    (hf : ∀ ev ev' : Evaluation, ev.Alike ev' → f ev = f ev') : evs.map f = evs'.map f :=
  map_eq_map_of_forall₂ (h.imp hf)

theorem exists_iff_of_alike {P : Evaluation → Prop} (h : List.Forall₂ Alike evs evs')
    (hP : ∀ ev ev' : Evaluation, ev.Alike ev' → (P ev ↔ P ev')) :
    (∃ ev ∈ evs, P ev) ↔ ∃ ev ∈ evs', P ev := by
  constructor
  · rintro ⟨ev, hev, hp⟩
    obtain ⟨ev', hev', halike⟩ := exists_right_of_forall₂ h hev
    exact ⟨ev', hev', (hP ev ev' halike).mp hp⟩
  · rintro ⟨ev', hev', hp⟩
    obtain ⟨ev, hev, halike⟩ := exists_right_of_forall₂ h.flip hev'
    exact ⟨ev, hev, (hP ev ev' halike).mpr hp⟩

theorem filter_alike {p : Evaluation → Bool} (h : List.Forall₂ Alike evs evs')
    (hp : ∀ ev ev' : Evaluation, ev.Alike ev' → p ev = p ev') :
    List.Forall₂ Alike (evs.filter p) (evs'.filter p) :=
  List.rel_filter (fun ev ev' halike => Bool.eq_iff_iff.mp (hp ev ev' halike)) h

theorem Evaluation.Alike.checked {ev ev' : Evaluation} (h : ev.Alike ev') :
    ev.checked = ev'.checked := by
  unfold Evaluation.checked
  rw [h.status]

namespace Reconciliation

theorem linesOf_alike (h : List.Forall₂ Alike evs evs') :
    List.Forall₂ Alike (linesOf evs) (linesOf evs') :=
  filter_alike h fun ev ev' halike => by rw [halike.constraint, halike.checked]

theorem hardViolations_perm {r r' : Reconciliation}
    (h : List.Forall₂ Alike r.evaluations r'.evaluations) :
    r.hardViolations.Perm r'.hardViolations := by
  unfold hardViolations
  have hviolated := filter_alike h (p := fun ev => !ev.constraint.soft && ev.status = .violated)
    fun ev ev' halike => by rw [halike.constraint, halike.status]
  -- The induction is on the violated constraints, side by side.
  generalize (r.evaluations.filter _) = shown at hviolated ⊢
  generalize (r'.evaluations.filter _) = shown' at hviolated ⊢
  induction hviolated with
  | nil => exact .nil
  | @cons ev ev' _ _ halike _ ih =>
    rw [List.flatMap_cons, List.flatMap_cons]
    refine List.Perm.append ?_ ih
    have hline : hardLine ev = hardLine ev' := by
      funext v
      unfold hardLine
      rw [halike.constraint]
    rw [hline]
    exact halike.violations.map _

end Reconciliation

theorem ResultAudit.timedFixtures_alike (h : List.Forall₂ Alike evs evs') :
    timedFixtures evs = timedFixtures evs' := by
  have hread := filter_alike h (p := fun ev => ev.checked && !ev.constraint.soft)
    fun ev ev' halike => by rw [halike.constraint, halike.checked]
  unfold timedFixtures
  rw [List.flatMap_def, List.flatMap_def, map_eq_of_alike hread fun ev ev' halike => by
    rw [halike.timed]]

namespace Scorekeeper

variable {k : Scorekeeper} {result result' : Json} {ledger : ReportedLedger}
  {r r' : Reconciliation}

theorem compareLine_alike {ev ev' : Evaluation} (h : ev.Alike ev') :
    k.compareLine ledger ev = k.compareLine ledger ev' := by
  unfold compareLine
  rw [h.constraint, h.penalty, h.count]

theorem mapM_compareLine_alike (h : List.Forall₂ Alike evs evs') :
    evs.mapM (k.compareLine ledger) = evs'.mapM (k.compareLine ledger) := by
  induction h with
  | nil => rfl
  | cons halike hrest ih => rw [List.mapM_cons, List.mapM_cons, compareLine_alike halike, ih]

theorem unknownLines_alike (h : List.Forall₂ Alike evs evs') :
    unknownLines ledger evs = unknownLines ledger evs' := by
  have hany : ∀ id, (evs.any fun ev => ev.constraint.label == id) =
      evs'.any fun ev => ev.constraint.label == id := by
    intro id
    rw [Bool.eq_iff_iff, List.any_eq_true, List.any_eq_true]
    exact exists_iff_of_alike h fun ev ev' halike => by rw [halike.constraint]
  unfold unknownLines
  simp only [hany]

theorem unknown_of_reconcileWith (hread : ReportedLedger.read (result.field "scores") = .ok ledger)
    (h : k.reconcileWith result evs = .ok r) : r.unknown = unknownLines ledger evs := by
  unfold reconcileWith at h
  obtain ⟨totalPenalty, -, h⟩ := bind_eq_ok.mp h
  obtain ⟨ledger', hledger, h⟩ := bind_eq_ok.mp h
  cases hread.symm.trans hledger
  obtain ⟨reported, -, h⟩ := bind_eq_ok.mp h
  obtain ⟨total, -, h⟩ := bind_eq_ok.mp h
  obtain ⟨others, -, h⟩ := bind_eq_ok.mp h
  dsimp only at h
  split at h
  · obtain ⟨document, -, h⟩ := bind_eq_ok.mp h
    obtain ⟨fixed, -, h⟩ := bind_eq_ok.mp h
    cases Except.ok.inj h
    rfl
  · obtain ⟨fixed, -, h⟩ := bind_eq_ok.mp h
    cases Except.ok.inj h
    rfl

theorem differences_alike (hscores : result.field "scores" = result'.field "scores")
    (hevs : List.Forall₂ Alike evs evs') (h : k.reconcileWith result evs = .ok r)
    (h' : k.reconcileWith result' evs' = .ok r') :
    r.differences = r'.differences ∧ r.unknown = r'.unknown := by
  obtain ⟨ledger, hr⟩ := reconcileWith_eq_ok h
  obtain ⟨ledger', hr'⟩ := reconcileWith_eq_ok h'
  have hread := hr.read
  have hreported := hr.reported
  obtain ⟨total, others, htotal, hothers, hdiff⟩ := hr.compared
  obtain ⟨total', others', htotal', hothers', hdiff'⟩ := hr'.compared
  rw [hscores] at hread hreported htotal
  cases hread.symm.trans hr'.read
  rw [Except.ok.inj (hreported.symm.trans hr'.reported)] at htotal
  rw [mapM_compareLine_alike (Reconciliation.linesOf_alike hevs)] at hothers
  cases htotal.symm.trans htotal'
  cases hothers.symm.trans hothers'
  constructor
  · rw [hdiff, hdiff']
  · rw [unknown_of_reconcileWith hr.read h, unknown_of_reconcileWith hr'.read h',
      unknownLines_alike hevs]

end Scorekeeper

/-- Reconciliations without failed rules give the same warnings. -/
theorem Reconciliation.warnings_alike {r r' : Reconciliation}
    (h : List.Forall₂ Alike r.evaluations r'.evaluations)
    (hran : ∀ ev ∈ r.evaluations, ev.status ≠ .failed) (hfix : r.fix = r'.fix)
    (hdifferences : r.differences = r'.differences) (hunknown : r.unknown = r'.unknown) :
    r.warnings = r'.warnings := by
  have hwarnings : r.evaluations.map (·.warnings) = r'.evaluations.map (·.warnings) := by
    generalize r.evaluations = evs at h hran
    generalize r'.evaluations = evs' at h
    induction h with
    | nil => rfl
    | cons halike hrest ih =>
      obtain ⟨hfirst, hran⟩ := List.forall_mem_cons.mp hran
      rw [List.map_cons, List.map_cons, halike.warnings hfirst, ih hran]
  unfold Reconciliation.warnings
  rw [List.flatMap_def, List.flatMap_def, hwarnings, hfix, hdifferences, hunknown]

end LeagueAudit
