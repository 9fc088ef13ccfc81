import LeagueAudit.Proofs.Evaluation.Account
import LeagueAudit.Proofs.Metrics.Accounts
import LeagueAudit.Proofs.Number.AboveZero
import LeagueAudit.Proofs.Score.Accepted
import Mathlib.Algebra.Order.Field.Basic
import Mathlib.Data.List.Nodup
import Mathlib.Tactic.FieldSimp
import Mathlib.Tactic.Linarith

/-!
Shares in the total penalty. Each soft constraint has a share, but shares are kept by label, and of
constraints with one label only the last one is; so the shares that are shown are complete exactly
when the penalties of the others come to nothing. What is shown is the exact share up to rounding.
-/
namespace LeagueAudit

namespace Json

variable {α : Type}

/-- The last member of each name. -/
def lastOfEach : List (String × α) → List (String × α)
  | [] => []
  | member :: rest =>
    if member.1 ∈ rest.map (·.1) then lastOfEach rest else member :: lastOfEach rest

/-- The members that a later one of the same name replaces. -/
def replaced : List (String × α) → List (String × α)
  | [] => []
  | member :: rest =>
    if member.1 ∈ rest.map (·.1) then member :: replaced rest else replaced rest

theorem mem_keys_lastOfEach {key : String} {members : List (String × α)} :
    key ∈ (lastOfEach members).map (·.1) ↔ key ∈ members.map (·.1) := by
  induction members with
  | nil => rfl
  | cons member rest ih =>
    rw [lastOfEach]
    split
    · next h =>
      rw [ih, List.map_cons, List.mem_cons]
      exact (or_iff_right_of_imp fun heq => heq ▸ h).symm
    · rw [List.map_cons, List.map_cons, List.mem_cons, List.mem_cons, ih]

theorem lastOfEach_sublist (members : List (String × α)) :
    (lastOfEach members).Sublist members := by
  induction members with
  | nil => exact .slnil
  | cons member rest ih =>
    rw [lastOfEach]
    split
    · exact ih.cons member
    · exact ih.cons_cons member

theorem nodup_keys_lastOfEach (members : List (String × α)) :
    ((lastOfEach members).map (·.1)).Nodup := by
  induction members with
  | nil => exact .nil
  | cons member rest ih =>
    rw [lastOfEach]
    split
    · exact ih
    · next h => exact List.nodup_cons.mpr ⟨mt mem_keys_lastOfEach.mp h, ih⟩

theorem lookup_setMembers (base more : List (String × α)) (key : String) :
    (setMembers base more).lookup key = ((lastOfEach more).lookup key).or (base.lookup key) := by
  induction more generalizing base with
  | nil => rfl
  | cons member rest ih =>
    have hmem : ((lastOfEach rest).lookup key).isSome ↔ key ∈ rest.map (·.1) :=
      isSome_lookup_iff.trans mem_keys_lastOfEach
    rw [setMembers_cons, ih, lookup_setMember, lastOfEach]
    by_cases hkey : key = member.1
    · rw [← hkey, if_pos rfl]
      split
      · next h =>
        obtain ⟨value, hvalue⟩ := Option.isSome_iff_exists.mp (hmem.mpr h)
        rw [hvalue, Option.some_or, Option.some_or]
      · next h =>
        rw [Option.not_isSome_iff_eq_none.mp (mt hmem.mp h), lookup_cons_eq, if_pos hkey,
          Option.none_or, Option.some_or]
    · rw [if_neg hkey]
      split
      · rfl
      · rw [lookup_cons_eq, if_neg hkey]

theorem nodup_keys_setMembers (base more : List (String × α))
    (distinct : (base.map (·.1)).Nodup) : ((setMembers base more).map (·.1)).Nodup := by
  induction more generalizing base with
  | nil => exact distinct
  | cons member rest ih => exact ih _ (nodup_keys_setMember distinct)

/-- Of members that are set in turn the last one of each name stays. -/
theorem setMembers_perm (members : List (String × α)) :
    (setMembers [] members).Perm (lastOfEach members) := by
  have hset := nodup_keys_setMembers [] members .nil
  have hlast := nodup_keys_lastOfEach members
  rw [List.perm_ext_iff_of_nodup (List.Nodup.of_map _ hset) (List.Nodup.of_map _ hlast)]
  rintro ⟨key, value⟩
  rw [mem_iff_lookup hset, mem_iff_lookup hlast, lookup_setMembers, List.lookup_nil, Option.or_none]

theorem lastOfEach_of_nodup {members : List (String × α)} (distinct : (members.map (·.1)).Nodup) :
    lastOfEach members = members ∧ replaced members = [] := by
  induction members with
  | nil => exact ⟨rfl, rfl⟩
  | cons member rest ih =>
    rw [List.map_cons, List.nodup_cons] at distinct
    obtain ⟨hlast, hnone⟩ := ih distinct.2
    rw [lastOfEach, replaced, if_neg distinct.1, if_neg distinct.1, hlast]
    exact ⟨rfl, hnone⟩

/-- Every member is the last one of its name or replaced. -/
theorem sum_lastOfEach {M : Type} [AddCommMonoid M] (f : String × α → M)
    (members : List (String × α)) :
    ((lastOfEach members).map f).sum + ((replaced members).map f).sum = (members.map f).sum := by
  induction members with
  | nil => simp [lastOfEach, replaced]
  | cons member rest ih =>
    rw [lastOfEach, replaced, List.map_cons, List.sum_cons, ← ih]
    split
    · rw [List.map_cons, List.sum_cons, add_left_comm]
    · rw [List.map_cons, List.sum_cons, add_assoc]

theorem setMembers_map {β : Type} (f : α → β) (base more : List (String × α)) :
    setMembers (base.map fun p => (p.1, f p.2)) (more.map fun p => (p.1, f p.2)) =
      (setMembers base more).map fun p => (p.1, f p.2) := by
  have hset : ∀ (key : String) (value : α) (members : List (String × α)),
      setMember key (f value) (members.map fun p => (p.1, f p.2)) =
        (setMember key value members).map fun p => (p.1, f p.2) := by
    intro key value members
    induction members with
    | nil => rfl
    | cons member rest ih =>
      rw [List.map_cons, setMember, setMember, ih]
      split <;> rfl
  induction more generalizing base with
  | nil => rfl
  | cons member rest ih => rw [List.map_cons, setMembers_cons, setMembers_cons, ← ih, hset]

end Json

namespace Metrics

open Exact Reconciliation

variable {evaluations : List Evaluation}

/-- The soft constraints under their labels. -/
def softByLabel (evaluations : List Evaluation) : List (String × Evaluation) :=
  (evaluations.filter (·.constraint.soft)).map fun ev => (ev.constraint.label, ev)

/-- The constraints whose shares are shown. -/
def shareholders (evaluations : List Evaluation) : List (String × Evaluation) :=
  Json.setMembers [] (softByLabel evaluations)

/-- The total penalty in steps, without rounding. -/
def totalSteps (evaluations : List Evaluation) : Int :=
  sumSteps ((linesOf evaluations).map (·.penalty))

/-- The share of a constraint in the total penalty, without rounding. -/
def exactShare (evaluations : List Evaluation) (ev : Evaluation) : ℚ :=
  stepsOf ev.penalty / totalSteps evaluations

/-- The penalties in steps of constraints that a later one of the same label replaces. -/
def replacedSteps (evaluations : List Evaluation) : Int :=
  ((Json.replaced (softByLabel evaluations)).map fun p => stepsOf p.2.penalty).sum

theorem mem_of_mem_shareholders {p : String × Evaluation} (h : p ∈ shareholders evaluations) :
    p.2 ∈ evaluations := by
  have hlast := (Json.lastOfEach_sublist _).subset ((Json.setMembers_perm _).mem_iff.mp h)
  obtain ⟨ev, hev, rfl⟩ := List.mem_map.mp hlast
  exact List.mem_of_mem_filter hev

/-- What is not checked costs nothing, so that the total is over all soft constraints. -/
theorem sum_softByLabel (hidle : ∀ ev ∈ evaluations, ev.checked = false → ev.penalty = 0.0) :
    ((softByLabel evaluations).map fun p => stepsOf p.2.penalty).sum = totalSteps evaluations := by
  have hzero : stepsOf 0.0 = 0 := by decide +kernel
  rw [softByLabel, totalSteps, sumSteps, linesOf, List.map_map, List.map_map]
  induction evaluations with
  | nil => rfl
  | cons ev rest ih =>
    obtain ⟨hev, hrest⟩ := List.forall_mem_cons.mp hidle
    rw [List.filter_cons, List.filter_cons]
    cases hsoft : ev.constraint.soft with
    | false => simpa using ih hrest
    | true =>
      cases hchecked : ev.checked with
      | true => simpa using ih hrest
      | false => simpa [hev hchecked, hzero] using ih hrest

theorem sum_exactShares_iff (hidle : ∀ ev ∈ evaluations, ev.checked = false → ev.penalty = 0.0)
    (htotal : totalSteps evaluations ≠ 0) :
    ((shareholders evaluations).map fun p => exactShare evaluations p.2).sum = 1 ↔
      replacedSteps evaluations = 0 := by
  have hsplit := Json.sum_lastOfEach (fun p => stepsOf p.2.penalty) (softByLabel evaluations)
  rw [sum_softByLabel hidle, ← replacedSteps] at hsplit
  have hsum : ∀ members : List (String × Evaluation),
      (members.map fun p => exactShare evaluations p.2).sum =
        ((members.map fun p => stepsOf p.2.penalty).sum : Int) / (totalSteps evaluations : ℚ) := by
    intro members
    induction members with
    | nil => simp
    | cons p rest ih =>
      rw [List.map_cons, List.sum_cons, List.map_cons, List.sum_cons, ih, Int.cast_add, add_div]
      rfl
  have hne : (totalSteps evaluations : ℚ) ≠ 0 := Int.cast_ne_zero.mpr htotal
  rw [shareholders, ((Json.setMembers_perm _).map _).sum_eq, hsum, div_eq_one_iff_eq hne,
    Int.cast_inj]
  omega

/-- With distinct labels every soft constraint keeps its share. -/
theorem shareholders_of_distinct (distinct : ((softByLabel evaluations).map (·.1)).Nodup) :
    shareholders evaluations = softByLabel evaluations ∧ replacedSteps evaluations = 0 := by
  refine ⟨Json.setMembers_eq_append ((List.nil_append _).symm ▸ distinct), ?_⟩
  rw [replacedSteps, (Json.lastOfEach_of_nodup distinct).2]
  rfl

/-- Above zero a total is rounded from above zero. -/
theorem totalSteps_pos (hpos : ¬stepsFloat (totalSteps evaluations) ≤ 0.0)
    (hfinite : IsFinite (stepsFloat (totalSteps evaluations))) :
    0 < stepsOf (stepsFloat (totalSteps evaluations)) ∧ 0 < totalSteps evaluations := by
  have hrounds := roundsTo_stepsFloat (totalSteps evaluations)
  have hless := zero_lt_of_not_le hpos (by rw [hfinite]; nofun)
  rw [zero_lt_iff, hfinite] at hless
  rw [hfinite] at hrounds
  cases hrounds with
  | near hnear =>
    have hone : 1 ≤ stepsOf (stepsFloat (totalSteps evaluations)) := hless
    refine ⟨hone, ?_⟩
    by_contra hneg
    rw [abs_of_nonneg (by omega), abs_of_nonpos (by omega)] at hnear
    omega

section Rounding

/-- A double shows a number up to rounding, and tiny numbers as zero. -/
def Shows (x : Float) (q : ℚ) : Prop := ∃ v, StandsFor x v ∧ 2 ^ 51 * |v - q| ≤ |q| + 4

theorem exists_standsFor {x : Float} (hx : IsFinite x) : StandsFor x (stepsOf x / stepsPerOne) :=
  ⟨hx, (div_mul_cancel₀ _ stepsPerOne_pos.ne').symm⟩

theorem lt_noise {x : Float} (h : x.abs < 1e-15) :
    IsFinite x ∧ 2 ^ 51 * |(stepsOf x / stepsPerOne : ℚ)| ≤ 3 := by
  have hnoise : ofFloat 1e-15 = finite (stepsOf 1e-15) := by decide +kernel
  have hsmall : 2 ^ 51 * stepsOf 1e-15 ≤ 3 * stepsPerOne := by decide +kernel
  rw [lt_iff, ofFloat_abs, hnoise] at h
  cases hvalue : ofFloat x with
  | finite steps =>
    rw [hvalue] at h
    have hless : |steps| < stepsOf 1e-15 := by
      simpa [Exact.abs, compare?_finite, Int.compare_eq_lt] using h
    refine ⟨isFinite_of_eq hvalue, ?_⟩
    rw [stepsOf_eq hvalue, abs_div, abs_of_pos stepsPerOne_pos, ← mul_div_assoc,
      div_le_iff₀ stepsPerOne_pos]
    have hle : 2 ^ 51 * |steps| ≤ 3 * stepsPerOne := by omega
    exact_mod_cast hle
  | infinite negative => rw [hvalue] at h; cases h
  | undefined => rw [hvalue] at h; cases h

theorem isFinite_of_withoutNoise {x : Float} (h : (withoutNoise x).isFinite = true) :
    IsFinite x := by
  unfold withoutNoise at h
  split at h
  · next hless => exact (lt_noise hless).1
  · exact (isFinite_iff x).mp h

theorem shows_withoutNoise {x : Float} {q : ℚ} (hx : IsFinite x)
    (hq : 2 ^ 51 * |stepsOf x / stepsPerOne - q| ≤ |q| + 1) : Shows (withoutNoise x) q := by
  unfold withoutNoise
  split
  · next hless =>
    obtain ⟨-, hsmall⟩ := lt_noise hless
    refine ⟨0, standsFor_of_eq ofFloat_zero (zero_mul _).symm, ?_⟩
    have hsplit := abs_sub_abs_le_abs_sub q (stepsOf x / stepsPerOne)
    rw [abs_sub_comm q] at hsplit
    rw [zero_sub, abs_neg]
    linarith
  · exact ⟨_, exists_standsFor hx, hq.trans (by linarith)⟩

/-- A part is divided by a total that is near the exact one. -/
theorem abs_share_sub_le {part total exact share one : ℚ} (htotal : 0 < total) (hexact : 0 < exact)
    (hone : 2 ^ 51 ≤ one) (hround : 2 ^ 53 * |total - exact| ≤ exact)
    (hdiv : 2 ^ 52 * |share * total - part * one| ≤ |part| * one + 2 ^ 51 * total) :
    2 ^ 51 * |share / one - part / exact| ≤ |part / exact| + 1 := by
  have hpos : 0 < one := lt_of_lt_of_le (by norm_num) hone
  have hsplit : share / one - part / exact =
      (share * total - part * one) / (total * one) + part * (exact - total) / (exact * total) := by
    field_simp
    ring
  have hquotient : 2 ^ 51 * |(share * total - part * one) / (total * one)| ≤
      |part| / total / 2 + 1 / 2 := by
    have hunit : 2 ^ 51 * total ≤ total * one := by
      rw [mul_comm]
      exact mul_le_mul_of_nonneg_left hone htotal.le
    have hsum : (|part| / total / 2 + 1 / 2) * (total * one) =
        (|part| * one + total * one) / 2 := by
      field_simp
    rw [abs_div, abs_of_pos (mul_pos htotal hpos), ← mul_div_assoc,
      div_le_iff₀ (mul_pos htotal hpos), hsum]
    linarith
  have hrounded : 2 ^ 51 * |part * (exact - total) / (exact * total)| ≤ |part| / total / 4 := by
    have hmul := mul_le_mul_of_nonneg_left hround (abs_nonneg part)
    have hsame : |part| / total / 4 * (exact * total) = |part| * exact / 4 := by
      field_simp
    rw [abs_div, abs_of_pos (mul_pos hexact htotal), ← mul_div_assoc,
      div_le_iff₀ (mul_pos hexact htotal), hsame, abs_mul, abs_sub_comm]
    linarith
  have hratio : |part| / total ≤ 4 / 3 * |part / exact| := by
    have hnear := abs_sub_abs_le_abs_sub exact total
    rw [abs_of_pos hexact, abs_of_pos htotal, abs_sub_comm] at hnear
    have hless : 3 * exact ≤ 4 * total := by linarith
    rw [abs_div, abs_of_pos hexact, ← mul_div_assoc, div_le_div_iff₀ htotal hexact]
    have := mul_le_mul_of_nonneg_left hless (abs_nonneg part)
    linarith
  calc 2 ^ 51 * |share / one - part / exact|
      ≤ 2 ^ 51 * |(share * total - part * one) / (total * one)| +
          2 ^ 51 * |part * (exact - total) / (exact * total)| := by
        rw [hsplit, ← mul_add]
        exact mul_le_mul_of_nonneg_left (abs_add_le _ _) (by norm_num)
    _ ≤ |part / exact| + 1 := by linarith

/-- The share of a constraint as it is shown. -/
def shownShare (evaluations : List Evaluation) (ev : Evaluation) : Float :=
  withoutNoise (ev.penalty / stepsFloat (totalSteps evaluations))

theorem shows_shownShare {ev : Evaluation} (hpenalty : IsFinite ev.penalty)
    (hpos : ¬stepsFloat (totalSteps evaluations) ≤ 0.0)
    (hfinite : IsFinite (stepsFloat (totalSteps evaluations)))
    (hshown : (shownShare evaluations ev).isFinite = true) :
    Shows (shownShare evaluations ev) (exactShare evaluations ev) := by
  have hshare := isFinite_of_withoutNoise hshown
  obtain ⟨hrounded, hexact⟩ := totalSteps_pos hpos hfinite
  have hdiv := abs_div_sub_le hpenalty hfinite hrounded hshare
  have hround := sumRounding_le hfinite
  rw [sumRounding, ← totalSteps, abs_of_pos hexact] at hround
  have hone : twoTo 51 ≤ stepsPerOne := twoTo_le (by decide)
  refine shows_withoutNoise hshare (abs_share_sub_le (Int.cast_pos.mpr hrounded)
    (Int.cast_pos.mpr hexact) ?_ ?_ ?_)
  · exact_mod_cast hone
  · exact_mod_cast hround
  · exact_mod_cast hdiv

end Rounding

theorem shown_of_sharesFrom {total : Float} (h : sharesFrom evaluations total ≠ []) :
    ¬total ≤ 0.0 ∧ total.isFinite = true := by
  have hshown : ¬(decide (total ≤ 0.0) || !total.isFinite) = true := fun hnone => h (if_pos hnone)
  rwa [Bool.or_eq_true, decide_eq_true_eq, Bool.not_eq_true', not_or, Bool.not_eq_false] at hshown

theorem sharesFrom_eq (hpenalties : ∀ ev ∈ evaluations, IsFinite ev.penalty)
    (h : sharesFrom evaluations (stepsFloat (totalSteps evaluations)) ≠ []) :
    sharesFrom evaluations (stepsFloat (totalSteps evaluations)) =
      (shareholders evaluations).map fun p => (p.1, shownShare evaluations p.2) := by
  obtain ⟨hpos, hfinite⟩ := shown_of_sharesFrom h
  have hrows : shareRows evaluations (stepsFloat (totalSteps evaluations)) =
      (softByLabel evaluations).map fun p => (p.1, shownShare evaluations p.2) := by
    rw [shareRows, softByLabel, List.map_map]
    refine List.map_congr_left fun ev hev => ?_
    rw [orZero, isNaN_eq_false (hpenalties ev (List.mem_of_mem_filter hev)),
      if_neg Bool.false_ne_true]
    rfl
  rw [sharesFrom, if_neg (by simp [hpos, hfinite]), hrows]
  exact Json.setMembers_map (shownShare evaluations) [] (softByLabel evaluations)

end Metrics

/-- What is not checked costs nothing. -/
theorem Engine.penalty_of_not_checked {engine : Engine} {index : Index} {docs : List Json}
    {evaluations : List Evaluation} (h : engine.evaluateAll index docs = .ok evaluations)
    {ev : Evaluation} (hev : ev ∈ evaluations) (hchecked : ev.checked = false) :
    ev.penalty = 0.0 := by
  obtain ⟨doc, -, hdoc⟩ := exists_source_of_mapM_eq_ok h hev
  obtain ⟨account, hshows, -⟩ := (evaluateAmong_eq_ok hdoc).shows
  cases account with
  | checked =>
    rcases hshows.1 with hok | hviolated
    · simp [Evaluation.checked, hok] at hchecked
    · simp [Evaluation.checked, hviolated] at hchecked
  | rejected => exact hshows.2.2.2.penalty
  | unchecked => exact hshows.2.2.2.penalty
  | failed => exact hshows.2.2.penalty

section Reconciled

open Exact Metrics

variable {k : Scorekeeper} {engine : Engine} {league result : Json} {index : Index}
  {r : Reconciliation}

theorem Scorekeeper.penalty_of_not_checked (h : k.reconcile engine league result index = .ok r)
    {ev : Evaluation} (hev : ev ∈ r.evaluations) (hchecked : ev.checked = false) :
    ev.penalty = 0.0 := by
  obtain ⟨evaluations, hevaluations, hr⟩ := bind_eq_ok.mp h
  obtain ⟨ledger, hledger⟩ := reconcileWith_eq_ok hr
  exact Engine.penalty_of_not_checked hevaluations (hledger.same ▸ hev) hchecked

/-- The total of finite penalties is the exact one, rounded once. -/
theorem Scorekeeper.totalPenalty_eq (h : k.reconcile engine league result index = .ok r)
    (hfinite : ∀ ev ∈ r.evaluations, IsFinite ev.penalty) :
    r.totalPenalty = stepsFloat (totalSteps r.evaluations) ∧ IsFinite r.totalPenalty := by
  obtain ⟨evaluations, -, hr⟩ := bind_eq_ok.mp h
  obtain ⟨ledger, hledger⟩ := reconcileWith_eq_ok hr
  have hsum := hledger.sum
  rw [← hledger.same] at hsum
  refine sumFloats_eq_ok (fun x hx => ?_) hsum
  obtain ⟨ev, hev, rfl⟩ := List.mem_map.mp hx
  exact hfinite ev (List.mem_of_mem_filter hev)

end Reconciled

/-- Without details there is no total, and no share in it. -/
theorem Metrics.shares_eq_nil {report : Report} {index : Option Index} {m : Metrics}
    (h : report.details = []) (hm : collect report index = .ok m) : m.shares = [] := by
  have htotal : totalOf report = .ok 0.0 := by
    rw [totalOf, Report.detail, h]
    rfl
  have hzero : decide ((0.0 : Float) ≤ 0.0) = true := by decide +kernel
  have hnone : ∀ t, sharesOf t 0.0 = .ok [] := fun t => by simp [sharesOf, hzero]
  unfold collect at hm
  simp only [htotal, bind_eq_ok, Except.ok.injEq, exists_eq_left', hnone] at hm
  obtain ⟨_, -, _, -, _, -, _, -, _, -, hm⟩ := hm
  split at hm
  · cases hm
  · exact Except.ok.inj hm ▸ rfl

namespace Auditor

open Metrics Exact

variable {auditor : Auditor} {league raw : Json} {audit : ResultAudit} {m : Metrics}

/-- The shares that are shown are those of the last constraints of their labels, up to rounding.
They are complete exactly when the penalties of the other ones come to nothing. -/
theorem shares_complete_iff (haudit : auditor.auditResult league raw = .ok audit)
    (hfinite : ∀ r, audit.reconciliation = some r → ∀ ev ∈ r.evaluations, IsFinite ev.penalty)
    (hm : Metrics.collect audit.report audit.index = .ok m) (hshares : m.shares ≠ []) :
    ∃ r, audit.reconciliation = some r ∧
      m.shares = (shareholders r.evaluations).map (fun p => (p.1, shownShare r.evaluations p.2)) ∧
      (∀ p ∈ shareholders r.evaluations,
        Shows (shownShare r.evaluations p.2) (exactShare r.evaluations p.2)) ∧
      (((shareholders r.evaluations).map fun p => exactShare r.evaluations p.2).sum = 1 ↔
        replacedSteps r.evaluations = 0) := by
  rcases auditResult_eq_ok haudit with ⟨_, _, hbroken, -, -⟩ | ⟨_, _, -, index, r, h⟩
  · obtain ⟨audit', haudit', -, -, -, hdetails⟩ := auditResult_of_broken hbroken league
    rw [← Except.ok.inj (haudit.symm.trans haudit')] at hdetails
    exact absurd (shares_eq_nil hdetails hm) hshares
  · have hfinite := hfinite r h.holdsReconciliation
    obtain ⟨htotal, hin⟩ := Scorekeeper.totalPenalty_eq h.reconciled hfinite
    rw [h.holdsIndex, collect_eq_ok_iff (details_of_reconciliation haudit h.holdsReconciliation)]
      at hm
    obtain ⟨-, s, -, hout, rfl⟩ := hm
    have hsome : sharesFrom r.evaluations r.totalPenalty ≠ [] := hshares
    rw [Shown, htotal] at hout
    rw [htotal] at hin hsome
    obtain ⟨hpos, -⟩ := shown_of_sharesFrom hsome
    have hshown := sharesFrom_eq hfinite hsome
    refine ⟨r, h.holdsReconciliation, (congrArg _ htotal).trans hshown, fun p hp => ?_,
      sum_exactShares_iff (fun ev => Scorekeeper.penalty_of_not_checked h.reconciled)
        (totalSteps_pos hpos hin).2.ne'⟩
    rw [hshown, List.map_map] at hout
    exact shows_shownShare (hfinite p.2 (mem_of_mem_shareholders hp)) hpos hin
      (hout _ (List.mem_append_left _ (List.mem_map_of_mem hp)))

/-- A soft constraint under the counting rule. -/
def weighed (id : String) (weight : Int) : Json :=
  .obj [("id", .str id), ("type", .str "soft"), ("ruleId", .str "count_only"),
    ("penalty", .obj [("model", .str "linear"), ("weight", .int weight)])]

/-- An instance with two constraints of these names. -/
def weighedLeague (first second : String) : Json :=
  .obj [("fixtures", .arr []), ("constraints", .arr [weighed first 1, weighed second 3])]

theorem shares_complete_iff_weighed :
    ∃ audit r m, countingAuditor.auditResult (weighedLeague "S1" "S2") emptyResult = .ok audit ∧
      audit.reconciliation = some r ∧ Metrics.collect audit.report audit.index = .ok m ∧
      m.shares.map (·.1) = ["S1", "S2"] ∧
      ((shareholders r.evaluations).map fun p => exactShare r.evaluations p.2).sum = 1 := by
  obtain ⟨audit, haudit, hview⟩ := exists_ok_of_toOption_map
    (x := countingAuditor.auditResult (weighedLeague "S1" "S2") emptyResult)
    (f := fun audit => (audit.reconciliation.map fun r =>
        (r.evaluations.all (·.penalty.isFinite), replacedSteps r.evaluations),
      (Metrics.collect audit.report audit.index).toOption.map fun m => m.shares.map (·.1)))
    (b := (some (true, 0), some ["S1", "S2"])) (by decide +kernel)
  obtain ⟨hpenalties, hlabels⟩ := Prod.mk.inj hview
  obtain ⟨r, hr, hpenalties⟩ := Option.map_eq_some_iff.mp hpenalties
  obtain ⟨hfinite, hreplaced⟩ := Prod.mk.inj hpenalties
  obtain ⟨m, hm, hlabels⟩ := exists_ok_of_toOption_map hlabels
  have hshares : m.shares ≠ [] := fun hnone => by
    rw [hnone] at hlabels
    cases hlabels
  obtain ⟨r', hr', -, -, hcomplete⟩ := shares_complete_iff haudit (fun r' hr' => by
    rw [Option.some.inj (hr'.symm.trans hr)]
    exact fun ev hev => (isFinite_iff _).mp (List.all_eq_true.mp hfinite ev hev)) hm hshares
  obtain rfl := Option.some.inj (hr'.symm.trans hr)
  exact ⟨audit, r', m, haudit, hr, hm, hlabels, hcomplete.mpr hreplaced⟩

/-- Constraints of one name have one share together, which is that of the last one. -/
theorem shares_ne_one :
    ∃ audit r m, countingAuditor.auditResult (weighedLeague "S" "S") emptyResult = .ok audit ∧
      audit.reconciliation = some r ∧ (∀ ev ∈ r.evaluations, IsFinite ev.penalty) ∧
      Metrics.collect audit.report audit.index = .ok m ∧
      m.shares.map (fun p => (p.1, ofFloat p.2)) = [("S", ofFloat 0.75)] ∧
      ((shareholders r.evaluations).map fun p => exactShare r.evaluations p.2).sum = 3 / 4 := by
  obtain ⟨audit, haudit, hview⟩ := exists_ok_of_toOption_map
    (x := countingAuditor.auditResult (weighedLeague "S" "S") emptyResult)
    (f := fun audit => (audit.reconciliation.map fun r =>
        (r.evaluations.all (·.penalty.isFinite),
          ((shareholders r.evaluations).map fun p => exactShare r.evaluations p.2).sum),
      (Metrics.collect audit.report audit.index).toOption.map fun m =>
        m.shares.map fun p => (p.1, ofFloat p.2)))
    (b := (some (true, 3 / 4), some [("S", ofFloat 0.75)])) (by decide +kernel)
  obtain ⟨hpenalties, hshares⟩ := Prod.mk.inj hview
  obtain ⟨r, hr, hpenalties⟩ := Option.map_eq_some_iff.mp hpenalties
  obtain ⟨hfinite, hsum⟩ := Prod.mk.inj hpenalties
  obtain ⟨m, hm, hshares⟩ := exists_ok_of_toOption_map hshares
  exact ⟨audit, r, m, haudit, hr,
    fun ev hev => (isFinite_iff _).mp (List.all_eq_true.mp hfinite ev hev), hm, hshares, hsum⟩

end Auditor
end LeagueAudit
