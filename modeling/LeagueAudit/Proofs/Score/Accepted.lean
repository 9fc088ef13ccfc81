import LeagueAudit.Proofs.Number.Nearest
import LeagueAudit.Proofs.Schedule.Build
import LeagueAudit.Proofs.Score.Ledger
import LeagueAudit.Rule.Default

/-!
What an accepted total is worth. The reported total agrees with the reported lines, and each of
these with the recomputed one of its constraint; when the lines are those of the soft constraints,
each once, the total is as near to the recomputed one as these tolerances add up to.
-/
namespace LeagueAudit

namespace Exact

/-- A double is finite, and it misses another by a tolerance at most, but for what rounding takes
from the difference. -/
structure Within (t : Int) (x y : Float) : Prop where
  finite : IsFinite y
  exact : |stepsOf x - stepsOf y| ≤ t + gapRounding x y
  rounded : (2 ^ 53 - 1) * |stepsOf x - stepsOf y| ≤ 2 ^ 53 * t

variable {tolerance x y : Float} {t : Int}

theorem within_of_eq (ht : 0 ≤ t) (hy : IsFinite y) (h : stepsOf x = stepsOf y) :
    Within t x y where
  finite := hy
  exact := by
    rw [h, Int.sub_self, abs_zero]
    exact Int.add_nonneg ht (abs_nonneg _)
  rounded := by
    rw [h, Int.sub_self, abs_zero]
    omega

theorem within_of_sub {d : Int} (hx : IsFinite x) (hy : IsFinite y)
    (hd : ofFloat (y - x) = .finite d) (hle : |d| ≤ t) : Within t x y := by
  have hgap : gapRounding x y = |d - (stepsOf y - stepsOf x)| := by
    rw [gapRounding, stepsOf_eq hd]
  have hbound := gapRounding_le hx hy (isFinite_of_eq hd)
  have htriangle : |stepsOf y - stepsOf x| ≤ |d| + gapRounding x y := by
    rw [hgap]
    have h := abs_sub_le (stepsOf y - stepsOf x) d 0
    rw [sub_zero, sub_zero, abs_sub_comm _ d, Int.add_comm] at h
    exact h
  rw [← abs_sub_comm (stepsOf x)] at hbound htriangle
  exact ⟨hy, by omega, by omega⟩

theorem within_of_beq (ht : 0 ≤ t) (hx : IsFinite x) (h : (x == y) = true) : Within t x y := by
  rw [beq_iff, hx] at h
  cases hy : ofFloat y with
  | finite n =>
    rw [hy, compare?_finite, Option.some.injEq, compare_eq_iff_eq] at h
    exact within_of_eq ht (isFinite_of_eq hy) (h.trans (stepsOf_eq hy).symm)
  | infinite negative =>
    rw [hy] at h
    cases negative <;> cases h
  | undefined =>
    rw [hy] at h
    cases h

theorem nonneg_of_not_lt (ht : ofFloat tolerance = .finite t) (h : ¬tolerance < 0.0) : 0 ≤ t := by
  by_contra hneg
  refine h ((lt_iff _ _).mpr ?_)
  rw [ht, ofFloat_zero, compare?_finite, compare_lt_iff_lt.mpr (Int.not_le.mp hneg)]

/-- A difference that is compared with something is that of two finite doubles. -/
theorem within_of_le (ht : ofFloat tolerance = .finite t) (hnonneg : 0 ≤ t) (hx : IsFinite x)
    (hy : y.isInf = false) (h : (y - x).abs ≤ tolerance ∨ (y - x).abs ≤ 0.0) :
    Within t x y := by
  rw [le_iff, le_iff, ofFloat_abs, ht, ofFloat_zero] at h
  cases hvalue : ofFloat y with
  | infinite negative =>
    rw [(isInf_iff y).mpr ⟨negative, hvalue⟩] at hy
    cases hy
  | undefined =>
    rw [ofFloat_sub_undefined (.inl hvalue)] at h
    rcases h with h | h <;> cases h
  | finite n =>
    have hrounds := roundsTo_sub hvalue hx
    generalize hsub : ofFloat (y - x) = value at hrounds h
    cases hrounds with
    | beyond negative => rcases h with h | h <;> cases h
    | @near d hnear =>
      refine within_of_sub hx (isFinite_of_eq hvalue) hsub ?_
      rw [abs, isLE_compare?_finite, isLE_compare?_finite] at h
      omega

/-- Two numbers that agree within a tolerance differ by no more than it. -/
theorem within_of_isClose (ht : ofFloat tolerance = .finite t) (hx : IsFinite x)
    (h : isClose tolerance x y = .ok true) : Within t x y := by
  unfold isClose at h
  split at h
  · cases h
  next hpositive =>
  have hnonneg := nonneg_of_not_lt ht hpositive
  split at h
  · next heq => exact within_of_beq hnonneg hx heq
  split at h
  · cases h
  next hinf =>
  have hclose := Except.ok.inj h
  rw [Bool.or_eq_true, decide_eq_true_eq, decide_eq_true_eq] at hclose
  exact within_of_le ht hnonneg hx (Bool.eq_false_iff.mpr fun hy => hinf (by rw [hy, Bool.or_true]))
    hclose

end Exact

/-- The sum of finite doubles is rounded once. -/
theorem sumFloats_eq_ok {xs : List Float} (hfinite : ∀ x ∈ xs, Exact.IsFinite x) {total : Float}
    (h : sumFloats xs = .ok total) :
    total = stepsFloat (Exact.sumSteps xs) ∧ Exact.IsFinite total := by
  unfold sumFloats at h
  cases hsum : exactSum xs with
  | error e =>
    rw [hsum] at h
    cases h
  | ok sum =>
    rw [hsum] at h
    cases Except.ok.inj h
    exact exactSum_eq_ok hfinite hsum

namespace ReportedLedger

/-- The penalty that a ledger reports for a constraint. -/
def penaltyOf (ledger : ReportedLedger) (id : String) : Float :=
  ((ledger.lookup id).bind (·.penalty)).getD 0.0

/-- The penalties that a ledger reports. -/
def penalties (ledger : ReportedLedger) : List Float :=
  ledger.map fun p => p.2.penalty.getD 0.0

theorem penalties_eq {ledger : ReportedLedger} (h : (ledger.map (·.1)).Nodup) :
    ledger.penalties = (ledger.map (·.1)).map ledger.penaltyOf := by
  rw [penalties, List.map_map]
  refine List.map_congr_left fun p hp => ?_
  have hlookup : ledger.lookup p.1 = some p.2 := (Json.mem_iff_lookup h).mp hp
  rw [Function.comp_apply, penaltyOf, hlookup]
  rfl

end ReportedLedger

namespace Reconciliation

/-- The evaluations of the soft constraints. -/
def soft (r : Reconciliation) : List Evaluation := r.evaluations.filter (·.constraint.soft)

/-- With all soft constraints checked, their lines are all recomputed. -/
theorem linesOf_eq_soft {r : Reconciliation} (h : ∀ ev ∈ r.soft, ev.checked = true) :
    linesOf r.evaluations = r.soft := by
  unfold linesOf soft
  refine List.filter_congr fun ev hev => ?_
  cases hsoft : ev.constraint.soft with
  | false => rfl
  | true => exact h ev (List.mem_filter.mpr ⟨hev, hsoft⟩)

end Reconciliation

namespace Scorekeeper

open Exact

variable {k : Scorekeeper} {ledger : ReportedLedger} {lines : List Evaluation} {t : Int}

theorem LineAgrees.within {ev : Evaluation} (ht : ofFloat k.tolerance = .finite t)
    (hfinite : IsFinite (ledger.penaltyOf ev.constraint.label)) (h : k.LineAgrees ledger ev) :
    Within t (ledger.penaltyOf ev.constraint.label) ev.penalty := by
  obtain ⟨line, hline, hpenalty, -⟩ := h
  have hreported : ledger.penaltyOf ev.constraint.label = line.penalty.getD 0.0 := by
    rw [ReportedLedger.penaltyOf, hline]
    rfl
  rw [hreported] at hfinite ⊢
  exact within_of_isClose ht hfinite hpenalty

/-- Lines that name the same constraints, each once, are the same lines in another order. -/
theorem penalties_perm (hnames : (ledger.map (·.1)).Nodup)
    (hlabels : (lines.map (·.constraint.label)).Nodup)
    (hnamed : ∀ p ∈ ledger, p.1 ∈ lines.map (·.constraint.label))
    (hlines : ∀ ev ∈ lines, k.LineAgrees ledger ev) :
    ledger.penalties.Perm (lines.map fun ev => ledger.penaltyOf ev.constraint.label) := by
  have hsame : (ledger.map (·.1)).Perm (lines.map (·.constraint.label)) := by
    rw [List.perm_ext_iff_of_nodup hnames hlabels]
    intro id
    constructor
    · intro hid
      obtain ⟨p, hp, rfl⟩ := List.mem_map.mp hid
      exact hnamed p hp
    · intro hid
      obtain ⟨ev, hev, rfl⟩ := List.mem_map.mp hid
      obtain ⟨line, hline, -⟩ := hlines ev hev
      exact List.mem_map.mpr ⟨_, Json.mem_of_lookup hline, rfl⟩
  have h := hsame.map ledger.penaltyOf
  rwa [← ReportedLedger.penalties_eq hnames, List.map_map] at h

/-- The penalties that were recomputed. -/
def recomputed (lines : List Evaluation) : List Float := lines.map (·.penalty)

/-- What rounding takes from the differences of the lines. -/
def lineRoundings (ledger : ReportedLedger) (lines : List Evaluation) : Int :=
  (lines.map fun ev => gapRounding (ledger.penaltyOf ev.constraint.label) ev.penalty).sum

/-- What rounding takes from the sums and the differences of a comparison: nothing when these are
exact. -/
def roundings (ledger : ReportedLedger) (shown : Float) (lines : List Evaluation) : Int :=
  sumRounding ledger.penalties + sumRounding (recomputed lines) +
    gapRounding shown (stepsFloat (sumSteps ledger.penalties)) + lineRoundings ledger lines

theorem lines_exact (hwithin : ∀ ev ∈ lines,
      Within t (ledger.penaltyOf ev.constraint.label) ev.penalty) :
    |sumSteps (lines.map fun ev => ledger.penaltyOf ev.constraint.label) -
        sumSteps (recomputed lines)| ≤ lines.length * t + lineRoundings ledger lines := by
  have h := @abs_sumSteps_sub_le _ 1 (by decide) _ _ _ lines fun ev hev =>
    (Int.one_mul _).le.trans (hwithin ev hev).exact
  rwa [Int.one_mul, List.sum_map_add, List.map_const', List.sum_replicate, nsmul_eq_mul] at h

theorem lines_rounded (hwithin : ∀ ev ∈ lines,
      Within t (ledger.penaltyOf ev.constraint.label) ev.penalty) :
    (2 ^ 53 - 1) * |sumSteps (lines.map fun ev => ledger.penaltyOf ev.constraint.label) -
        sumSteps (recomputed lines)| ≤ 2 ^ 53 * (lines.length * t) := by
  have h := @abs_sumSteps_sub_le _ (2 ^ 53 - 1) (by decide) _ _ _ lines fun ev hev =>
    (hwithin ev hev).rounded
  rwa [List.map_const', List.sum_replicate, nsmul_eq_mul, Int.mul_left_comm] at h

/-- A total that agrees with the lines of the ledger, each of which agrees with a recomputed one. -/
theorem total_within {shown total : Float} (ht : ofFloat k.tolerance = .finite t)
    (hnames : (ledger.map (·.1)).Nodup) (hlabels : (lines.map (·.constraint.label)).Nodup)
    (hnamed : ∀ p ∈ ledger, p.1 ∈ lines.map (·.constraint.label))
    (hshown : IsFinite shown) (hfinite : ∀ x ∈ ledger.penalties, IsFinite x)
    (htotal : sumFloats (recomputed lines) = .ok total)
    (hagrees : k.TotalAgrees ledger (some shown))
    (hlines : ∀ ev ∈ lines, k.LineAgrees ledger ev) :
    IsFinite total ∧
    |stepsOf shown - stepsOf total| ≤ (lines.length + 1) * t + roundings ledger shown lines ∧
    (2 ^ 53 - 1) * |stepsOf shown - stepsOf total| ≤ 2 ^ 53 * ((lines.length + 1) * t) +
      |sumSteps ledger.penalties| + |sumSteps (recomputed lines)| := by
  have hperm := penalties_perm hnames hlabels hnamed hlines
  have hwithin : ∀ ev ∈ lines,
      Within t (ledger.penaltyOf ev.constraint.label) ev.penalty := fun ev hev =>
    (hlines ev hev).within ht (hfinite _ (hperm.mem_iff.mpr (List.mem_map_of_mem hev)))
  have hrecomputed : ∀ x ∈ recomputed lines, IsFinite x := by
    intro x hx
    obtain ⟨ev, hev, rfl⟩ := List.mem_map.mp hx
    exact (hwithin ev hev).finite
  obtain ⟨parts, hparts, hclose⟩ := hagrees shown rfl
  obtain ⟨rfl, hpartsFinite⟩ := sumFloats_eq_ok hfinite hparts
  obtain ⟨rfl, htotalFinite⟩ := sumFloats_eq_ok hrecomputed htotal
  obtain ⟨-, htopExact, htopRounded⟩ := within_of_isClose ht hshown hclose
  have hexact := lines_exact hwithin
  have hrounded := lines_rounded hwithin
  rw [← sumSteps_perm hperm] at hexact hrounded
  have hchain := abs_sub_stepsFloat_le (stepsOf shown) ledger.penalties (recomputed lines)
  have hreportedSum := sumRounding_le hpartsFinite
  have hrecomputedSum := sumRounding_le htotalFinite
  refine ⟨htotalFinite, ?_, ?_⟩
  · rw [Int.add_mul, Int.one_mul]
    unfold roundings
    omega
  · have hreportedNonneg : 0 ≤ sumRounding ledger.penalties := abs_nonneg _
    have hrecomputedNonneg : 0 ≤ sumRounding (recomputed lines) := abs_nonneg _
    rw [Int.add_mul, Int.one_mul]
    omega

/-- The soft constraints are all checked, their names are distinct, and the lines of the ledger name
no others; all its penalties are finite. -/
structure Covers (ledger : ReportedLedger) (r : Reconciliation) : Prop where
  checked : ∀ ev ∈ r.soft, ev.checked = true
  distinct : (r.soft.map (·.constraint.label)).Nodup
  named : ∀ p ∈ ledger, p.1 ∈ r.soft.map (·.constraint.label)
  finite : ∀ x ∈ ledger.penalties, IsFinite x

/-- A total that is accepted is near the recomputed one. Without an error, and with a ledger whose
lines are those of the soft constraints, the two totals are apart by one tolerance for each of these
constraints and one for the total at most, but for what rounding takes from the sums and differences
that are compared; and of each of them it takes half of the last digit at most. -/
theorem accepted_total_near {engine : Engine} {league result : Json} {index : Index}
    {r : Reconciliation} {shown : Float} (hfix : k.fix = false)
    (ht : ofFloat k.tolerance = .finite t)
    (h : k.reconcile engine league result index = .ok r) (haccepted : r.errors = [])
    (hread : ReportedLedger.read (result.field "scores") = .ok ledger)
    (hcovers : Covers ledger r) (hshown : r.reportedTotal = some shown)
    (hfinite : IsFinite shown) :
    IsFinite r.totalPenalty ∧
    |stepsOf shown - stepsOf r.totalPenalty| ≤
      (r.soft.length + 1) * t + roundings ledger shown r.soft ∧
    (2 ^ 53 - 1) * |stepsOf shown - stepsOf r.totalPenalty| ≤
      2 ^ 53 * ((r.soft.length + 1) * t) + |sumSteps ledger.penalties| +
        |sumSteps (recomputed r.soft)| := by
  obtain ⟨evaluations, hevaluations, hr⟩ := bind_eq_ok.mp h
  obtain ⟨ledger', hr⟩ := reconcileWith_eq_ok hr
  cases hr.same
  cases hr.read.symm.trans hread
  obtain ⟨lines, -, hledger⟩ := ReportedLedger.read_eq_ok.mp hread
  have hnone : r.differences = [] := by
    obtain ⟨-, hdifferences⟩ := List.append_eq_nil_iff.mp haccepted
    rw [hr.fixing, hfix] at hdifferences
    exact List.map_eq_nil_iff.mp hdifferences
  obtain ⟨htotal, hlines⟩ := hr.differences_eq_nil.mp hnone
  have hsum := hr.sum
  rw [hshown] at htotal
  rw [Reconciliation.linesOf_eq_soft hcovers.checked] at hlines hsum
  have hnames : (ledger.map (·.1)).Nodup := hledger ▸ nodup_firstOfEach _
  exact total_within ht hnames hcovers.distinct hcovers.named hfinite hcovers.finite hsum htotal
    hlines

instance (ledger : ReportedLedger) (r : Reconciliation) : Decidable (Covers ledger r) :=
  decidable_of_iff
    ((∀ ev ∈ r.soft, ev.checked = true) ∧ (r.soft.map (·.constraint.label)).Nodup ∧
      (∀ p ∈ ledger, p.1 ∈ r.soft.map (·.constraint.label)) ∧ ∀ x ∈ ledger.penalties, IsFinite x)
    ⟨fun ⟨hchecked, hdistinct, hnamed, hfinite⟩ => ⟨hchecked, hdistinct, hnamed, hfinite⟩,
      fun h => ⟨h.checked, h.distinct, h.named, h.finite⟩⟩

/-- A keeper that corrects nothing. -/
def reader : Scorekeeper := { now := "2025-01-02T03:04:05+00:00" }

/-- A soft constraint on the balance of home and away games. -/
def evenly (id : String) : Json :=
  .obj [("id", .str id), ("type", .str "soft"), ("ruleId", .str "home_away_balance"),
    ("penalty", .obj [("model", .str "linear"), ("weight", .float 0.1)])]

/-- A league whose two constraints ask for the same. -/
def evenLeague : Json :=
  .obj [("teams", .arr [.obj [("id", .str "A")]]),
    ("fixtures", .arr [.obj [("id", .str "F"), ("participants", .arr [.str "A", .str "B"])]]),
    ("constraints", .arr [evenly "first", evenly "second"])]

def reportedLine (id : String) : Json :=
  .obj [("constraintId", .str id), ("violations", .int 1), ("penalty", .float 0.0999995)]

/-- A result that reports a little less than what is due for each constraint, and in all. -/
def reportedResult : Json :=
  .obj [("feasible", .bool true), ("assignments", .arr [.obj [("fixtureId", .str "F")]]),
    ("scores", .obj [("totalPenalty", .float 0.1999992),
      ("byConstraint", .arr [reportedLine "second", reportedLine "first"])])]

/-- Reconciles a result, and reads the ledger that it reports. -/
def readReported (engine : Engine) : Except Fault (Reconciliation × ReportedLedger) := do
  let index ← Index.build (.whole 90) "UTC" evenLeague reportedResult
  let r ← reader.reconcile engine evenLeague reportedResult index
  .ok (r, ← ReportedLedger.read (reportedResult.field "scores"))

theorem accepted_total_near_evenLeague :
    ∃ index r shown, Index.build (.whole 90) "UTC" evenLeague reportedResult = .ok index ∧
      reader.reconcile { catalog := .default } evenLeague reportedResult index = .ok r ∧
      r.errors = [] ∧ r.reportedTotal = some shown ∧
      |stepsOf shown - stepsOf r.totalPenalty| ≤ (2 + 1) * stepsOf 1e-6 := by
  obtain ⟨⟨r, ledger⟩, hrun, hview⟩ := exists_ok_of_toOption_map
    (x := readReported { catalog := .default })
    (f := fun p => (p.1.errors.isEmpty, decide (Covers p.2 p.1), p.1.soft.length,
      p.1.reportedTotal.map fun shown => (decide (IsFinite shown), roundings p.2 shown p.1.soft)))
    (b := (true, true, 2, some (true, 0))) (by decide +kernel)
  simp only [Prod.mk.injEq, List.isEmpty_iff, decide_eq_true_eq] at hview
  obtain ⟨haccepted, hcovers, hlength, hreported⟩ := hview
  obtain ⟨shown, hshown, hreported⟩ := Option.map_eq_some_iff.mp hreported
  obtain ⟨hfinite, hroundings⟩ := Prod.mk.inj hreported
  obtain ⟨index, hindex, hrun⟩ := bind_eq_ok.mp hrun
  obtain ⟨first, hfirst, hrun⟩ := bind_eq_ok.mp hrun
  obtain ⟨read, hread, hrun⟩ := bind_eq_ok.mp hrun
  cases Except.ok.inj hrun
  have htolerance : ofFloat reader.tolerance = .finite (stepsOf 1e-6) := by decide +kernel
  obtain ⟨-, hnear, -⟩ := accepted_total_near rfl htolerance hfirst haccepted hread hcovers hshown
    (of_decide_eq_true hfinite)
  rw [hlength, hroundings, Int.add_zero] at hnear
  exact ⟨index, r, shown, hindex, hfirst, haccepted, hshown, hnear⟩

end Scorekeeper
end LeagueAudit
