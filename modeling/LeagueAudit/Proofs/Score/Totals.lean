import LeagueAudit.Proofs.Evaluation.Ending
import LeagueAudit.Proofs.Score.Accepted
import LeagueAudit.Proofs.Score.Repeated

/-!
The check of a reported total. What it is compared with is the sum over the first line of each name:
lines that repeat a name, or have none, count for nothing. So a total is held against the reported
lines only where the lines that are left out make no difference.
-/
namespace LeagueAudit

namespace Exact

variable {tolerance x y : Float} {t : Int}

theorem not_lt_zero (ht : ofFloat tolerance = .finite t) (hnonneg : 0 ≤ t) : ¬tolerance < 0.0 := by
  rw [lt_iff, ht, ofFloat_zero, compare?_finite, Option.some.injEq, compare_lt_iff_lt]
  exact Int.not_lt.mpr hnonneg

theorem beq_iff_stepsOf (hx : IsFinite x) (hy : IsFinite y) :
    (x == y) = true ↔ stepsOf x = stepsOf y := by
  rw [beq_iff, hx, hy, compare?_finite, Option.some.injEq, compare_eq_iff_eq]

theorem isClose_eq_true_iff (h : ¬tolerance < 0.0) : isClose tolerance x y = .ok true ↔
    (x == y) = true ∨ (x.isInf = false ∧ y.isInf = false) ∧
      ((y - x).abs ≤ tolerance ∨ (y - x).abs ≤ 0.0) := by
  unfold isClose
  rw [if_neg h]
  cases x == y <;> cases x.isInf <;> cases y.isInf <;> simp

theorem abs_le_iff (ht : ofFloat tolerance = .finite t) :
    x.abs ≤ tolerance ↔ ∃ d, ofFloat x = .finite d ∧ |d| ≤ t := by
  rw [le_iff, ofFloat_abs, ht]
  cases ofFloat x with
  | finite d =>
    rw [abs, isLE_compare?_finite]
    simp
  | infinite | undefined => simp [abs, compare?]

/-- What agrees with a finite number is finite, and equals it or differs by the tolerance at most
once the difference is rounded. -/
theorem isClose_iff (ht : ofFloat tolerance = .finite t) (hnonneg : 0 ≤ t) (hy : IsFinite y) :
    isClose tolerance x y = .ok true ↔ IsFinite x ∧
      (stepsOf x = stepsOf y ∨ ∃ d, ofFloat (y - x) = .finite d ∧ |d| ≤ t) := by
  have hzero : (∃ d, ofFloat (y - x) = .finite d ∧ |d| ≤ 0) →
      ∃ d, ofFloat (y - x) = .finite d ∧ |d| ≤ t := fun ⟨d, hd, hle⟩ => ⟨d, hd, by omega⟩
  rw [isClose_eq_true_iff (not_lt_zero ht hnonneg), abs_le_iff ht, abs_le_iff ofFloat_zero,
    or_iff_left_of_imp hzero]
  -- An infinite x is ruled out before its difference to y is taken, an undefined one by it.
  cases hvalue : ofFloat x with
  | finite n =>
    have hx := isFinite_of_eq hvalue
    rw [beq_iff_stepsOf hx hy, isInf_eq_false hx, isInf_eq_false hy]
    simp [hx]
  | infinite negative =>
    have hx : ¬IsFinite x := by simp [IsFinite, hvalue]
    have hinf : x.isInf = true := (isInf_iff x).mpr ⟨negative, hvalue⟩
    rw [beq_iff, hvalue, hy, hinf]
    cases negative <;> simp [compare?, hx]
  | undefined =>
    have hx : ¬IsFinite x := by simp [IsFinite, hvalue]
    rw [beq_iff, hvalue, ofFloat_sub_undefined (.inr hvalue)]
    simp [compare?, hx]

theorem isFinite_of_stepsOf_ne_zero (h : stepsOf x ≠ 0) : IsFinite x := by
  cases hvalue : ofFloat x with
  | finite n => exact isFinite_of_eq hvalue
  | infinite | undefined => simp [stepsOf, hvalue] at h

theorem lt_of_not_isClose (ht : ofFloat tolerance = .finite t) (hnonneg : 0 ≤ t) (hx : IsFinite x)
    (hy : IsFinite y) (hsub : IsFinite (y - x)) (h : isClose tolerance x y ≠ .ok true) :
    t < |stepsOf x - stepsOf y| + gapRounding x y := by
  rw [ne_eq, isClose_iff ht hnonneg hy] at h
  have hmore : t < |stepsOf (y - x)| :=
    Int.not_le.mp fun hle => h ⟨hx, .inr ⟨_, hsub, hle⟩⟩
  have htriangle := abs_sub_le (stepsOf (y - x)) (stepsOf y - stepsOf x) 0
  rw [sub_zero, sub_zero, abs_sub_comm (stepsOf y)] at htriangle
  unfold gapRounding
  omega

/-- A difference that rounding takes nothing from is compared as it is. -/
theorem isClose_iff_of_gapRounding (ht : ofFloat tolerance = .finite t) (hnonneg : 0 ≤ t)
    (hy : IsFinite y) (hgap : gapRounding x y = 0) :
    isClose tolerance x y = .ok true ↔ IsFinite x ∧ |stepsOf x - stepsOf y| ≤ t := by
  have hsub : stepsOf (y - x) = stepsOf y - stepsOf x := Int.sub_eq_zero.mp (abs_eq_zero.mp hgap)
  rw [isClose_iff ht hnonneg hy, abs_sub_comm]
  refine and_congr_right fun _ => ?_
  constructor
  · rintro (heq | ⟨d, hd, hle⟩)
    · rwa [heq, Int.sub_self, abs_zero]
    · rwa [← hsub, stepsOf_eq hd]
  · intro hle
    -- A difference that is beyond the doubles would be rounded, unless the two are equal.
    rcases eq_or_ne (stepsOf x) (stepsOf y) with heq | hne
    · exact .inl heq
    · have hfinite : IsFinite (y - x) := isFinite_of_stepsOf_ne_zero (by omega)
      exact .inr ⟨_, hfinite, hsub ▸ hle⟩

end Exact

namespace Reconciliation

variable {r : Reconciliation} {engine : Engine} {index : Index} {docs : List Json}

/-- An entry of a check that no evaluation makes is that of a difference or of an unknown line. -/
theorem exists_entry_iff (check : String)
    (h : engine.evaluateAll index docs = .ok r.evaluations)
    (herrors : check ∉ Evaluation.errorChecks)
    (hwarnings : check ∉ Evaluation.warningChecks) (about : Json → Prop) :
    (∃ e ∈ r.errors ++ r.warnings, e.check = check ∧ about e.entities) ↔
      (∃ d ∈ r.differences, d.check = check ∧ about (d.entry "").entities) ∨
        ∃ id ∈ r.unknown, (unknownEntry id).check = check ∧ about (unknownEntry id).entities := by
  unfold errors warnings
  constructor
  · rintro ⟨e, he, rfl, habout⟩
    -- Evaluations and differences stand among the errors and the warnings, unknown lines last.
    simp only [List.mem_append, List.mem_flatMap, List.mem_map] at he
    rcases he with (⟨ev, hev, he⟩ | he) | (⟨ev, hev, he⟩ | he) | ⟨id, hid, rfl⟩
    · exact absurd (Engine.check_of_error_of_mem h hev he) herrors
    · split at he
      · cases he
      · obtain ⟨d, hd, rfl⟩ := List.mem_map.mp he
        exact .inl ⟨d, hd, rfl, habout⟩
    · exact absurd (Engine.check_of_warning_of_mem h hev he) hwarnings
    · split at he
      · obtain ⟨d, hd, rfl⟩ := List.mem_map.mp he
        exact .inl ⟨d, hd, rfl, habout⟩
      · cases he
    · exact .inr ⟨id, hid, rfl, habout⟩
  · rintro (⟨d, hd, hcheck, habout⟩ | ⟨id, hid, hcheck, habout⟩)
    · cases r.fix with
      | false => exact ⟨d.entry "", by simpa using .inr (.inl ⟨d, hd, rfl⟩), hcheck, habout⟩
      | true =>
        exact ⟨d.entry correctedMark, by simpa using .inr (.inr (.inl ⟨d, hd, rfl⟩)), hcheck,
          habout⟩
    · have hunknown : unknownEntry id ∈ r.unknown.map unknownEntry := List.mem_map_of_mem hid
      exact ⟨unknownEntry id, by simp [hunknown], hcheck, habout⟩

/-- A reconciliation flags the reported total, as an error or, where it corrects, as a warning. -/
def FlagsTotal (r : Reconciliation) : Prop :=
  ∃ e ∈ r.errors ++ r.warnings, e.check = "ScoringInconsistency"

/-- No evaluation and no unknown line warns of the total. -/
theorem flagsTotal_iff_exists (h : engine.evaluateAll index docs = .ok r.evaluations) :
    FlagsTotal r ↔ ∃ d ∈ r.differences, d.check = "ScoringInconsistency" := by
  have hentries := exists_entry_iff "ScoringInconsistency" h (by decide) (by decide) fun _ => True
  simpa [FlagsTotal, unknownEntry] using hentries

end Reconciliation

namespace ReportedLine

/-- The penalties of lines; one that is not given is zero. -/
def penalties (lines : List ReportedLine) : List Float :=
  lines.map fun line => line.penalty.getD 0.0

/-- The penalties that count: of the first line of each name. -/
def firstPenalties (lines : List ReportedLine) : List Float :=
  ReportedLedger.penalties (firstOfEach (named lines))

variable {lines : List ReportedLine}

theorem mem_penalties_of_mem_firstPenalties {x : Float} (h : x ∈ firstPenalties lines) :
    x ∈ penalties lines := by
  obtain ⟨p, hp, rfl⟩ := List.mem_map.mp h
  obtain ⟨line, hline, hname⟩ := List.mem_filterMap.mp ((firstOfEach_sublist _).subset hp)
  obtain ⟨name, -, rfl⟩ := Option.map_eq_some_iff.mp hname
  exact List.mem_map_of_mem hline

theorem map_named (h : ∀ line ∈ lines, line.name? ≠ none) : (named lines).map (·.2) = lines := by
  induction lines with
  | nil => rfl
  | cons line rest ih =>
    obtain ⟨name, hname⟩ := Option.ne_none_iff_exists'.mp (h line List.mem_cons_self)
    have hrest := ih fun line hline => h line (List.mem_cons_of_mem _ hline)
    rw [named_cons, hname, List.map_cons, hrest]

/-- Lines that all have names, and distinct ones, all count. -/
theorem firstPenalties_eq (hnamed : ∀ line ∈ lines, line.name? ≠ none)
    (hdistinct : ((named lines).map (·.1)).Nodup) : firstPenalties lines = penalties lines := by
  rw [firstPenalties, firstOfEach_of_nodup hdistinct, ReportedLedger.penalties]
  conv_rhs => rw [penalties, ← map_named hnamed, List.map_map]
  rfl

end ReportedLine

namespace Scorekeeper

open Exact Reconciliation ReportedLine

variable {k : Scorekeeper} {ledger : ReportedLedger} {evaluations : List Evaluation}
  {result : Json} {r : Reconciliation}

theorem check_of_compareLine {ev : Evaluation} {differences : List Difference}
    (h : k.compareLine ledger ev = .ok differences) {d : Difference} (hd : d ∈ differences) :
    d.check ≠ "ScoringInconsistency" := by
  rcases compareLine_eq_ok h with ⟨-, rfl⟩ | ⟨-, rfl | ⟨numbers, rfl⟩⟩
  · cases List.mem_singleton.mp hd
    simp [Difference.check]
  · cases hd
  · cases List.mem_singleton.mp hd
    simp [Difference.check]

theorem check_of_compareTotal {scores : Json} {total : Option Float}
    {differences : List Difference} (h : k.compareTotal scores total ledger = .ok differences)
    {d : Difference} (hd : d ∈ differences) : d.check = "ScoringInconsistency" := by
  unfold compareTotal at h
  split at h
  · cases h
    cases hd
  · obtain ⟨parts, -, h⟩ := bind_eq_ok.mp h
    obtain ⟨close, -, h⟩ := bind_eq_ok.mp h
    split at h
    · cases h
      cases hd
    · cases h
      cases List.mem_singleton.mp hd
      rfl

/-- The total is flagged exactly when it differs from the sum of the lines that count. -/
theorem flagsTotal_iff {engine : Engine} {league : Json} {index : Index}
    (h : k.reconcile engine league result index = .ok r)
    (hread : ReportedLedger.read (result.field "scores") = .ok ledger) :
    FlagsTotal r ↔ ¬k.TotalAgrees ledger r.reportedTotal := by
  obtain ⟨evaluations, hevaluations, hr⟩ := bind_eq_ok.mp h
  obtain ⟨ledger', hr⟩ := reconcileWith_eq_ok hr
  cases hr.same
  cases hr.read.symm.trans hread
  obtain ⟨total, others, htotal, hothers, hdifferences⟩ := hr.compared
  rw [flagsTotal_iff_exists hevaluations, ← compareTotal_eq_nil, htotal, Except.ok.injEq,
    hdifferences]
  constructor
  · rintro ⟨d, hd, hcheck⟩ rfl
    obtain ⟨differences, hmem, hd⟩ := List.mem_flatten.mp hd
    obtain ⟨ev, -, hline⟩ := exists_source_of_mapM_eq_ok hothers hmem
    exact check_of_compareLine hline hd hcheck
  · intro hsome
    obtain ⟨d, hd⟩ := List.exists_mem_of_ne_nil _ hsome
    exact ⟨d, List.mem_append_left _ hd, check_of_compareTotal htotal hd⟩

/-- A total that is not reported is not checked. -/
theorem not_flagsTotal_of_unreported {engine : Engine} {league : Json} {index : Index}
    (h : k.reconcile engine league result index = .ok r)
    (hnone : reportedTotal (result.field "scores") = .ok none) : ¬FlagsTotal r := by
  obtain ⟨evaluations, -, hr⟩ := bind_eq_ok.mp h
  obtain ⟨ledger, hr⟩ := reconcileWith_eq_ok hr
  rw [flagsTotal_iff h hr.read, Except.ok.inj (hr.reported.symm.trans hnone)]
  simp [TotalAgrees]

/-- Whatever a reconciliation does apart from checking the total comes to an end: the recomputed
penalties are added up, the counts fit doubles, and a correction is written if there is one. -/
structure Completes (k : Scorekeeper) (result : Json) (ledger : ReportedLedger)
    (evaluations : List Evaluation) : Prop where
  sum : ∃ sum, sumFloats ((linesOf evaluations).map (·.penalty)) = .ok sum
  counts : ∀ ev ∈ linesOf evaluations, ∃ count, intToFloat ev.count = .ok count
  corrected : k.fix = true → ∃ fixed, k.correct result ledger evaluations = .ok fixed

theorem exists_reconcileWith_of_completes {shown : Float} (htolerance : ¬k.tolerance < 0.0)
    (hread : ReportedLedger.read (result.field "scores") = .ok ledger)
    (hshown : reportedTotal (result.field "scores") = .ok (some shown))
    (h : k.Completes result ledger evaluations) :
    (∃ r, k.reconcileWith result evaluations = .ok r) ↔ ∃ parts, ledger.sum = .ok parts := by
  constructor
  · rintro ⟨r, hr⟩
    obtain ⟨ledger', hr⟩ := reconcileWith_eq_ok hr
    cases hr.read.symm.trans hread
    obtain ⟨total, others, hcompared, -, -⟩ := hr.compared
    rw [Except.ok.inj (hr.reported.symm.trans hshown)] at hcompared
    exact (of_compareTotal hcompared).2
  · rintro ⟨parts, hparts⟩
    obtain ⟨sum, hsum⟩ := h.sum
    obtain ⟨total, htotal⟩ :=
      (exists_compareTotal_iff htolerance (result.field "scores") (some shown)).mpr
        fun _ => ⟨parts, hparts⟩
    obtain ⟨others, hothers⟩ :=
      (exists_compareLines_iff htolerance).mpr fun ev hev _ => h.counts ev hev
    obtain ⟨r, hr, -⟩ := exists_reconcileWith hsum hread hshown htotal hothers h.corrected
    exact ⟨r, hr⟩

/-- A total is beyond the tolerance from the sum of the terms; one that is not finite always is. -/
def Misses (t : Int) (shown : Float) (terms : List Float) : Prop :=
  IsFinite shown → t < |stepsOf shown - sumSteps terms|

/-- What rounding takes from the sum of the terms and from the difference to a total. -/
def totalRounding (shown : Float) (terms : List Float) : Int :=
  sumRounding terms + gapRounding shown (stepsFloat (sumSteps terms))

variable {lines : List ReportedLine} {shown : Float} {t : Int} {engine : Engine} {league : Json}
  {index : Index}

theorem agrees_near (ht : ofFloat k.tolerance = .finite t) {terms : List Float}
    (hterms : IsFinite (stepsFloat (sumSteps terms))) (hnonneg : 0 ≤ t)
    (h : k.Agrees shown (stepsFloat (sumSteps terms))) :
    IsFinite shown ∧ |stepsOf shown - sumSteps terms| ≤ t + totalRounding shown terms := by
  have hshown := ((isClose_iff ht hnonneg hterms).mp h).1
  have hwithin := (within_of_isClose ht hshown h).exact
  have htriangle := abs_sub_le (stepsOf shown) (stepsOf (stepsFloat (sumSteps terms)))
    (sumSteps terms)
  refine ⟨hshown, ?_⟩
  unfold totalRounding sumRounding
  omega

theorem misses_far (ht : ofFloat k.tolerance = .finite t) {terms : List Float}
    (hterms : IsFinite (stepsFloat (sumSteps terms))) (hnonneg : 0 ≤ t) (hshown : IsFinite shown)
    (hsub : IsFinite (stepsFloat (sumSteps terms) - shown))
    (h : ¬k.Agrees shown (stepsFloat (sumSteps terms))) :
    t < |stepsOf shown - sumSteps terms| + totalRounding shown terms := by
  have hless := lt_of_not_isClose ht hnonneg hshown hterms hsub h
  have htriangle := abs_sub_le (stepsOf shown) (sumSteps terms)
    (stepsOf (stepsFloat (sumSteps terms)))
  rw [abs_sub_comm (sumSteps terms)] at htriangle
  unfold totalRounding sumRounding
  omega

theorem not_agrees_iff_misses (ht : ofFloat k.tolerance = .finite t) {terms : List Float}
    (hterms : IsFinite (stepsFloat (sumSteps terms))) (hnonneg : 0 ≤ t)
    (hexact : totalRounding shown terms = 0) :
    ¬k.Agrees shown (stepsFloat (sumSteps terms)) ↔ Misses t shown terms := by
  have hsum : 0 ≤ sumRounding terms := abs_nonneg _
  have hgap : 0 ≤ gapRounding shown (stepsFloat (sumSteps terms)) := abs_nonneg _
  unfold totalRounding at hexact
  have hsame : stepsOf (stepsFloat (sumSteps terms)) = sumSteps terms :=
    Int.sub_eq_zero.mp (abs_eq_zero.mp (show sumRounding terms = 0 by omega))
  unfold Agrees Misses
  rw [isClose_iff_of_gapRounding ht hnonneg hterms (by omega), hsame, not_and, Int.not_le]

/-- Of the lines that a result reports, the first one of each name counts for the total. -/
theorem flagsTotal_iff_firstPenalties (h : k.reconcile engine league result index = .ok r)
    (hlines : ReportedLedger.linesOf (result.field "scores") = .ok lines)
    (hfinite : ∀ x ∈ penalties lines, IsFinite x)
    (hshown : reportedTotal (result.field "scores") = .ok (some shown)) :
    IsFinite (stepsFloat (sumSteps (firstPenalties lines))) ∧
      (FlagsTotal r ↔ ¬k.Agrees shown (stepsFloat (sumSteps (firstPenalties lines)))) := by
  have hread := ReportedLedger.read_eq_ok.mpr ⟨lines, hlines, rfl⟩
  rw [flagsTotal_iff h hread]
  obtain ⟨evaluations, -, hr⟩ := bind_eq_ok.mp h
  obtain ⟨ledger, hr⟩ := reconcileWith_eq_ok hr
  cases hr.read.symm.trans hread
  have hreported := Except.ok.inj (hr.reported.symm.trans hshown)
  obtain ⟨total, others, hcompared, -, -⟩ := hr.compared
  rw [hreported] at hcompared ⊢
  obtain ⟨-, parts, hparts⟩ := of_compareTotal hcompared
  obtain ⟨rfl, hsum⟩ :=
    sumFloats_eq_ok (fun x hx => hfinite x (mem_penalties_of_mem_firstPenalties hx)) hparts
  refine ⟨hsum, not_congr ?_⟩
  simp [TotalAgrees, hparts, firstPenalties]

/-- A reconciliation comes to an end when the penalties that count are added up. -/
theorem exists_reconcile_iff (htolerance : ¬k.tolerance < 0.0)
    (hlines : ReportedLedger.linesOf (result.field "scores") = .ok lines)
    (hshown : reportedTotal (result.field "scores") = .ok (some shown))
    (hevaluations : engine.evaluateAll index (league.field "constraints").items = .ok evaluations)
    (hcompletes : k.Completes result (firstOfEach (named lines)) evaluations) :
    (∃ r, k.reconcile engine league result index = .ok r) ↔
      ∃ parts, sumFloats (firstPenalties lines) = .ok parts := by
  have hread := ReportedLedger.read_eq_ok.mpr ⟨lines, hlines, rfl⟩
  rw [reconcile_eq hevaluations]
  exact exists_reconcileWith_of_completes htolerance hread hshown hcompletes

/-- How the total of a result is checked: against the sum over the first line of each name. It is
flagged when it is off by more than the tolerance, but for what rounding takes, and if that is
nothing, only then; and then the check is one against all lines exactly where leaving some of them
out makes no difference. -/
structure ChecksTotal (k : Scorekeeper) (engine : Engine) (league result : Json) (index : Index)
    (t : Int) (shown : Float) (lines : List ReportedLine) : Prop where
  returns : ∀ evaluations, engine.evaluateAll index (league.field "constraints").items =
      .ok evaluations → k.Completes result (firstOfEach (named lines)) evaluations →
    ((∃ r, k.reconcile engine league result index = .ok r) ↔
      ∃ parts, sumFloats (firstPenalties lines) = .ok parts)
  near : ∀ r, k.reconcile engine league result index = .ok r → ¬FlagsTotal r →
    IsFinite shown ∧ |stepsOf shown - sumSteps (firstPenalties lines)| ≤
      t + totalRounding shown (firstPenalties lines)
  far : ∀ r, k.reconcile engine league result index = .ok r → FlagsTotal r → IsFinite shown →
    IsFinite (stepsFloat (sumSteps (firstPenalties lines)) - shown) →
    t < |stepsOf shown - sumSteps (firstPenalties lines)| +
      totalRounding shown (firstPenalties lines)
  exact : totalRounding shown (firstPenalties lines) = 0 →
    ∀ r, k.reconcile engine league result index = .ok r →
      (FlagsTotal r ↔ Misses t shown (firstPenalties lines)) ∧
      ((FlagsTotal r ↔ Misses t shown (penalties lines)) ↔
        (Misses t shown (firstPenalties lines) ↔ Misses t shown (penalties lines)))
  distinct : (∀ line ∈ lines, line.name? ≠ none) → ((named lines).map (·.1)).Nodup →
    firstPenalties lines = penalties lines

theorem checksTotal (engine : Engine) (league : Json) (index : Index)
    (ht : ofFloat k.tolerance = .finite t) (hnonneg : 0 ≤ t)
    (hlines : ReportedLedger.linesOf (result.field "scores") = .ok lines)
    (hfinite : ∀ x ∈ penalties lines, IsFinite x)
    (hshown : reportedTotal (result.field "scores") = .ok (some shown)) :
    k.ChecksTotal engine league result index t shown lines where
  returns evaluations hevaluations hcompletes :=
    exists_reconcile_iff (not_lt_zero ht hnonneg) hlines hshown hevaluations hcompletes
  near r hr hflags := by
    obtain ⟨hsum, hiff⟩ := flagsTotal_iff_firstPenalties hr hlines hfinite hshown
    exact agrees_near ht hsum hnonneg (not_not.mp fun hnot => hflags (hiff.mpr hnot))
  far r hr hflags htotal hsub := by
    obtain ⟨hsum, hiff⟩ := flagsTotal_iff_firstPenalties hr hlines hfinite hshown
    exact misses_far ht hsum hnonneg htotal hsub (hiff.mp hflags)
  exact hexact r hr := by
    obtain ⟨hsum, hiff⟩ := flagsTotal_iff_firstPenalties hr hlines hfinite hshown
    rw [not_agrees_iff_misses ht hsum hnonneg hexact] at hiff
    exact ⟨hiff, by rw [hiff]⟩
  distinct := firstPenalties_eq

/-- A league without games. -/
def emptyLeague : Json := .obj [("fixtures", .arr [])]

/-- A result that reports a line twice, and its total. -/
def repeatedResult : Json :=
  let line := .obj [("constraintId", .str "S1"), ("violations", .int 1), ("penalty", .float 1.0)]
  .obj [("scores", .obj [("totalPenalty", .float 2.0), ("byConstraint", .arr [line, line])])]

/-- Reconciles a result for a league without games, and reads lines of it. -/
def reconcileLines (result : Json) (lines : Except Fault (List ReportedLine)) :
    Except Fault (Reconciliation × List ReportedLine) := do
  let index ← Index.build (.whole 90) "UTC" emptyLeague result
  let r ← reader.reconcile { catalog := .default } emptyLeague result index
  .ok (r, ← lines)

theorem exists_reconcileLines {lines : Except Fault (List ReportedLine)}
    {check : Reconciliation × List ReportedLine → Bool}
    (h : (reconcileLines result lines).toOption.map check = some true) :
    ∃ index r read, Index.build (.whole 90) "UTC" emptyLeague result = .ok index ∧
      reader.reconcile { catalog := .default } emptyLeague result index = .ok r ∧
      lines = .ok read ∧ check (r, read) = true := by
  obtain ⟨⟨r, read⟩, hrun, hview⟩ := exists_ok_of_toOption_map h
  obtain ⟨index, hindex, hrun⟩ := bind_eq_ok.mp hrun
  obtain ⟨first, hfirst, hrun⟩ := bind_eq_ok.mp hrun
  obtain ⟨second, hsecond, hrun⟩ := bind_eq_ok.mp hrun
  cases Except.ok.inj hrun
  exact ⟨index, r, read, hindex, hfirst, hsecond, hview⟩

theorem flagsTotal_of_any {r : Reconciliation}
    (h : r.errors.any (·.check = "ScoringInconsistency") = true) : FlagsTotal r := by
  obtain ⟨e, he, hcheck⟩ := List.any_eq_true.mp h
  exact ⟨e, List.mem_append_left _ he, of_decide_eq_true hcheck⟩

theorem exists_reconcile_repeatedResult :
    ∃ index r lines, Index.build (.whole 90) "UTC" emptyLeague repeatedResult = .ok index ∧
      reader.reconcile { catalog := .default } emptyLeague repeatedResult index = .ok r ∧
      ReportedLedger.linesOf (repeatedResult.field "scores") = .ok lines ∧
      (∀ x ∈ penalties lines, IsFinite x) ∧ stepsOf 2.0 = sumSteps (penalties lines) ∧
      totalRounding 2.0 (firstPenalties lines) = 0 ∧ FlagsTotal r := by
  have hrun : (reconcileLines repeatedResult
      (ReportedLedger.linesOf (repeatedResult.field "scores"))).toOption.map (fun (r, lines) =>
        r.errors.any (·.check = "ScoringInconsistency") &&
          decide ((∀ x ∈ penalties lines, IsFinite x) ∧ stepsOf 2.0 = sumSteps (penalties lines) ∧
            totalRounding 2.0 (firstPenalties lines) = 0)) = some true := by decide +kernel
  obtain ⟨index, r, lines, hindex, hr, hlines, hview⟩ := exists_reconcileLines hrun
  obtain ⟨hflags, hview⟩ := Bool.and_eq_true_iff.mp hview
  obtain ⟨hfinite, hsum, hexact⟩ := of_decide_eq_true hview
  exact ⟨index, r, lines, hindex, hr, hlines, hfinite, hsum, hexact, flagsTotal_of_any hflags⟩

theorem checksTotal_repeatedResult :
    ∃ index r lines, Index.build (.whole 90) "UTC" emptyLeague repeatedResult = .ok index ∧
      reader.reconcile { catalog := .default } emptyLeague repeatedResult index = .ok r ∧
      reader.ChecksTotal { catalog := .default } emptyLeague repeatedResult index (stepsOf 1e-6) 2.0
        lines ∧ Misses (stepsOf 1e-6) 2.0 (firstPenalties lines) := by
  obtain ⟨index, r, lines, hindex, hr, hlines, hfinite, -, hexact, hflags⟩ :=
    exists_reconcile_repeatedResult
  have htolerance : ofFloat reader.tolerance = .finite (stepsOf 1e-6) := by decide +kernel
  have hshown : reportedTotal (repeatedResult.field "scores") = .ok (some 2.0) := rfl
  have htotal := checksTotal { catalog := .default } emptyLeague index htolerance
    (by decide +kernel) hlines hfinite hshown
  exact ⟨index, r, lines, hindex, hr, htotal, (htotal.exact hexact r hr).1.mp hflags⟩

/-- A total that is the sum of all lines is flagged. -/
theorem flagsTotal_repeatedResult :
    ∃ index r lines, Index.build (.whole 90) "UTC" emptyLeague repeatedResult = .ok index ∧
      reader.reconcile { catalog := .default } emptyLeague repeatedResult index = .ok r ∧
      ReportedLedger.linesOf (repeatedResult.field "scores") = .ok lines ∧
      reportedTotal (repeatedResult.field "scores") = .ok (some 2.0) ∧
      (∀ x ∈ penalties lines, IsFinite x) ∧
      ¬(FlagsTotal r ↔ Misses (stepsOf 1e-6) 2.0 (penalties lines)) := by
  obtain ⟨index, r, lines, hindex, hr, hlines, hfinite, hsum, -, hflags⟩ :=
    exists_reconcile_repeatedResult
  refine ⟨index, r, lines, hindex, hr, hlines, rfl, hfinite, fun hiff => ?_⟩
  have hmiss := hiff.mp hflags (by decide +kernel)
  rw [hsum, Int.sub_self, abs_zero] at hmiss
  exact absurd hmiss (by decide +kernel)

end Scorekeeper
end LeagueAudit
