import LeagueAudit.Proofs.Number.Summable
import LeagueAudit.Proofs.Penalty.Points
import LeagueAudit.Proofs.Score.Totals

/-!
Reported ledgers of any content. What is no number counts as zero, and a number that is not finite
is flagged. So neither ends a reconciliation; whole numbers beyond the doubles do, and numbers that
do not add up.
-/
namespace LeagueAudit

namespace Exact

variable {tolerance x y : Float}

/-- What is close to a finite number is finite. -/
theorem isFinite_of_isClose (h : isClose tolerance x y = .ok true) (hy : IsFinite y) :
    IsFinite x := by
  have htolerance : ¬tolerance < 0.0 := fun hnegative => by
    rw [isClose, if_pos hnegative] at h
    cases h
  cases hx : ofFloat x with
  | finite n => exact isFinite_of_eq hx
  | infinite negative =>
    have hinf : x.isInf = true := (isInf_iff x).mpr ⟨negative, hx⟩
    rw [isClose_eq_true_iff htolerance, beq_iff, hx, hy, hinf] at h
    cases negative <;> simp [compare?] at h
  | undefined =>
    rw [isClose_eq_true_iff htolerance, beq_iff, le_iff, le_iff, ofFloat_abs,
      ofFloat_sub_undefined (.inr hx), hx] at h
    simp [compare?, abs] at h

end Exact

namespace ReportedLine

/-- The double that a reported value counts as; what is no number counts as zero. -/
def worth : Json → Float
  | .bool b => if b then 1.0 else 0.0
  | value => (doubleOf? value).getD 0.0

/-- A line as it is taken, whatever its numbers are. -/
def taken (doc : Json) : ReportedLine where
  constraint := ((constraintNames.findSome? doc.find?).getD .null).notNull?.map Json.text
  violations := (doc.find? "violations").map worth
  penalty := (doc.find? "penalty").map worth
  explanation := doc.field "explanation"

/-- Neither number of a line is beyond the doubles. -/
def Convertible (doc : Json) : Prop :=
  ¬BeyondDoubles (doc.field "violations") ∧ ¬BeyondDoubles (doc.field "penalty")

theorem numberOrZero_eq_ok_iff {value : Json} {x : Float} :
    numberOrZero value = .ok x ↔ ¬BeyondDoubles value ∧ x = worth value := by
  cases value with
  | int n =>
    rw [beyondDoubles_int]
    unfold numberOrZero worth doubleOf? intToFloat
    cases hn : intFloat? n <;> simp [hn, eq_comm]
  | _ => simp [BeyondDoubles, numberOrZero, worth, doubleOf?, eq_comm]

theorem readNumber_eq_ok_iff {doc : Json} {key : String} {x : Option Float} :
    readNumber doc key = .ok x ↔
      ¬BeyondDoubles (doc.field key) ∧ x = (doc.find? key).map worth := by
  unfold readNumber Json.field
  cases doc.find? key with
  | none =>
    simp [BeyondDoubles, eq_comm]
  | some value =>
    simp only [map_eq_ok, numberOrZero_eq_ok_iff, Option.getD_some, Option.map_some]
    constructor
    · rintro ⟨_, ⟨hvalue, rfl⟩, rfl⟩
      exact ⟨hvalue, rfl⟩
    · rintro ⟨hvalue, rfl⟩
      exact ⟨_, ⟨hvalue, rfl⟩, rfl⟩

theorem read_eq_ok_iff (doc : Json) (line : ReportedLine) :
    read doc = .ok line ↔ Convertible doc ∧ line = taken doc := by
  unfold read
  simp only [bind_eq_ok, readNumber_eq_ok_iff]
  constructor
  · rintro ⟨_, ⟨hviolations, rfl⟩, _, ⟨hpenalty, rfl⟩, h⟩
    exact ⟨⟨hviolations, hpenalty⟩, (Except.ok.inj h).symm⟩
  · rintro ⟨⟨hviolations, hpenalty⟩, rfl⟩
    exact ⟨_, ⟨hviolations, rfl⟩, _, ⟨hpenalty, rfl⟩, rfl⟩

end ReportedLine

namespace ReportedLedger

/-- What the scores of a result give as lines. -/
def lineDocs (scores : Json) : List Json := (scores.field "byConstraint").items.filter Json.isObject

/-- The ledger as it is taken, whatever its numbers are. -/
def taken (scores : Json) : ReportedLedger :=
  firstOfEach (ReportedLine.named ((lineDocs scores).map ReportedLine.taken))

theorem read_eq_ok_iff {scores : Json} {ledger : ReportedLedger} :
    read scores = .ok ledger ↔
      (∀ doc ∈ lineDocs scores, ReportedLine.Convertible doc) ∧ ledger = taken scores := by
  rw [read_eq_ok]
  simp only [linesOf, mapM_eq_ok_iff ReportedLine.read_eq_ok_iff]
  constructor
  · rintro ⟨_, ⟨hdocs, rfl⟩, rfl⟩
    exact ⟨hdocs, rfl⟩
  · rintro ⟨hdocs, rfl⟩
    exact ⟨_, ⟨hdocs, rfl⟩, rfl⟩

end ReportedLedger

namespace Scorekeeper

open Exact Reconciliation ReportedLine

/-- The total that is reported, if it is a number. -/
def shownTotal (value : Json) : Option Float := if value.isNumber then doubleOf? value else none

variable {k : Scorekeeper} {ledger : ReportedLedger} {evaluations : List Evaluation}
  {result : Json} {r : Reconciliation}

theorem reportedTotal_eq_ok_iff {scores : Json} {total : Option Float} :
    reportedTotal scores = .ok total ↔
      ¬BeyondDoubles (scores.field "totalPenalty") ∧
        total = shownTotal (scores.field "totalPenalty") := by
  unfold reportedTotal shownTotal
  generalize scores.field "totalPenalty" = value
  cases value with
  | int n =>
    rw [beyondDoubles_int]
    unfold intToFloat
    cases hn : intFloat? n <;> simp [bind, Except.bind, doubleOf?, Json.isNumber, hn, eq_comm]
  | _ => simp [BeyondDoubles, doubleOf?, Json.isNumber, eq_comm]

theorem isSome_shownTotal {value : Json} (h : ¬BeyondDoubles value) :
    (shownTotal value).isSome = value.isNumber := by
  cases value with
  | int n =>
    have hn : (intFloat? n).isSome = true :=
      Option.isSome_iff_ne_none.mpr (mt beyondDoubles_int.mpr h)
    exact hn
  | _ => rfl

theorem exists_compareTotal_iff_addsUp (htolerance : ¬k.tolerance < 0.0) {scores : Json}
    {total : Option Float} : (∃ differences, k.compareTotal scores total ledger = .ok differences) ↔
      (total.isSome → AddsUp ledger.penalties) :=
  (exists_compareTotal_iff htolerance scores total).trans
    (imp_congr_right fun _ => exists_sumFloats_iff)

theorem exists_compareLines_iff_fit (htolerance : ¬k.tolerance < 0.0) {lines : List Evaluation} :
    (∃ others, lines.mapM (k.compareLine ledger) = .ok others) ↔
      ∀ ev ∈ lines, (ledger.lookup ev.constraint.label).isSome → ¬BeyondDoubles (.int ev.count) :=
  (exists_compareLines_iff htolerance).trans
    (forall₂_congr fun _ _ => imp_congr_right fun _ => exists_intToFloat_iff)

theorem exists_correct_iff : (∃ fixed, k.correct result ledger evaluations = .ok fixed) ↔
    result.isObject = true ∧ AddsUp ((linesOf evaluations).map (·.penalty) ++
      penalties (keptLines ledger evaluations)) := by
  rw [← exists_sumFloats_iff]
  simp only [correct_eq_ok_iff]
  constructor
  · rintro ⟨_, members, total, rfl, htotal, -⟩
    exact ⟨rfl, total, htotal⟩
  · rintro ⟨hobject, total, htotal⟩
    cases result with
    | obj members => exact ⟨_, members, total, rfl, htotal, rfl⟩
    | _ => cases hobject

/-- A result can be reconciled with the recomputed lines: no reported number that is read, and no
count that is compared, is beyond the doubles, and whatever is summed adds up. -/
structure Workable (k : Scorekeeper) (result : Json) (evaluations : List Evaluation) : Prop where
  recomputed : AddsUp ((linesOf evaluations).map (·.penalty))
  lines : ∀ doc ∈ ReportedLedger.lineDocs (result.field "scores"), Convertible doc
  total : ¬BeyondDoubles ((result.field "scores").field "totalPenalty")
  reported : ((result.field "scores").field "totalPenalty").isNumber = true →
    AddsUp (ReportedLedger.taken (result.field "scores")).penalties
  counts : ∀ ev ∈ linesOf evaluations,
    ((ReportedLedger.taken (result.field "scores")).lookup ev.constraint.label).isSome →
      ¬BeyondDoubles (.int ev.count)
  corrected : k.fix = true → result.isObject = true ∧
    AddsUp ((linesOf evaluations).map (·.penalty) ++
      penalties (keptLines (ReportedLedger.taken (result.field "scores")) evaluations))

theorem exists_reconcileWith_iff_workable (htolerance : ¬k.tolerance < 0.0) :
    (∃ r, k.reconcileWith result evaluations = .ok r) ↔ k.Workable result evaluations := by
  constructor
  · rintro ⟨r, hr⟩
    obtain ⟨ledger, hr⟩ := reconcileWith_eq_ok hr
    obtain ⟨hlines, rfl⟩ := ReportedLedger.read_eq_ok_iff.mp hr.read
    obtain ⟨htotal, hshown⟩ := reportedTotal_eq_ok_iff.mp hr.reported
    obtain ⟨total, others, hcompared, hothers, -⟩ := hr.compared
    refine ⟨exists_sumFloats_iff.mp ⟨_, hr.sum⟩, hlines, htotal, ?reported, ?counts, ?corrected⟩
    case reported =>
      rw [← isSome_shownTotal htotal, ← hshown]
      exact (exists_compareTotal_iff_addsUp htolerance).mp ⟨total, hcompared⟩
    case counts => exact (exists_compareLines_iff_fit htolerance).mp ⟨others, hothers⟩
    case corrected =>
      intro hfix
      obtain ⟨fixed, hfixed, -⟩ := hr.corrected hfix
      exact exists_correct_iff.mp ⟨fixed, hfixed⟩
  · intro h
    obtain ⟨sum, hsum⟩ := exists_sumFloats_iff.mpr h.recomputed
    have hadds := h.reported
    rw [← isSome_shownTotal h.total] at hadds
    obtain ⟨total, hcompared⟩ := (exists_compareTotal_iff_addsUp htolerance).mpr hadds
    obtain ⟨others, hothers⟩ := (exists_compareLines_iff_fit htolerance).mpr h.counts
    obtain ⟨r, hr, -⟩ := exists_reconcileWith hsum
      (ReportedLedger.read_eq_ok_iff.mpr ⟨h.lines, rfl⟩)
      (reportedTotal_eq_ok_iff.mpr ⟨h.total, rfl⟩) hcompared hothers
      fun hfix => exists_correct_iff.mpr (h.corrected hfix)
    exact ⟨r, hr⟩

/-- A line is compared with a finite one only if its own numbers are finite. -/
theorem lineAgrees_finite {ev : Evaluation} (hev : IsFinite ev.penalty) {line : ReportedLine}
    (hline : ledger.lookup ev.constraint.label = some line) (h : k.LineAgrees ledger ev) :
    IsFinite (line.penalty.getD 0.0) ∧ IsFinite (line.violations.getD 0.0) := by
  obtain ⟨other, hother, hpenalty, count, hcount, hviolations⟩ := h
  cases Option.some.inj (hline.symm.trans hother)
  have hfinite : IsFinite count := by
    unfold intToFloat at hcount
    split at hcount
    · next x hx => exact Except.ok.inj hcount ▸ isFinite_of_intFloat? hx
    · cases hcount
  exact ⟨isFinite_of_isClose hpenalty hev, isFinite_of_isClose hviolations hfinite⟩

/-- The difference of a line that is there has its numbers. -/
theorem mismatch?_of_compareLine {ev : Evaluation} {line : ReportedLine}
    (hline : ledger.lookup ev.constraint.label = some line) {differences : List Difference}
    (h : k.compareLine ledger ev = .ok differences) (hne : differences ≠ []) :
    ∃ d ∈ differences, d.mismatch? = some ev.constraint.label := by
  rcases compareLine_eq_ok h with ⟨hnone, -⟩ | ⟨-, rfl | ⟨numbers, rfl⟩⟩
  · cases hline.symm.trans hnone
  · exact absurd rfl hne
  · exact ⟨_, List.mem_singleton_self _, rfl⟩

/-- What a reconciliation makes of numbers that cannot be used: those that are none count as zero,
and those that are not finite are flagged against finite ones. -/
structure Absorbs (result : Json) (r : Reconciliation) : Prop where
  lines : ReportedLedger.read (result.field "scores") =
    .ok (ReportedLedger.taken (result.field "scores"))
  total : r.reportedTotal = shownTotal ((result.field "scores").field "totalPenalty")
  line : ∀ ev ∈ r.lines, IsFinite ev.penalty → ∀ line,
    (ReportedLedger.taken (result.field "scores")).lookup ev.constraint.label = some line →
    ¬(IsFinite (line.penalty.getD 0.0) ∧ IsFinite (line.violations.getD 0.0)) →
    ev.constraint.label ∈ r.mismatches
  sum : ∀ shown ∈ r.reportedTotal, ¬IsFinite shown →
    (∀ x ∈ (ReportedLedger.taken (result.field "scores")).penalties, IsFinite x) → FlagsTotal r

theorem absorbs_of_reconcile {engine : Engine} {league : Json} {index : Index}
    (h : k.reconcile engine league result index = .ok r) : Absorbs result r := by
  obtain ⟨evaluations, -, hr⟩ := bind_eq_ok.mp h
  obtain ⟨ledger, hr⟩ := reconcileWith_eq_ok hr
  cases hr.same
  obtain ⟨-, rfl⟩ := ReportedLedger.read_eq_ok_iff.mp hr.read
  obtain ⟨-, hshown⟩ := reportedTotal_eq_ok_iff.mp hr.reported
  obtain ⟨total, others, hcompared, hothers, hdifferences⟩ := hr.compared
  refine ⟨hr.read, hshown, ?line, ?sum⟩
  case line =>
    intro ev hev hpenalty line hline hnot
    obtain ⟨differences, hmem, hcompare⟩ := exists_of_mapM_eq_ok hothers hev
    have hne : differences ≠ [] := by
      rintro rfl
      exact hnot (lineAgrees_finite hpenalty hline (compareLine_eq_nil.mp hcompare))
    obtain ⟨d, hd, hmismatch⟩ := mismatch?_of_compareLine hline hcompare hne
    refine List.mem_filterMap.mpr ⟨d, ?_, hmismatch⟩
    rw [hdifferences]
    exact List.mem_append_right _ (List.mem_flatten.mpr ⟨differences, hmem, hd⟩)
  case sum =>
    intro shown hsome hnot hfinite
    rw [flagsTotal_iff h hr.read]
    intro hagrees
    obtain ⟨parts, hparts, hclose⟩ := hagrees shown hsome
    exact hnot (isFinite_of_isClose hclose (sumFloats_eq_ok hfinite hparts).2)

/-- A reconciliation comes to an end exactly when the result is workable, and whatever else a ledger
holds is absorbed. -/
theorem exists_reconcile_iff_workable {engine : Engine} {league : Json} {index : Index}
    (htolerance : ¬k.tolerance < 0.0)
    (hevaluations : engine.evaluateAll index (league.field "constraints").items =
      .ok evaluations) :
    ((∃ r, k.reconcile engine league result index = .ok r) ↔ k.Workable result evaluations) ∧
      ∀ r, k.reconcile engine league result index = .ok r → Absorbs result r := by
  refine ⟨?_, fun r => absorbs_of_reconcile⟩
  rw [reconcile_eq hevaluations]
  exact exists_reconcileWith_iff_workable htolerance

/-- A result whose only line has no count and a penalty without bounds. -/
def boundlessResult : Json :=
  .obj [("feasible", .bool true), ("assignments", .arr [.obj [("fixtureId", .str "F")]]),
    ("scores", .obj [("totalPenalty", .arr []), ("byConstraint", .arr [
      .obj [("constraintId", .str "home_away_balance"), ("violations", .str "many"),
        ("penalty", .str "inf")]])])]

/-- Corrects a result. -/
def correctOnce (engine : Engine) (league result : Json) : Except Fault Reconciliation := do
  let index ← Index.build (.whole 90) "UTC" league result
  corrector.reconcile engine league result index

theorem exists_reconcile_iff_workable_boundlessResult : ∃ index evaluations r,
    Index.build (.whole 90) "UTC" balancedLeague boundlessResult = .ok index ∧
      Engine.evaluateAll { catalog := .default } index
        (balancedLeague.field "constraints").items = .ok evaluations ∧
      corrector.reconcile { catalog := .default } balancedLeague boundlessResult index = .ok r ∧
      corrector.Workable boundlessResult evaluations ∧ Absorbs boundlessResult r ∧
      r.mismatches = ["home_away_balance", "home_away_balance"] := by
  obtain ⟨r, hrun, hmismatches⟩ := exists_ok_of_toOption_map
    (x := correctOnce { catalog := .default } balancedLeague boundlessResult)
    (f := Reconciliation.mismatches) (b := ["home_away_balance", "home_away_balance"])
    (by decide +kernel)
  obtain ⟨index, hindex, hr⟩ := bind_eq_ok.mp hrun
  obtain ⟨evaluations, hevaluations, -⟩ := bind_eq_ok.mp hr
  have htolerance : ¬corrector.tolerance < 0.0 :=
    not_lt_zero (t := stepsOf 1e-6) (by decide +kernel) (by decide +kernel)
  exact ⟨index, evaluations, r, hindex, hevaluations, hr,
    (exists_reconcile_iff_workable htolerance hevaluations).1.mp ⟨r, hr⟩,
    (exists_reconcile_iff_workable htolerance hevaluations).2 r hr, hmismatches⟩

/-- A line with a penalty of 401 digits. -/
def immenseLine : Json :=
  .obj [("constraintId", .str "S1"), ("violations", .int 1), ("penalty", .int (tenTo 400))]

def immenseResult : Json := .obj [("scores", .obj [("byConstraint", .arr [immenseLine])])]

/-- A penalty of 401 digits ends every reconciliation, though there is nothing to evaluate. -/
theorem not_reconcile_immenseResult : ∃ index,
    Index.build (.whole 90) "UTC" emptyLeague immenseResult = .ok index ∧
      Engine.evaluateAll { catalog := .default } index
        (emptyLeague.field "constraints").items = .ok [] ∧
      ∀ fix, ¬∃ r, { reader with fix }.reconcile { catalog := .default } emptyLeague immenseResult
        index = .ok r := by
  obtain ⟨index, hindex, -⟩ := exists_ok_of_toOption_map
    (x := Index.build (.whole 90) "UTC" emptyLeague immenseResult)
    (f := fun _ => ()) (b := ()) (by decide +kernel)
  have hnone : Engine.evaluateAll { catalog := .default } index
      (emptyLeague.field "constraints").items = .ok [] := rfl
  refine ⟨index, hindex, hnone, fun fix hreconcile => ?_⟩
  have hreader : ¬reader.tolerance < 0.0 :=
    not_lt_zero (t := stepsOf 1e-6) (by decide +kernel) (by decide +kernel)
  have htolerance : ¬({ reader with fix } : Scorekeeper).tolerance < 0.0 := hreader
  rw [reconcile_eq hnone, exists_reconcileWith_iff_workable htolerance] at hreconcile
  have hline := hreconcile.lines immenseLine (List.mem_singleton_self immenseLine)
  exact hline.2 ⟨_, rfl, by decide +kernel⟩

end Scorekeeper
end LeagueAudit
