import LeagueAudit.Proofs.Layout
import LeagueAudit.Proofs.Score.Totals

/-!
Ledgers that are rebuilt. A result without scores gets a ledger from the lines that it has
elsewhere, and where it reports no total, one of zero; so its lines are held to a total that nobody
reported.
-/
namespace LeagueAudit

namespace Exact

open Float.Model

theorem ofFloat_sub_zero (x : Float) : ofFloat (x - 0.0) = ofFloat x := by
  have hzero : (0.0 : Float).toModel.unpack = .zero .positive := rfl
  have hx := canonical_unpack x
  rw [ofFloat_sub, hzero, ofFloat_eq x]
  generalize x.toModel.unpack = u at hx
  cases u with
  | zero s => cases s <;> exact ofFloat_pack trivial
  | finite => exact ofFloat_pack hx
  | infinity | notANumber => exact ofFloat_pack trivial

theorem stepsOf_zero : stepsOf 0.0 = 0 := stepsOf_eq ofFloat_zero

theorem gapRounding_zero (x : Float) : gapRounding 0.0 x = 0 := by
  rw [gapRounding, stepsOf_zero, stepsOf, ofFloat_sub_zero]
  simp [stepsOf]

/-- Zero agrees with what is no more than the tolerance. -/
theorem isClose_zero_iff {tolerance x : Float} {t : Int} (ht : ofFloat tolerance = .finite t)
    (hnonneg : 0 ≤ t) (hx : IsFinite x) :
    isClose tolerance 0.0 x = .ok true ↔ |stepsOf x| ≤ t := by
  rw [isClose_iff_of_gapRounding ht hnonneg hx (gapRounding_zero x), stepsOf_zero, zero_sub,
    abs_neg, and_iff_right (isFinite_of_eq ofFloat_zero)]

end Exact

namespace Canonical

open Json

/-- The places where a total may be reported. -/
def totals (raw : Json) : List Json :=
  [raw.field "totalPenalty", (raw.field "schedule").field "totalPenalty",
    (raw.field "details").field "totalPenalty"]

/-- The lines that are reported outside of scores. -/
def outsideLines (raw : Json) : List Json :=
  ((raw.field "constraintResults").orElse ((raw.field "schedule").field "constraintResults")).items

/-- These lines as a rebuilt ledger has them. -/
def linesOutside (raw : Json) : Except Fault (List ReportedLine) :=
  (outsideLines raw).mapM fun item => ReportedLine.read (scoreLine item)

/-- A result has no scores, under whatever name, and reports no total. -/
structure Unscored (raw : Json) : Prop where
  scores : ∀ key ∈ ["scores", "score", "scoring"], (raw.field key).isObject = false
  total : ∀ value ∈ totals raw, value.isNumber = false

variable {members : List (String × Json)}

/-- The total of a rebuilt ledger is zero. -/
theorem scores_of_unscored (h : Unscored (obj members)) :
    (ofMembers members).toJson.field "scores" =
      obj [("totalPenalty", .int 0),
        ("byConstraint", arr ((outsideLines (obj members)).map scoreLine))] := by
  have hbuilt : Canonical.scores (obj members) =
      some (builtScores (obj members), .builtScores) := by
    unfold Canonical.scores
    rw [h.scores "scores" (by simp), h.scores "score" (by simp), h.scores "scoring" (by simp)]
    rfl
  have hnone : (totals (obj members)).find? Json.isNumber = none :=
    List.find?_eq_none.mpr fun value hvalue => by simp [h.total value hvalue]
  rw [field_ofMembers]
  change ((Canonical.scores (obj members)).map (·.1)).getD _ = _
  rw [hbuilt, Option.map_some, Option.getD_some, builtScores]
  change obj [("totalPenalty", ((totals (obj members)).find? Json.isNumber).getD (.int 0)), _] = _
  rw [hnone]
  rfl

theorem linesOf_scores (h : Unscored (obj members)) :
    ReportedLedger.linesOf ((ofMembers members).toJson.field "scores") =
      linesOutside (obj members) := by
  have hobjects : ((outsideLines (obj members)).map scoreLine).filter Json.isObject =
      (outsideLines (obj members)).map scoreLine :=
    List.filter_eq_self.mpr fun line hline => by
      obtain ⟨item, -, rfl⟩ := List.mem_map.mp hline
      rfl
  rw [scores_of_unscored h, ReportedLedger.linesOf]
  change (((outsideLines (obj members)).map scoreLine).filter Json.isObject).mapM _ = _
  rw [hobjects, List.mapM_map]
  rfl

theorem reportedTotal_scores (h : Unscored (obj members)) :
    Scorekeeper.reportedTotal ((ofMembers members).toJson.field "scores") = .ok (some 0.0) := by
  rw [scores_of_unscored h]
  rfl

end Canonical
namespace Scorekeeper

open Canonical Exact Json Reconciliation ReportedLine

/-- A result that reports lines but no total is held to a total of zero. It is flagged exactly when
the penalties that count add up to more than the tolerance. -/
structure HoldsToZero (k : Scorekeeper) (engine : Engine) (league : Json) (c : Canonical)
    (index : Index) (t : Int) (lines : List ReportedLine) : Prop where
  total : reportedTotal (c.toJson.field "scores") = .ok (some 0.0)
  returns : ∀ evaluations, engine.evaluateAll index (league.field "constraints").items =
      .ok evaluations → k.Completes c.toJson (firstOfEach (named lines)) evaluations →
    ((∃ r, k.reconcile engine league c.toJson index = .ok r) ↔
      ∃ parts, sumFloats (firstPenalties lines) = .ok parts)
  flags : ∀ r, k.reconcile engine league c.toJson index = .ok r →
    (FlagsTotal r ↔ t < |stepsOf (stepsFloat (sumSteps (firstPenalties lines)))|)

theorem holdsToZero_of_unscored {k : Scorekeeper} {members : List (String × Json)}
    {lines : List ReportedLine} {t : Int} (engine : Engine) (league : Json) (index : Index)
    (ht : ofFloat k.tolerance = .finite t) (hnonneg : 0 ≤ t) (h : Unscored (obj members))
    (hlines : linesOutside (obj members) = .ok lines)
    (hfinite : ∀ x ∈ penalties lines, IsFinite x) :
    ∃ c, Canonical.read (obj members) = .ok c ∧ k.HoldsToZero engine league c index t lines := by
  rw [← linesOf_scores h] at hlines
  have htotal := reportedTotal_scores h
  refine ⟨ofMembers members, rfl, htotal, ?returns, ?flags⟩
  case returns =>
    intro evaluations
    exact exists_reconcile_iff (not_lt_zero ht hnonneg) hlines htotal
  case flags =>
    intro r hr
    obtain ⟨hsum, hiff⟩ := flagsTotal_iff_firstPenalties hr hlines hfinite htotal
    rw [hiff, Agrees, isClose_zero_iff ht hnonneg hsum, Int.not_le]

/-- Scores of another name are taken as they are; if they report no total, none is checked. -/
theorem not_flagsTotal_of_score {k : Scorekeeper} {members : List (String × Json)}
    {engine : Engine} {league : Json} {index : Index} {r : Reconciliation}
    (hscores : ((obj members).field "scores").isObject = false)
    (hscore : ((obj members).field "score").isObject = true)
    (htotal : (((obj members).field "score").field "totalPenalty").isNumber = false)
    (h : k.reconcile engine league (ofMembers members).toJson index = .ok r) : ¬FlagsTotal r := by
  refine not_flagsTotal_of_unreported h ?_
  have htaken : (ofMembers members).toJson.field "scores" = (obj members).field "score" := by
    rw [field_ofMembers]
    change ((Canonical.scores (obj members)).map (·.1)).getD _ = _
    rw [Canonical.scores, hscores, hscore]
    rfl
  rw [htaken, reportedTotal]
  cases hvalue : ((obj members).field "score").field "totalPenalty" with
  | int | float => simp [hvalue, Json.isNumber] at htotal
  | _ => rfl

/-- A result that reports one line, and no total. -/
def untotalled : List (String × Json) :=
  [("feasible", .bool true), ("assignments", arr []),
    ("constraintResults", arr [obj [("constraintId", .str "S1"), ("violations", .int 1),
      ("penalty", .float 5.0)]])]

theorem unscored_untotalled : Unscored (obj untotalled) := ⟨by decide, by decide⟩

theorem exists_reconcile_untotalled :
    ∃ c index r lines, Canonical.read (obj untotalled) = .ok c ∧
      Index.build (.whole 90) "UTC" emptyLeague c.toJson = .ok index ∧
      reader.reconcile { catalog := .default } emptyLeague c.toJson index = .ok r ∧
      linesOutside (obj untotalled) = .ok lines ∧ (∀ x ∈ penalties lines, IsFinite x) ∧
      FlagsTotal r := by
  have hrun : (reconcileLines (ofMembers untotalled).toJson
      (linesOutside (obj untotalled))).toOption.map (fun (r, lines) =>
        r.errors.any (·.check = "ScoringInconsistency") &&
          decide (∀ x ∈ penalties lines, IsFinite x)) = some true := by decide +kernel
  obtain ⟨index, r, lines, hindex, hr, hlines, hview⟩ := exists_reconcileLines hrun
  obtain ⟨hflags, hfinite⟩ := Bool.and_eq_true_iff.mp hview
  exact ⟨_, index, r, lines, rfl, hindex, hr, hlines, of_decide_eq_true hfinite,
    flagsTotal_of_any hflags⟩

theorem holdsToZero_of_unscored_untotalled :
    ∃ c index r lines, Canonical.read (obj untotalled) = .ok c ∧
      reader.reconcile { catalog := .default } emptyLeague c.toJson index = .ok r ∧
      reader.HoldsToZero { catalog := .default } emptyLeague c index (stepsOf 1e-6) lines ∧
      stepsOf 1e-6 < |stepsOf (stepsFloat (sumSteps (firstPenalties lines)))| := by
  obtain ⟨c, index, r, lines, hc, -, hr, hlines, hfinite, hflags⟩ := exists_reconcile_untotalled
  have htolerance : ofFloat reader.tolerance = .finite (stepsOf 1e-6) := by decide +kernel
  obtain ⟨c', hc', hzero⟩ := holdsToZero_of_unscored { catalog := .default } emptyLeague index
    htolerance (by decide +kernel) unscored_untotalled hlines hfinite
  cases hc.symm.trans hc'
  exact ⟨c, index, r, lines, hc, hr, hzero, (hzero.flags r hr).mp hflags⟩

/-- A total that nobody reported is found wrong. -/
theorem flagsTotal_untotalled :
    Unscored (obj untotalled) ∧ ∃ c index r lines, Canonical.read (obj untotalled) = .ok c ∧
      Index.build (.whole 90) "UTC" emptyLeague c.toJson = .ok index ∧
      reader.reconcile { catalog := .default } emptyLeague c.toJson index = .ok r ∧
      linesOutside (obj untotalled) = .ok lines ∧ (∀ x ∈ penalties lines, IsFinite x) ∧
      FlagsTotal r :=
  ⟨unscored_untotalled, exists_reconcile_untotalled⟩

end Scorekeeper
end LeagueAudit
