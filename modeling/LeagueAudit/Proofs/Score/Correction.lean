import LeagueAudit.Proofs.Evaluation.Ending
import LeagueAudit.Proofs.Schedule.Build
import LeagueAudit.Proofs.Score.Ledger
import LeagueAudit.Rule.Default

/-!
Corrected ledgers on a second pass. A corrected ledger has one line for each recomputed constraint,
but it is read back with one line for each name; so a second pass accepts it exactly when
constraints of one name have the same numbers and the total does not count any of them twice.
-/
namespace LeagueAudit

theorem Constraint.label_ne_empty (c : Constraint) : c.label ≠ "" := by
  unfold label labelOf
  split
  · next id h =>
    obtain ⟨-, h⟩ := Option.filter_eq_some_iff.mp h
    simpa using h
  · next rule _ h =>
    obtain ⟨-, h⟩ := Option.filter_eq_some_iff.mp h
    simpa using h
  · decide

namespace ReportedLine

/-- A line that was written under a name is read under that name. -/
theorem read_of_find {doc : Json} {id : String} (violations : Except Fault Float) {penalty : Float}
    (hid : doc.find? "constraintId" = some (.str id))
    (hviolations : readNumber doc "violations" = violations.map some)
    (hpenalty : readNumber doc "penalty" = .ok (some penalty)) :
    read doc = violations.map fun count =>
      ⟨some id, some count, some penalty, doc.field "explanation"⟩ := by
  have hnamed : (constraintNames.findSome? doc.find?).getD .null = .str id := by
    rw [constraintNames, List.findSome?_cons, hid]
    rfl
  unfold read
  rw [hnamed, hviolations, hpenalty]
  cases violations <;> rfl

theorem read_scoreLine (ev : Evaluation) :
    read ev.scoreLine = (intToFloat ev.count).map fun count =>
      ⟨some ev.constraint.label, some count, some ev.penalty,
        ev.scoreLine.field "explanation"⟩ := by
  apply read_of_find (intToFloat ev.count)
  · cases h : ev.explanation.truthy <;> simp [Evaluation.scoreLine, h, Json.find?]
  · cases h : ev.explanation.truthy <;> simp [Evaluation.scoreLine, h, readNumber, Json.find?,
      Json.lookup_cons_eq, numberOrZero]
  · cases h : ev.explanation.truthy <;> simp [Evaluation.scoreLine, h, readNumber, Json.find?,
      Json.lookup_cons_eq, numberOrZero] <;> rfl

theorem readNumber_numberJson {doc : Json} {key : String} {x : Option Float}
    (h : doc.find? key = some (numberJson x)) : readNumber doc key = .ok (some (x.getD 0.0)) := by
  unfold readNumber
  rw [h]
  cases x <;> rfl

theorem read_toJson {line : ReportedLine} {id : String} (h : line.name? = some id) :
    read line.toJson =
      .ok ⟨some id, some (line.violations.getD 0.0), some (line.penalty.getD 0.0),
        line.toJson.field "explanation"⟩ := by
  obtain ⟨hid, -⟩ := Option.filter_eq_some_iff.mp h
  have hviolations : readNumber line.toJson "violations" =
      .ok (some (line.violations.getD 0.0)) := by
    apply readNumber_numberJson
    simp [toJson, Json.find?, Json.lookup_cons_eq]
  have hpenalty : readNumber line.toJson "penalty" = .ok (some (line.penalty.getD 0.0)) := by
    apply readNumber_numberJson
    simp [toJson, Json.find?, Json.lookup_cons_eq]
  have hname : line.toJson.find? "constraintId" = some (.str id) := by
    simp [toJson, hid, Json.find?]
  exact read_of_find (.ok (line.violations.getD 0.0)) hname hviolations hpenalty

end ReportedLine

/-- The recomputed lines under the names of their constraints. -/
def Reconciliation.byName (evaluations : List Evaluation) : List (String × Evaluation) :=
  (linesOf evaluations).map fun ev => (ev.constraint.label, ev)

namespace Scorekeeper

open Reconciliation

/-- The reported lines that stay, under their names. -/
def keptByName (ledger : ReportedLedger) (evaluations : List Evaluation) : ReportedLedger :=
  ledger.filter fun p => !((linesOf evaluations).map fun ev => ev.constraint.label).contains p.1 &&
    evaluations.any fun ev => ev.constraint.label == p.1 && ev.constraint.soft

theorem keptLines_eq (ledger : ReportedLedger) (evaluations : List Evaluation) :
    keptLines ledger evaluations = (keptByName ledger evaluations).map (·.2) := rfl

/-- The lines of a corrected ledger. -/
def correctedLines (ledger : ReportedLedger) (evaluations : List Evaluation) : List Json :=
  (linesOf evaluations).map Evaluation.scoreLine ++
    (keptLines ledger evaluations).map ReportedLine.toJson

/-- The total of a corrected ledger, over all its lines. -/
def correctedTotal (ledger : ReportedLedger) (evaluations : List Evaluation) : Except Fault Float :=
  sumFloats ((linesOf evaluations).map (·.penalty) ++
    (keptLines ledger evaluations).map fun line => line.penalty.getD 0.0)

/-- The total over the first line of each name. -/
def rereadTotal (ledger : ReportedLedger) (evaluations : List Evaluation) : Except Fault Float :=
  sumFloats ((firstOfEach (byName evaluations)).map (·.2.penalty) ++
    (keptLines ledger evaluations).map fun line => line.penalty.getD 0.0)

/-- The line of a recomputed constraint as it is read back. -/
def rereadLine (ev : Evaluation) : ReportedLine :=
  ⟨some ev.constraint.label, some ((intToFloat ev.count).toOption.getD 0.0), some ev.penalty,
    ev.scoreLine.field "explanation"⟩

/-- A line that stays as it is read back. -/
def rereadKept (line : ReportedLine) : ReportedLine :=
  ⟨line.name?, some (line.violations.getD 0.0), some (line.penalty.getD 0.0),
    line.toJson.field "explanation"⟩

/-- A corrected ledger as it is read back: the first line of each name, and the lines that stay. -/
def reread (ledger : ReportedLedger) (evaluations : List Evaluation) : ReportedLedger :=
  (firstOfEach (byName evaluations)).map (fun p => (p.1, rereadLine p.2)) ++
    (keptByName ledger evaluations).map fun p => (p.1, rereadKept p.2)

variable {ledger : ReportedLedger} {evaluations : List Evaluation} {lines : List ReportedLine}

theorem name?_of_mem_kept (hledger : ledger = firstOfEach (ReportedLine.named lines))
    {p : String × ReportedLine} (hp : p ∈ keptByName ledger evaluations) : p.2.name? = some p.1 :=
  ReportedLine.name?_of_mem_named
    ((firstOfEach_sublist _).subset (hledger ▸ List.mem_of_mem_filter hp))

theorem nodup_kept (hledger : ledger = firstOfEach (ReportedLine.named lines)) :
    ((keptByName ledger evaluations).map (·.1)).Nodup :=
  (hledger ▸ nodup_firstOfEach _ : (ledger.map (·.1)).Nodup).sublist (List.filter_sublist.map _)

theorem lookup_byName_of_mem_kept {α : Type} (f : Evaluation → α) {p : String × ReportedLine}
    (hp : p ∈ keptByName ledger evaluations) :
    ((byName evaluations).map fun q => (q.1, f q.2)).lookup p.1 = none := by
  have hnew := (List.mem_filter.mp hp).2
  rw [Bool.and_eq_true, Bool.not_eq_true', List.contains_eq_mem, decide_eq_false_iff_not] at hnew
  rw [List.lookup_eq_none_iff, byName, List.map_map]
  intro q hq
  obtain ⟨ev, hev, rfl⟩ := List.mem_map.mp hq
  have hne : p.1 ≠ ev.constraint.label := fun heq => hnew.1 (List.mem_map.mpr ⟨ev, hev, heq.symm⟩)
  simpa using hne

theorem named_reread (hledger : ledger = firstOfEach (ReportedLine.named lines)) :
    ReportedLine.named ((linesOf evaluations).map rereadLine ++
        (keptLines ledger evaluations).map rereadKept) =
      (byName evaluations).map (fun p => (p.1, rereadLine p.2)) ++
        (keptByName ledger evaluations).map fun p => (p.1, rereadKept p.2) := by
  rw [ReportedLine.named, List.filterMap_append, keptLines_eq, List.map_map, byName, List.map_map]
  congr 1
  · rw [List.filterMap_map, ← List.filterMap_eq_map]
    refine List.filterMap_congr fun ev _ => ?_
    simp [rereadLine, ReportedLine.name?, ev.constraint.label_ne_empty]
  · rw [List.filterMap_map, ← List.filterMap_eq_map]
    refine List.filterMap_congr fun p hp => ?_
    have hname := name?_of_mem_kept hledger hp
    obtain ⟨-, hsome⟩ := Option.filter_eq_some_iff.mp hname
    have hagain : (rereadKept p.2).name? = some p.1 := by
      rw [ReportedLine.name?, rereadKept, hname, Option.filter_some, if_pos hsome]
    simp [hagain]

/-- What was written of a corrected ledger is read back. -/
theorem read_corrected (hledger : ledger = firstOfEach (ReportedLine.named lines)) {scores : Json}
    (hwritten : scores.field "byConstraint" = .arr (correctedLines ledger evaluations))
    (hcounts : ∀ ev ∈ linesOf evaluations, ∃ count, intToFloat ev.count = .ok count) :
    ReportedLedger.read scores = .ok (reread ledger evaluations) := by
  rw [ReportedLedger.read_eq_ok]
  refine ⟨(linesOf evaluations).map rereadLine ++ (keptLines ledger evaluations).map rereadKept,
    ?lines, ?ledger⟩
  case lines =>
    have hobjects : (correctedLines ledger evaluations).filter Json.isObject =
        correctedLines ledger evaluations := by
      rw [List.filter_eq_self]
      intro doc hdoc
      rcases List.mem_append.mp hdoc with h | h <;> obtain ⟨_, -, rfl⟩ := List.mem_map.mp h <;> rfl
    have hlines : ((linesOf evaluations).map Evaluation.scoreLine).mapM ReportedLine.read =
        .ok ((linesOf evaluations).map rereadLine) := by
      refine mapM_map_eq_ok fun ev hev => ?_
      obtain ⟨count, hcount⟩ := hcounts ev hev
      rw [ReportedLine.read_scoreLine, rereadLine, hcount]
      rfl
    have hkept : ((keptLines ledger evaluations).map ReportedLine.toJson).mapM ReportedLine.read =
        .ok ((keptLines ledger evaluations).map rereadKept) := by
      refine mapM_map_eq_ok fun line hline => ?_
      obtain ⟨p, hp, rfl⟩ := List.mem_map.mp (keptLines_eq ledger evaluations ▸ hline)
      have hname := name?_of_mem_kept hledger hp
      rw [ReportedLine.read_toJson hname, rereadKept, hname]
    rw [ReportedLedger.linesOf, hwritten, Json.items_arr, hobjects, correctedLines,
      List.mapM_append, hlines, hkept]
    rfl
  case ledger =>
    rw [named_reread hledger, firstOfEach_append, firstOfEach_map]
    · rfl
    -- The lines that stay have names of their own and follow the first lines unchanged.
    · rw [List.map_map]
      exact nodup_kept hledger
    · intro p hp
      obtain ⟨q, hq, rfl⟩ := List.mem_map.mp hp
      have hnone := lookup_byName_of_mem_kept rereadLine hq
      exact hnone

/-- Constraints of one name have the same numbers as the first of them, and the total over all lines
agrees with the total over the first ones. -/
structure Repeats (k : Scorekeeper) (ledger : ReportedLedger) (evaluations : List Evaluation) :
    Prop where
  line : ∀ ev ∈ linesOf evaluations, ∃ first count₀ count,
    (byName evaluations).lookup ev.constraint.label = some first ∧
    intToFloat first.count = .ok count₀ ∧ intToFloat ev.count = .ok count ∧
    k.Agrees first.penalty ev.penalty ∧ k.Agrees count₀ count
  total : ∃ all parts, correctedTotal ledger evaluations = .ok all ∧
    rereadTotal ledger evaluations = .ok parts ∧ k.Agrees all parts

variable {k : Scorekeeper}

theorem sum_reread : (reread ledger evaluations).sum = rereadTotal ledger evaluations := by
  rw [ReportedLedger.sum, reread, rereadTotal, List.map_append, List.map_map, List.map_map,
    keptLines_eq, List.map_map]
  rfl

theorem lookup_byName {ev : Evaluation} (hev : ev ∈ linesOf evaluations) :
    ∃ first ∈ linesOf evaluations,
      (byName evaluations).lookup ev.constraint.label = some first := by
  have hsome : ((byName evaluations).lookup ev.constraint.label).isSome := by
    rw [Json.isSome_lookup_iff, byName, List.map_map]
    exact List.mem_map.mpr ⟨ev, hev, rfl⟩
  obtain ⟨first, hfirst⟩ := Option.isSome_iff_exists.mp hsome
  obtain ⟨other, hother, hpair⟩ := List.mem_map.mp (Json.mem_of_lookup hfirst)
  exact ⟨first, (Prod.mk.inj hpair).2 ▸ hother, hfirst⟩

/-- A corrected line agrees when the first line of its name does. -/
theorem lineAgrees_reread
    (hcounts : ∀ ev ∈ linesOf evaluations, ∃ count, intToFloat ev.count = .ok count)
    {ev : Evaluation} (hev : ev ∈ linesOf evaluations) :
    k.LineAgrees (reread ledger evaluations) ev ↔ ∃ first count₀ count,
      (byName evaluations).lookup ev.constraint.label = some first ∧
      intToFloat first.count = .ok count₀ ∧ intToFloat ev.count = .ok count ∧
      k.Agrees first.penalty ev.penalty ∧ k.Agrees count₀ count := by
  obtain ⟨first, hmem, hfirst⟩ := lookup_byName hev
  obtain ⟨count₀, hcount₀⟩ := hcounts first hmem
  have hlookup : (reread ledger evaluations).lookup ev.constraint.label =
      some (rereadLine first) := by
    rw [reread, List.lookup_append, Json.lookup_map, lookup_firstOfEach, hfirst]
    rfl
  unfold LineAgrees
  rw [hlookup, hfirst]
  constructor
  · rintro ⟨line, hline, hpenalty, count, hcount, hviolations⟩
    cases Option.some.inj hline
    rw [rereadLine, hcount₀] at hviolations
    exact ⟨first, count₀, count, rfl, hcount₀, hcount, hpenalty, hviolations⟩
  · rintro ⟨other, count₁, count, hother, hcount₁, hcount, hpenalty, hagrees⟩
    cases Option.some.inj hother
    refine ⟨rereadLine first, rfl, hpenalty, count, hcount, ?_⟩
    rw [rereadLine, hcount₁]
    exact hagrees

/-- What a corrected document holds. -/
structure Corrected (result : Json) (ledger : ReportedLedger) (evaluations : List Evaluation)
    (fixed : Json) : Prop where
  others : ∀ key, key ≠ "scores" → fixed.field key = result.field key
  lines : (fixed.field "scores").field "byConstraint" = .arr (correctedLines ledger evaluations)
  total : ∃ total, correctedTotal ledger evaluations = .ok total ∧
    (fixed.field "scores").field "totalPenalty" = .float total

theorem correct_eq_ok {result fixed : Json} (h : k.correct result ledger evaluations = .ok fixed) :
    Corrected result ledger evaluations fixed := by
  unfold correct at h
  split at h
  · next members =>
    obtain ⟨total, htotal, h⟩ := bind_eq_ok.mp h
    cases Except.ok.inj h
    refine ⟨fun key hkey => Json.field_obj_setMember_of_ne hkey _ _, ?_, total, htotal, ?_⟩
    · rw [Json.field_obj_setMember_self, Json.field_obj]
      rw [Json.lookup_setMembers_of_mem (by simp) (List.mem_cons_self)]
      rfl
    · rw [Json.field_obj_setMember_self, Json.field_obj]
      rw [Json.lookup_setMembers_of_mem (by simp)
        (List.mem_cons_of_mem _ List.mem_cons_self)]
      rfl
  · cases h

/-- The checks of the errors that a ledger can cause. -/
def ledgerChecks : List String := ["RescoreMismatch", "MissingScoreEntry", "ScoringInconsistency"]

/-- A reconciliation finds the reported ledger right. -/
def Accepts (r : Reconciliation) : Prop :=
  (∀ e ∈ r.errors, e.check ∉ ledgerChecks) ∧ r.mismatches = []

theorem accepts_iff {engine : Engine} {index : Index} {docs : List Json} {result : Json}
    {r : Reconciliation} (hevaluations : engine.evaluateAll index docs = .ok evaluations)
    (h : Reconciles k result evaluations ledger r) (hfix : k.fix = false) :
    Accepts r ↔ r.differences = [] := by
  have herrors : r.errors = evaluations.flatMap (·.errors) ++ r.differences.map (·.entry "") := by
    rw [Reconciliation.errors, h.same, h.fixing, hfix]
    rfl
  rw [Accepts, herrors]
  constructor
  · rintro ⟨hchecks, -⟩
    refine List.eq_nil_iff_forall_not_mem.mpr fun d hd => ?_
    refine hchecks (d.entry "") (List.mem_append_right _ (List.mem_map_of_mem hd)) ?_
    cases d <;> simp [Difference.entry, Difference.check, ledgerChecks]
  · intro hnone
    refine ⟨fun e he => ?_, by rw [Reconciliation.mismatches, hnone]; rfl⟩
    rw [hnone, List.map_nil, List.append_nil] at he
    obtain ⟨ev, hev, he⟩ := List.mem_flatMap.mp he
    rcases (Engine.accounted_of_mem hevaluations hev).check_of_mem he with hrule | hother
    · rw [hrule]
      decide
    · exact fun hledger => hother (by
        revert hledger
        simp only [ledgerChecks, Entry.scoringChecks, List.mem_cons]
        tauto)

/-- A second pass that corrects nothing finds no difference exactly when everything it compares
agrees. -/
theorem exists_reconcileWith_iff {result : Json} (hfix : k.fix = false) {sum : Float}
    (hsum : sumFloats ((linesOf evaluations).map (·.penalty)) = .ok sum) :
    (∃ r, k.reconcileWith result evaluations = .ok r ∧ r.differences = []) ↔
      ∃ ledger total, ReportedLedger.read (result.field "scores") = .ok ledger ∧
        reportedTotal (result.field "scores") = .ok total ∧ k.TotalAgrees ledger total ∧
        ∀ ev ∈ linesOf evaluations, k.LineAgrees ledger ev := by
  constructor
  · rintro ⟨r, hr, hnone⟩
    obtain ⟨ledger, h⟩ := reconcileWith_eq_ok hr
    exact ⟨ledger, r.reportedTotal, h.read, h.reported, h.differences_eq_nil.mp hnone⟩
  · rintro ⟨ledger, total, hread, htotal, hagrees, hlines⟩
    have hothers : (linesOf evaluations).mapM (k.compareLine ledger) =
        .ok ((linesOf evaluations).map fun _ => []) := by
      have h := mapM_map_eq_ok (g := id) (h := fun _ => [])
        fun ev hev => compareLine_eq_nil.mpr (hlines ev hev)
      rwa [List.map_id] at h
    obtain ⟨r, hr, hdifferences⟩ := exists_reconcileWith hsum hread htotal
      (compareTotal_eq_nil.mpr hagrees) hothers fun hon => by simp [hon] at hfix
    exact ⟨r, hr, by simp [hdifferences]⟩

/-- A double is a number: the undefined ones differ from themselves. -/
def IsNumber (x : Float) : Prop := (x == x) = true

theorem agrees_self {x : Float} (htolerance : ¬k.tolerance < 0.0) (hx : IsNumber x) :
    k.Agrees x x := by
  unfold Agrees isClose
  rw [if_neg htolerance, if_pos (show (x == x) = true from hx)]

/-- Distinct names and defined numbers are enough for a corrected ledger to be accepted. -/
theorem repeats_of_distinct (htolerance : ¬k.tolerance < 0.0)
    (hdistinct : ((byName evaluations).map (·.1)).Nodup)
    (hlines : ∀ ev ∈ linesOf evaluations, IsNumber ev.penalty ∧
      ∃ count, intToFloat ev.count = .ok count ∧ IsNumber count)
    {total : Float} (htotal : correctedTotal ledger evaluations = .ok total)
    (hnumber : IsNumber total) : k.Repeats ledger evaluations where
  line ev hev := by
    obtain ⟨hpenalty, count, hcount, hcounted⟩ := hlines ev hev
    have hself : (byName evaluations).lookup ev.constraint.label = some ev :=
      (Json.mem_iff_lookup hdistinct).mp (List.mem_map.mpr ⟨ev, hev, rfl⟩)
    exact ⟨ev, count, count, hself, hcount, hcount, agrees_self htolerance hpenalty,
      agrees_self htolerance hcounted⟩
  total := by
    refine ⟨total, total, htotal, ?_, agrees_self htolerance hnumber⟩
    rw [rereadTotal, firstOfEach_of_nodup hdistinct, byName, List.map_map]
    exact htotal

/-- Every count of a corrected ledger that can be read back fits a double. -/
theorem Corrected.counts {result fixed : Json} (h : Corrected result ledger evaluations fixed)
    {again : ReportedLedger} (hread : ReportedLedger.read (fixed.field "scores") = .ok again) :
    ∀ ev ∈ linesOf evaluations, ∃ count, intToFloat ev.count = .ok count := by
  intro ev hev
  obtain ⟨lines, hlines, -⟩ := ReportedLedger.read_eq_ok.mp hread
  have hmem : ev.scoreLine ∈
      ((fixed.field "scores").field "byConstraint").items.filter Json.isObject := by
    rw [h.lines, Json.items_arr, List.mem_filter]
    exact ⟨List.mem_append_left _ (List.mem_map_of_mem hev), rfl⟩
  obtain ⟨line, -, hline⟩ := exists_of_mapM_eq_ok hlines hmem
  rw [ReportedLine.read_scoreLine] at hline
  obtain ⟨count, hcount, -⟩ := map_eq_ok.mp hline
  exact ⟨count, hcount⟩

/-- What a second pass compares agrees exactly when the recomputed lines repeat themselves. -/
theorem Corrected.agrees_iff {result fixed : Json} (h : Corrected result ledger evaluations fixed)
    (hledger : ledger = firstOfEach (ReportedLine.named lines)) :
    (∃ again total, ReportedLedger.read (fixed.field "scores") = .ok again ∧
      reportedTotal (fixed.field "scores") = .ok total ∧ k.TotalAgrees again total ∧
      ∀ ev ∈ linesOf evaluations, k.LineAgrees again ev) ↔ k.Repeats ledger evaluations := by
  obtain ⟨all, hall, htotal⟩ := h.total
  have hreported : reportedTotal (fixed.field "scores") = .ok (some all) := by
    rw [reportedTotal, htotal]
  have hagrees : k.TotalAgrees (reread ledger evaluations) (some all) ↔
      ∃ parts, rereadTotal ledger evaluations = .ok parts ∧ k.Agrees all parts := by
    simp [TotalAgrees, sum_reread]
  constructor
  · rintro ⟨again, total, hread, htotal', htotals, hlines⟩
    have hcounts := h.counts hread
    cases hread.symm.trans (read_corrected hledger h.lines hcounts)
    cases htotal'.symm.trans hreported
    obtain ⟨parts, hparts, hclose⟩ := hagrees.mp htotals
    exact ⟨fun ev hev => (lineAgrees_reread hcounts hev).mp (hlines ev hev),
      all, parts, hall, hparts, hclose⟩
  · intro hrepeats
    have hcounts : ∀ ev ∈ linesOf evaluations, ∃ count, intToFloat ev.count = .ok count :=
      fun ev hev => by
        obtain ⟨-, -, count, -, -, hcount, -⟩ := hrepeats.line ev hev
        exact ⟨count, hcount⟩
    obtain ⟨all', parts, hall', hparts, hclose⟩ := hrepeats.total
    cases hall'.symm.trans hall
    exact ⟨reread ledger evaluations, some all, read_corrected hledger h.lines hcounts, hreported,
      hagrees.mpr ⟨parts, hparts, hclose⟩,
      fun ev hev => (lineAgrees_reread hcounts hev).mpr (hrepeats.line ev hev)⟩

/-- Correcting a ledger leaves the index as it is. A second pass with the same tolerance, which
corrects nothing, accepts the corrected ledger exactly when constraints of one name repeat the
numbers of the first and the total agrees with the first lines; distinct names and defined numbers
are enough for that. -/
theorem accepts_corrected_iff {default : Minutes} {fallback : String} {league result : Json}
    {index : Index} {engine : Engine} {r : Reconciliation} (hfix : k.fix = true)
    (hindex : Index.build default fallback league result = .ok index)
    (h : k.reconcile engine league result index = .ok r) :
    ∃ ledger fixed, ReportedLedger.read (result.field "scores") = .ok ledger ∧
      r.fixed = some fixed ∧ Index.build default fallback league fixed = .ok index ∧
      ((∃ r', { k with fix := false }.reconcile engine league fixed index = .ok r' ∧ Accepts r') ↔
        k.Repeats ledger r.evaluations) ∧
      (¬k.tolerance < 0.0 → ((byName r.evaluations).map (·.1)).Nodup →
        (∀ ev ∈ linesOf r.evaluations, IsNumber ev.penalty ∧
          ∃ count, intToFloat ev.count = .ok count ∧ IsNumber count) →
        (∀ total, (fixed.field "scores").field "totalPenalty" = .float total → IsNumber total) →
        k.Repeats ledger r.evaluations) := by
  obtain ⟨evaluations, hevaluations, hr⟩ := bind_eq_ok.mp h
  obtain ⟨ledger, hr⟩ := reconcileWith_eq_ok hr
  cases hr.same
  obtain ⟨fixed, hfixed, hsome⟩ := hr.corrected hfix
  have hcorrected := correct_eq_ok hfixed
  refine ⟨ledger, fixed, hr.read, hsome, ?index, ?iff, ?distinct⟩
  case index =>
    rw [Index.build_congr (hcorrected.others "assignments" (by decide)), hindex]
  case iff =>
    -- The second pass evaluates the same constraints on the same index.
    have hsecond : (∃ r', { k with fix := false }.reconcile engine league fixed index = .ok r' ∧
        Accepts r') ↔ ∃ r', { k with fix := false }.reconcileWith fixed r.evaluations = .ok r' ∧
          r'.differences = [] := by
      unfold reconcile
      rw [hevaluations]
      refine exists_congr fun r' => and_congr_right fun hr' => ?_
      obtain ⟨ledger', hr'⟩ := reconcileWith_eq_ok hr'
      exact accepts_iff hevaluations hr' rfl
    obtain ⟨lines, -, hledger⟩ := ReportedLedger.read_eq_ok.mp hr.read
    rw [hsecond, exists_reconcileWith_iff rfl hr.sum]
    exact hcorrected.agrees_iff (k := k) hledger
  case distinct =>
    intro htolerance hdistinct hlines hnumber
    obtain ⟨total, hsum, htotal⟩ := hcorrected.total
    exact repeats_of_distinct htolerance hdistinct hlines hsum (hnumber total htotal)

/-- A soft constraint on the balance of home and away games, without a name of its own. -/
def balance (weight : Int) : Json :=
  .obj [("type", .str "soft"), ("ruleId", .str "home_away_balance"),
    ("penalty", .obj [("model", .str "linear"), ("weight", .int weight)])]

/-- An instance with two constraints of one name. -/
def balancedLeague : Json :=
  .obj [("teams", .arr [.obj [("id", .str "A")]]),
    ("fixtures", .arr [.obj [("id", .str "F"), ("participants", .arr [.str "A", .str "B"])]]),
    ("constraints", .arr [balance 1, balance 2])]

/-- A result that plays the only fixture and reports no scores. -/
def playedResult : Json :=
  .obj [("feasible", .bool true), ("assignments", .arr [.obj [("fixtureId", .str "F")]])]

/-- A keeper that corrects. -/
def corrector : Scorekeeper := { fix := true, now := "2025-01-02T03:04:05+00:00" }

/-- Reconciles a result, and then what was corrected of it. -/
def correctTwice (engine : Engine) (league result : Json) :
    Except Fault (Reconciliation × Reconciliation) := do
  let index ← Index.build (.whole 90) "UTC" league result
  let r ← corrector.reconcile engine league result index
  let again ← Index.build (.whole 90) "UTC" league (r.fixed.getD .null)
  .ok (r, ← { corrector with fix := false }.reconcile engine league (r.fixed.getD .null) again)

/-- The second line of a name is lost when the ledger is read back. -/
theorem correctTwice_balancedLeague :
    ∃ index again r r' fixed,
      Index.build (.whole 90) "UTC" balancedLeague playedResult = .ok index ∧
      corrector.reconcile { catalog := .default } balancedLeague playedResult index = .ok r ∧
      r.fixed = some fixed ∧ Index.build (.whole 90) "UTC" balancedLeague fixed = .ok again ∧
      { corrector with fix := false }.reconcile { catalog := .default } balancedLeague fixed
        again = .ok r' ∧ r'.mismatches = ["home_away_balance"] := by
  obtain ⟨⟨r, r'⟩, hrun, hview⟩ := exists_ok_of_toOption_map
    (x := correctTwice { catalog := .default } balancedLeague playedResult)
    (f := fun p => (p.1.fixed.isSome, p.2.mismatches)) (b := (true, ["home_away_balance"]))
    (by decide +kernel)
  obtain ⟨hfixed, hmismatches⟩ := Prod.mk.inj hview
  obtain ⟨fixed, hfixed⟩ := Option.isSome_iff_exists.mp hfixed
  obtain ⟨index, hindex, hrun⟩ := bind_eq_ok.mp hrun
  obtain ⟨first, hfirst, hrun⟩ := bind_eq_ok.mp hrun
  obtain ⟨again, hagain, hrun⟩ := bind_eq_ok.mp hrun
  obtain ⟨second, hsecond, hrun⟩ := bind_eq_ok.mp hrun
  cases Except.ok.inj hrun
  rw [hfixed] at hagain hsecond
  exact ⟨index, again, r, r', fixed, hindex, hfirst, hfixed, hagain, hsecond, hmismatches⟩

theorem accepts_corrected_iff_balancedLeague :
    ∃ index r ledger, Index.build (.whole 90) "UTC" balancedLeague playedResult = .ok index ∧
      corrector.reconcile { catalog := .default } balancedLeague playedResult index = .ok r ∧
      ReportedLedger.read (playedResult.field "scores") = .ok ledger ∧
      ¬corrector.Repeats ledger r.evaluations := by
  obtain ⟨index, again, r, r', fixed, hindex, hr, hfixed, hagain, hr', hmismatches⟩ :=
    correctTwice_balancedLeague
  obtain ⟨ledger, corrected, hread, hsome, hbuilt, hiff, -⟩ := accepts_corrected_iff rfl hindex hr
  cases hfixed.symm.trans hsome
  cases hagain.symm.trans hbuilt
  refine ⟨index, r, ledger, hindex, hr, hread, fun hrepeats => ?_⟩
  obtain ⟨r'', hr'', -, hnone⟩ := hiff.mpr hrepeats
  cases hr'.symm.trans hr''
  rw [hmismatches] at hnone
  cases hnone

/-- A corrected ledger can be refused. -/
theorem not_accepts_corrected :
    ∃ index again r r' fixed,
      Index.build (.whole 90) "UTC" balancedLeague playedResult = .ok index ∧
      corrector.reconcile { catalog := .default } balancedLeague playedResult index = .ok r ∧
      r.fixed = some fixed ∧ Index.build (.whole 90) "UTC" balancedLeague fixed = .ok again ∧
      { corrector with fix := false }.reconcile { catalog := .default } balancedLeague fixed
        again = .ok r' ∧ ¬Accepts r' := by
  obtain ⟨index, again, r, r', fixed, hindex, hr, hfixed, hagain, hr', hmismatches⟩ :=
    correctTwice_balancedLeague
  refine ⟨index, again, r, r', fixed, hindex, hr, hfixed, hagain, hr', fun haccepts => ?_⟩
  have hnone := haccepts.2
  rw [hmismatches] at hnone
  cases hnone

end Scorekeeper
end LeagueAudit
