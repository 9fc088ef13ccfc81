import LeagueAudit.Proofs.Score.Correction

/-!
Corrections made twice. A correction touches the ledger alone, and what it wrote is written again on
a second pass; but that pass may not come to an end, since it adds up the first line of each name
only, and without the other lines the sum can leave the range of doubles.
-/
namespace LeagueAudit

namespace ReportedLine

theorem constraint_of_name? {line : ReportedLine} {id : String} (h : line.name? = some id) :
    line.constraint = some id :=
  (Option.filter_eq_some_iff.mp h).1

theorem explanation_toJson (line : ReportedLine) :
    line.toJson.field "explanation" = line.explanation := by
  unfold toJson
  cases h : line.explanation <;> rfl

theorem sameValue_numberJson (x : Option Float) :
    Json.SameValue (numberJson x) (numberJson (some (x.getD 0.0))) := by
  cases x with
  | none => exact .whole (by decide +kernel)
  | some x => exact .refl _

end ReportedLine

namespace Scorekeeper

open Reconciliation

variable {k : Scorekeeper} {ledger : ReportedLedger} {evaluations : List Evaluation}
  {lines : List ReportedLine}

/-- The members of the scores that a correction sets. -/
def ledgerMembers (k : Scorekeeper) (lines : List Json) (total : Float) : List (String × Json) :=
  [("byConstraint", .arr lines), ("totalPenalty", .float total),
    ("_validatedBy", .str k.validatedBy), ("_validatedAt", .str k.now)]

def ledgerKeys : List String := ["byConstraint", "totalPenalty", "_validatedBy", "_validatedAt"]

/-- A result with these lines and this total in its ledger. -/
def withLedger (k : Scorekeeper) (members : List (String × Json)) (lines : List Json)
    (total : Float) : Json :=
  .obj (Json.setMember "scores" (.obj (Json.setMembers ((Json.obj members).field "scores").members
    (k.ledgerMembers lines total))) members)

theorem correct_eq_ok_iff {result fixed : Json} :
    k.correct result ledger evaluations = .ok fixed ↔ ∃ members total,
      result = .obj members ∧ correctedTotal ledger evaluations = .ok total ∧
      fixed = k.withLedger members (correctedLines ledger evaluations) total := by
  unfold correct
  split
  · next members =>
    rw [bind_eq_ok]
    constructor
    · rintro ⟨total, htotal, h⟩
      exact ⟨members, total, rfl, htotal, (Except.ok.inj h).symm⟩
    · rintro ⟨_, total, hmembers, htotal, rfl⟩
      cases hmembers
      exact ⟨total, htotal, rfl⟩
  · next hother =>
    constructor
    · intro h
      cases h
    · rintro ⟨members, total, rfl, -⟩
      exact absurd rfl (hother members)

/-- The fixed result is the given one but for its ledger. -/
structure Rewrites (result fixed : Json) : Prop where
  others : Json.AgreeBut "scores" fixed result
  isObject : (fixed.field "scores").isObject = true
  kept : ∀ key, key ∉ ledgerKeys →
    (fixed.field "scores").find? key = (result.field "scores").find? key

theorem rewrites_withLedger (members : List (String × Json)) (lines : List Json) (total : Float) :
    Rewrites (.obj members) (k.withLedger members lines total) where
  others := ⟨rfl, fun key hkey => Json.lookup_setMember_of_ne hkey _ members⟩
  isObject := by rw [withLedger, Json.field_obj_setMember_self]; rfl
  kept key hkey := by
    rw [withLedger, Json.field_obj_setMember_self, Json.find?,
      Json.lookup_setMembers_of_notMem (by exact hkey)]
    cases (Json.obj members).field "scores" <;> rfl

/-- A ledger that is set again replaces the one that was set before. -/
theorem withLedger_withLedger {members again : List (String × Json)} {lines lines' : List Json}
    {total total' : Float} (h : k.withLedger members lines total = .obj again) :
    k.withLedger again lines' total' = k.withLedger members lines' total' := by
  obtain rfl := Json.obj.inj h
  unfold withLedger
  rw [Json.field_obj_setMember_self, Json.setMember_setMember, Json.members,
    Json.setMembers_setMembers (by simp [ledgerMembers]) (by simp [ledgerMembers])]

/-- Ledgers that differ in how the numbers of their lines are written make documents that do. -/
theorem sameValue_withLedger (members : List (String × Json)) {lines lines' : List Json}
    (total : Float) (h : Json.SameValue (.arr lines) (.arr lines')) :
    Json.SameValue (k.withLedger members lines total) (k.withLedger members lines' total) := by
  have hset : ∀ new : List Json, Json.setMember "byConstraint" (.arr new)
      (Json.setMembers ((Json.obj members).field "scores").members (k.ledgerMembers lines total)) =
      Json.setMembers ((Json.obj members).field "scores").members (k.ledgerMembers new total) :=
    fun new => Json.setMember_setMembers_cons _ _ _ (by simp)
  unfold withLedger
  refine Json.SameValue.setMember ?_ "scores" members
  rw [← hset lines, ← hset lines']
  exact h.setMember _ _

theorem rereadKept_eq {line : ReportedLine} {id : String} (h : line.name? = some id) :
    rereadKept line = { line with
      violations := some (line.violations.getD 0.0), penalty := some (line.penalty.getD 0.0) } := by
  rw [rereadKept, h, ReportedLine.explanation_toJson, ReportedLine.constraint_of_name? h]

/-- A line that stays is written again as it was, but that a missing number is a double then. -/
theorem sameValue_rereadKept {line : ReportedLine} {id : String} (h : line.name? = some id) :
    Json.SameValue line.toJson (rereadKept line).toJson := by
  rw [rereadKept_eq h]
  unfold ReportedLine.toJson
  have hviolations := @Json.SameValue.member
    [("constraintId", (line.constraint.map Json.str).getD .null)]
    (("penalty", ReportedLine.numberJson line.penalty) ::
      (line.explanation.notNull?.map fun e => [("explanation", e)]).getD [])
    "violations" _ _ (ReportedLine.sameValue_numberJson line.violations)
  have hpenalty := @Json.SameValue.member
    [("constraintId", (line.constraint.map Json.str).getD .null),
      ("violations", ReportedLine.numberJson (some (line.violations.getD 0.0)))]
    ((line.explanation.notNull?.map fun e => [("explanation", e)]).getD [])
    "penalty" _ _ (ReportedLine.sameValue_numberJson line.penalty)
  exact hviolations.trans hpenalty

theorem keptByName_reread :
    keptByName (reread ledger evaluations) evaluations =
      (keptByName ledger evaluations).map fun p => (p.1, rereadKept p.2) := by
  unfold reread
  rw [keptByName, List.filter_append, List.filter_eq_nil_iff.mpr, List.nil_append,
    List.filter_map, List.filter_eq_self.mpr]
  · intro p hp
    exact (List.mem_filter.mp hp).2
  · intro p hp
    obtain ⟨q, hq, rfl⟩ := List.mem_map.mp hp
    obtain ⟨ev, hev, rfl⟩ := List.mem_map.mp ((firstOfEach_sublist _).subset hq)
    have hthere : ((linesOf evaluations).map fun ev => ev.constraint.label).contains
        ev.constraint.label = true := by
      rw [List.contains_eq_mem, decide_eq_true_eq]
      exact List.mem_map_of_mem hev
    dsimp only
    rw [hthere, Bool.not_true, Bool.false_and]
    exact Bool.false_ne_true

theorem keptLines_reread :
    keptLines (reread ledger evaluations) evaluations =
      (keptLines ledger evaluations).map rereadKept := by
  rw [keptLines_eq, keptByName_reread, keptLines_eq, List.map_map, List.map_map]
  rfl

/-- The total does not change. -/
theorem correctedTotal_reread :
    correctedTotal (reread ledger evaluations) evaluations = correctedTotal ledger evaluations := by
  rw [correctedTotal, correctedTotal, keptLines_reread, List.map_map]
  rfl

/-- Nor do the lines, but for how their numbers are written. -/
theorem sameValue_correctedLines (hledger : ledger = firstOfEach (ReportedLine.named lines)) :
    Json.SameValue (.arr (correctedLines ledger evaluations))
      (.arr (correctedLines (reread ledger evaluations) evaluations)) := by
  unfold correctedLines
  rw [keptLines_reread, List.map_map]
  refine Json.SameValue.map (fun line hline => ?_) _
  obtain ⟨p, hp, rfl⟩ := List.mem_map.mp (keptLines_eq ledger evaluations ▸ hline)
  exact sameValue_rereadKept (name?_of_mem_kept hledger hp)

/-- A corrected ledger can be compared with the recomputed one: the tolerance is one, the counts fit
doubles, and so does the sum over the first line of each name. -/
structure Rereads (k : Scorekeeper) (ledger : ReportedLedger) (evaluations : List Evaluation) :
    Prop where
  tolerance : ¬k.tolerance < 0.0
  counts : ∀ ev ∈ linesOf evaluations, ∃ count, intToFloat ev.count = .ok count
  total : ∃ parts, rereadTotal ledger evaluations = .ok parts

theorem exists_isClose {tolerance : Float} (h : ¬tolerance < 0.0) (a b : Float) :
    ∃ close, isClose tolerance a b = .ok close := by
  unfold isClose
  rw [if_neg h]
  split
  · exact ⟨_, rfl⟩
  · split <;> exact ⟨_, rfl⟩

theorem exists_compareNumber (h : ¬k.tolerance < 0.0) (name : String) (a b : Float) :
    ∃ numbers, k.compareNumber name a b = .ok numbers := by
  obtain ⟨close, hclose⟩ := exists_isClose h a b
  unfold compareNumber
  rw [hclose]
  cases close <;> exact ⟨_, rfl⟩

/-- A reported line can be compared when the recomputed count fits a double. -/
theorem exists_compareLine_iff (h : ¬k.tolerance < 0.0) {ev : Evaluation} :
    (∃ differences, k.compareLine ledger ev = .ok differences) ↔
      ((ledger.lookup ev.constraint.label).isSome → ∃ count, intToFloat ev.count = .ok count) := by
  unfold compareLine
  dsimp only
  cases ledger.lookup ev.constraint.label with
  | none => exact iff_of_true ⟨_, rfl⟩ nofun
  | some line =>
    dsimp only
    constructor
    · rintro ⟨differences, hline⟩ -
      obtain ⟨penalty, -, hline⟩ := bind_eq_ok.mp hline
      obtain ⟨count, hcount, -⟩ := bind_eq_ok.mp hline
      exact ⟨count, hcount⟩
    · intro hcounts
      obtain ⟨count, hcount⟩ := hcounts rfl
      obtain ⟨penalty, hpenalty⟩ :=
        exists_compareNumber h "penalty" (line.penalty.getD 0.0) ev.penalty
      obtain ⟨violations, hviolations⟩ :=
        exists_compareNumber h "violations" (line.violations.getD 0.0) count
      rw [hpenalty, hcount]
      simp only [bind, Except.bind]
      rw [hviolations]
      exact ⟨_, rfl⟩

theorem exists_compareLines_iff (h : ¬k.tolerance < 0.0) {recomputed : List Evaluation} :
    (∃ others, recomputed.mapM (k.compareLine ledger) = .ok others) ↔
      ∀ ev ∈ recomputed, (ledger.lookup ev.constraint.label).isSome →
        ∃ count, intToFloat ev.count = .ok count := by
  rw [exists_mapM_eq_ok]
  exact forall₂_congr fun ev _ => exists_eq_ok.symm.trans (exists_compareLine_iff h)

/-- A reported total was compared with a sum, by a tolerance that is one. -/
theorem of_compareTotal {scores : Json} {shown : Float} {differences : List Difference}
    (h : k.compareTotal scores (some shown) ledger = .ok differences) :
    ¬k.tolerance < 0.0 ∧ ∃ parts, ledger.sum = .ok parts := by
  obtain ⟨parts, hparts, h⟩ := bind_eq_ok.mp h
  obtain ⟨close, hclose, -⟩ := bind_eq_ok.mp h
  refine ⟨fun hnegative => ?_, parts, hparts⟩
  rw [isClose, if_pos hnegative] at hclose
  cases hclose

/-- A reported total can be compared when the reported lines have a sum. -/
theorem exists_compareTotal_iff (h : ¬k.tolerance < 0.0) (scores : Json) (total : Option Float) :
    (∃ differences, k.compareTotal scores total ledger = .ok differences) ↔
      (total.isSome → ∃ parts, ledger.sum = .ok parts) := by
  cases total with
  | none => exact iff_of_true ⟨_, rfl⟩ nofun
  | some shown =>
    constructor
    · rintro ⟨differences, hcompared⟩ -
      exact (of_compareTotal hcompared).2
    · intro hsum
      obtain ⟨parts, hparts⟩ := hsum rfl
      obtain ⟨close, hclose⟩ := exists_isClose h shown parts
      unfold compareTotal
      dsimp only
      rw [hparts]
      simp only [bind, Except.bind]
      rw [hclose]
      cases close <;> exact ⟨_, rfl⟩

section Again

variable {result fixed : Json}

/-- A second correction comes to an end exactly when what was written can be compared. -/
theorem exists_again_iff (hledger : ledger = firstOfEach (ReportedLine.named lines))
    (hfixed : k.correct result ledger evaluations = .ok fixed) {sum : Float}
    (hsum : sumFloats ((linesOf evaluations).map (·.penalty)) = .ok sum) :
    (∃ r, k.reconcileWith fixed evaluations = .ok r) ↔ k.Rereads ledger evaluations := by
  have hcorrected := correct_eq_ok hfixed
  obtain ⟨total, htotal, hshown⟩ := hcorrected.total
  have hreported : reportedTotal (fixed.field "scores") = .ok (some total) := by
    rw [reportedTotal, hshown]
  constructor
  · rintro ⟨r, hr⟩
    obtain ⟨again, hr⟩ := reconcileWith_eq_ok hr
    have hcounts := hcorrected.counts hr.read
    cases hr.read.symm.trans (read_corrected hledger hcorrected.lines hcounts)
    obtain ⟨differences, -, hcompared, -⟩ := hr.compared
    rw [Except.ok.inj (hr.reported.symm.trans hreported)] at hcompared
    obtain ⟨htolerance, parts, hparts⟩ := of_compareTotal hcompared
    exact ⟨htolerance, hcounts, parts, sum_reread ▸ hparts⟩
  · intro h
    have hread := read_corrected hledger hcorrected.lines h.counts
    obtain ⟨parts, hparts⟩ := h.total
    obtain ⟨differences, hcompared⟩ := (exists_compareTotal_iff h.tolerance (fixed.field "scores")
      (some total)).mpr fun _ => ⟨parts, sum_reread.trans hparts⟩
    obtain ⟨others, hothers⟩ : ∃ others,
        (linesOf evaluations).mapM (k.compareLine (reread ledger evaluations)) = .ok others :=
      (exists_compareLines_iff h.tolerance).mpr fun ev hev _ => h.counts ev hev
    obtain ⟨again, hagain⟩ : ∃ again,
        k.correct fixed (reread ledger evaluations) evaluations = .ok again := by
      obtain ⟨members, -, -, -, rfl⟩ := correct_eq_ok_iff.mp hfixed
      exact ⟨_, correct_eq_ok_iff.mpr
        ⟨_, total, rfl, correctedTotal_reread.trans htotal, rfl⟩⟩
    obtain ⟨r, hr, -⟩ := exists_reconcileWith hsum hread hreported hcompared hothers
      fun _ => ⟨again, hagain⟩
    exact ⟨r, hr⟩

/-- A second correction gives the same document. -/
theorem sameValue_again (hfix : k.fix = true)
    (hledger : ledger = firstOfEach (ReportedLine.named lines))
    (hfixed : k.correct result ledger evaluations = .ok fixed) {r : Reconciliation}
    (h : k.reconcileWith fixed evaluations = .ok r) :
    ∃ again, r.fixed = some again ∧ Json.SameValue fixed again := by
  have hcorrected := correct_eq_ok hfixed
  obtain ⟨ledger', hr⟩ := reconcileWith_eq_ok h
  have hcounts := hcorrected.counts hr.read
  cases hr.read.symm.trans (read_corrected hledger hcorrected.lines hcounts)
  obtain ⟨again, hagain, hsome⟩ := hr.corrected hfix
  obtain ⟨members, total, -, htotal, rfl⟩ := correct_eq_ok_iff.mp hfixed
  obtain ⟨members', total', hmembers, htotal', rfl⟩ := correct_eq_ok_iff.mp hagain
  rw [correctedTotal_reread, htotal] at htotal'
  cases htotal'
  refine ⟨_, hsome, ?_⟩
  rw [withLedger_withLedger hmembers]
  exact sameValue_withLedger members total (sameValue_correctedLines hledger)

end Again

/-- Distinct names are enough for what was written to be compared, when the numbers are. -/
theorem rereads_of_distinct (htolerance : ¬k.tolerance < 0.0)
    (hcounts : ∀ ev ∈ linesOf evaluations, ∃ count, intToFloat ev.count = .ok count)
    (hdistinct : ((byName evaluations).map (·.1)).Nodup)
    {total : Float} (htotal : correctedTotal ledger evaluations = .ok total) :
    k.Rereads ledger evaluations where
  tolerance := htolerance
  counts := hcounts
  total := by
    refine ⟨total, ?_⟩
    rw [rereadTotal, firstOfEach_of_nodup hdistinct, byName, List.map_map]
    exact htotal

/-- Correcting a ledger changes nothing else of a result. A second correction comes to an end
exactly when the sum over the first line of each name fits a double (and the counts do, and the
tolerance is not negative), and then it gives the same document again; distinct names are enough for
that sum. -/
theorem corrects_again_iff {default : Minutes} {fallback : String} {league result : Json}
    {index : Index} {engine : Engine} {r : Reconciliation} (hfix : k.fix = true)
    (hindex : Index.build default fallback league result = .ok index)
    (h : k.reconcile engine league result index = .ok r) :
    ∃ ledger fixed, ReportedLedger.read (result.field "scores") = .ok ledger ∧
      r.fixed = some fixed ∧ Rewrites result fixed ∧
      Index.build default fallback league fixed = .ok index ∧
      ((∃ r', k.reconcile engine league fixed index = .ok r') ↔
        k.Rereads ledger r.evaluations) ∧
      (∀ r', k.reconcile engine league fixed index = .ok r' →
        ∃ again, r'.fixed = some again ∧ Json.SameValue fixed again) ∧
      (¬k.tolerance < 0.0 →
        (∀ ev ∈ linesOf r.evaluations, ∃ count, intToFloat ev.count = .ok count) →
        ((byName r.evaluations).map (·.1)).Nodup → k.Rereads ledger r.evaluations) := by
  obtain ⟨evaluations, hevaluations, hr⟩ := bind_eq_ok.mp h
  obtain ⟨ledger, hr⟩ := reconcileWith_eq_ok hr
  cases hr.same
  obtain ⟨fixed, hfixed, hsome⟩ := hr.corrected hfix
  have hcorrected := correct_eq_ok hfixed
  obtain ⟨lines, -, hledger⟩ := ReportedLedger.read_eq_ok.mp hr.read
  -- The second pass evaluates the same constraints on the same index.
  have hsecond : k.reconcile engine league fixed index = k.reconcileWith fixed r.evaluations := by
    rw [reconcile, hevaluations]
    rfl
  refine ⟨ledger, fixed, hr.read, hsome, ?frame, ?built, ?iff, ?same, ?distinct⟩
  case frame =>
    obtain ⟨members, total, rfl, -, rfl⟩ := correct_eq_ok_iff.mp hfixed
    exact rewrites_withLedger members _ total
  case built =>
    rw [Index.build_congr (hcorrected.others "assignments" (by decide)), hindex]
  case iff =>
    rw [hsecond]
    exact exists_again_iff hledger hfixed hr.sum
  case same =>
    rw [hsecond]
    exact fun r' hr' => sameValue_again hfix hledger hfixed hr'
  case distinct =>
    intro htolerance hcounts hdistinct
    obtain ⟨total, htotal, -⟩ := hcorrected.total
    exact rereads_of_distinct htolerance hcounts hdistinct htotal

/-- Corrects a result, and then what was corrected of it. -/
def correctAgain (engine : Engine) (league result : Json) :
    Except Fault (Reconciliation × Option Reconciliation) := do
  let index ← Index.build (.whole 90) "UTC" league result
  let r ← corrector.reconcile engine league result index
  let again ← Index.build (.whole 90) "UTC" league (r.fixed.getD .null)
  .ok (r, (corrector.reconcile engine league (r.fixed.getD .null) again).toOption)

/-- Two corrections in turn; whether the second one comes to an end is known from running them. -/
theorem exists_correctAgain (league : Json) (ends : Bool)
    (h : (correctAgain { catalog := .default } league playedResult).toOption.map
      (fun p => (p.1.fixed.isSome, p.2.isSome)) = some (true, ends)) :
    ∃ index again r fixed,
      Index.build (.whole 90) "UTC" league playedResult = .ok index ∧
      corrector.reconcile { catalog := .default } league playedResult index = .ok r ∧
      r.fixed = some fixed ∧ Index.build (.whole 90) "UTC" league fixed = .ok again ∧
      ((∃ r', corrector.reconcile { catalog := .default } league fixed again = .ok r') ↔
        ends = true) := by
  obtain ⟨⟨r, second⟩, hrun, hview⟩ := exists_ok_of_toOption_map h
  obtain ⟨hfixed, rfl⟩ := Prod.mk.inj hview
  obtain ⟨fixed, hfixed⟩ := Option.isSome_iff_exists.mp hfixed
  obtain ⟨index, hindex, hrun⟩ := bind_eq_ok.mp hrun
  obtain ⟨first, hfirst, hrun⟩ := bind_eq_ok.mp hrun
  obtain ⟨again, hagain, hrun⟩ := bind_eq_ok.mp hrun
  cases Except.ok.inj hrun
  rw [hfixed] at hagain
  refine ⟨index, again, r, fixed, hindex, hfirst, hfixed, hagain, ?_⟩
  rw [hfixed, Option.getD_some]
  cases corrector.reconcile { catalog := .default } league fixed again with
  | error f => simp [Except.toOption]
  | ok r' => simp [Except.toOption]

theorem corrects_again_iff_balancedLeague :
    ∃ index r fixed r' again,
      Index.build (.whole 90) "UTC" balancedLeague playedResult = .ok index ∧
      corrector.reconcile { catalog := .default } balancedLeague playedResult index = .ok r ∧
      r.fixed = some fixed ∧ Rewrites playedResult fixed ∧
      corrector.reconcile { catalog := .default } balancedLeague fixed index = .ok r' ∧
      r'.fixed = some again ∧ Json.SameValue fixed again := by
  obtain ⟨index, rebuilt, r, fixed, hindex, hr, hfixed, hrebuilt, hends⟩ :=
    exists_correctAgain balancedLeague true (by decide +kernel)
  obtain ⟨ledger, corrected, -, hsome, hrewrites, hbuilt, -, hsame, -⟩ :=
    corrects_again_iff rfl hindex hr
  cases hfixed.symm.trans hsome
  cases hrebuilt.symm.trans hbuilt
  obtain ⟨r', hr'⟩ := hends.mpr rfl
  obtain ⟨again, hagain, hvalue⟩ := hsame r' hr'
  exact ⟨index, r, fixed, r', again, hindex, hr, hfixed, hrewrites, hr', hagain, hvalue⟩

/-- A soft constraint on the balance of home and away games, with a name of its own. -/
def namedBalance (id : String) (weight : Float) : Json :=
  .obj [("id", .str id), ("type", .str "soft"), ("ruleId", .str "home_away_balance"),
    ("penalty", .obj [("model", .str "linear"), ("weight", .float weight)])]

/-- An instance with two constraints of one name, whose penalties cancel each other out. -/
def cancellingLeague : Json :=
  .obj [("teams", .arr [.obj [("id", .str "A")]]),
    ("fixtures", .arr [.obj [("id", .str "F"), ("participants", .arr [.str "A", .str "B"])]]),
    ("constraints", .arr [namedBalance "A" 1e308, namedBalance "A" (-1e308),
      namedBalance "B" 1e308])]

/-- A corrected ledger may not be corrected again: without the second line of a name, the sum of the
others is beyond the largest double. -/
theorem not_corrects_again :
    ∃ index again r fixed,
      Index.build (.whole 90) "UTC" cancellingLeague playedResult = .ok index ∧
      corrector.reconcile { catalog := .default } cancellingLeague playedResult index = .ok r ∧
      r.fixed = some fixed ∧ Index.build (.whole 90) "UTC" cancellingLeague fixed = .ok again ∧
      ¬∃ r', corrector.reconcile { catalog := .default } cancellingLeague fixed again =
        .ok r' := by
  obtain ⟨index, again, r, fixed, hindex, hr, hfixed, hagain, hends⟩ :=
    exists_correctAgain cancellingLeague false (by decide +kernel)
  exact ⟨index, again, r, fixed, hindex, hr, hfixed, hagain,
    fun h => Bool.false_ne_true (hends.mp h)⟩

end Scorekeeper
end LeagueAudit
