import LeagueAudit.Proofs.Json.Members
import LeagueAudit.Proofs.Outcome
import LeagueAudit.Score.Reconcile

/-!
Reported ledgers. A ledger keeps the first line of each constraint, and reconciling finds no
difference exactly when the total agrees with these lines and each of them with the recomputed one.
-/
namespace LeagueAudit

/-- The first value of each name. -/
def firstOfEach {α : Type} : List (String × α) → List (String × α)
  | [] => []
  | (name, value) :: rest => (name, value) :: (firstOfEach rest).filter fun p => p.1 != name

section FirstOfEach

variable {α : Type}

theorem lookup_filter_ne {key name : String} (h : key ≠ name) (pairs : List (String × α)) :
    (pairs.filter fun p => p.1 != name).lookup key = pairs.lookup key := by
  induction pairs with
  | nil => rfl
  | cons pair rest ih =>
    obtain ⟨k, v⟩ := pair
    by_cases hk : k = name
    · subst hk
      rw [List.filter_cons_of_neg (by simp), ih, Json.lookup_cons_of_ne h]
    · rw [List.filter_cons_of_pos (by simpa using hk), Json.lookup_cons_eq, Json.lookup_cons_eq, ih]

@[simp] theorem lookup_firstOfEach (key : String) (pairs : List (String × α)) :
    (firstOfEach pairs).lookup key = pairs.lookup key := by
  induction pairs with
  | nil => rfl
  | cons pair rest ih =>
    obtain ⟨k, v⟩ := pair
    rw [firstOfEach, Json.lookup_cons_eq, Json.lookup_cons_eq]
    split
    · rfl
    · next h => rw [lookup_filter_ne h, ih]

theorem firstOfEach_sublist (pairs : List (String × α)) :
    (firstOfEach pairs).Sublist pairs := by
  induction pairs with
  | nil => exact .slnil
  | cons pair rest ih => exact (List.filter_sublist.trans ih).cons_cons _

theorem firstOfEach_of_nodup {pairs : List (String × α)} (h : (pairs.map (·.1)).Nodup) :
    firstOfEach pairs = pairs := by
  induction pairs with
  | nil => rfl
  | cons pair rest ih =>
    obtain ⟨name, value⟩ := pair
    rw [List.map_cons, List.nodup_cons] at h
    rw [firstOfEach, ih h.2, List.filter_eq_self.mpr]
    intro p hp
    have hne : p.1 ≠ name := fun heq => h.1 (heq ▸ List.mem_map_of_mem (f := (·.1)) hp)
    simpa using hne

theorem firstOfEach_map {β : Type} (f : α → β) (pairs : List (String × α)) :
    firstOfEach (pairs.map fun p => (p.1, f p.2)) =
      (firstOfEach pairs).map fun p => (p.1, f p.2) := by
  induction pairs with
  | nil => rfl
  | cons pair rest ih =>
    rw [List.map_cons, firstOfEach, ih, List.filter_map]
    rfl

/-- New names behind a list stay as they are. -/
theorem firstOfEach_append {pairs more : List (String × α)}
    (distinct : (more.map (·.1)).Nodup) (new : ∀ p ∈ more, pairs.lookup p.1 = none) :
    firstOfEach (pairs ++ more) = firstOfEach pairs ++ more := by
  induction pairs with
  | nil => exact firstOfEach_of_nodup distinct
  | cons pair rest ih =>
    obtain ⟨name, value⟩ := pair
    have hne : ∀ p ∈ more, p.1 ≠ name := fun p hp heq => by
      simpa [heq] using new p hp
    have hrest : ∀ p ∈ more, rest.lookup p.1 = none := fun p hp => by
      rw [← Json.lookup_cons_of_ne (hne p hp) value rest]
      exact new p hp
    have hmore : more.filter (fun p => p.1 != name) = more :=
      List.filter_eq_self.mpr fun p hp => by simpa using hne p hp
    rw [List.cons_append, firstOfEach, firstOfEach, ih hrest, List.filter_append, hmore,
      List.cons_append]

theorem nodup_firstOfEach (pairs : List (String × α)) :
    ((firstOfEach pairs).map (·.1)).Nodup := by
  induction pairs with
  | nil => exact .nil
  | cons pair rest ih =>
    obtain ⟨name, value⟩ := pair
    rw [firstOfEach, List.map_cons, List.nodup_cons]
    refine ⟨?_, ih.sublist (List.filter_sublist.map _)⟩
    simp

end FirstOfEach

namespace ReportedLine

/-- The name that a line gives to its constraint; an empty one is none. -/
def name? (line : ReportedLine) : Option String := line.constraint.filter (!·.isEmpty)

/-- The lines that name a constraint, each with the name. -/
def named (lines : List ReportedLine) : List (String × ReportedLine) :=
  lines.filterMap fun line => line.name?.map (·, line)

theorem named_cons (line : ReportedLine) (rest : List ReportedLine) :
    named (line :: rest) =
      match line.name? with
      | none => named rest
      | some id => (id, line) :: named rest := by
  cases h : line.name? <;> simp [named, h]

theorem name?_of_mem_named {lines : List ReportedLine} {p : String × ReportedLine}
    (h : p ∈ named lines) : p.2.name? = some p.1 := by
  obtain ⟨line, -, hp⟩ := List.mem_filterMap.mp h
  obtain ⟨id, hid, rfl⟩ := Option.map_eq_some_iff.mp hp
  exact hid

end ReportedLine

namespace ReportedLedger

theorem add_eq (ledger : ReportedLedger) (line : ReportedLine) :
    ledger.add line =
      match line.name? with
      | none => ledger
      | some id => if (ledger.lookup id).isSome then ledger else ledger ++ [(id, line)] := rfl

/-- Adding lines in turn appends the first ones of the constraints that are new. -/
theorem foldl_add (ledger : ReportedLedger) (lines : List ReportedLine) :
    lines.foldl add ledger = ledger ++
      (firstOfEach (ReportedLine.named lines)).filter fun p => (ledger.lookup p.1).isNone := by
  induction lines generalizing ledger with
  | nil => simp [ReportedLine.named, firstOfEach]
  | cons line rest ih =>
    rw [List.foldl_cons, ih, ReportedLine.named_cons, add_eq]
    cases line.name? with
    | none => rfl
    | some id =>
      dsimp only
      rw [firstOfEach]
      cases hknown : ledger.lookup id with
      | some old =>
        rw [if_pos (by rfl), List.filter_cons_of_neg (by simp [hknown]), List.filter_filter]
        congr 1
        refine List.filter_congr fun p _ => ?_
        by_cases hp : p.1 = id
        · simp [hp, hknown]
        · simp [hp]
      | none =>
        rw [if_neg (by simp), List.filter_cons_of_pos (by simp [hknown]), List.filter_filter,
          List.append_assoc, List.singleton_append]
        congr 2
        refine List.filter_congr fun p _ => ?_
        rw [List.lookup_append, Json.lookup_cons_eq]
        by_cases hp : p.1 = id
        · simp [hp]
        · simp [hp]

/-- The lines that the scores of a result report. -/
def linesOf (scores : Json) : Except Fault (List ReportedLine) :=
  ((scores.field "byConstraint").items.filter Json.isObject).mapM ReportedLine.read

theorem read_eq_ok {scores : Json} {ledger : ReportedLedger} :
    read scores = .ok ledger ↔
      ∃ lines, linesOf scores = .ok lines ∧ ledger = firstOfEach (ReportedLine.named lines) := by
  unfold read
  rw [bind_eq_ok]
  refine exists_congr fun lines => and_congr_right fun _ => ?_
  rw [Except.ok.injEq, foldl_add, eq_comm]
  simp

end ReportedLedger

namespace Scorekeeper

/-- Two numbers agree within the tolerance. -/
def Agrees (k : Scorekeeper) (a b : Float) : Prop := isClose k.tolerance a b = .ok true

/-- A reported total, if there is one, agrees with the reported lines. -/
def TotalAgrees (k : Scorekeeper) (ledger : ReportedLedger) (total : Option Float) : Prop :=
  ∀ shown ∈ total, ∃ parts, ledger.sum = .ok parts ∧ k.Agrees shown parts

/-- A constraint has a reported line, and its numbers agree with the recomputed ones. -/
def LineAgrees (k : Scorekeeper) (ledger : ReportedLedger) (ev : Evaluation) : Prop :=
  ∃ line, ledger.lookup ev.constraint.label = some line ∧
    k.Agrees (line.penalty.getD 0.0) ev.penalty ∧
    ∃ count, intToFloat ev.count = .ok count ∧ k.Agrees (line.violations.getD 0.0) count

variable {k : Scorekeeper} {ledger : ReportedLedger}

theorem compareNumber_eq_nil {name : String} {a b : Float} :
    k.compareNumber name a b = .ok [] ↔ k.Agrees a b := by
  unfold compareNumber Agrees
  cases isClose k.tolerance a b with
  | error f => simp [bind, Except.bind]
  | ok close => cases close <;> simp [bind, Except.bind]

theorem compareTotal_eq_nil {scores : Json} {total : Option Float} :
    k.compareTotal scores total ledger = .ok [] ↔ k.TotalAgrees ledger total := by
  unfold compareTotal TotalAgrees Agrees
  cases total with
  | none => simp
  | some shown =>
    cases ledger.sum with
    | error f => simp [bind, Except.bind]
    | ok parts =>
      cases h : isClose k.tolerance shown parts with
      | error f => simp [bind, Except.bind, h]
      | ok close => cases close <;> simp [bind, Except.bind, h]

theorem compareLine_eq_nil {ev : Evaluation} :
    k.compareLine ledger ev = .ok [] ↔ k.LineAgrees ledger ev := by
  unfold compareLine LineAgrees
  cases h : ledger.lookup ev.constraint.label with
  | none => simp [h]
  | some line =>
    dsimp only
    rw [h]
    constructor
    · intro hnil
      obtain ⟨penalty, hpenalty, hnil⟩ := bind_eq_ok.mp hnil
      obtain ⟨count, hcount, hnil⟩ := bind_eq_ok.mp hnil
      obtain ⟨violations, hviolations, hnil⟩ := bind_eq_ok.mp hnil
      have hboth : penalty ++ violations = [] := by
        by_cases hempty : (penalty ++ violations).isEmpty
        · simpa using hempty
        · simp [hempty] at hnil
      obtain ⟨rfl, rfl⟩ := List.append_eq_nil_iff.mp hboth
      exact ⟨line, rfl, compareNumber_eq_nil.mp hpenalty, count, hcount,
        compareNumber_eq_nil.mp hviolations⟩
    · rintro ⟨first, hfirst, hpenalty, count, hcount, hviolations⟩
      cases Option.some.inj hfirst
      refine bind_eq_ok.mpr ⟨[], compareNumber_eq_nil.mpr hpenalty, ?_⟩
      refine bind_eq_ok.mpr ⟨count, hcount, ?_⟩
      exact bind_eq_ok.mpr ⟨[], compareNumber_eq_nil.mpr hviolations, rfl⟩

/-- A line that is compared gives one difference at most, and one that is missing always gives
one. -/
theorem compareLine_eq_ok {ev : Evaluation} {differences : List Difference}
    (h : k.compareLine ledger ev = .ok differences) :
    (ledger.lookup ev.constraint.label = none ∧ differences = [.missing ev.constraint.label]) ∨
      (ledger.lookup ev.constraint.label).isSome ∧
        (differences = [] ∨ ∃ numbers, differences = [.line ev.constraint.label numbers]) := by
  unfold compareLine at h
  dsimp only at h
  split at h
  · next hnone => exact .inl ⟨hnone, (Except.ok.inj h).symm⟩
  · next hline =>
    obtain ⟨penalty, -, h⟩ := bind_eq_ok.mp h
    obtain ⟨count, -, h⟩ := bind_eq_ok.mp h
    obtain ⟨violations, -, h⟩ := bind_eq_ok.mp h
    refine .inr ⟨Option.isSome_iff_exists.mpr ⟨_, hline⟩, ?_⟩
    rw [← Except.ok.inj h]
    split
    · exact .inl rfl
    · exact .inr ⟨_, rfl⟩

/-- What a reconciliation is made of. -/
structure Reconciles (k : Scorekeeper) (result : Json) (evaluations : List Evaluation)
    (ledger : ReportedLedger) (r : Reconciliation) : Prop where
  same : r.evaluations = evaluations
  fixing : r.fix = k.fix
  sum : sumFloats ((Reconciliation.linesOf evaluations).map (·.penalty)) = .ok r.totalPenalty
  read : ReportedLedger.read (result.field "scores") = .ok ledger
  reported : reportedTotal (result.field "scores") = .ok r.reportedTotal
  compared : ∃ total others,
    k.compareTotal (result.field "scores") r.reportedTotal ledger = .ok total ∧
    (Reconciliation.linesOf evaluations).mapM (k.compareLine ledger) = .ok others ∧
    r.differences = total ++ others.flatten
  unknown : r.unknown = unknownLines ledger evaluations
  corrected : k.fix = true →
    ∃ fixed, k.correct result ledger evaluations = .ok fixed ∧ r.fixed = some fixed

variable {result : Json} {evaluations : List Evaluation} {r : Reconciliation}

theorem reconcileWith_eq_ok (h : k.reconcileWith result evaluations = .ok r) :
    ∃ ledger, Reconciles k result evaluations ledger r := by
  unfold reconcileWith at h
  obtain ⟨totalPenalty, hsum, h⟩ := bind_eq_ok.mp h
  obtain ⟨ledger, hledger, h⟩ := bind_eq_ok.mp h
  obtain ⟨reported, hreported, h⟩ := bind_eq_ok.mp h
  obtain ⟨total, htotal, h⟩ := bind_eq_ok.mp h
  obtain ⟨others, hothers, h⟩ := bind_eq_ok.mp h
  refine ⟨ledger, ?_⟩
  dsimp only at h
  split at h
  · obtain ⟨document, hdocument, h⟩ := bind_eq_ok.mp h
    obtain ⟨fixed, hfixed, h⟩ := bind_eq_ok.mp h
    cases Except.ok.inj hfixed
    cases Except.ok.inj h
    exact ⟨rfl, rfl, hsum, hledger, hreported, ⟨total, others, htotal, hothers, rfl⟩, rfl,
      fun _ => ⟨document, hdocument, rfl⟩⟩
  · next hoff =>
    obtain ⟨fixed, hfixed, h⟩ := bind_eq_ok.mp h
    cases Except.ok.inj hfixed
    cases Except.ok.inj h
    exact ⟨rfl, rfl, hsum, hledger, hreported, ⟨total, others, htotal, hothers, rfl⟩, rfl,
      fun hfix => absurd hfix hoff⟩

theorem reconcile_eq {engine : Engine} {league : Json} {index : Index}
    (h : engine.evaluateAll index (league.field "constraints").items = .ok evaluations) :
    k.reconcile engine league result index = k.reconcileWith result evaluations := by
  rw [reconcile, h]
  rfl

/-- A reconciliation comes to an end when its steps do. -/
theorem exists_reconcileWith {sum : Float} {shown : Option Float} {total : List Difference}
    {others : List (List Difference)}
    (hsum : sumFloats ((Reconciliation.linesOf evaluations).map (·.penalty)) = .ok sum)
    (hread : ReportedLedger.read (result.field "scores") = .ok ledger)
    (hshown : reportedTotal (result.field "scores") = .ok shown)
    (htotal : k.compareTotal (result.field "scores") shown ledger = .ok total)
    (hothers : (Reconciliation.linesOf evaluations).mapM (k.compareLine ledger) = .ok others)
    (hcorrected : k.fix = true → ∃ fixed, k.correct result ledger evaluations = .ok fixed) :
    ∃ r, k.reconcileWith result evaluations = .ok r ∧ r.differences = total ++ others.flatten := by
  simp only [reconcileWith, hsum, hread, hshown, htotal, hothers, bind, Except.bind]
  cases hfix : k.fix with
  | false => exact ⟨_, rfl, rfl⟩
  | true =>
    obtain ⟨fixed, hfixed⟩ := hcorrected hfix
    rw [hfixed]
    exact ⟨_, rfl, rfl⟩

namespace Reconciles

/-- Nothing differs exactly when the total and every recomputed line agree with the report. -/
theorem differences_eq_nil (h : Reconciles k result evaluations ledger r) :
    r.differences = [] ↔ k.TotalAgrees ledger r.reportedTotal ∧
      ∀ ev ∈ Reconciliation.linesOf evaluations, k.LineAgrees ledger ev := by
  obtain ⟨total, others, htotal, hothers, hdiff⟩ := h.compared
  have htotals : total = [] ↔ k.TotalAgrees ledger r.reportedTotal := by
    rw [← Except.ok.injEq (ε := Fault), ← htotal, compareTotal_eq_nil]
  rw [hdiff, List.append_eq_nil_iff, List.flatten_eq_nil_iff, htotals]
  refine and_congr_right fun _ => ?_
  constructor
  · intro hnil ev hev
    obtain ⟨ds, hds, hline⟩ := exists_of_mapM_eq_ok hothers hev
    rw [← compareLine_eq_nil, hline, hnil ds hds]
  · intro hall ds hds
    obtain ⟨ev, hev, hline⟩ := exists_source_of_mapM_eq_ok hothers hds
    exact Except.ok.inj (hline.symm.trans (compareLine_eq_nil.mpr (hall ev hev)))

end Reconciles

end Scorekeeper
end LeagueAudit
