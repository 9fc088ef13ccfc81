import LeagueAudit.Proofs.Audit.Cardinality
import LeagueAudit.Proofs.Audit.Verdict
import LeagueAudit.Proofs.Metrics.Table
import LeagueAudit.Proofs.Schedule.Derived
import LeagueAudit.Proofs.Schedule.Grouping

/-!
What metrics account for. The figures of a schedule lose none of its assignments, days, venues or
times. Violations are added up by rule in words of sixty-four bits, so what a sum has beyond its
word is lost.
-/
namespace LeagueAudit

namespace Column

theorem total_mixed (ns : List Int) : total .mixed (ns.map .int) = .ok ns.sum := by
  have hpresent : (ns.map Json.int).filter (fun cell => !isMissing cell) = ns.map .int :=
    List.filter_eq_self.mpr fun cell hcell => by
      obtain ⟨n, -, rfl⟩ := List.mem_map.mp hcell
      rfl
  have hplus : ∀ (rest : List Int) (n : Int),
      (rest.map Json.int).foldlM plus (.int n) = .ok (.int (n + rest.sum)) := by
    intro rest
    induction rest with
    | nil => exact fun n => by rw [List.sum_nil, Int.add_zero]; rfl
    | cons m rest ih =>
      intro n
      rw [List.sum_cons, ← Int.add_assoc, ← ih]
      rfl
  have hsum : sumMixed (ns.map .int) = .ok (.int ns.sum) := by
    cases ns with
    | nil => rfl
    | cons n rest => exact hplus rest n
  simp only [total, hpresent, hsum]
  rfl

/-- A column of whole numbers is added up as far as its kind goes. -/
theorem total_whole (ns part : List Int) :
    total (kindOf ns) (part.map .int) = .ok (wordSum (kindOf ns) part.sum) := by
  have hcount : (part.map Json.int).map count = part := by
    rw [List.map_map]
    exact List.map_id part
  have hcounted : ((part.map Json.int).map count).foldl (· + ·) 0 = part.sum := by
    rw [hcount, List.sum_eq_foldl]
  unfold kindOf
  split
  · exact total_mixed part
  · split
    · simp only [total, hcounted, wordSum]
    · simp only [total, hcounted, wordSum]

end Column

namespace Metrics

open Column ResultAudit

variable {report : Report} {r : Reconciliation} {evaluations : List Evaluation} {t : Table}

section Rules

/-- The rules of evaluated constraints with the counts of their violations. -/
def ruleCounts (evaluations : List Evaluation) : List (String × Int) :=
  evaluations.filterMap fun ev => ev.constraint.ruleId.map fun rule => (rule, ev.count)

/-- The violations of rules, each as its column has room for them, in order of the rules. -/
def ruleTotals (evaluations : List Evaluation) : List (String × Int) :=
  ((grouped (ruleCounts evaluations)).mergeSort fun a b => decide (a.1 ≤ b.1)).map fun group =>
    (group.1, wordSum (kindOf (countsOf evaluations)) group.2.sum)

/-- The counts of a rule as cells. -/
def cellsOfGroup (group : String × List Int) : Json × List Json := (.str group.1, group.2.map .int)

theorem addCount_map (groups : List (String × List Int)) (rule : String) (n : Int) :
    addCount (groups.map cellsOfGroup) (.str rule) (.int n) =
      (addToGroup rule n groups).map cellsOfGroup := by
  induction groups with
  | nil => rfl
  | cons group rest ih =>
    obtain ⟨other, ns⟩ := group
    have hsame : (Json.str other).same (.str rule) = (other == rule) := by
      simp [Json.same, Json.equal]
    rw [List.map_cons, cellsOfGroup, addCount, addToGroup, hsame]
    split
    · simp [cellsOfGroup]
    · rw [ih, List.map_cons, cellsOfGroup]

/-- Rows without a rule are left out. -/
theorem known_rows {gap : Json} (hgap : isMissing gap = true) (evaluations : List Evaluation) :
    (evaluations.map fun ev => (textOr gap ev.constraint.ruleId, Json.int ev.count)).filter
        (fun (rule, _) => !isMissing rule) =
      (ruleCounts evaluations).map fun p => (Json.str p.1, Json.int p.2) := by
  induction evaluations with
  | nil => rfl
  | cons ev rest ih =>
    rw [List.map_cons, ruleCounts, List.filterMap_cons]
    cases ev.constraint.ruleId with
    | none => rw [List.filter_cons_of_neg (by simp [textOr, hgap]), ih]; rfl
    | some rule => rw [List.filter_cons_of_pos (by rfl), ih]; rfl

theorem countsByRule_eq (h : Tabulates evaluations t) :
    countsByRule t = .ok ((grouped (ruleCounts evaluations)).map cellsOfGroup) := by
  obtain ⟨gap, hgap, hrules⟩ := h.rules
  have hfold : ∀ (items : List (String × Int)) (groups : List (String × List Int)),
      (items.map fun p => (Json.str p.1, Json.int p.2)).foldlM (fun counts (rule, count) =>
          if rule.isArray || rule.isObject then .error (.notKey rule.typeName)
          else .ok (addCount counts rule count)) (groups.map cellsOfGroup) =
        (.ok ((items.foldl (fun acc p => addToGroup p.1 p.2 acc) groups).map cellsOfGroup) :
          Except Fault _) := by
    intro items
    induction items with
    | nil => exact fun groups => rfl
    | cons item rest ih =>
      intro groups
      rw [List.foldl_cons, ← ih, ← addCount_map]
      rfl
  rw [countsByRule, hrules, h.counts, List.zip_map', known_rows hgap]
  exact hfold (ruleCounts evaluations) []

theorem violationsOf_eq (h : Tabulates evaluations t) :
    violationsOf t = .ok (ruleTotals evaluations) := by
  have hsorted : ((grouped (ruleCounts evaluations)).map cellsOfGroup).mergeSort
      (fun a b => notAfter a.1 b.1) =
        ((grouped (ruleCounts evaluations)).mergeSort fun a b => decide (a.1 ≤ b.1)).map
          cellsOfGroup :=
    (List.map_mergeSort (f := cellsOfGroup) fun _ _ _ _ => rfl).symm
  have hkeys : ((ruleTotals evaluations).map (·.1)).Nodup := by
    rw [ruleTotals, List.map_map]
    exact (((List.mergeSort_perm _ _).map _).nodup_iff).mpr (keys_grouped _).1
  have hset : Json.setMembers [] (ruleTotals evaluations) = ruleTotals evaluations :=
    Json.setMembers_eq_append hkeys
  rw [violationsOf, countsByRule_eq h]
  dsimp only [bind, Except.bind]
  rw [hsorted, h.counts, mapM_map_eq_ok (h := fun group : String × List Int =>
    (group.1, wordSum (kindOf (countsOf evaluations)) group.2.sum))]
  · exact congrArg Except.ok hset
  · intro group _
    simp only [cellsOfGroup, total_whole]
    rfl

end Rules

section Shares

/-- A double, with zero for the undefined one. -/
def orZero (x : Float) : Float := if x.isNaN then 0.0 else x

/-- The share of each soft constraint in a total. -/
def shareRows (evaluations : List Evaluation) (total : Float) : List (String × Float) :=
  (evaluations.filter (·.constraint.soft)).map fun ev =>
    (ev.constraint.label, withoutNoise (orZero ev.penalty / total))

/-- The shares in a positive total, of which one is left for each name. -/
def sharesFrom (evaluations : List Evaluation) (total : Float) : List (String × Float) :=
  if total ≤ 0.0 || !total.isFinite then [] else Json.setMembers [] (shareRows evaluations total)

theorem numbersOrZero_eq {cells : List Json} {xs : List Float}
    (h : cells.mapM number = .ok (xs.map .double)) : numbersOrZero cells = .ok (xs.map orZero) := by
  have hlarge : (xs.map TextNumber.double).any TextNumber.isLarge = false := by
    simp [TextNumber.isLarge]
  have hread : (xs.map TextNumber.double).mapM TextNumber.toFloat = .ok (xs.map orZero) :=
    mapM_map_eq_ok fun _ _ => rfl
  rw [numbersOrZero, h]
  dsimp only [bind, Except.bind]
  rw [hlarge, Bool.false_and, Bool.false_and, if_neg Bool.false_ne_true, hread]

theorem numbersOrZero_doubles (xs : List Float) :
    numbersOrZero (xs.map .float) = .ok (xs.map orZero) :=
  numbersOrZero_eq (mapM_map_eq_ok fun _ _ => rfl)

/-- The number that a missing cell is read as. -/
def undefinedAt : Json → Float
  | .float x => x
  | _ => 0.0 / 0.0

/-- What is missing counts as zero. -/
theorem numbersOrZero_missing {cells : List Json} (h : ∀ cell ∈ cells, isMissing cell = true) :
    numbersOrZero cells = .ok (cells.map fun _ => 0.0) := by
  have hnone : orZero (0.0 / 0.0) = 0.0 := if_pos isMissing_missing
  have hread : cells.mapM number = .ok ((cells.map undefinedAt).map .double) := by
    rw [mapM_eq_ok, List.map_map, List.forall₂_map_right_iff, List.forall₂_same]
    intro cell hcell
    have hcell := h cell hcell
    cases cell <;> first | rfl | cases hcell
  rw [numbersOrZero_eq hread, List.map_map]
  refine congrArg Except.ok (List.map_congr_left fun cell hcell => ?_)
  have hcell := h cell hcell
  cases cell with
  | null => exact hnone
  | float x => exact if_pos hcell
  | _ => cases hcell

theorem isText_severity (c : Constraint) : (Json.str c.severity).isText "soft" = c.soft := by
  unfold Constraint.severity Json.isText
  cases c.soft <;> decide

/-- The rows of soft constraints: the severity, the label and the penalty of each. -/
def softRows (t : Table) : List (Json × Json × Json) :=
  ((t.column "type").cells.zip
    ((t.column "constraintId").cells.zip (t.column "penalty").cells)).filter (·.1.isText "soft")

theorem softRows_eq (h : Tabulates evaluations t) :
    softRows t = (evaluations.filter (·.constraint.soft)).map fun ev =>
      (.str ev.constraint.severity, .str ev.constraint.label, .float ev.penalty) := by
  rw [softRows, h.severities, h.labels, h.penalties, List.zip_map', List.zip_map', List.filter_map]
  exact congrArg (List.map _) (List.filter_congr fun ev _ => isText_severity ev.constraint)

theorem sharesOf_softRows (t : Table) (total : Float) :
    sharesOf t total = if (softRows t).isEmpty || total ≤ 0.0 || !total.isFinite then .ok []
      else numbersOrZero ((softRows t).map (·.2.2)) >>= fun penalties =>
        .ok (Json.setMembers [] (((softRows t).zip penalties).map fun p =>
          (p.1.2.1.text, withoutNoise (p.2 / total)))) := rfl

theorem sharesOf_eq (h : Tabulates evaluations t) (total : Float) :
    sharesOf t total = .ok (sharesFrom evaluations total) := by
  have hnumbers : ∀ soft : List Evaluation, numbersOrZero (soft.map fun ev => .float ev.penalty) =
      .ok (soft.map fun ev => orZero ev.penalty) := fun soft => by
    simpa [Function.comp_def] using numbersOrZero_doubles (soft.map (·.penalty))
  rw [sharesOf_softRows, softRows_eq h, sharesFrom, shareRows]
  cases hout : decide (total ≤ 0.0) || !total.isFinite with
  | true => simp [Bool.or_assoc, hout]
  | false =>
    rw [Bool.or_assoc, hout, Bool.or_false, if_neg Bool.false_ne_true, List.map_map]
    split
    · next hnone =>
      rw [List.isEmpty_iff, List.map_eq_nil_iff] at hnone
      rw [hnone]
      rfl
    · refine bind_eq_ok.mpr ⟨_, hnumbers _, ?_⟩
      rw [List.zip_map', List.map_map]
      rfl

end Shares

section Collecting

theorem foldl_add_zeros {α : Type} (cells : List α) :
    (cells.map fun _ => (0.0 : Float)).foldl (· + ·) 0.0 = 0.0 := by
  have hzero : (0.0 : Float) + 0.0 = 0.0 := by decide +kernel
  induction cells with
  | nil => rfl
  | cons cell rest ih => rw [List.map_cons, List.foldl_cons, hzero, ih]

theorem totalOf_eq (h : Details report r) : totalOf report = .ok r.totalPenalty := by
  rw [totalOf, h.total]
  rfl

/-- The figures of a report and of a schedule. -/
def figuresOf (report : Report) (r : Reconciliation) (s : ScheduleFigures) : Metrics where
  valid := report.valid
  exitCode := report.exitCode
  errors := report.errors.length
  warnings := report.warnings.length
  hardViolations := r.hardViolations.length
  totalPenalty := r.totalPenalty
  shares := sharesFrom r.evaluations r.totalPenalty
  violations := ruleTotals r.evaluations
  evaluation := 0.0
  schedule := some s

/-- All doubles among the figures are finite. -/
def Shown (r : Reconciliation) (s : ScheduleFigures) : Prop :=
  ∀ x ∈ (sharesFrom r.evaluations r.totalPenalty).map (·.2) ++ s.usage.map (·.hours),
    x.isFinite = true

theorem collect_eq_ok_iff_of_table (h : Details report r) (ht : tableOf report = .ok t)
    {index : Index} {m : Metrics} :
    collect report (some index) = .ok m ↔ ∃ s, ScheduleFigures.ofIndex index = .ok s ∧
      Shown r s ∧ m = figuresOf report r s := by
  have htable := tabulates_of_tableOf h ht
  have hnoise : withoutNoise 0.0 = 0.0 := by decide +kernel
  have hfinite : Float.isFinite 0.0 = true := by decide +kernel
  have hschedule : (some index).mapM ScheduleFigures.ofIndex =
      some <$> ScheduleFigures.ofIndex index := rfl
  rw [collect, totalOf_eq h, Report.hardViolations?_of_detail h.hardViolations, ht]
  simp only [bind, Except.bind, sharesOf_eq htable, violationsOf_eq htable,
    numbersOrZero_missing htable.times, foldl_add_zeros, hnoise, hschedule]
  cases ScheduleFigures.ofIndex index with
  | error e => simp [Functor.map, Except.map]
  | ok s =>
    have hshown : ((0.0 :: (sharesFrom r.evaluations r.totalPenalty).map (·.2) ++
        s.usage.map (·.hours)).any fun x => !x.isFinite) = true ↔ ¬Shown r s := by
      rw [List.cons_append, List.any_cons, hfinite, Bool.not_true, Bool.false_or, Shown,
        ← Bool.not_eq_false, List.any_eq_false]
      simp only [Bool.not_eq_true', Bool.not_eq_false]
    simp only [Functor.map, Except.map, Option.map_some, Option.getD_some, Except.ok.injEq,
      exists_eq_left']
    by_cases hs : Shown r s
    · rw [if_neg fun hany => hshown.mp hany hs, Except.ok.injEq, and_iff_right hs, eq_comm]
      rfl
    · rw [if_pos (hshown.mpr hs)]
      simp [hs]

/-- The figures of a report with its index, and when they can be had. -/
theorem collect_eq_ok_iff (h : Details report r) {index : Index} {m : Metrics} :
    collect report (some index) = .ok m ↔
      Listable [] (countsOf r.evaluations) ∧ ∃ s, ScheduleFigures.ofIndex index = .ok s ∧
        Shown r s ∧ m = figuresOf report r s := by
  rw [← exists_tableOf_iff h]
  constructor
  · intro hm
    have ht : ∃ t, tableOf report = .ok t := by
      unfold collect at hm
      obtain ⟨_, -, hm⟩ := bind_eq_ok.mp hm
      obtain ⟨_, -, hm⟩ := bind_eq_ok.mp hm
      obtain ⟨t, ht, -⟩ := bind_eq_ok.mp hm
      exact ⟨t, ht⟩
    exact ⟨ht, (collect_eq_ok_iff_of_table h ht.choose_spec).mp hm⟩
  · rintro ⟨⟨t, ht⟩, hm⟩
    exact (collect_eq_ok_iff_of_table h ht).mpr hm

end Collecting

end Metrics

/-- The member that is set takes the place of what was there. -/
theorem Json.sum_setMember {α M : Type} [AddCommMonoid M] (f : α → M) (key : String) (value : α)
    (members : List (String × α)) :
    ((setMember key value members).map fun p => f p.2).sum +
        ((members.lookup key).map f).getD 0 =
      (members.map fun p => f p.2).sum + f value := by
  induction members with
  | nil => simp [setMember]
  | cons member rest ih =>
    obtain ⟨name, old⟩ := member
    rw [setMember, lookup_cons_eq]
    by_cases h : name = key
    · simp only [if_pos h, if_pos h.symm, List.map_cons, List.sum_cons, Option.map_some,
        Option.getD_some]
      ac_rfl
    · simp only [if_neg h, if_neg (Ne.symm h), List.map_cons, List.sum_cons, add_assoc, ih]

/-- A time in hours. -/
def exactHours (time : Int) : ℚ := time / msPerHour

theorem exactHours_mul (n : Int) : exactHours (n * msPerHour) = n := by
  rw [exactHours, Int.cast_mul, Int.cast_natCast]
  exact mul_div_cancel_right₀ _ (by decide)

/-- The hours of a venue. -/
def VenueUsage.exactHours (u : VenueUsage) : ℚ := (u.times.map LeagueAudit.exactHours).sum

/-- Whole hours are shown without rounding. -/
theorem VenueUsage.standsFor_hours {u : VenueUsage} {ns : List Int}
    (hwhole : u.times = ns.map (· * (msPerHour : Int))) (h : (ns.map Int.natAbs).sum < 2 ^ 53) :
    Exact.StandsFor u.hours u.exactHours := by
  have hexact : u.exactHours = (ns.sum : Int) := by
    have hhours : LeagueAudit.exactHours ∘ (· * (msPerHour : Int)) = fun n : Int => (n : ℚ) :=
      funext exactHours_mul
    rw [exactHours, hwhole, List.map_map, hhours]
    exact (map_list_sum (Int.castAddHom ℚ) ns).symm
  have hterms : List.Forall₂ (fun x n => Exact.ofFloat x = Exact.ofInt n) (u.times.map hoursOf)
      ns := by
    rw [hwhole, List.map_map, List.forall₂_map_left_iff, List.forall₂_same]
    intro n hn
    have hlt : n.natAbs < 2 ^ 53 :=
      (List.single_le_sum (fun _ _ => Nat.zero_le _) _ (List.mem_map_of_mem hn)).trans_lt h
    have hsign : decide (n * (msPerHour : Int) < 0) = decide (n < 0) :=
      decide_eq_decide.mpr (by rw [msPerHour]; omega)
    rw [Function.comp_apply, hoursOf, hsign, Int.natAbs_mul, Int.natAbs_natCast]
    exact Exact.ofFloat_nearestFloat_mul hlt (by decide)
  rw [hexact]
  exact Exact.standsFor_of_ofInt (Exact.ofFloat_carriedSum_whole hterms h)

/-- Nothing of a schedule is lost in its figures, and nothing is counted twice. -/
structure ScheduleFigures.AccountFor (s : ScheduleFigures) (index : Index) : Prop where
  days : (s.weekdays.map (·.1)).Nodup
  games : (s.weekdays.map (·.2)).sum = index.assignments.countP (·.start.isSome)
  venues : (s.usage.map (·.venue)).Nodup
  booked : (s.usage.map (·.assignments)).sum = index.assignments.countP (·.venue.isSome)
  hours : (s.usage.map (·.exactHours)).sum =
    (((index.assignments.filter (·.venue.isSome)).filterMap (·.duration?)).map exactHours).sum
  wholeHours : ∀ u ∈ s.usage, ∀ ns : List Int, u.times = ns.map (· * (msPerHour : Int)) →
    (ns.map Int.natAbs).sum < 2 ^ 53 → Exact.StandsFor u.hours u.exactHours
  assignments : s.assignments = (index.counts.map (·.2)).sum

namespace ScheduleFigures

/-- The assignments with a venue, under its name. -/
def bookings (assignments : List Assignment) : List (String × Assignment) :=
  assignments.filterMap fun a => a.venue.map fun venue => (venue, a)

/-- What the assignments of a venue come to. -/
def usageOfGroup (group : String × List Assignment) : VenueUsage :=
  ⟨group.1, group.2.length, group.2.filterMap Assignment.duration?⟩

theorem add_map (venue : String) (a : Assignment) (groups : List (String × List Assignment)) :
    addUsage.add venue a.duration?.toList (groups.map usageOfGroup) =
      (addToGroup venue a groups).map usageOfGroup := by
  induction groups with
  | nil => cases ha : a.duration? <;> simp [addUsage.add, addToGroup, usageOfGroup, ha]
  | cons group rest ih =>
    obtain ⟨other, as⟩ := group
    rw [List.map_cons, addUsage.add, addToGroup, ih]
    by_cases h : other = venue
    · cases ha : a.duration? <;> simp [usageOfGroup, h, ha]
    · simp [usageOfGroup, h]

theorem usageOf_perm (assignments : List Assignment) :
    (usageOf assignments).Perm ((grouped (bookings assignments)).map usageOfGroup) := by
  have hgen : ∀ groups : List (String × List Assignment),
      assignments.foldl addUsage (groups.map usageOfGroup) =
        ((bookings assignments).foldl (fun acc p => addToGroup p.1 p.2 acc) groups).map
          usageOfGroup := by
    induction assignments with
    | nil => exact fun groups => rfl
    | cons a rest ih =>
      intro groups
      rw [List.foldl_cons, bookings, List.filterMap_cons, addUsage]
      cases a.venue with
      | none => exact ih groups
      | some venue => exact (congrArg (rest.foldl addUsage) (add_map venue a groups)).trans (ih _)
  exact (List.mergeSort_perm _ _).trans (.of_eq (hgen []))

theorem map_snd_bookings (assignments : List Assignment) :
    (bookings assignments).map (·.2) = assignments.filter (·.venue.isSome) := by
  induction assignments with
  | nil => rfl
  | cons a rest ih =>
    rw [bookings, List.filterMap_cons, List.filter_cons]
    cases a.venue with
    | none => exact ih
    | some venue => exact congrArg (a :: ·) ih

/-- The hours of assignments are those of each of them. -/
theorem sum_hours (assignments : List Assignment) :
    ((assignments.filterMap Assignment.duration?).map exactHours).sum =
      (assignments.map fun a => (a.duration?.map exactHours).getD 0).sum := by
  induction assignments with
  | nil => rfl
  | cons a rest ih => cases h : a.duration? <;> simp [h, ih]

/-- What venues come to is what their assignments come to. -/
theorem sum_usageOf {M : Type} [AddCommMonoid M] {f : VenueUsage → M} {g : Assignment → M}
    (hf : ∀ group, f (usageOfGroup group) = (group.2.map g).sum) (assignments : List Assignment) :
    ((usageOf assignments).map f).sum =
      ((assignments.filter (·.venue.isSome)).map g).sum := by
  rw [((usageOf_perm assignments).map f).sum_eq, List.map_map, ← map_snd_bookings, List.map_map]
  exact (congrArg List.sum (List.map_congr_left fun group _ => hf group)).trans
    (sum_grouped g (bookings assignments))

/-- Every game is counted on one day. -/
theorem weekdaysOf_spec (assignments : List Assignment) :
    ((weekdaysOf assignments).map (·.1)).Nodup ∧
      ((weekdaysOf assignments).map (·.2)).sum = assignments.countP (·.parts.isSome) := by
  have hgen : ∀ (days : List String) (counts : List (String × Nat)), (counts.map (·.1)).Nodup →
      ((days.foldl countDay counts).map (·.1)).Nodup ∧
        ((days.foldl countDay counts).map (·.2)).sum = (counts.map (·.2)).sum + days.length := by
    intro days
    induction days with
    | nil => exact fun counts hcounts => ⟨hcounts, rfl⟩
    | cons day rest ih =>
      intro counts hcounts
      have hsum := Json.sum_setMember id day ((counts.lookup day).getD 0 + 1) counts
      rw [Option.map_id, id_eq] at hsum
      obtain ⟨hnodup, htotal⟩ := ih (countDay counts day) (Json.nodup_keys_setMember hcounts)
      refine ⟨hnodup, ?_⟩
      rw [List.foldl_cons, htotal, countDay, List.length_cons]
      simp only [id_eq] at hsum
      omega
  obtain ⟨hnodup, hsum⟩ :=
    hgen (assignments.filterMap fun a => a.parts.map (·.weekday)) [] .nil
  have hperm := List.mergeSort_perm ((assignments.filterMap fun a => a.parts.map (·.weekday)).foldl
    countDay []) fun a b => decide (a.1 ≤ b.1)
  refine ⟨((hperm.map _).nodup_iff).mpr hnodup, ?_⟩
  rw [weekdaysOf, (hperm.map _).sum_eq, hsum, List.length_filterMap_eq_countP]
  simp

theorem ofIndex_eq_ok_iff {index : Index} {s : ScheduleFigures} : ofIndex index = .ok s ↔
    (∀ a ∈ index.assignments, ∀ time, a.duration? = some time → (hoursOf time).isInf = false) ∧
      s =
        { teams := index.teams.length, venues := index.venues.length
          fixtures := index.fixtures.length, assignments := index.assignments.length
          unassigned := index.unassigned.length, usage := usageOf index.assignments
          weekdays := weekdaysOf index.assignments } := by
  have hmuch : ((index.assignments.filterMap Assignment.duration?).any
      fun time => (hoursOf time).isInf) = true ↔
        ¬∀ a ∈ index.assignments, ∀ time, a.duration? = some time →
          (hoursOf time).isInf = false := by
    simp only [List.any_eq_true, List.mem_filterMap]
    push Not
    simp only [Bool.not_eq_false]
    exact ⟨fun ⟨time, ⟨a, ha, htime⟩, h⟩ => ⟨a, ha, time, htime, h⟩,
      fun ⟨a, ha, time, htime, h⟩ => ⟨time, ⟨a, ha, htime⟩, h⟩⟩
  rw [ofIndex]
  split
  · next h => exact iff_of_false nofun fun hall => hmuch.mp h hall.1
  · next h =>
    rw [hmuch, not_not] at h
    rw [Except.ok.injEq, and_iff_right h, eq_comm]

theorem accountFor_of_ofIndex {default : Minutes} {fallback : String} {league result : Json}
    {index : Index} {s : ScheduleFigures}
    (hbuild : Index.build default fallback league result = .ok index)
    (h : ofIndex index = .ok s) : s.AccountFor index := by
  obtain ⟨-, rfl⟩ := ofIndex_eq_ok_iff.mp h
  have hclocks : ∀ a ∈ index.assignments, a.parts.isSome = a.start.isSome := by
    intro a ha
    have honClocks := (Index.Derived.built hbuild).onClocks a ha
    cases hstart : a.start with
    | none =>
      rw [honClocks.unknown hstart]
      rfl
    | some ms =>
      obtain ⟨parts, -, hparts⟩ := honClocks.shown ms hstart
      rw [hparts]
      rfl
  have hcounts := (Index.assembled_of_build hbuild).counts
  obtain ⟨hdays, hgames⟩ := weekdaysOf_spec index.assignments
  refine ⟨hdays, hgames.trans (List.countP_congr fun a ha => by rw [hclocks a ha]), ?_, ?_, ?_,
    fun u _ ns => VenueUsage.standsFor_hours, ?_⟩
  · rw [((usageOf_perm index.assignments).map (·.venue)).nodup_iff, List.map_map]
    exact (keys_grouped _).1
  · rw [sum_usageOf (g := fun _ => 1) fun group => by simp [usageOfGroup]]
    simp [List.countP_eq_length_filter]
  · rw [sum_hours]
    exact sum_usageOf (fun group => sum_hours group.2) index.assignments
  · rw [hcounts, Index.sum_tally, List.length_map]

end ScheduleFigures

namespace Metrics

open Column ResultAudit

variable {report : Report} {r : Reconciliation} {evaluations : List Evaluation} {index : Index}

/-- What the figures of a result take: counts that make a column, and doubles that stay finite. -/
structure Collectable (index : Index) (r : Reconciliation) : Prop where
  counts : Listable [] (countsOf r.evaluations)
  times : ∀ a ∈ index.assignments, ∀ time, a.duration? = some time →
    (hoursOf time).isInf = false
  shares : ∀ p ∈ sharesFrom r.evaluations r.totalPenalty, p.2.isFinite = true
  hours : ∀ u ∈ ScheduleFigures.usageOf index.assignments, u.hours.isFinite = true

theorem exists_collect_iff (h : Details report r) :
    (∃ m, collect report (some index) = .ok m) ↔ Collectable index r := by
  simp only [collect_eq_ok_iff h, ScheduleFigures.ofIndex_eq_ok_iff]
  constructor
  · rintro ⟨_, hcounts, _, ⟨htimes, rfl⟩, hshown, -⟩
    simp only [Shown, List.forall_mem_append, List.forall_mem_map] at hshown
    exact ⟨hcounts, htimes, hshown.1, hshown.2⟩
  · intro hcollectable
    refine ⟨_, hcollectable.counts, _, ⟨hcollectable.times, rfl⟩, ?_, rfl⟩
    simp only [Shown, List.forall_mem_append, List.forall_mem_map]
    exact ⟨hcollectable.shares, hcollectable.hours⟩

/-- The counts of a rule. -/
def underRule (evaluations : List Evaluation) (rule : String) : List Int :=
  (evaluations.filter fun ev => ev.constraint.ruleId = some rule).map (·.count)

/-- Every rule has one total: that of its counts as far as a word goes, which is exact if the word
holds it. -/
structure TotalsByRule (totals : List (String × Int)) (evaluations : List Evaluation) : Prop where
  distinct : (totals.map (·.1)).Nodup
  named : ∀ rule, rule ∈ totals.map (·.1) ↔ ∃ ev ∈ evaluations, ev.constraint.ruleId = some rule
  total : ∀ p ∈ totals,
    p.2 = wordSum (kindOf (countsOf evaluations)) (underRule evaluations p.1).sum
  exact : ∀ p ∈ totals, p.2 = (underRule evaluations p.1).sum ↔
    (kindOf (countsOf evaluations)).Holds (underRule evaluations p.1).sum

/-- What a word has no room for of the counts of a rule. -/
def lost (evaluations : List Evaluation) (rule : String) : Int :=
  (underRule evaluations rule).sum -
    wordSum (kindOf (countsOf evaluations)) (underRule evaluations rule).sum

theorem valuesOf_ruleCounts (evaluations : List Evaluation) (rule : String) :
    valuesOf rule (ruleCounts evaluations) = underRule evaluations rule := by
  induction evaluations with
  | nil => rfl
  | cons ev rest ih =>
    rw [valuesOf, ruleCounts, underRule] at ih ⊢
    rw [List.filterMap_cons, List.filter_cons]
    cases hrule : ev.constraint.ruleId with
    | none => simpa using ih
    | some other =>
      by_cases hother : other = rule
      · simpa [hother] using ih
      · simpa [hother] using ih

theorem ruleTotals_perm (evaluations : List Evaluation) :
    (ruleTotals evaluations).Perm (((grouped (ruleCounts evaluations)).map (·.1)).map fun rule =>
      (rule, wordSum (kindOf (countsOf evaluations)) (underRule evaluations rule).sum)) := by
  have hgroups := grouped_eq (ruleCounts evaluations)
  simp only [valuesOf_ruleCounts] at hgroups
  refine ((List.mergeSort_perm _ _).map _).trans (.of_eq ?_)
  conv_lhs => rw [hgroups]
  rw [List.map_map]
  rfl

theorem totalsByRule (evaluations : List Evaluation) :
    TotalsByRule (ruleTotals evaluations) evaluations := by
  have hperm := ruleTotals_perm evaluations
  obtain ⟨hnodup, hkeys⟩ := keys_grouped (ruleCounts evaluations)
  have hrules : ((ruleTotals evaluations).map (·.1)).Perm
      ((grouped (ruleCounts evaluations)).map (·.1)) := by
    simpa [Function.comp_def] using hperm.map (·.1)
  have htotal : ∀ p ∈ ruleTotals evaluations,
      p.2 = wordSum (kindOf (countsOf evaluations)) (underRule evaluations p.1).sum := by
    intro p hp
    obtain ⟨rule, -, rfl⟩ := List.mem_map.mp (hperm.mem_iff.mp hp)
    rfl
  refine ⟨hrules.nodup_iff.mpr hnodup, fun rule => ?_, htotal, fun p hp => ?_⟩
  · rw [hrules.mem_iff, hkeys]
    simp [ruleCounts]
  · rw [htotal p hp, wordSum_eq_iff]

/-- The counts of rules add up to those of all evaluations that name one. -/
theorem sum_underRule (evaluations : List Evaluation) :
    ((ruleTotals evaluations).map fun p => (underRule evaluations p.1).sum).sum =
      ((evaluations.filter (·.constraint.ruleId.isSome)).map (·.count)).sum := by
  have hcounts : (ruleCounts evaluations).map (·.2) =
      (evaluations.filter (·.constraint.ruleId.isSome)).map (·.count) := by
    induction evaluations with
    | nil => rfl
    | cons ev rest ih =>
      rw [ruleCounts] at ih ⊢
      rw [List.filterMap_cons, List.filter_cons]
      cases ev.constraint.ruleId <;> simpa using ih
  have hgroups : (grouped (ruleCounts evaluations)).map (fun group => (group.2.map id).sum) =
      ((grouped (ruleCounts evaluations)).map (·.1)).map
        fun rule => (underRule evaluations rule).sum := by
    conv_lhs => rw [grouped_eq]
    rw [List.map_map]
    simp only [valuesOf_ruleCounts, Function.comp_def, List.map_id]
  rw [((ruleTotals_perm evaluations).map _).sum_eq, List.map_map, ← hcounts]
  exact (congrArg List.sum hgroups.symm).trans (sum_grouped id (ruleCounts evaluations))

/-- Violations add up exactly when what is lost of them cancels out. -/
theorem sum_ruleTotals_iff (evaluations : List Evaluation) :
    ((ruleTotals evaluations).map (·.2)).sum =
        ((evaluations.filter (·.constraint.ruleId.isSome)).map (·.count)).sum ↔
      ((ruleTotals evaluations).map fun p => lost evaluations p.1).sum = 0 := by
  have hsplit : ((ruleTotals evaluations).map fun p => (underRule evaluations p.1).sum).sum =
      ((ruleTotals evaluations).map fun p => lost evaluations p.1).sum +
        ((ruleTotals evaluations).map (·.2)).sum := by
    rw [← List.sum_map_add]
    refine congrArg List.sum (List.map_congr_left fun p hp => ?_)
    rw [(totalsByRule evaluations).total p hp, lost, Int.sub_add_cancel]
  rw [← sum_underRule, hsplit]
  omega

end Metrics

namespace Auditor

open Metrics

variable {auditor : Auditor} {league raw : Json} {audit : ResultAudit} {index : Index}
  {r : Reconciliation}

theorem details_of_reconciliation (haudit : auditor.auditResult league raw = .ok audit)
    (hr : audit.reconciliation = some r) : Details audit.report r := by
  obtain ⟨before, index, hreport⟩ := report_eq_setDetails haudit hr
  rw [hreport]
  exact ⟨detail_setDetails _ _ _ (by simp [ResultAudit.details]),
    detail_setDetails _ _ _ (by simp [ResultAudit.details]),
    detail_setDetails _ _ _ (by simp [ResultAudit.details])⟩

/-- An audit with an index went through all stages. -/
theorem staged_of_index (haudit : auditor.auditResult league raw = .ok audit)
    (hindex : audit.index = some index) : ∃ r, Staged auditor league audit index r := by
  rcases auditResult_eq_ok haudit with ⟨_, _, hbroken, -, -⟩ | ⟨_, _, -, index', r, h⟩
  · obtain ⟨audit', haudit', hnone, -⟩ := auditResult_of_broken hbroken league
    rw [Except.ok.inj (haudit.symm.trans haudit'), hnone] at hindex
    cases hindex
  · rw [h.holdsIndex] at hindex
    exact ⟨r, Option.some.inj hindex ▸ h⟩

/-- Metrics with an index account for all of its schedule. They account for all violations exactly
when what their words lose of the totals of rules cancels out. -/
theorem accountFor_metrics (haudit : auditor.auditResult league raw = .ok audit)
    (hindex : audit.index = some index) :
    ∃ r, audit.reconciliation = some r ∧
      ((∃ m, Metrics.collect audit.report audit.index = .ok m) ↔ Collectable index r) ∧
      ∀ m, Metrics.collect audit.report audit.index = .ok m →
        (∃ s, m.schedule = some s ∧ s.AccountFor index) ∧
        TotalsByRule m.violations r.evaluations ∧
        ((m.violations.map (·.2)).sum =
            ((r.evaluations.filter (·.constraint.ruleId.isSome)).map (·.count)).sum ↔
          (m.violations.map fun p => lost r.evaluations p.1).sum = 0) := by
  obtain ⟨r, h⟩ := staged_of_index haudit hindex
  have hdetails := details_of_reconciliation haudit h.holdsReconciliation
  rw [hindex]
  refine ⟨r, h.holdsReconciliation, exists_collect_iff hdetails, fun m hm => ?_⟩
  obtain ⟨-, s, hs, -, rfl⟩ := (collect_eq_ok_iff hdetails).mp hm
  exact ⟨⟨s, rfl, ScheduleFigures.accountFor_of_ofIndex h.built hs⟩,
    totalsByRule r.evaluations, sum_ruleTotals_iff r.evaluations⟩

/-- An instance with two fixtures, of which two games are missed under a rule. -/
def bookedLeague : Json :=
  .obj [("fixtures", .arr [.obj [("id", .str "F")], .obj [("id", .str "G")]]),
    ("constraints", .arr [.obj
      [("id", .str "H1"), ("type", .str "hard"), ("ruleId", .str "count_only")]])]

/-- A result with one game at a venue and another one without. -/
def bookedResult : Json :=
  .obj [("feasible", .bool true), ("scores", .obj []), ("assignments", .arr
    [.obj [("fixtureId", .str "F"), ("venueId", .str "V"),
        ("startTime", .str "2025-03-01T10:00:00Z"), ("endTime", .str "2025-03-01T12:00:00Z")],
      .obj [("fixtureId", .str "G"), ("startTime", .str "2025-03-02T10:00:00Z")]])]

theorem accountFor_metrics_booked :
    ∃ audit m s, countingAuditor.auditResult bookedLeague bookedResult = .ok audit ∧
      Metrics.collect audit.report audit.index = .ok m ∧ m.schedule = some s ∧
      (s.weekdays.map (·.2)).sum = 2 ∧ (s.usage.map (·.assignments)).sum = 1 := by
  obtain ⟨audit, haudit, hview⟩ := exists_ok_of_toOption_map
    (x := countingAuditor.auditResult bookedLeague bookedResult)
    (f := fun audit => (audit.index.map fun index =>
        (index.assignments.countP (·.start.isSome), index.assignments.countP (·.venue.isSome)),
      (Metrics.collect audit.report audit.index).toOption.map fun _ => ()))
    (b := (some (2, 1), some ())) (by decide +kernel)
  obtain ⟨hcounts, hm⟩ := Prod.mk.inj hview
  obtain ⟨index, hindex, hcounts⟩ := Option.map_eq_some_iff.mp hcounts
  obtain ⟨m, hm, -⟩ := exists_ok_of_toOption_map hm
  obtain ⟨hgames, hbooked⟩ := Prod.mk.inj hcounts
  obtain ⟨_, -, -, hall⟩ := accountFor_metrics haudit hindex
  obtain ⟨⟨s, hs, haccount⟩, -⟩ := hall m hm
  exact ⟨audit, m, s, haudit, hm, hs, haccount.games.trans hgames,
    haccount.booked.trans hbooked⟩

/-- A rule that counts as many misses as a word with a sign holds. -/
def countMost : Rule where
  id := "count_only"
  run _ := ⟨[], .ok (.value (.obj [("count", .int 9223372036854775807)]))⟩

/-- What an audit with this rule is made with. -/
def fullAuditor : Auditor := { catalog := { rules := [("count_only", countMost)] } }

/-- An instance with two hard constraints under this rule. -/
def twiceCountedLeague : Json :=
  .obj [("fixtures", .arr []), ("constraints", .arr
    [.obj [("id", .str "H1"), ("type", .str "hard"), ("ruleId", .str "count_only")],
      .obj [("id", .str "H2"), ("type", .str "hard"), ("ruleId", .str "count_only")]])]

/-- The violations of a rule can come to another number than its counts. -/
theorem violations_ne_counts :
    ∃ audit index r m, fullAuditor.auditResult twiceCountedLeague emptyResult = .ok audit ∧
      audit.index = some index ∧ audit.reconciliation = some r ∧
      Metrics.collect audit.report audit.index = .ok m ∧
      (m.violations.map (·.2)).sum ≠
        ((r.evaluations.filter (·.constraint.ruleId.isSome)).map (·.count)).sum := by
  obtain ⟨audit, haudit, hview⟩ := exists_ok_of_toOption_map
    (x := fullAuditor.auditResult twiceCountedLeague emptyResult)
    (f := fun audit => (audit.reconciliation.map fun r =>
        ((r.evaluations.filter (·.constraint.ruleId.isSome)).map (·.count)).sum,
      (Metrics.collect audit.report audit.index).toOption.map fun m =>
        (m.violations.map (·.2)).sum))
    (b := (some 18446744073709551614, some (-2))) (by decide +kernel)
  obtain ⟨hcounts, htotals⟩ := Prod.mk.inj hview
  obtain ⟨r, hr, hcounts⟩ := Option.map_eq_some_iff.mp hcounts
  obtain ⟨m, hm, htotals⟩ := exists_ok_of_toOption_map htotals
  rcases auditResult_eq_ok haudit with ⟨_, _, -, -, hnone⟩ | ⟨_, _, -, index, r', h⟩
  · cases hr.symm.trans hnone
  · exact ⟨audit, index, r, m, haudit, h.holdsIndex, hr, hm, by omega⟩

end Auditor
end LeagueAudit
