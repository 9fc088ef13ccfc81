import LeagueAudit.Proofs.Number.Whole
import LeagueAudit.Proofs.Rule.Meetings
import Mathlib.Tactic.FieldSimp

/-!
Spacing of opponents. For each unordered pair the rule counts the gaps between neighbouring starts
that are too short and adds what they lack; when it counts none every two meetings of a pair are far
enough apart. It computes with doubles; the same computation with exact numbers measures the gaps
themselves.
-/
namespace LeagueAudit

open Exact
open scoped BigOperators

/-- The times from each start to the next one. -/
def gaps (starts : List Int) : List Int := List.zipWith (fun s t => t - s) starts starts.tail

/-- The gaps of less than some days. -/
def closeGaps (days : ℚ) (starts : List Int) : List Int :=
  (gaps starts).filter fun gap => decide ((gap : ℚ) < days * msPerDay)

@[simp] theorem gaps_nil : gaps [] = [] := rfl

@[simp] theorem gaps_singleton (s : Int) : gaps [s] = [] := rfl

@[simp] theorem gaps_cons_cons (s t : Int) (rest : List Int) :
    gaps (s :: t :: rest) = (t - s) :: gaps (t :: rest) := rfl

@[simp] theorem closeGaps_nil (days : ℚ) : closeGaps days [] = [] := rfl

/-- Neighbours of a list in order are its nearest elements. -/
theorem closeGaps_eq_nil_iff {days : ℚ} {starts : List Int} (sorted : starts.Pairwise (· ≤ ·)) :
    closeGaps days starts = [] ↔
      starts.Pairwise fun s t => days * msPerDay ≤ ((|t - s| : Int) : ℚ) := by
  have hall : ∀ starts, closeGaps days starts = [] ↔
      ∀ gap ∈ gaps starts, days * msPerDay ≤ (gap : ℚ) := by
    intro starts
    simp [closeGaps, List.filter_eq_nil_iff]
  induction starts with
  | nil => simp
  | cons s rest ih =>
    cases rest with
    | nil => simp [hall]
    | cons t rest =>
      obtain ⟨hfirst, hrest⟩ := List.pairwise_cons.mp sorted
      -- Of what follows the first start the next one is nearest to it.
      rw [hall, gaps_cons_cons, List.forall_mem_cons, ← hall, List.pairwise_cons (a := s)]
      refine and_congr ?_ (ih hrest)
      refine ⟨fun h u hu => ?_, fun h => ?_⟩
      · have hnear : t ≤ u := by
          rcases List.mem_cons.mp hu with rfl | hu
          · exact le_refl u
          · exact (List.pairwise_cons.mp hrest).1 u hu
        have hle : t - s ≤ |u - s| := (Int.sub_le_sub_right hnear s).trans (le_abs_self _)
        exact h.trans (Int.cast_le.mpr hle)
      · rw [← abs_of_nonneg (Int.sub_nonneg_of_le (hfirst t List.mem_cons_self))]
        exact h t List.mem_cons_self

theorem nonneg_of_mem_gaps {starts : List Int} (sorted : starts.Pairwise (· ≤ ·)) {gap : Int}
    (h : gap ∈ gaps starts) : 0 ≤ gap := by
  have hnone : closeGaps 0 starts = [] := by
    apply (closeGaps_eq_nil_iff sorted).mpr
    refine sorted.imp fun {s t} _ => ?_
    rw [zero_mul]
    exact Int.cast_nonneg (abs_nonneg _)
  have hgap := List.filter_eq_nil_iff.mp hnone gap h
  simpa using hgap

namespace Rule

/-- The operations on numbers that the spacing of opponents needs. -/
structure Arithmetic (α : Type) where
  ofInt : Int → α
  above : Int → α → Bool
  add : α → α → α
  sub : α → α → α
  mul : α → α → α
  div : α → α → α

def doubles : Arithmetic Float where
  ofInt := Float.ofInt
  above := intLtFloat
  add := (· + ·)
  sub := (· - ·)
  mul := (· * ·)
  div := (· / ·)

def exact : Arithmetic ℚ where
  ofInt n := n
  above n q := decide ((n : ℚ) < q)
  add := (· + ·)
  sub := (· - ·)
  mul := (· * ·)
  div := (· / ·)

namespace Arithmetic

variable {α : Type} (A : Arithmetic α)

def millis (days : α) : α := A.mul days (A.ofInt msPerDay)

/-- What a gap lacks, in days. -/
def missing (days : α) (gap : Int) : α :=
  A.div (A.sub (A.millis days) (A.ofInt gap)) (A.ofInt msPerDay)

/-- The gaps of the meetings of a pair that are too short. -/
def shortGaps (days : α) (games : List Game) : List Int :=
  (gaps (games.map (·.start))).filter fun gap => A.above gap (A.millis days)

/-- How many gaps of all groups are too short, and what they lack together. -/
def spacing (days : α) (groups : List (Opponents × List Game)) : Nat × α :=
  let short := groups.flatMap fun g => A.shortGaps days g.2
  (short.length, (short.map (A.missing days)).foldl A.add (A.ofInt 0))

end Arithmetic

theorem map_gapBetween_neighbours (games : List Game) :
    (neighbours games).map (fun p => gapBetween p.1 p.2) = gaps (games.map (·.start)) := by
  induction games with
  | nil => rfl
  | cons a rest ih =>
    cases rest with
    | nil => rfl
    | cons b rest => exact congrArg (gapBetween a b :: ·) ih

theorem map_gapBetween_shortGaps (minDays : Float) (games : List Game) :
    (shortGaps (isShortGap minDays) games).map (fun p => gapBetween p.1 p.2) =
      doubles.shortGaps minDays games := by
  unfold shortGaps Arithmetic.shortGaps
  rw [← map_gapBetween_neighbours, List.filter_map]
  rfl

/-- The rule computes with doubles. -/
theorem spacingOutcome_eq (minDays : Float) (groups : List (Opponents × List Game))
    {found : List (Opponents × Game × Game)}
    (h : found = groups.flatMap fun (pair, games) =>
      (shortGaps (isShortGap minDays) games).map fun (a, b) => (pair, a, b)) :
    (spacingOutcome inTurn minDays found).count = some (doubles.spacing minDays groups).1 ∧
      (spacingOutcome inTurn minDays found).amount = (doubles.spacing minDays groups).2 := by
  have hgaps : found.map (fun f => gapBetween f.2.1 f.2.2) =
      groups.flatMap fun g => doubles.shortGaps minDays g.2 := by
    rw [h, List.map_flatMap]
    refine List.flatMap_congr fun g _ => ?_
    rw [List.map_map]
    exact map_gapBetween_shortGaps minDays g.2
  constructor
  · rw [Arithmetic.spacing, ← hgaps, List.length_map]
    rfl
  · rw [Arithmetic.spacing, ← hgaps, List.map_map]
    rfl

theorem exact_shortGaps (days : ℚ) (games : List Game) :
    exact.shortGaps days games = closeGaps days (games.map (·.start)) := by
  simp [Arithmetic.shortGaps, closeGaps, exact, Arithmetic.millis]

theorem foldl_exact (terms : List ℚ) : terms.foldl exact.add (exact.ofInt 0) = terms.sum := by
  simp [exact, List.sum_eq_foldl]

theorem exact_missing (days : ℚ) (gap : Int) :
    exact.missing days gap = days - gap / msPerDay := by
  have hday : (msPerDay : ℚ) ≠ 0 := by simp [msPerDay]
  simp only [Arithmetic.missing, Arithmetic.millis, exact]
  push_cast
  field_simp

/-- The gaps that are too short by doubles are those that are too short, when the minimum in
milliseconds is exact. -/
theorem shortGaps_eq_of_standsFor {minDays : Float} {days : ℚ}
    (h : StandsFor (minDays * msPerDay.toFloat) (days * msPerDay)) (games : List Game) :
    doubles.shortGaps minDays games = exact.shortGaps days games := by
  rw [exact_shortGaps]
  unfold Arithmetic.shortGaps closeGaps
  refine List.filter_congr fun gap _ => ?_
  rw [Bool.eq_iff_iff, decide_eq_true_eq]
  exact intLtFloat_iff h gap

/-- A whole number of days is exact in milliseconds when it is not too large. -/
theorem standsFor_days {minDays : Float} {days : Int} (hdays : ofFloat minDays = ofInt days)
    (hlt : (days * msPerDay).natAbs < 2 ^ 53) :
    StandsFor (minDays * msPerDay.toFloat) (days * msPerDay) := by
  have hunit : ofFloat msPerDay.toFloat = ofInt msPerDay := by decide +kernel
  exact_mod_cast standsFor_of_ofInt (ofFloat_mul_whole hdays hunit hlt)

/-- What a gap of whole days lacks is found without rounding. -/
theorem missing_whole {minDays : Float} {days gap : Int} (hdays : ofFloat minDays = ofInt days)
    (hlt : (days * msPerDay).natAbs < 2 ^ 53) (hgap : 0 ≤ gap) (hless : gap < days * msPerDay)
    (hwhole : (msPerDay : Int) ∣ gap) :
    ofFloat (doubles.missing minDays gap) = ofInt (days - gap / msPerDay) := by
  have hunit : ofFloat (Float.ofInt msPerDay) = ofInt msPerDay := ofFloat_ofInt (by decide)
  have hmillis : ofFloat (doubles.millis minDays) = ofInt (days * msPerDay) :=
    ofFloat_mul_whole hdays hunit hlt
  have hsub := ofFloat_sub_whole hmillis (ofFloat_ofInt (n := gap) (by omega)) (by omega)
  have hdiff : days * msPerDay - gap = (days - gap / msPerDay) * msPerDay := by
    rw [Int.sub_mul, Int.ediv_mul_cancel hwhole]
  have hsmall : (days - gap / msPerDay).natAbs ≤ (days * msPerDay - gap).natAbs := by
    rw [hdiff, Int.natAbs_mul]
    exact Nat.le_mul_of_pos_right _ (by decide)
  rw [hdiff] at hsub
  exact ofFloat_div_whole hsub hunit (by decide) (by omega)

/-- What short gaps of whole days lack is added up without rounding. -/
theorem standsFor_sum_missing {minDays : Float} {days : Int} {short : List Int}
    (hdays : ofFloat minDays = ofInt days) (hlt : (days * msPerDay).natAbs < 2 ^ 53)
    (hshort : ∀ gap ∈ short, 0 ≤ gap ∧ gap < days * msPerDay ∧ (msPerDay : Int) ∣ gap)
    (hsum : (short.map (exact.missing days)).sum < 2 ^ 53) :
    StandsFor ((short.map (doubles.missing minDays)).foldl doubles.add (doubles.ofInt 0))
      (short.map (exact.missing days)).sum := by
  have hterms : List.Forall₂ (fun x n => ofFloat x = ofInt n) (short.map (doubles.missing minDays))
      (short.map fun gap => days - gap / msPerDay) := by
    rw [List.forall₂_map_left_iff, List.forall₂_map_right_iff, List.forall₂_same]
    intro gap hgap
    obtain ⟨hnonneg, hless, hday⟩ := hshort gap hgap
    exact missing_whole hdays hlt hnonneg hless hday
  have hnonneg : ∀ n ∈ short.map fun gap => days - gap / msPerDay, 0 ≤ n := by
    intro n hn
    obtain ⟨gap, hgap, rfl⟩ := List.mem_map.mp hn
    obtain ⟨-, hless, -⟩ := hshort gap hgap
    exact Int.sub_nonneg_of_le (Int.ediv_le_of_le_mul (by decide) hless.le)
  have hvalue : (short.map (exact.missing days)).sum =
      ((short.map fun gap => days - gap / msPerDay).sum : Int) := by
    refine .trans ?_ (map_list_sum (Int.castAddHom ℚ) _).symm
    rw [List.map_map]
    congr 1
    apply List.map_congr_left
    intro gap hgap
    obtain ⟨-, -, hday⟩ := hshort gap hgap
    simp [exact_missing, Int.cast_div_charZero hday]
  rw [hvalue] at hsum ⊢
  -- All terms are nonnegative, so every sum on the way is below the last one, and exact.
  have hlast := ofFloat_foldl_add_whole hterms hnonneg (ofFloat_ofInt (n := 0) (by decide)) le_rfl
    (by rw [Int.zero_add]; exact_mod_cast hsum)
  rw [Int.zero_add] at hlast
  exact standsFor_of_ofInt hlast

end Rule

namespace Index

open Rule

/-- What is measured of the gaps of all pairs: how many are too short, and what these lack. When
there are none every two starts of a pair are far enough apart. -/
structure SpacesOpponents (index : Index) (days : ℚ) (measured : Nat × ℚ) : Prop where
  count : measured.1 = ∑ pair ∈ index.opponents, (closeGaps days (index.meetingStarts pair)).length
  amount : measured.2 = ∑ pair ∈ index.opponents,
    ((closeGaps days (index.meetingStarts pair)).map fun gap : Int => days - gap / msPerDay).sum
  apart : measured.1 = 0 ↔ ∀ pair ∈ index.opponents,
    (index.startsOf pair).Pairwise fun s t => days * msPerDay ≤ ((|t - s| : Int) : ℚ)

variable {index : Index}

/-- Starts in any order are apart when the starts in order are. -/
theorem closeGaps_meetingStarts_eq_nil {days : ℚ} {pair : Sym2 String} :
    closeGaps days (index.meetingStarts pair) = [] ↔
      (index.startsOf pair).Pairwise fun s t => days * msPerDay ≤ ((|t - s| : Int) : ℚ) := by
  rw [closeGaps_eq_nil_iff (pairwise_meetingStarts _)]
  apply (List.mergeSort_perm _ _).pairwise_iff
  intro s t h
  rwa [abs_sub_comm]

theorem spacesOpponents (days : ℚ) :
    index.SpacesOpponents days (exact.spacing days (groupGames index.encounters)) := by
  have hcount : (exact.spacing days (groupGames index.encounters)).1 =
      ∑ pair ∈ index.opponents, (closeGaps days (index.meetingStarts pair)).length := by
    rw [← sum_groupGames (fun starts => (closeGaps days starts).length) rfl]
    simp [Arithmetic.spacing, exact_shortGaps, List.length_flatMap]
  refine ⟨hcount, ?_, ?_⟩
  · rw [← sum_groupGames
      (fun starts => ((closeGaps days starts).map fun gap : Int => days - gap / msPerDay).sum) rfl]
    have hmissing : exact.missing days = fun gap : Int => days - gap / msPerDay :=
      funext (exact_missing days)
    simp only [Arithmetic.spacing, foldl_exact, hmissing, exact_shortGaps, List.map_flatMap]
    rw [List.flatMap_def, List.sum_flatten, List.map_map]
    rfl
  · rw [hcount, Finset.sum_eq_zero_iff]
    refine forall₂_congr fun pair _ => ?_
    rw [List.length_eq_zero_iff, closeGaps_meetingStarts_eq_nil]

/-- What the rule hands back of the meetings of all pairs. It computes with doubles; the count is
exact when the minimum in milliseconds is, and so is the amount when all is in whole days. -/
structure MeasuresGaps (index : Index) (minDays : Float) (groups : List (Opponents × List Game))
    (o : Outcome) : Prop where
  grouped : meetings index = .ok groups
  count : o.count = some (doubles.spacing minDays groups).1
  amount : o.amount = (doubles.spacing minDays groups).2
  spaced (days : ℚ) : index.SpacesOpponents days (exact.spacing days groups)
  exactly (days : ℚ) : StandsFor (minDays * msPerDay.toFloat) (days * msPerDay) →
    o.count = some (exact.spacing days groups).1
  wholly (days : Int) : ofFloat minDays = ofInt days →
    (days * msPerDay).natAbs < 2 ^ 53 →
    (∀ pair ∈ index.opponents, ∀ gap ∈ closeGaps days (index.meetingStarts pair),
      (msPerDay : Int) ∣ gap) →
    (exact.spacing days groups).2 < 2 ^ 53 →
    StandsFor o.amount (exact.spacing days groups).2

theorem mem_shortGaps {days : ℚ} {gap : Int}
    (h : gap ∈ (groupGames index.encounters).flatMap fun g => exact.shortGaps days g.2) :
    ∃ pair ∈ index.opponents, gap ∈ closeGaps days (index.meetingStarts pair) := by
  simp only [exact_shortGaps] at h
  rw [List.flatMap_def, map_groupGames, ← List.flatMap_def] at h
  obtain ⟨pair, hpair, hgap⟩ := List.mem_flatMap.mp h
  exact ⟨pair, mem_opponents_of_met hpair, hgap⟩

theorem standsFor_spacing {minDays : Float} {days : Int} (hdays : ofFloat minDays = ofInt days)
    (hlt : (days * msPerDay).natAbs < 2 ^ 53)
    (hwhole : ∀ pair ∈ index.opponents, ∀ gap ∈ closeGaps days (index.meetingStarts pair),
      (msPerDay : Int) ∣ gap)
    (hsum : (exact.spacing days (groupGames index.encounters)).2 < 2 ^ 53) :
    StandsFor (doubles.spacing minDays (groupGames index.encounters)).2
      (exact.spacing days (groupGames index.encounters)).2 := by
  have hexact := standsFor_days hdays hlt
  unfold Arithmetic.spacing at hsum ⊢
  simp only [shortGaps_eq_of_standsFor hexact, foldl_exact] at hsum ⊢
  apply standsFor_sum_missing hdays hlt _ hsum
  intro gap hgap
  obtain ⟨pair, hpair, hclose⟩ := mem_shortGaps hgap
  obtain ⟨hgap, hless⟩ := List.mem_filter.mp hclose
  refine ⟨nonneg_of_mem_gaps (pairwise_meetingStarts pair) hgap, ?_, hwhole pair hpair gap hclose⟩
  exact_mod_cast of_decide_eq_true hless

theorem run_opponentSpacing {params : Json} {minDays : Float}
    (hread : RuleContext.number ⟨params, index⟩ "min_days" 0.0 = .ok minDays)
    (hpos : 0.0 < minDays) : opponentSpacing.run ⟨params, index⟩ =
      .silent (do .ok (spacingOutcome inTurn minDays (← allShortGaps minDays index))) := by
  unfold opponentSpacing opponentSpacingBy
  dsimp only
  rw [hread]
  exact congrArg RuleRun.silent (if_neg (not_le_of_zero_lt hpos))

/-- The rule about opponents measures the gaps between neighbouring meetings of every pair, and it
makes no difference which of the two is listed first. -/
theorem measuresGaps {params : Json} {minDays : Float}
    (hread : RuleContext.number ⟨params, index⟩ "min_days" 0.0 = .ok minDays)
    (hpos : 0.0 < minDays) :
    ((∃ returned, (opponentSpacing.run ⟨params, index⟩).result = .ok returned) ↔
        index.ListsOpponents) ∧
      (∀ returned, (opponentSpacing.run ⟨params, index⟩).result = .ok returned →
        ∃ o groups, returned = .outcome o ∧ index.MeasuresGaps minDays groups o) ∧
      ∀ index', index.Swapped index' →
        opponentSpacing.run ⟨params, index'⟩ = opponentSpacing.run ⟨params, index⟩ := by
  have hresult : ∀ returned, (opponentSpacing.run ⟨params, index⟩).result = .ok returned ↔
      ∃ groups, meetings index = .ok groups ∧ returned = .outcome (spacingOutcome inTurn minDays
        (groups.flatMap fun (pair, games) =>
          (shortGaps (isShortGap minDays) games).map fun (a, b) => (pair, a, b))) := by
    intro returned
    rw [run_opponentSpacing hread hpos, RuleRun.silent, map_eq_ok]
    unfold allShortGaps
    cases meetings index with
    | error f => simp [bind, Except.bind]
    | ok groups => simp [bind, Except.bind, eq_comm]
  refine ⟨?_, ?_, ?_⟩
  · constructor
    · rintro ⟨returned, h⟩
      obtain ⟨groups, hgroups, -⟩ := (hresult returned).mp h
      exact (meetings_eq_ok.mp hgroups).1
    · intro hlists
      exact ⟨_, (hresult _).mpr ⟨_, meetings_eq_ok.mpr ⟨hlists, rfl⟩, rfl⟩⟩
  · intro returned h
    obtain ⟨groups, hgroups, rfl⟩ := (hresult returned).mp h
    obtain ⟨hcount, hamount⟩ := spacingOutcome_eq minDays groups rfl
    obtain ⟨-, rfl⟩ := meetings_eq_ok.mp hgroups
    refine ⟨_, _, rfl, hgroups, hcount, hamount, spacesOpponents, ?_, ?_⟩
    · intro days hexact
      rw [hcount]
      simp only [Arithmetic.spacing, shortGaps_eq_of_standsFor hexact]
    · intro days hdays hlt hwhole hsum
      rw [hamount]
      exact standsFor_spacing hdays hlt hwhole hsum
  · intro index' h
    unfold opponentSpacing opponentSpacingBy allShortGaps
    dsimp only
    rw [h.meetings_eq]
    rfl

/-- Two teams that meet at home and away. -/
def twoMeetings : Json :=
  .obj [("fixtures", .arr [
    .obj [("id", .str "F"), ("participants", .arr [.str "A", .str "B"])],
    .obj [("id", .str "G"), ("participants", .arr [.str "B", .str "A"])]])]

def twoDaysApart : Json :=
  .obj [("assignments", .arr [
    .obj [("fixtureId", .str "F"), ("startTime", .str "2025-03-01T10:00:00Z")],
    .obj [("fixtureId", .str "G"), ("startTime", .str "2025-03-03T10:00:00Z")]])]

theorem measuresGaps_twoDaysApart :
    ∃ index minDays o groups, Index.build (.whole 90) "UTC" twoMeetings twoDaysApart = .ok index ∧
      RuleContext.number ⟨.obj [("min_days", .int 7)], index⟩ "min_days" 0.0 = .ok minDays ∧
      0.0 < minDays ∧
      (opponentSpacing.run ⟨.obj [("min_days", .int 7)], index⟩).result = .ok (.outcome o) ∧
      meetings index = .ok groups ∧ exact.spacing 7 groups = (1, 5) ∧ o.count = some 1 ∧
      StandsFor o.amount 5 ∧
      opponentSpacing.run ⟨.obj [("min_days", .int 7)], index.swapping (· == "G")⟩ =
        opponentSpacing.run ⟨.obj [("min_days", .int 7)], index⟩ := by
  obtain ⟨index, hindex, hview⟩ := exists_ok_of_toOption_map
    (x := Index.build (.whole 90) "UTC" twoMeetings twoDaysApart)
    (f := fun index => (index.assignments.map fun a => (index.opponentsOf a, a.start),
      decide index.ListsOpponents))
    (b := ([(some s("A", "B"), some 1740823200000), (some s("A", "B"), some 1740996000000)], true))
    (by decide +kernel)
  obtain ⟨hmet, hlists⟩ := Prod.mk.inj hview
  have hread : RuleContext.number ⟨.obj [("min_days", .int 7)], index⟩ "min_days" 0.0 =
      .ok (Float.ofInt 7) := rfl
  have hpos : (0.0 : Float) < Float.ofInt 7 := by decide +kernel
  obtain ⟨hreturns, hmeasures, hswap⟩ := measuresGaps hread hpos
  obtain ⟨returned, hreturned⟩ := hreturns.mpr (of_decide_eq_true hlists)
  obtain ⟨o, groups, rfl, h⟩ := hmeasures _ hreturned
  have hopponents : index.opponents = {s("A", "B")} := by
    have hfound : index.assignments.filterMap index.opponentsOf =
        (index.assignments.map fun a => (index.opponentsOf a, a.start)).filterMap (·.1) := by
      rw [List.filterMap_map]
      rfl
    rw [Index.opponents, hfound, hmet]
    rfl
  have hstarts : index.meetingStarts s("A", "B") = [1740823200000, 1740996000000] := by
    have hread : index.startsOf s("A", "B") =
        ((index.assignments.map fun a => (index.opponentsOf a, a.start)).filter
          fun p => p.1 = some s("A", "B")).filterMap (·.2) := by
      rw [List.filter_map, List.filterMap_map]
      rfl
    rw [Index.meetingStarts, hread, hmet]
    exact List.mergeSort_of_pairwise (by decide)
  have hgaps : closeGaps 7 (index.meetingStarts s("A", "B")) = [172800000] := by
    rw [hstarts]
    decide +kernel
  have hspacing : exact.spacing 7 groups = (1, 5) := by
    apply Prod.ext
    · rw [(h.spaced 7).count, hopponents, Finset.sum_singleton, hgaps]
      rfl
    · rw [(h.spaced 7).amount, hopponents, Finset.sum_singleton, hgaps]
      norm_num [msPerDay]
  have hdays : ofFloat (Float.ofInt 7) = ofInt 7 := ofFloat_ofInt (by decide)
  have hcount := h.exactly 7 (standsFor_days hdays (by decide))
  have hamount := h.wholly 7 hdays (by decide) (by simp [hopponents, hgaps, msPerDay])
    (by simp [hspacing]; norm_num)
  rw [hspacing] at hcount
  rw [Int.cast_ofNat, hspacing] at hamount
  exact ⟨index, _, o, groups, hindex, hread, hpos, hreturned, h.grouped, hspacing, hcount, hamount,
    hswap _ (swapped_swapping _)⟩

end Index

end LeagueAudit
