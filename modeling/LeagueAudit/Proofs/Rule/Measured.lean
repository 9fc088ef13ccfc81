import LeagueAudit.Proofs.Number.AboveZero
import LeagueAudit.Proofs.Rule.Default
import LeagueAudit.Proofs.Rule.Meetings
import LeagueAudit.Proofs.Schedule.Derived

/-!
What soft rules measure. Where a rule lists something it measures more than zero: every violation
adds a number above zero, and none is lost in rounding, as times stay within the calendar.
-/
namespace LeagueAudit

open Exact

/-- An outcome measures something exactly if it lists something. -/
structure Outcome.Measures (o : Outcome) : Prop where
  nothing : o.violations = [] → o.amount = 0.0
  something : o.violations ≠ [] → 0.0 < o.amount

/-- Violations that go with terms above zero measure the sum of the terms. -/
theorem Outcome.measures_of_terms {α : Type} {o : Outcome} {found : List α} {term : α → Float}
    {report : α → Violation} (hviolations : o.violations = found.map report)
    (hamount : o.amount = (found.map term).foldl (· + ·) 0.0)
    (hterms : ∀ x ∈ found, 0.0 < term x) : o.Measures where
  nothing h := by
    rw [hviolations, List.map_eq_nil_iff] at h
    rw [hamount, h]
    rfl
  something h := by
    rw [hviolations, Ne, List.map_eq_nil_iff] at h
    rw [hamount]
    refine zero_lt_foldl_add (List.map_eq_nil_iff.not.mpr h) ?_ (ofFloat_zero ▸ Int.le_refl 0)
    exact List.forall_mem_map.mpr hterms

/-- An instant that clocks show is less than a hundred thousand years away. -/
theorem ShowsClocks.natAbs_lt {z : Zone} {ms : Int} (h : ShowsClocks z ms) :
    ms.natAbs < 2 ^ 52 := by
  have hday := inCalendar_iff.mp h.universal
  rw [secondsPerDay_eq, Int.fdiv_eq_ediv_of_nonneg _ (by decide),
    Int.fdiv_eq_ediv_of_nonneg _ (by decide)] at hday
  have hfirst : firstDay = -719162 := rfl
  have hlast : lastDay = 2932896 := rfl
  omega

namespace Rule

section Spacing

variable {minDays : Float} {gap : Int} {index : Index}

/-- No gap is short of what is no number. -/
theorem zero_lt_of_isShortGap (hpos : ¬minDays ≤ 0.0) (hshort : isShortGap minDays gap = true) :
    0.0 < minDays := by
  refine zero_lt_of_not_le hpos fun hundefined => ?_
  rw [isShortGap, intLtFloat, ofFloat_undefined_mul hundefined] at hshort
  cases hshort

/-- A short gap lacks something, in doubles too. -/
theorem zero_lt_missingDays (hpos : 0.0 < minDays) (hgap : gap.natAbs < 2 ^ 53)
    (hshort : isShortGap minDays gap = true) : 0.0 < missingDays minDays gap := by
  have hunit : ofFloat msPerDay.toFloat = ofInt msPerDay := by decide +kernel
  have hmillis : AtLeast msPerDay (ofFloat (minDays * msPerDay.toFloat)) :=
    atLeast_mul hpos (by decide) (by decide) hunit
  have hwhole := ofFloat_ofInt hgap
  refine zero_lt_div (n := msPerDay) (by decide) ?_ hunit
  unfold isShortGap intLtFloat at hshort
  cases hvalue : ofFloat (minDays * msPerDay.toFloat) with
  | undefined => exact (hvalue ▸ hmillis : AtLeast msPerDay undefined).elim
  | infinite negative =>
    rw [ofFloat_infinite_sub hvalue hwhole]
    exact hvalue ▸ hmillis
  | finite steps =>
    rw [hvalue, compareInt, beq_iff_eq, Option.some.injEq, Int.compare_eq_lt] at hshort
    rw [hvalue] at hmillis
    have hsteps : (msPerDay : Int) ≤ steps := hmillis
    refine atLeast_sub hvalue hwhole (by decide) (by decide) ?_
    rcases le_or_gt gap 0 with hnone | hsome
    · have hbelow : gap * stepsPerOne ≤ 0 :=
        Int.mul_nonpos_of_nonpos_of_nonneg hnone (Int.natCast_nonneg _)
      omega
    · -- Numbers of one or more are whole multiples of a power of two, and so is their difference.
      have hone : (stepsPerOne : Int) ≤ gap * stepsPerOne :=
        le_mul_of_one_le_left (Int.natCast_nonneg _) hsome
      have hunits : twoTo 1021 ∣ stepsPerOne := ⟨twoTo 53, (twoTo_mul 1021 53).symm⟩
      have hdvd : (twoTo 1021 : Int) ∣ steps - gap * stepsPerOne :=
        Int.dvd_sub (twoTo_dvd_of_large hvalue (hone.trans hshort.le))
          (Int.dvd_mul_of_dvd_right (Int.natCast_dvd_natCast.mpr hunits))
      have hlarge : (msPerDay : Int) ≤ twoTo 1021 := by decide +kernel
      exact hlarge.trans (Int.le_of_dvd (Int.sub_pos.mpr hshort) hdvd)

/-- Meetings start when assignments do. -/
theorem exists_start_of_meeting {groups : List (Opponents × List Game)}
    (h : meetings index = .ok groups) {group : Opponents × List Game} (hgroup : group ∈ groups)
    {game : Game} (hgame : game ∈ group.2) :
    ∃ a ∈ index.assignments, a.start = some game.start := by
  obtain ⟨-, rfl⟩ := Index.meetings_eq_ok.mp h
  obtain ⟨a, ha, hmeets⟩ := List.mem_filterMap.mp (mem_of_mem_groupGames hgroup hgame)
  obtain ⟨start, hstart, hmeets⟩ := Option.bind_eq_some_iff.mp hmeets
  obtain ⟨opponents, -, heq⟩ := Option.map_eq_some_iff.mp hmeets
  refine ⟨a, ha, ?_⟩
  rw [hstart, ← (Prod.mk.inj heq).2]

/-- The gaps that are reported are short, and gaps between dates of the calendar. -/
theorem of_mem_allShortGaps (hindex : index.Derived) {found : List (Opponents × Game × Game)}
    (h : allShortGaps minDays index = .ok found) {pair : Opponents} {a b : Game}
    (hmem : (pair, a, b) ∈ found) :
    isShortGap minDays (gapBetween a b) = true ∧ (gapBetween a b).natAbs < 2 ^ 53 := by
  obtain ⟨groups, hgroups, h⟩ := bind_eq_ok.mp h
  cases Except.ok.inj h
  obtain ⟨group, hgroup, hmem⟩ := List.mem_flatMap.mp hmem
  obtain ⟨⟨x, y⟩, hgap, heq⟩ := List.mem_map.mp hmem
  cases heq
  obtain ⟨hneighbours, hshort⟩ := List.mem_filter.mp hgap
  obtain ⟨hx, hy⟩ := List.of_mem_zip hneighbours
  have hbound : ∀ game ∈ group.2, game.start.natAbs < 2 ^ 52 := by
    intro game hgame
    obtain ⟨assignment, hassignment, hstart⟩ := exists_start_of_meeting hgroups hgroup hgame
    exact (hindex.readsClocks.shown assignment hassignment _ hstart).natAbs_lt
  refine ⟨hshort, ?_⟩
  have hfirst := hbound _ hx
  have hsecond := hbound _ (List.mem_of_mem_drop hy)
  unfold gapBetween
  omega

end Spacing

/-- Whatever a rule hands back for an index is an outcome that measures what it lists. -/
def Measures (rule : Rule) (index : Index) : Prop :=
  ∀ params returned, (rule.run ⟨params, index⟩).result = .ok returned →
    ∃ o : Outcome, returned = .outcome o ∧ o.Measures

variable {index : Index}

theorem measures_nothing {count : Option Nat} {explanation : Option String} :
    ({ count, explanation } : Outcome).Measures where
  nothing _ := rfl
  something h := absurd rfl h

theorem measures_homeAwayBalance : homeAwayBalance.Measures index := by
  intro params returned h
  obtain ⟨o, ho, rfl⟩ := map_eq_ok.mp h
  refine ⟨o, rfl, ?_⟩
  obtain ⟨maxDelta, -, ho⟩ := bind_eq_ok.mp ho
  obtain ⟨sides, -, ho⟩ := bind_eq_ok.mp ho
  cases Except.ok.inj ho
  refine Outcome.measures_of_terms rfl rfl fun row hrow => ?_
  exact of_decide_eq_true (List.mem_filter.mp hrow).2

theorem measures_opponentSpacing (hindex : index.Derived) : opponentSpacing.Measures index := by
  intro params returned h
  obtain ⟨o, ho, rfl⟩ := map_eq_ok.mp h
  refine ⟨o, rfl, ?_⟩
  obtain ⟨minDays, -, ho⟩ := bind_eq_ok.mp ho
  split at ho
  · cases Except.ok.inj ho
    exact measures_nothing
  · next hpos =>
    obtain ⟨found, hfound, ho⟩ := bind_eq_ok.mp ho
    cases Except.ok.inj ho
    refine Outcome.measures_of_terms rfl rfl fun row hrow => ?_
    obtain ⟨hshort, hgap⟩ := of_mem_allShortGaps hindex hfound hrow
    exact zero_lt_missingDays (zero_lt_of_isShortGap hpos hshort) hgap hshort

theorem measures_broadcastWindow : broadcastWindow.Measures index := by
  intro params returned h
  obtain ⟨o, ho, rfl⟩ := map_eq_ok.mp h
  refine ⟨o, rfl, ?_⟩
  obtain ⟨items, -, ho⟩ := bind_eq_ok.mp ho
  split at ho
  · cases Except.ok.inj ho
    exact measures_nothing
  · obtain ⟨slots, -, ho⟩ := bind_eq_ok.mp ho
    obtain ⟨violations, -, ho⟩ := bind_eq_ok.mp ho
    cases Except.ok.inj ho
    refine ⟨fun hnone => ?_, fun hsome => zero_lt_toFloat (List.length_pos_iff.mpr hsome)⟩
    have hlength : (violations.filterMap fun v => v).length = 0 :=
      List.length_eq_zero_iff.mpr hnone
    have hzero : (0 : Nat).toFloat = 0.0 := by decide +kernel
    exact (congrArg Nat.toFloat hlength).trans hzero

theorem measures_of_mem_defaultRules (hindex : index.Derived) {rule : Rule}
    (h : rule ∈ Catalog.defaultRules) (hkind : rule.kind = .soft) : rule.Measures index := by
  simp only [Catalog.defaultRules, List.mem_cons, List.not_mem_nil, or_false] at h
  rcases h with rfl | rfl | rfl | rfl | rfl | rfl | rfl | rfl | rfl
  all_goals cases hkind
  · exact measures_homeAwayBalance
  · exact measures_opponentSpacing hindex
  · exact measures_broadcastWindow

end Rule
end LeagueAudit
