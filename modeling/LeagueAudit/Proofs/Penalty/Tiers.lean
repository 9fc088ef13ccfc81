import LeagueAudit.Penalty.Model
import Mathlib.Algebra.Order.BigOperators.Group.List
import Mathlib.Algebra.Order.Ring.Basic
import Mathlib.Data.List.Sort
import Mathlib.MeasureTheory.Integral.IntervalIntegral.Basic

/-!
Tiered prices in exact numbers. The limits take their units one after the other, the smallest limit
first; what they leave is charged at one weight. So the price of an amount is the integral of a step
function, the weight of each unit, from zero up to the amount.
-/
namespace LeagueAudit
namespace Tier

section Listed

variable {K : Type}

/-- A tier that takes no more than its limit. -/
def upTo (p : K × K) : Tier K := ⟨some p.1, p.2⟩

/-- The limits of tiers, each with its weight, as listed. -/
def limits (tiers : List (Tier K)) : List (K × K) :=
  tiers.filterMap fun t => t.limit.map fun limit => (limit, t.weight)

/-- The weight of what the limits leave: that of the first tier without a limit, or the base
weight. -/
def restWeight (base : K) (tiers : List (Tier K)) : K :=
  ((tiers.find? (·.limit.isNone)).map weight).getD base

variable {base : K} {tiers : List (Tier K)}

theorem mem_limits {p : K × K} : p ∈ limits tiers ↔ upTo p ∈ tiers := by
  constructor
  · intro hp
    obtain ⟨t, ht, heq⟩ := List.mem_filterMap.mp hp
    obtain ⟨limit, hlimit, rfl⟩ := Option.map_eq_some_iff.mp heq
    rwa [upTo, ← hlimit]
  · intro hp
    exact List.mem_filterMap.mpr ⟨_, hp, rfl⟩

/-- The tiers that have a limit are those of `limits`. -/
theorem map_limits (tiers : List (Tier K)) :
    (limits tiers).map upTo = tiers.filter (·.limit.isSome) := by
  induction tiers with
  | nil => rfl
  | cons t rest ih =>
    obtain ⟨limit, w⟩ := t
    cases limit with
    | none => exact ih
    | some limit => exact congrArg (upTo (limit, w) :: ·) ih

theorem limit_eq_none_of_mem {t : Tier K} (ht : t ∈ tiers.filter (·.limit.isNone)) :
    t.limit = none :=
  Option.isNone_iff_eq_none.mp (List.mem_filter.mp ht).2

/-- A list in which what meets a condition comes first is split by the condition. -/
theorem eq_filter_append {p : Tier K → Bool}
    (h : tiers.Pairwise fun a b => p b = true → p a = true) :
    tiers = tiers.filter p ++ tiers.filter (!p ·) := by
  induction h with
  | nil => rfl
  | @cons a rest hhead _ ih =>
    cases ha : p a with
    | true => simpa [ha] using ih
    | false =>
      have hnone : ∀ b ∈ rest, p b = false := fun b hb =>
        Bool.eq_false_iff.mpr fun hpb => Bool.eq_false_iff.mp ha (hhead b hb hpb)
      simp [ha, List.filter_eq_nil_iff.mpr (fun b hb => Bool.eq_false_iff.mp (hnone b hb)),
        List.filter_eq_self.mpr (fun b hb => congrArg (!·) (hnone b hb))]

theorem restWeight_filter (base : K) (tiers : List (Tier K)) :
    restWeight base (tiers.filter (·.limit.isNone)) = restWeight base tiers := by
  simp only [restWeight, List.find?_filter, Bool.and_self, Bool.decide_and, Bool.decide_eq_true]

end Listed

section Order

variable {K : Type} [LinearOrder K]

/-- Limits are positive and finite. -/
def Valid [Zero K] (infinity : K) (tiers : List (Tier K)) : Prop :=
  ∀ t ∈ tiers, ∀ limit, t.limit = some limit → 0 < limit ∧ limit < infinity

/-- `taken` holds the limits of the tiers in increasing order, those that are equal as listed. -/
structure InOrder (tiers : List (Tier K)) (taken : List (K × K)) : Prop where
  increasing : taken.Pairwise (·.1 ≤ ·.1)
  stable : ∀ limit, taken.filter (·.1 = limit) = (limits tiers).filter (·.1 = limit)

variable {infinity : K} {tiers : List (Tier K)}

theorem absorbed_eq_min (remaining limit : K) : absorbed remaining limit = min limit remaining := by
  unfold absorbed
  split
  · next h => exact (min_eq_left h.le).symm
  · next h => exact (min_eq_right (not_lt.mp h)).symm

theorem filter_limits (tiers : List (Tier K)) (limit : K) :
    (limits tiers).filter (·.1 = limit) = limits (tiers.filter (·.limit = some limit)) := by
  induction tiers with
  | nil => rfl
  | cons t rest ih =>
    obtain ⟨bound, w⟩ := t
    cases bound with
    | none => exact ih
    | some bound =>
      by_cases heq : bound = limit
      · simpa [limits, heq] using ih
      · simpa [limits, heq] using ih

theorem InOrder.mem_limits {taken : List (K × K)} (h : InOrder tiers taken) {p : K × K}
    (hp : p ∈ taken) : p ∈ limits tiers := by
  have hkept : p ∈ taken.filter (·.1 = p.1) := List.mem_filter.mpr ⟨hp, decide_eq_true rfl⟩
  rw [h.stable] at hkept
  exact (List.mem_filter.mp hkept).1

theorem notAfter_iff {a b : Tier K} :
    notAfter infinity a b = true ↔ a.limit.getD infinity ≤ b.limit.getD infinity := by
  rw [notAfter, Bool.not_eq_true', decide_eq_false_iff_not, not_lt]

theorem notAfter_trans (a b c : Tier K) (hab : notAfter infinity a b = true)
    (hbc : notAfter infinity b c = true) : notAfter infinity a c = true :=
  notAfter_iff.mpr ((notAfter_iff.mp hab).trans (notAfter_iff.mp hbc))

theorem notAfter_total (a b : Tier K) :
    (notAfter infinity a b || notAfter infinity b a) = true := by
  rw [Bool.or_eq_true, notAfter_iff, notAfter_iff]
  exact le_total _ _

/-- Tiers of one place keep the order in which they are listed. -/
theorem filter_mergeSort (p : Tier K → Bool) (place : K)
    (h : ∀ t ∈ tiers, p t = true → t.limit.getD infinity = place) :
    (tiers.mergeSort (notAfter infinity)).filter p = tiers.filter p := by
  have hpairs : (tiers.filter p).Pairwise (notAfter infinity · · = true) := by
    refine List.pairwise_of_forall_mem_list fun a ha b hb => ?_
    obtain ⟨hamem, hap⟩ := List.mem_filter.mp ha
    obtain ⟨hbmem, hbp⟩ := List.mem_filter.mp hb
    rw [notAfter_iff, h a hamem hap, h b hbmem hbp]
  have hsub : (tiers.filter p).Sublist (tiers.mergeSort (notAfter infinity)) :=
    List.sublist_mergeSort notAfter_trans notAfter_total hpairs List.filter_sublist
  have hkept := hsub.filter p
  simp only [List.filter_filter, Bool.and_self] at hkept
  exact (hkept.eq_of_length ((List.mergeSort_perm _ _).filter p).length_eq.symm).symm

section Valid

variable [Zero K]

theorem Valid.perm (h : Valid infinity tiers) {others : List (Tier K)} (hperm : others.Perm tiers) :
    Valid infinity others :=
  fun t ht => h t (hperm.mem_iff.mp ht)

theorem Valid.pos (h : Valid infinity tiers) {p : K × K} (hp : p ∈ limits tiers) : 0 < p.1 :=
  (h _ (mem_limits.mp hp) _ rfl).1

theorem Valid.limit_eq (h : Valid infinity tiers) {t u : Tier K} (ht : t ∈ tiers) (hu : u ∈ tiers)
    (hplace : t.limit.getD infinity = u.limit.getD infinity) : t.limit = u.limit := by
  cases hlimit : t.limit with
  | none =>
    cases hother : u.limit with
    | none => rfl
    | some other =>
      rw [hlimit, hother] at hplace
      exact absurd hplace.symm (h u hu other hother).2.ne
  | some limit =>
    cases hother : u.limit with
    | none =>
      rw [hlimit, hother] at hplace
      exact absurd hplace (h t ht limit hlimit).2.ne
    | some other =>
      rw [hlimit, hother] at hplace
      exact congrArg some hplace

/-- The sorted tiers are the limits in order, then the tiers without a limit as listed. -/
theorem Valid.mergeSort_eq (h : Valid infinity tiers) : ∃ taken,
    InOrder tiers taken ∧
      tiers.mergeSort (notAfter infinity) =
        taken.map upTo ++ tiers.filter (·.limit.isNone) := by
  have hpairs : (tiers.mergeSort (notAfter infinity)).Pairwise (notAfter infinity · · = true) :=
    List.pairwise_mergeSort notAfter_trans notAfter_total tiers
  have hsame : ∀ p place, (∀ t ∈ tiers, p t = true → t.limit.getD infinity = place) →
      (tiers.mergeSort (notAfter infinity)).filter p = tiers.filter p := filter_mergeSort
  have hmem : ∀ t ∈ tiers.mergeSort (notAfter infinity), t ∈ tiers :=
    fun _ => List.mem_mergeSort.mp
  generalize tiers.mergeSort (notAfter infinity) = sorted at hpairs hsame hmem
  have hrest : sorted.filter (·.limit.isNone) = tiers.filter (·.limit.isNone) :=
    hsame _ infinity fun t _ hnone => by
      rw [Option.isNone_iff_eq_none.mp hnone, Option.getD_none]
  have hfirst : sorted.Pairwise fun a b => b.limit.isSome = true → a.limit.isSome = true := by
    refine hpairs.imp_of_mem fun {a b} ha hb hab hlimit => ?_
    by_contra hnone
    rw [Option.not_isSome_iff_eq_none] at hnone
    rw [notAfter_iff, hnone, Option.getD_none] at hab
    obtain ⟨limit, hlimit⟩ := Option.isSome_iff_exists.mp hlimit
    rw [hlimit, Option.getD_some] at hab
    exact absurd (h b (hmem b hb) limit hlimit).2 (not_lt.mpr hab)
  refine ⟨limits sorted, ⟨?_, fun limit => ?_⟩, ?_⟩
  · refine List.pairwise_filterMap.mpr (hpairs.imp fun {a b} hab p hp q hq => ?_)
    obtain ⟨x, hx, rfl⟩ := Option.map_eq_some_iff.mp hp
    obtain ⟨y, hy, rfl⟩ := Option.map_eq_some_iff.mp hq
    rwa [notAfter_iff, hx, hy] at hab
  · rw [filter_limits, filter_limits, hsame _ limit fun t _ ht => by
      rw [of_decide_eq_true ht, Option.getD_some]]
  · rw [map_limits, ← hrest]
    have hsplit := eq_filter_append hfirst
    simpa only [Option.not_isSome] using hsplit

/-- Tiers that all differ in their limits are sorted the same, in whatever order they are listed. -/
theorem Valid.mergeSort_perm (h : Valid infinity tiers) (hdistinct : (tiers.map limit).Nodup)
    {others : List (Tier K)} (hperm : others.Perm tiers) :
    others.mergeSort (notAfter infinity) = tiers.mergeSort (notAfter infinity) := by
  have hsorted : ∀ l : List (Tier K), (l.mergeSort (notAfter infinity)).Pairwise
      (notAfter infinity · · = true) :=
    List.pairwise_mergeSort notAfter_trans notAfter_total
  refine List.Perm.eq_of_pairwise (fun a b ha hb hab hba => ?_) (hsorted others) (hsorted tiers)
    ((List.mergeSort_perm _ _).trans (hperm.trans (List.mergeSort_perm _ _).symm))
  have hamem : a ∈ tiers := hperm.mem_iff.mp (List.mem_mergeSort.mp ha)
  have hbmem : b ∈ tiers := List.mem_mergeSort.mp hb
  have hplace := le_antisymm (notAfter_iff.mp hab) (notAfter_iff.mp hba)
  exact List.inj_on_of_nodup_map hdistinct hamem hbmem (h.limit_eq hamem hbmem hplace)

end Valid

end Order

section Charge

variable {K : Type} [CommRing K] [LinearOrder K]

/-- The units that each limit takes of what the limits before it leave. -/
def units : K → List (K × K) → List K
  | _, [] => []
  | x, (limit, _) :: rest => min limit x :: units (x - min limit x) rest

/-- `x` units are spread over limits: each takes its fill of what those before it leave, and the
rest is what none of them takes. -/
structure Spread (taken : List (K × K)) (x : K) (shares : List K) (rest : K) : Prop where
  length_eq : shares.length = taken.length
  share_eq : ∀ k p, taken[k]? = some p →
    shares[k]? = some (min p.1 (x - (shares.take k).sum))
  share_nonneg : ∀ share ∈ shares, 0 ≤ share
  rest_nonneg : 0 ≤ rest
  sum_eq : shares.sum + rest = x

/-- What shares cost at the weights of their limits. -/
def cost (shares : List K) (taken : List (K × K)) : K :=
  (List.zipWith (· * ·) shares (taken.map Prod.snd)).sum

/-- The weight at which the unit that ends at a position is charged. -/
def rate (last : K) : List (K × K) → K → K
  | [], _ => last
  | (limit, w) :: rest, y => if y ≤ limit then w else rate last rest (y - limit)

variable {base x y total : K} {tiers : List (Tier K)} {taken : List (K × K)}

/-- The first limit's share at its weight, and the bill of what it leaves. -/
theorem bill_cons (p : K × K) (behind : List (K × K)) (x last : K) :
    cost (units x (p :: behind)) (p :: behind) + (x - (units x (p :: behind)).sum) * last =
      min p.1 x * p.2 + (cost (units (x - min p.1 x) behind) behind +
        (x - min p.1 x - (units (x - min p.1 x) behind).sum) * last) := by
  simp only [cost, units, List.map_cons, List.zipWith_cons_cons, List.sum_cons]
  ring

theorem charge_zero (base total : K) (tiers : List (Tier K)) :
    charge base 0 total tiers = total := by
  cases tiers with
  | nil => exact if_neg (lt_irrefl 0)
  | cons t rest => exact if_pos le_rfl

/-- A limit takes its fill, also when nothing is left to take. -/
theorem charge_upTo (p : K × K) (hlimit : 0 < p.1) (hx : 0 ≤ x) (rest : List (Tier K)) :
    charge base x total (upTo p :: rest) =
      charge base (x - min p.1 x) (total + min p.1 x * p.2) rest := by
  rcases hx.eq_or_lt with rfl | hpos
  · rw [charge_zero, min_eq_right hlimit.le, sub_zero, zero_mul, add_zero, charge_zero]
  · rw [← absorbed_eq_min]
    exact if_neg (not_le.mpr hpos)

/-- Without limits, everything is charged at one weight. -/
theorem charge_rest (hnone : ∀ t ∈ tiers, t.limit = none) (hx : 0 ≤ x) :
    charge base x total tiers = total + x * restWeight base tiers := by
  rcases hx.eq_or_lt with rfl | hpos
  · rw [charge_zero, zero_mul, add_zero]
  · cases tiers with
    | nil => exact if_pos hpos
    | cons t rest =>
      obtain ⟨limit, w⟩ := t
      obtain rfl : limit = none := hnone _ List.mem_cons_self
      have hcharge : charge base x total (⟨none, w⟩ :: rest) = charge base 0 (total + x * w) rest :=
        if_neg (not_le.mpr hpos)
      rw [hcharge, charge_zero]
      rfl

theorem restWeight_nonneg (hbase : 0 ≤ base) (hweights : ∀ t ∈ tiers, 0 ≤ t.weight) :
    0 ≤ restWeight base tiers := by
  unfold restWeight
  cases hfind : tiers.find? (·.limit.isNone) with
  | none => exact hbase
  | some t => exact hweights t (List.mem_of_find?_eq_some hfind)

variable [IsStrictOrderedRing K]

theorem spread_units (hpos : ∀ p ∈ taken, 0 < p.1) (hx : 0 ≤ x) :
    Spread taken x (units x taken) (x - (units x taken).sum) := by
  induction taken generalizing x with
  | nil => exact ⟨rfl, by simp, by simp [units], by simpa [units] using hx, by simp [units]⟩
  | cons p behind ih =>
    obtain ⟨limit, w⟩ := p
    have hlimit : 0 < limit := hpos _ List.mem_cons_self
    have hleft : 0 ≤ x - min limit x := sub_nonneg.mpr (min_le_right _ _)
    have hrest := ih (fun q hq => hpos q (List.mem_cons_of_mem _ hq)) hleft
    have hsum : x - (units x ((limit, w) :: behind)).sum =
        x - min limit x - (units (x - min limit x) behind).sum := by
      rw [units, List.sum_cons, sub_sub]
    refine ⟨congrArg (· + 1) hrest.length_eq, fun k q hq => ?_, fun share hshare => ?_, ?_, ?_⟩
    · cases k with
      | zero =>
        obtain rfl : (limit, w) = q := Option.some.inj hq
        simp [units]
      | succ k =>
        have hshare := hrest.share_eq k q hq
        rw [units, List.getElem?_cons_succ, hshare, List.take_succ_cons, List.sum_cons, sub_sub]
    · rcases List.mem_cons.mp hshare with rfl | hshare
      · exact le_min hlimit.le hx
      · exact hrest.share_nonneg share hshare
    · rw [hsum]
      exact hrest.rest_nonneg
    · rw [add_sub_cancel]

/-- What a run over limits, and then over tiers without one, charges. -/
theorem charge_eq (hpos : ∀ p ∈ taken, 0 < p.1) (hnone : ∀ t ∈ tiers, t.limit = none)
    (hx : 0 ≤ x) :
    charge base x total (taken.map upTo ++ tiers) =
      total + (cost (units x taken) taken +
        (x - (units x taken).sum) * restWeight base tiers) := by
  induction taken generalizing x total with
  | nil =>
    rw [List.map_nil, List.nil_append, charge_rest hnone hx]
    simp [cost, units]
  | cons p behind ih =>
    have hleft : 0 ≤ x - min p.1 x := sub_nonneg.mpr (min_le_right _ _)
    rw [List.map_cons, List.cons_append, charge_upTo p (hpos p List.mem_cons_self) hx,
      ih (fun q hq => hpos q (List.mem_cons_of_mem _ hq)) hleft]
    rw [bill_cons, add_assoc]

/-- More units never cost less, when no weight is negative. -/
theorem charge_mono (hpos : ∀ p ∈ taken, 0 < p.1) (hnone : ∀ t ∈ tiers, t.limit = none)
    (hweights : ∀ p ∈ taken, 0 ≤ p.2) (hlast : 0 ≤ restWeight base tiers) {more : K}
    (hx : 0 ≤ x) (hxy : x ≤ y) (htotal : total ≤ more) :
    charge base x total (taken.map upTo ++ tiers) ≤
      charge base y more (taken.map upTo ++ tiers) := by
  induction taken generalizing x y total more with
  | nil =>
    rw [List.map_nil, List.nil_append, charge_rest hnone hx, charge_rest hnone (hx.trans hxy)]
    exact add_le_add htotal (mul_le_mul_of_nonneg_right hxy hlast)
  | cons p behind ih =>
    have hlimit := hpos p List.mem_cons_self
    have hshare : min p.1 x ≤ min p.1 y := min_le_min_left _ hxy
    have hleft : x - min p.1 x ≤ y - min p.1 y := by
      rcases le_total y p.1 with hy | hy
      · rw [min_eq_right hy, min_eq_right (hxy.trans hy), sub_self, sub_self]
      · rw [min_eq_left hy]
        rcases le_total x p.1 with hx | hx
        · rw [min_eq_right hx, sub_self]
          exact sub_nonneg.mpr hy
        · rw [min_eq_left hx]
          exact sub_le_sub_right hxy _
    rw [List.map_cons, List.cons_append, charge_upTo p hlimit hx,
      charge_upTo p hlimit (hx.trans hxy)]
    exact ih (fun q hq => hpos q (List.mem_cons_of_mem _ hq))
      (fun q hq => hweights q (List.mem_cons_of_mem _ hq)) (sub_nonneg.mpr (min_le_right _ _)) hleft
      (add_le_add htotal (mul_le_mul_of_nonneg_right hshare (hweights p List.mem_cons_self)))

end Charge

section Integral

open MeasureTheory intervalIntegral

variable {last : ℝ} {taken : List (ℝ × ℝ)}

theorem intervalIntegrable_rate (last : ℝ) (taken : List (ℝ × ℝ)) (a b : ℝ) :
    IntervalIntegrable (rate last taken) volume a b := by
  induction taken generalizing a b with
  | nil => exact intervalIntegrable_const
  | cons p behind ih =>
    obtain ⟨limit, w⟩ := p
    have hpieces : rate last ((limit, w) :: behind) =
        (Set.Iic limit).piecewise (fun _ => w) fun y => rate last behind (y - limit) := by
      funext y
      simp [rate, Set.piecewise]
    have hbehind : IntervalIntegrable (fun y => rate last behind (y - limit)) volume a b := by
      simpa using (ih (a - limit) (b - limit)).comp_sub_right limit
    rw [intervalIntegrable_iff] at hbehind ⊢
    rw [hpieces]
    exact Integrable.piecewise measurableSet_Iic
      (integrableOn_const (by simp)).integrableOn hbehind.integrableOn

/-- The integral of the weights, one limit after the other. -/
theorem integral_rate (hpos : ∀ p ∈ taken, 0 < p.1) {x : ℝ} (hx : 0 ≤ x) :
    ∫ y in (0)..x, rate last taken y =
      cost (units x taken) taken + (x - (units x taken).sum) * last := by
  induction taken generalizing x with
  | nil => simp [rate, cost, units]
  | cons p behind ih =>
    obtain ⟨limit, w⟩ := p
    have hlimit : 0 < limit := hpos _ List.mem_cons_self
    have hshare : 0 ≤ min limit x := le_min hlimit.le hx
    have hleft : 0 ≤ x - min limit x := sub_nonneg.mpr (min_le_right _ _)
    have hfirst : ∫ y in (0)..(min limit x), rate last ((limit, w) :: behind) y =
        min limit x * w := by
      have hconst : Set.EqOn (rate last ((limit, w) :: behind)) (fun _ => w)
          (Set.uIcc 0 (min limit x)) := by
        intro y hy
        rw [Set.uIcc_of_le hshare] at hy
        exact if_pos (hy.2.trans (min_le_left _ _))
      rw [integral_congr hconst, intervalIntegral.integral_const, sub_zero, smul_eq_mul]
    have hsecond : ∫ y in (min limit x)..x, rate last ((limit, w) :: behind) y =
        ∫ y in (0)..(x - min limit x), rate last behind y := by
      rcases le_total x limit with hle | hle
      · rw [min_eq_right hle, sub_self, integral_same, integral_same]
      · have hshift : ∫ y in limit..x, rate last ((limit, w) :: behind) y =
            ∫ y in limit..x, rate last behind (y - limit) := by
          rw [integral_of_le hle, integral_of_le hle]
          exact setIntegral_congr_fun measurableSet_Ioc fun y hy => if_neg (not_le.mpr hy.1)
        rw [min_eq_left hle, hshift, integral_comp_sub_right, sub_self]
    rw [← integral_add_adjacent_intervals (intervalIntegrable_rate _ _ 0 (min limit x))
      (intervalIntegrable_rate _ _ _ _), hfirst, hsecond,
      ih (fun q hq => hpos q (List.mem_cons_of_mem _ hq)) hleft]
    exact (bill_cons (limit, w) behind x last).symm

end Integral

/-- A price is the integral of the weights of its units. In increasing order, each limit takes its
fill of what the limits before it leave; the rest is charged at the weight of the first tier without
a limit, or at the base weight; the shares and the rest add up to the amount, and their costs to the
price. So prices are not negative and grow with the amount when no weight is negative, and when all
limits differ they do not depend on the order in which tiers are listed. -/
theorem price_eq_integral {infinity : ℝ} (base : ℝ) {tiers : List (Tier ℝ)}
    (h : Valid infinity tiers) :
    ∃ taken, InOrder tiers taken ∧
      (∀ x, 0 < x →
        (∃ shares rest, Spread taken x shares rest ∧
          price infinity base x tiers = cost shares taken + rest * restWeight base tiers) ∧
        price infinity base x tiers = ∫ y in (0)..x, rate (restWeight base tiers) taken y) ∧
      (0 ≤ base → (∀ t ∈ tiers, 0 ≤ t.weight) → ∀ x y, 0 < x → x ≤ y →
        0 ≤ price infinity base x tiers ∧
        price infinity base x tiers ≤ price infinity base y tiers) ∧
      ((tiers.map limit).Nodup → ∀ others, others.Perm tiers → ∀ x,
        price infinity base x others = price infinity base x tiers) := by
  obtain ⟨taken, hordered, hsorted⟩ := h.mergeSort_eq
  have hmem : ∀ p ∈ taken, p ∈ limits tiers := fun p => hordered.mem_limits
  have hpos : ∀ p ∈ taken, 0 < p.1 := fun p hp => h.pos (hmem p hp)
  have hnone : ∀ t ∈ tiers.filter (·.limit.isNone), t.limit = none :=
    fun t => limit_eq_none_of_mem
  have hprice : ∀ x, 0 < x → price infinity base x tiers =
      cost (units x taken) taken + (x - (units x taken).sum) * restWeight base tiers := by
    intro x hx
    rw [price, hsorted, charge_eq hpos hnone hx.le, zero_add, restWeight_filter]
  refine ⟨taken, hordered, fun x hx => ⟨⟨_, _, spread_units hpos hx.le, hprice x hx⟩, ?_⟩, ?_, ?_⟩
  · rw [hprice x hx, integral_rate hpos hx.le]
  · intro hbase hweights x y hx hxy
    have htaken : ∀ p ∈ taken, 0 ≤ p.2 := fun p hp => hweights _ (mem_limits.mp (hmem p hp))
    have hlast : 0 ≤ restWeight base (tiers.filter (·.limit.isNone)) := by
      rw [restWeight_filter]
      exact restWeight_nonneg hbase hweights
    have hmono : ∀ {x y : ℝ}, 0 ≤ x → x ≤ y →
        price infinity base x tiers ≤ price infinity base y tiers := by
      intro x y hx hxy
      rw [price, price, hsorted]
      exact charge_mono hpos hnone htaken hlast hx hxy le_rfl
    have hzero : price infinity base 0 tiers = 0 := charge_zero _ _ _
    refine ⟨?_, hmono hx.le hxy⟩
    rw [← hzero]
    exact hmono le_rfl hx.le
  · intro hdistinct others hperm x
    rw [price, price, h.mergeSort_perm hdistinct hperm]

/-- Two units at ten each before the rest at one each, also when the rest is listed first. -/
theorem price_two_before_rest :
    Valid (3 : ℝ) [⟨none, 1⟩, ⟨some 2, 10⟩] ∧
      (∃ taken, InOrder [⟨none, 1⟩, ⟨some 2, 10⟩] taken ∧
        price (3 : ℝ) 0 5 [⟨none, 1⟩, ⟨some 2, 10⟩] = ∫ y in (0)..5, rate 1 taken y) ∧
      price (3 : ℝ) 0 5 [⟨some 2, 10⟩, ⟨none, 1⟩] = price 3 0 5 [⟨none, 1⟩, ⟨some 2, 10⟩] ∧
      price (3 : ℝ) 0 5 [⟨none, 1⟩, ⟨some 2, 10⟩] = 23 := by
  have hvalid : Valid (3 : ℝ) [⟨none, 1⟩, ⟨some 2, 10⟩] := by
    intro t ht limit hlimit
    simp only [List.mem_cons, List.not_mem_nil, or_false] at ht
    rcases ht with rfl | rfl
    · cases hlimit
    · obtain rfl : (2 : ℝ) = limit := Option.some.inj hlimit
      norm_num
  obtain ⟨taken, hordered, hprice, -, hperm⟩ := price_eq_integral 0 hvalid
  refine ⟨hvalid, ⟨taken, hordered, (hprice 5 (by norm_num)).2⟩,
    hperm (by simp) _ (List.Perm.swap _ _ _) 5, ?_⟩
  norm_num [price, List.mergeSort, List.merge, notAfter, charge, absorbed]

end Tier
end LeagueAudit
