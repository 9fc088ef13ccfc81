import LeagueAudit.Proofs.Number.Value
import Mathlib.Algebra.Order.BigOperators.Group.List

/-!
Arithmetic of whole numbers. Doubles stand for all whole numbers below `2 ^ 53`; sums, differences
and products of such numbers that stay below it are not rounded, nor are quotients that come out
even.
-/
namespace LeagueAudit

open Float.Model Float.Model.UnpackedFloat

namespace Exact

open Double

/-- The parts of a whole number: its digits, filled up with zeros to 53 of them. -/
structure Whole (n r : Nat) (t : Int) : Prop where
  full : 2 ^ 52 ≤ r
  lt : r < 2 ^ 53
  low : -1074 ≤ t
  high : t ≤ 971
  value : scaled r t = n * stepsPerOne

theorem exists_whole {n : Nat} (hpos : 0 < n) (hlt : n < 2 ^ 53) : ∃ r t, Whole n r t := by
  have hlog : n.log2 < 53 := (Nat.log2_lt (by omega)).mpr hlt
  have hfilled := log2_shiftLeft hpos (52 - n.log2)
  have hshift : n <<< (52 - n.log2) = n * twoTo (52 - n.log2) := Nat.shiftLeft_eq _ _
  have hne : n <<< (52 - n.log2) ≠ 0 := by
    rw [hshift]
    exact Nat.ne_of_gt (Nat.mul_pos hpos (twoTo_pos _))
  refine ⟨n <<< (52 - n.log2), n.log2 - 52, (Nat.le_log2 hne).mp (by omega),
    (Nat.log2_lt hne).mp (by omega), by omega, by omega, ?_⟩
  rw [scaled, hshift, Nat.mul_assoc, twoTo_mul, stepsPerOne]
  congr 2
  omega

section Rounding

variable {n r m : Nat} {t e : Int}

theorem Whole.least (h : Whole n r t) : Least r t := ⟨h.lt, h.low, fun _ => h.full⟩

theorem Whole.log2_mul (h : Whole n r t) (j : Nat) : (r * 2 ^ j).log2 = 52 + j := by
  have hr : r ≠ 0 := Nat.ne_of_gt (Nat.lt_of_lt_of_le (by decide) h.full)
  have hlog : r.log2 = 52 := (Nat.log2_eq_iff hr).mpr ⟨h.full, h.lt⟩
  rw [← Nat.shiftLeft_eq, log2_shiftLeft (Nat.pos_of_ne_zero hr), hlog]

/-- Digits that are zero are cut without a loss. -/
theorem roundedMantissa_mul (r j : Nat) : ExtendedMantissa.roundedMantissa
    (ExtendedMantissa.ofMantissaAndAccuracy (r * 2 ^ j) .exact >>> j) = r := by
  obtain ⟨hlow, hhigh⟩ := ((leads_exact (r * 2 ^ j)).shiftRight j).rounded
  generalize ExtendedMantissa.roundedMantissa _ = rounded at hlow hhigh ⊢
  have hpos : 0 < 2 ^ j := Nat.pow_pos (by decide)
  rw [Nat.mul_one] at hlow hhigh
  have hle : 2 * rounded ≤ 2 * r + 1 := by
    refine Nat.le_of_mul_le_mul_right ?_ hpos
    rw [Nat.add_mul, Nat.one_mul, Nat.mul_assoc, Nat.mul_assoc]
    exact hlow
  have hge : 2 * r ≤ 2 * rounded + 1 := by
    refine Nat.le_of_mul_le_mul_right ?_ hpos
    rw [Nat.add_mul, Nat.one_mul, Nat.mul_assoc, Nat.mul_assoc]
    exact hhigh
  omega

theorem ofFields_roundWithAccuracy (s : Sign) (h : Whole n r t) {j : Nat} (hm : m = r * 2 ^ j)
    (he : e + j = t) :
    ofFields (UnpackedFloat.pack Format.binary64 (roundWithAccuracy Format.binary64 s m e .exact)) =
      finite (s.apply (n * stepsPerOne : Nat)) := by
  have hlow := h.low
  have hlog : m.log2 = 52 + j := hm ▸ h.log2_mul j
  have hfirst : shiftToTargetExponent Format.binary64 m e .exact =
      (ExtendedMantissa.ofMantissaAndAccuracy m .exact >>> j, t) := by
    have htarget : max ((m.log2 : Int) + e - 52) (-1074) = t := by omega
    have hshift : (t - e).toNat = j := by omega
    rw [shiftToTargetExponent, targetExponent_eq, htarget, shiftToExponent, hshift, he]
  obtain ⟨hleast, hvalue⟩ := shiftToTargetExponent_settled (Nat.le_of_lt h.lt) h.low fun _ => h.full
  have hsome : (shiftToTargetExponent Format.binary64 r t .exact).1.mantissa ≠ 0 := by
    intro hzero
    have hpos := scaled_pos (Nat.lt_of_lt_of_le (by decide) h.full) t
    rw [← hvalue, hzero, scaled, Nat.zero_mul] at hpos
    cases hpos
  have hhigh : (shiftToTargetExponent Format.binary64 r t .exact).2 ≤ 971 := by
    by_contra hover
    have hless := scaled_lt_scaled h.least hleast (lt_of_le_of_lt h.high (not_le.mp hover))
    omega
  unfold roundWithAccuracy
  rw [hfirst]
  dsimp only
  rw [hm, roundedMantissa_mul, dif_neg hsome, ofFields_pack_of_least hleast, hvalue, h.value,
    if_pos hhigh]

/-- Rounding keeps whole numbers, whatever mantissa and exponent they are given with. -/
theorem ofFields_round (s : Sign) (h : Whole n r t) (hm : 0 < m) (he : -1074 ≤ e)
    (hvalue : scaled m e = n * stepsPerOne) :
    ofFields (UnpackedFloat.pack Format.binary64 (UnpackedFloat.round Format.binary64 s m e)) =
      finite (s.apply (n * stepsPerOne : Nat)) := by
  have hlow := h.low
  -- Both mantissas lead the same number, so one is the other one with zeros added.
  have hsame : m * 2 ^ (e + 1074).toNat = r * 2 ^ (t + 1074).toNat := hvalue.trans h.value.symm
  have hlog : m.log2 + (e + 1074).toNat = 52 + (t + 1074).toNat := by
    rw [← h.log2_mul, ← hsame, ← Nat.shiftLeft_eq, log2_shiftLeft hm]
  have htarget : max ((m.log2 : Int) + e - 52) (-1074) = t := by omega
  have hzeros : m <<< (e - t).toNat = r * 2 ^ (t - e).toNat := by
    rw [Nat.shiftLeft_eq]
    refine Nat.eq_of_mul_eq_mul_right (Nat.pow_pos (by decide) : 0 < 2 ^ (min e t + 1074).toNat) ?_
    have hup : (e + 1074).toNat = (e - t).toNat + (min e t + 1074).toNat := by omega
    have hdown : (t + 1074).toNat = (t - e).toNat + (min e t + 1074).toNat := by omega
    rw [Nat.mul_assoc, Nat.mul_assoc, ← Nat.pow_add, ← Nat.pow_add, ← hup, ← hdown, hsame]
  unfold UnpackedFloat.round decreaseExponent
  rw [targetExponent_eq, htarget]
  exact ofFields_roundWithAccuracy s h hzeros (by omega)

theorem apply_natAbs {s : Sign} {n : Int} (h : s.apply n.natAbs = n) :
    finite (s.apply (n.natAbs * stepsPerOne : Nat)) = ofInt n := by
  have hmul : s.apply (n.natAbs * stepsPerOne : Nat) = s.apply n.natAbs * stepsPerOne := by
    cases s with
    | negative => rw [Sign.apply, Sign.apply, Int.natCast_mul, Int.neg_mul]
    | positive => exact Int.natCast_mul _ _
  rw [hmul, h, ofInt]

theorem ofFields_normalize {m n : Int} (he : -1074 ≤ e) (hn : n.natAbs < 2 ^ 53)
    (hvalue : m * twoTo (e + 1074).toNat = n * stepsPerOne) :
    ofFields (UnpackedFloat.pack Format.binary64
      (UnpackedFloat.normalize Format.binary64 m e .positive)) = ofInt n := by
  have hunit : (0 : Int) < twoTo (e + 1074).toNat := Int.natCast_pos.mpr (twoTo_pos _)
  have hone : (0 : Int) < stepsPerOne := Int.natCast_pos.mpr (twoTo_pos 1074)
  have habs : scaled m.natAbs e = n.natAbs * stepsPerOne := by
    have h := congrArg Int.natAbs hvalue
    rwa [Int.natAbs_mul, Int.natAbs_mul, Int.natAbs_natCast, Int.natAbs_natCast] at h
  have hsign : n.sign = m.sign := by
    have h := congrArg Int.sign hvalue
    rwa [Int.sign_mul, Int.sign_mul, Int.sign_eq_one_of_pos hunit, Int.sign_eq_one_of_pos hone,
      Int.mul_one, Int.mul_one, eq_comm] at h
  have hround : ∀ s : Sign, n ≠ 0 → m.natAbs ≠ 0 → s.apply n.natAbs = n →
      ofFields (UnpackedFloat.pack Format.binary64
        (UnpackedFloat.round Format.binary64 s m.natAbs e)) = ofInt n := by
    intro s hn' hm hs
    obtain ⟨r, t, h⟩ := exists_whole (Int.natAbs_pos.mpr hn') hn
    rw [ofFields_round s h (Nat.pos_of_ne_zero hm) he habs, apply_natAbs hs]
  unfold UnpackedFloat.normalize
  rcases lt_trichotomy m 0 with hm | rfl | hm
  · have hneg : n < 0 := by
      rw [← Int.sign_eq_neg_one_iff_neg, hsign]
      exact Int.sign_eq_neg_one_of_neg hm
    have hpart : (-m).toNat = m.natAbs := by omega
    rw [compare_lt_iff_lt.mpr hm, hpart]
    exact hround .negative (by omega) (by omega) (by rw [Sign.apply]; omega)
  · have hzero : n = 0 := Int.sign_eq_zero_iff_zero.mp hsign
    rw [compare_eq_iff_eq.mpr rfl, hzero, ofInt, Int.zero_mul]
    exact ofFields_pack (u := .zero .positive) trivial
  · have hpos : 0 < n := by
      rw [← Int.sign_eq_one_iff_pos, hsign]
      exact Int.sign_eq_one_of_pos hm
    have hpart : m.toNat = m.natAbs := by omega
    rw [compare_gt_iff_gt.mpr hm, hpart]
    exact hround .positive (by omega) (by omega) (by rw [Sign.apply]; omega)

end Rounding

section Arithmetic

variable {x y : Float} {a b : Int}

theorem ofInt_zero : ofInt 0 = finite 0 := by rw [ofInt, Int.zero_mul]

theorem eq_zero_of_ofInt (h : finite 0 = ofInt a) : a = 0 := by
  have hone : (stepsPerOne : Int) ≠ 0 := Int.natCast_ne_zero.mpr (Nat.ne_of_gt (twoTo_pos 1074))
  exact (Int.mul_eq_zero.mp (finite.inj h).symm).resolve_right hone

theorem Normalizes.eq_ofInt {n : Int} {value : Exact} (h : Normalizes (n * stepsPerOne) value)
    (hn : n.natAbs < 2 ^ 53) : value = ofInt n := by
  cases h with
  | exact => rfl
  | rounded he hvalue => exact ofFields_normalize he hn hvalue

/-- Whole numbers are added without rounding, as long as the sum is below `2 ^ 53`. -/
theorem ofFloat_add_whole (hx : ofFloat x = ofInt a) (hy : ofFloat y = ofInt b)
    (h : (a + b).natAbs < 2 ^ 53) : ofFloat (x + y) = ofInt (a + b) := by
  have hsum := normalizes_add hx hy
  rw [← Int.add_mul] at hsum
  exact hsum.eq_ofInt h

/-- Whole numbers are subtracted without rounding, as long as the difference is below `2 ^ 53`. -/
theorem ofFloat_sub_whole (hx : ofFloat x = ofInt a) (hy : ofFloat y = ofInt b)
    (h : (a - b).natAbs < 2 ^ 53) : ofFloat (x - y) = ofInt (a - b) := by
  have hdifference := normalizes_sub hx hy
  rw [← Int.sub_mul] at hdifference
  exact hdifference.eq_ofInt h

/-- Whole numbers that are not below zero are added up without rounding, as long as they stay below
`2 ^ 53`. -/
theorem ofFloat_foldl_add_whole {terms : List Float} {ns : List Int}
    (hterms : List.Forall₂ (fun x n => ofFloat x = ofInt n) terms ns) (hns : ∀ n ∈ ns, 0 ≤ n)
    (hx : ofFloat x = ofInt a) (ha : 0 ≤ a) (h : a + ns.sum < 2 ^ 53) :
    ofFloat (terms.foldl (· + ·) x) = ofInt (a + ns.sum) := by
  induction hterms generalizing x a with
  | nil =>
    rw [List.sum_nil, Int.add_zero]
    exact hx
  | @cons term n terms ns hterm _ ih =>
    obtain ⟨hn, hns⟩ := List.forall_mem_cons.mp hns
    have hsum : 0 ≤ ns.sum := List.sum_nonneg hns
    rw [List.sum_cons, ← Int.add_assoc] at h
    rw [List.foldl_cons, List.sum_cons, ← Int.add_assoc]
    exact ih hns (ofFloat_add_whole hx hterm (by omega)) (by omega) h

/-- Whole numbers leave no excess, so that they are added up without rounding as long as they stay
below `2 ^ 53`, whatever their signs are. -/
theorem ofFloat_carriedSum_whole {terms : List Float} {ns : List Int}
    (hterms : List.Forall₂ (fun x n => ofFloat x = ofInt n) terms ns)
    (h : (ns.map Int.natAbs).sum < 2 ^ 53) : ofFloat (carriedSum terms) = ofInt ns.sum := by
  have hgen : ∀ (s : CarriedSum) (a : Int), ofFloat s.total = ofInt a →
      ofFloat s.excess = ofInt 0 → a.natAbs + (ns.map Int.natAbs).sum < 2 ^ 53 →
      ofFloat (terms.foldl CarriedSum.add s).total = ofInt (a + ns.sum) := by
    induction hterms with
    | nil =>
      intro s a hs _ _
      rw [List.sum_nil, Int.add_zero]
      exact hs
    | @cons x n terms ns hx _ ih =>
      intro s a hs hexcess hlt
      rw [List.map_cons, List.sum_cons] at h hlt
      have hterm := ofFloat_sub_whole hx hexcess (by omega)
      rw [Int.sub_zero] at hterm
      have htotal := ofFloat_add_whole hs hterm (by omega)
      have hgain := ofFloat_sub_whole htotal hs (by omega)
      have hleft := ofFloat_sub_whole hgain hterm (by omega)
      rw [add_sub_cancel_left, Int.sub_self] at hleft
      have hnumber := isNaN_eq_false (isFinite_of_eq hleft)
      rw [List.foldl_cons, List.sum_cons, ← Int.add_assoc]
      refine ih (by omega) _ (a + n) htotal ?_ (by omega)
      rw [CarriedSum.add, hnumber, if_neg Bool.false_ne_true]
      exact hleft
  have hzero := hgen {} 0 (ofFloat_zero.trans ofInt_zero.symm) (ofFloat_zero.trans ofInt_zero.symm)
    (by rwa [Int.natAbs_zero, Nat.zero_add])
  rwa [Int.zero_add] at hzero

theorem twoTo_le {j k : Nat} (h : j ≤ k) : twoTo j ≤ twoTo k := Nat.pow_le_pow_right (by decide) h

/-- The mantissa of a whole number has all of its digits. -/
theorem full_of_whole {m n : Nat} {e : Int} (h : Least m e) (hn : n ≠ 0)
    (hvalue : scaled m e = n * stepsPerOne) : 2 ^ 52 ≤ m := by
  refine h.full fun he => ?_
  have hlt : m < twoTo 53 := h.lt
  have hle : twoTo 53 ≤ stepsPerOne := twoTo_le (by decide)
  have hsteps : stepsPerOne ≤ n * stepsPerOne := Nat.le_mul_of_pos_left _ (Nat.pos_of_ne_zero hn)
  have hunit : scaled m e = m := by
    rw [he, scaled]
    exact Nat.mul_one m
  omega

/-- The product of the mantissas of two whole numbers leads the product of the numbers. -/
theorem exists_mul_whole {m m' n n' r : Nat} {e e' t : Int} (hm : Least m e) (hm' : Least m' e')
    (hn : n ≠ 0) (hn' : n' ≠ 0) (hvalue : scaled m e = n * stepsPerOne)
    (hvalue' : scaled m' e' = n' * stepsPerOne) (h : Whole (n * n') r t) :
    ∃ j : Nat, m * m' = r * 2 ^ j ∧ e + e' + j = t := by
  have hlow := hm.low
  have hlow' := hm'.low
  have hlow'' := h.low
  have hlt := h.lt
  have hproduct : m * m' * twoTo ((e + 1074).toNat + (e' + 1074).toNat) =
      r * twoTo ((t + 1074).toNat + 1074) := by
    calc m * m' * twoTo ((e + 1074).toNat + (e' + 1074).toNat)
        = scaled m e * scaled m' e' := by rw [← twoTo_mul, scaled, scaled]; ring
      _ = n * n' * stepsPerOne * stepsPerOne := by rw [hvalue, hvalue']; ring
      _ = r * twoTo ((t + 1074).toNat + 1074) := by
        rw [← h.value, ← twoTo_mul, scaled, stepsPerOne, Nat.mul_assoc]
  have hfull : r < m * m' := by
    have hmul := Nat.mul_le_mul (full_of_whole hm hn hvalue) (full_of_whole hm' hn' hvalue')
    omega
  have hle : (e + 1074).toNat + (e' + 1074).toNat ≤ (t + 1074).toNat + 1074 := by
    by_contra hless
    refine absurd hproduct (Nat.ne_of_gt ?_)
    exact Nat.mul_lt_mul_of_lt_of_le hfull (twoTo_le (by omega)) (twoTo_pos _)
  obtain ⟨j, hj⟩ := Nat.exists_eq_add_of_le hle
  refine ⟨j, ?_, by omega⟩
  rw [hj, Nat.add_comm _ j, ← twoTo_mul j, ← Nat.mul_assoc] at hproduct
  exact Nat.eq_of_mul_eq_mul_right (twoTo_pos _) hproduct

/-- The sign and the steps of a whole number. -/
theorem signed_of_whole {s : Sign} {m : Nat} {e : Int} {hm : 0 < m}
    (h : ofUnpacked (.finite s m e hm) = ofInt a) :
    a ≠ 0 ∧ s.apply a.natAbs = a ∧ scaled m e = a.natAbs * stepsPerOne := by
  have hpos := scaled_pos hm e
  have hone : (0 : Int) < stepsPerOne := Int.natCast_pos.mpr (twoTo_pos 1074)
  rw [ofUnpacked_finite] at h
  have hvalue : s.apply (scaled m e) = a * stepsPerOne := finite.inj h
  have hsteps : scaled m e = a.natAbs * stepsPerOne := by
    rw [← Int.natAbs_natCast stepsPerOne, ← Int.natAbs_mul, ← hvalue]
    cases s with
    | negative => rw [Sign.apply, Int.natAbs_neg, Int.natAbs_natCast]
    | positive => rw [Sign.apply, Int.natAbs_natCast]
  refine ⟨?_, ?_, hsteps⟩
  · rintro rfl
    rw [hsteps, Int.natAbs_zero, Nat.zero_mul] at hpos
    cases hpos
  · refine Int.eq_of_mul_eq_mul_right (Int.ne_of_gt hone) ?_
    rw [← hvalue, hsteps]
    cases s with
    | negative => rw [Sign.apply, Sign.apply, Int.natCast_mul, Int.neg_mul]
    | positive => exact (Int.natCast_mul _ _).symm

/-- Whole numbers are multiplied without rounding, as long as the product is below `2 ^ 53`. -/
theorem ofFloat_mul_whole (hx : ofFloat x = ofInt a) (hy : ofFloat y = ofInt b)
    (h : (a * b).natAbs < 2 ^ 53) : ofFloat (x * y) = ofInt (a * b) := by
  have hu := canonical_unpack x
  have hv := canonical_unpack y
  rw [ofFloat_eq] at hx hy
  rw [ofFloat_mul]
  generalize x.toModel.unpack = u at *
  generalize y.toModel.unpack = v at *
  cases u with
  | infinity => cases hx
  | notANumber => cases hx
  | zero s =>
    rw [eq_zero_of_ofInt hx, Int.zero_mul, ofInt_zero]
    cases v with
    | infinity => cases hy
    | notANumber => cases hy
    | zero s' => exact ofFloat_pack trivial
    | finite s' m' e' hm' => exact ofFloat_pack trivial
  | finite s m e hm =>
    cases v with
    | infinity => cases hy
    | notANumber => cases hy
    | zero s' =>
      rw [eq_zero_of_ofInt hy, Int.mul_zero, ofInt_zero]
      exact ofFloat_pack trivial
    | finite s' m' e' hm' =>
      obtain ⟨ha, hs, hsteps⟩ := signed_of_whole hx
      obtain ⟨hb, hs', hsteps'⟩ := signed_of_whole hy
      have hsign : (s * s').apply (a * b).natAbs = a * b := by
        rw [Int.natAbs_mul, Int.natCast_mul, ← hs, ← hs']
        cases s <;> cases s' <;> simp [Sign.apply]
      rw [Int.natAbs_mul] at h
      obtain ⟨r, t, hwhole⟩ := exists_whole
        (Nat.mul_pos (Int.natAbs_pos.mpr ha) (Int.natAbs_pos.mpr hb)) h
      obtain ⟨j, hj, he⟩ := exists_mul_whole hu.least hv.least (Int.natAbs_ne_zero.mpr ha)
        (Int.natAbs_ne_zero.mpr hb) hsteps hsteps' hwhole
      have hround := ofFields_roundWithAccuracy (s * s') hwhole hj he
      rw [← Int.natAbs_mul, apply_natAbs hsign] at hround
      rw [ofFloat_eq_ofFields]
      exact hround

/-- The quotient of two whole numbers, one a multiple of the other, is found by adding 53 digits to
the dividend. -/
theorem exists_div_whole {m m' n n' r : Nat} {e e' t : Int} (hm : Least m e) (hm' : Least m' e')
    (hn : n ≠ 0) (hn' : n' ≠ 0) (hvalue : scaled m e = n * n' * stepsPerOne)
    (hvalue' : scaled m' e' = n' * stepsPerOne) (h : Whole n r t) :
    ∃ j : Nat, j ≤ 53 ∧ m * 2 ^ 53 = r * 2 ^ j * m' ∧ e - e' - 53 + j = t ∧ -52 ≤ t := by
  have hlow := hm.low
  have hlow' := hm'.low
  have hlow'' := h.low
  have hfull := full_of_whole hm (Nat.mul_ne_zero hn hn') hvalue
  have hfull' := full_of_whole hm' hn' hvalue'
  have hratio : m * twoTo ((e + 1074).toNat + 1074) =
      r * m' * twoTo ((t + 1074).toNat + (e' + 1074).toNat) := by
    calc m * twoTo ((e + 1074).toNat + 1074)
        = scaled m e * stepsPerOne := by rw [← twoTo_mul, scaled, stepsPerOne]; ring
      _ = n * stepsPerOne * scaled m' e' := by rw [hvalue, hvalue']; ring
      _ = r * m' * twoTo ((t + 1074).toNat + (e' + 1074).toNat) := by
        rw [← h.value, ← twoTo_mul, scaled, scaled]; ring
  have hproduct : 2 ^ 52 * 2 ^ 52 ≤ r * m' := Nat.mul_le_mul h.full hfull'
  have hproduct' : r * m' < 2 ^ 53 * 2 ^ 53 := Nat.mul_lt_mul'' h.lt hm'.lt
  have hle : (t + 1074).toNat + (e' + 1074).toNat ≤ (e + 1074).toNat + 1074 := by
    by_contra hless
    refine absurd hratio (Nat.ne_of_lt ?_)
    have hlt := hm.lt
    exact Nat.mul_lt_mul_of_lt_of_le (by omega) (twoTo_le (by omega)) (twoTo_pos _)
  obtain ⟨k, hk⟩ := Nat.exists_eq_add_of_le hle
  have hshift : m * 2 ^ k = r * m' := by
    rw [hk, Nat.add_comm, ← twoTo_mul, ← Nat.mul_assoc] at hratio
    exact Nat.eq_of_mul_eq_mul_right (twoTo_pos _) hratio
  have hdigits : k ≤ 53 := by
    by_contra hmore
    have hpow : 2 ^ 54 ≤ 2 ^ k := Nat.pow_le_pow_right (by decide) (by omega)
    have hmul := Nat.mul_le_mul hfull hpow
    omega
  refine ⟨53 - k, Nat.sub_le _ _, ?_, by omega, ?_⟩
  · have hpow : 2 ^ 53 = 2 ^ k * 2 ^ (53 - k) := by rw [← Nat.pow_add, Nat.add_sub_cancel' hdigits]
    rw [hpow, ← Nat.mul_assoc, hshift]
    ring
  · by_contra hsmall
    have hone : stepsPerOne ≤ n * stepsPerOne := Nat.le_mul_of_pos_left _ (Nat.pos_of_ne_zero hn)
    have hunit : twoTo (t + 1074).toNat ≤ twoTo 1021 := twoTo_le (by omega)
    have hless : scaled r t < twoTo 53 * twoTo 1021 :=
      Nat.mul_lt_mul_of_lt_of_le h.lt hunit (twoTo_pos _)
    rw [twoTo_mul, h.value] at hless
    exact absurd hless (not_lt.mpr hone)

/-- Mantissas of 53 digits are divided after 53 digits were added to the dividend. -/
theorem divCore_eq {m m' : Nat} {e e' : Int} (hlog : m.log2 = 52) (hlog' : m'.log2 = 52)
    (h : -1021 ≤ e - e') : divCore Format.binary64 m e m' e' =
      (m * 2 ^ 53 / m', e - e' - 53, accuracyOfFraction (m * 2 ^ 53 % m') m') := by
  have hbits : Format.binary64.mantissaBits = 53 := rfl
  have hleast : Format.binary64.minExponent = -1074 := by decide
  have htarget : Format.binary64.targetExponent (totalExponent m e - totalExponent m' e') =
      e - e' - 53 := by
    rw [Format.targetExponent, totalExponent, totalExponent, hbits, hleast, hlog, hlog']
    omega
  have hmin : min (e - e') (e - e' - 53) = e - e' - 53 := by omega
  have hshift : (e - e' - (e - e' - 53)).toNat = 53 := by omega
  unfold divCore
  dsimp only
  rw [htarget, hmin, hshift, Nat.shiftLeft_eq]

theorem apply_div_mul (s s' : Sign) (m n : Nat) :
    (s / s').apply m * s'.apply n = s.apply (m * n : Nat) := by
  cases s <;> cases s' <;> simp [Sign.apply, HDiv.hDiv, Div.div]

theorem ofFloat_div (x y : Float) :
    ofFloat (x / y) = ofFloat (.ofModel (Float.Model.pack
      (UnpackedFloat.div Format.binary64 x.toModel.unpack y.toModel.unpack))) := rfl

/-- A whole number that is a multiple of another one is divided by it without rounding. -/
theorem ofFloat_div_whole (hx : ofFloat x = ofInt (a * b)) (hy : ofFloat y = ofInt b) (hb : b ≠ 0)
    (h : a.natAbs < 2 ^ 53) : ofFloat (x / y) = ofInt a := by
  have hu := canonical_unpack x
  have hv := canonical_unpack y
  rw [ofFloat_eq] at hx hy
  rw [ofFloat_div]
  generalize x.toModel.unpack = u at *
  generalize y.toModel.unpack = v at *
  cases v with
  | infinity => cases hy
  | notANumber => cases hy
  | zero s' => exact absurd (eq_zero_of_ofInt hy) hb
  | finite s' m' e' hm' =>
    cases u with
    | infinity => cases hx
    | notANumber => cases hx
    | zero s =>
      rw [(Int.mul_eq_zero.mp (eq_zero_of_ofInt hx)).resolve_right hb, ofInt_zero]
      exact ofFloat_pack trivial
    | finite s m e hm =>
      obtain ⟨hab, hs, hsteps⟩ := signed_of_whole hx
      obtain ⟨-, hs', hsteps'⟩ := signed_of_whole hy
      have ha : a ≠ 0 := left_ne_zero_of_mul hab
      have hsign : (s / s').apply a.natAbs = a := by
        refine Int.eq_of_mul_eq_mul_right hb ?_
        have hproduct := apply_div_mul s s' a.natAbs b.natAbs
        rwa [hs', ← Int.natAbs_mul, hs] at hproduct
      obtain ⟨r, t, hwhole⟩ := exists_whole (Int.natAbs_pos.mpr ha) h
      rw [Int.natAbs_mul] at hsteps
      have hn : a.natAbs * b.natAbs ≠ 0 := by simp [ha, hb]
      have hn' : b.natAbs ≠ 0 := Int.natAbs_ne_zero.mpr hb
      obtain ⟨j, hle, hj, he, ht⟩ := exists_div_whole hu.least hv.least (left_ne_zero_of_mul hn) hn'
        hsteps hsteps' hwhole
      have hcore : divCore Format.binary64 m e m' e' = (r * 2 ^ j, e - e' - 53, .exact) := by
        have hfull := full_of_whole hu.least hn hsteps
        have hfull' := full_of_whole hv.least hn' hsteps'
        rw [divCore_eq ((Nat.log2_eq_iff (by omega)).mpr ⟨hfull, hu.least.lt⟩)
          ((Nat.log2_eq_iff (by omega)).mpr ⟨hfull', hv.least.lt⟩) (by omega), hj,
          Nat.mul_div_cancel _ hm', Nat.mul_mod_left]
        rfl
      have hround := ofFields_roundWithAccuracy (s / s') hwhole (Eq.refl (r * 2 ^ j)) he
      rw [apply_natAbs hsign] at hround
      rw [ofFloat_eq_ofFields]
      unfold UnpackedFloat.div
      dsimp only
      rw [hcore]
      exact hround

theorem ofFloat_toFloat {n : Nat} (h : n < 2 ^ 53) : ofFloat n.toUInt64.toFloat = ofInt n := by
  have hword : n.toUInt64.toNat = n := by
    rw [Nat.toUInt64]
    exact UInt64.toNat_ofNat_of_lt' (Nat.lt_trans h (by decide))
  have hvalue : ofFloat n.toUInt64.toFloat = ofFields (UnpackedFloat.pack Format.binary64
      (UnpackedFloat.normalize Format.binary64 (n.toUInt64.toNat : Int) 0 .positive)) := by
    rw [ofFloat_eq_ofFields]
    rfl
  rw [hvalue, hword]
  exact ofFields_normalize (by decide) (by omega) rfl

theorem ofFloat_ofNat {n : Nat} (h : n < 2 ^ 53) : ofFloat (Float.ofNat n) = ofInt n := by
  have hproduct : Float.ofNat n = n.toUInt64.toFloat * Float.exactlyRepresentablePowersOfTen[0] :=
    dif_pos ⟨h, by decide⟩
  have hone : ofFloat Float.exactlyRepresentablePowersOfTen[0] = ofInt 1 := by decide +kernel
  rw [hproduct, ofFloat_mul_whole (ofFloat_toFloat h) hone (by omega), Int.mul_one]

/-- A whole number below `2 ^ 53` is a double. -/
theorem ofFloat_ofInt {n : Int} (h : n.natAbs < 2 ^ 53) : ofFloat (Float.ofInt n) = ofInt n := by
  cases n with
  | ofNat n => exact ofFloat_ofNat h
  | negSucc n =>
    have hneg : (ofInt (n + 1 : Nat)).neg = ofInt (Int.negSucc n) :=
      congrArg finite (Int.neg_mul _ _).symm
    exact (ofFloat_neg _).trans ((congrArg neg (ofFloat_ofNat h)).trans hneg)

end Arithmetic

end Exact
end LeagueAudit
