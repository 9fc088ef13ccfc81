import LeagueAudit.Proofs.Number.Whole

/-!
Quotients. Whole numbers below `2 ^ 53` are found exactly when they are given as quotients, so whole
seconds lose nothing on their way through microseconds. Whole numbers that are beyond the largest
double by half a unit, or by more, have no double. Quotients of doubles miss the exact ones by half
of their last digit, or by half a step.
-/
namespace LeagueAudit

open Float.Model Float.Model.UnpackedFloat

namespace Exact

open Double

theorem divNearest_mul (m : Nat) {den : Nat} (h : 0 < den) : divNearest (m * den) den = m := by
  unfold divNearest
  rw [Nat.mul_div_cancel _ h, Nat.mul_mod_left]
  exact if_pos h

variable {n den : Nat}

/-- The denominator is a factor of both sides of the comparison. -/
theorem isBelow_mul (hn : 0 < n) (hden : 0 < den) (unit : Int) :
    isBelow (n * den) den unit = true ↔ (n.log2 : Int) < unit + 52 := by
  unfold isBelow
  split
  · next h =>
    have hfactor : n * den < twoTo 52 * (den * twoTo unit.toNat) ↔ n < 2 ^ (52 + unit.toNat) := by
      rw [Nat.mul_comm den, ← Nat.mul_assoc, twoTo_mul]
      exact Nat.mul_lt_mul_right hden
    rw [decide_eq_true_eq, hfactor, ← Nat.log2_lt (Nat.ne_of_gt hn)]
    omega
  · next h =>
    have hfactor : n * den * twoTo (-unit).toNat < twoTo 52 * den ↔
        n <<< (-unit).toNat < 2 ^ 52 := by
      rw [Nat.shiftLeft_eq, Nat.mul_right_comm]
      exact Nat.mul_lt_mul_right hden
    have hpos : n <<< (-unit).toNat ≠ 0 := by
      rw [Nat.shiftLeft_eq]
      exact Nat.ne_of_gt (Nat.mul_pos hn (twoTo_pos _))
    rw [decide_eq_true_eq, hfactor, ← Nat.log2_lt hpos, log2_shiftLeft hn]
    omega

/-- The last digit of a whole number that is filled up to 53 digits. -/
theorem lastUnit_mul (hn : 0 < n) (hlt : n < 2 ^ 53) (hden : 0 < den) :
    lastUnit (n * den) den = (n.log2 : Int) - 52 := by
  have hlog : n.log2 < 53 := (Nat.log2_lt (by omega)).mpr hlt
  have hpos : n * den ≠ 0 := Nat.ne_of_gt (Nat.mul_pos hn hden)
  have hlow : n.log2 + den.log2 ≤ (n * den).log2 := by
    rw [Nat.le_log2 hpos, Nat.pow_add]
    exact Nat.mul_le_mul (Nat.log2_self_le (by omega)) (Nat.log2_self_le (by omega))
  have hhigh : (n * den).log2 < n.log2 + 1 + (den.log2 + 1) := by
    rw [Nat.log2_lt hpos, Nat.pow_add]
    exact Nat.mul_lt_mul_of_lt_of_lt Nat.lt_log2_self Nat.lt_log2_self
  -- The logarithm of a product is the sum of two logarithms or one more, so the guess is the last
  -- digit or the one above it, and the comparison tells which.
  have hbelow := isBelow_mul hn hden
    (max (((n * den).log2 : Int) - den.log2 - 52) (-1074))
  unfold lastUnit
  dsimp only
  split
  · next h =>
    have hless := hbelow.mp h.1
    omega
  · next h =>
    have hmore : ¬isBelow (n * den) den (max (((n * den).log2 : Int) - den.log2 - 52) (-1074)) =
        true := fun hless => h ⟨hless, by omega⟩
    rw [hbelow] at hmore
    omega

theorem mantissaAt_mul (hlog : n.log2 ≤ 52) (hden : 0 < den) :
    mantissaAt (n * den) den ((n.log2 : Int) - 52) = n <<< (52 - n.log2) := by
  have hshift : (-((n.log2 : Int) - 52)).toNat = 52 - n.log2 := by omega
  unfold mantissaAt
  split
  · next h =>
    have hfull : 52 - n.log2 = 0 := by omega
    have hone : ((n.log2 : Int) - 52).toNat = 0 := by omega
    have hweight : den * twoTo 0 = den := Nat.mul_one den
    rw [hfull, hone, Nat.shiftLeft_zero, hweight]
    exact divNearest_mul n hden
  · rw [hshift, Nat.mul_right_comm, divNearest_mul _ hden, Nat.shiftLeft_eq]
    rfl

theorem nearestBits_mul (hn : 0 < n) (hlt : n < 2 ^ 53) (hden : 0 < den) {b : BitVec 64}
    (hb : b.toNat = nearestBits (n * den) den) :
    ofFields b = finite (n * stepsPerOne : Nat) := by
  have hlog : n.log2 < 53 := (Nat.log2_lt (by omega)).mpr hlt
  have hfilled := log2_shiftLeft hn (52 - n.log2)
  have hne : n <<< (52 - n.log2) ≠ 0 := by
    rw [Nat.shiftLeft_eq]
    exact Nat.ne_of_gt (Nat.mul_pos hn (twoTo_pos _))
  have hlow : 2 ^ 52 ≤ n <<< (52 - n.log2) := (Nat.le_log2 hne).mp (by omega)
  have hhigh : n <<< (52 - n.log2) < 2 ^ 53 := (Nat.log2_lt hne).mp (by omega)
  have hexponent : ((n.log2 : Int) - 52 + 1075).toNat = n.log2 + 1023 := by omega
  rw [nearestBits_eq den (Nat.ne_of_gt (Nat.mul_pos hn hden)), lastUnit_mul hn hlt hden] at hb
  dsimp only at hb
  rw [mantissaAt_mul (Nat.le_of_lt_succ hlog) hden, if_neg (Nat.not_lt.mpr hlow), hexponent,
    Nat.min_eq_left (by omega)] at hb
  have hsteps : n <<< (52 - n.log2) * twoTo (n.log2 + 1023 - 1) = n * stepsPerOne := by
    have hdigits : 52 - n.log2 + (n.log2 + 1023 - 1) = 1074 := by omega
    rw [Nat.shiftLeft_eq, Nat.mul_assoc]
    exact congrArg (n * ·) ((twoTo_mul _ _).trans (congrArg twoTo hdigits))
  rw [ofFields_of_fields hb (by omega) (by omega), if_neg (by omega), Nat.add_sub_cancel' hlow,
    hsteps]

/-- A whole number that is given as a quotient is found exactly. -/
theorem ofFloat_nearestFloat_mul {n : Int} (hlt : n.natAbs < 2 ^ 53) (hden : 0 < den) :
    ofFloat (nearestFloat (n < 0) (n.natAbs * den) den) = ofInt n := by
  rcases eq_or_ne n 0 with rfl | hn
  · have hzero : nearestFloat false 0 den = Float.ofBits 0 := by
      rw [nearestFloat, nearestBits, if_pos rfl]
      rfl
    have hvalue : ofFloat (Float.ofBits 0) = finite 0 := by decide +kernel
    rw [Int.natAbs_zero, Nat.zero_mul, decide_eq_false (Int.lt_irrefl 0), hzero, hvalue, ofInt_zero]
  have hbits : (UInt64.ofNat (nearestBits (n.natAbs * den) den)).toBitVec.toNat =
      nearestBits (n.natAbs * den) den := by
    have hle := nearestBits_le (n.natAbs * den) den
    exact UInt64.toNat_ofNat_of_lt (by rw [UInt64.size]; omega)
  have hmagnitude := nearestBits_mul (Int.natAbs_pos.mpr hn) hlt hden hbits
  rw [← ofFloat_ofBits] at hmagnitude
  unfold nearestFloat
  dsimp only
  by_cases hneg : n < 0
  · rw [if_pos (decide_eq_true hneg), ofFloat_neg, hmagnitude, neg]
    exact apply_natAbs (s := .negative) (by rw [Sign.apply]; omega)
  · rw [if_neg (by simpa using hneg), hmagnitude]
    exact apply_natAbs (s := .positive) (by rw [Sign.apply]; omega)

/-- What is half a unit below an even number, or more, is rounded up to it. -/
theorem le_divNearest_iff {top den : Nat} (heven : top % 2 = 0) (hden : 0 < den) (num : Nat) :
    top ≤ divNearest num den ↔ 2 * (top * den) ≤ 2 * num + den := by
  obtain ⟨hlow, hhigh⟩ := divNearest_spec num hden
  constructor
  · intro h
    have hmul := Nat.mul_le_mul_right den h
    omega
  · intro h
    by_contra hless
    have hmul : divNearest num den * den + den ≤ top * den := by
      rw [← Nat.succ_mul]
      exact Nat.mul_le_mul_right den (Nat.lt_of_not_le hless)
    -- What is left is a half, which goes to the even neighbour.
    have hsucc : divNearest num den + 1 = top := by
      refine Nat.eq_of_mul_eq_mul_right hden ?_
      rw [Nat.add_mul, Nat.one_mul]
      omega
    have hhalf : 2 * num = 2 * (divNearest num den * den) + den := by omega
    have hquotient : num / den = divNearest num den := by
      refine Nat.div_eq_of_lt_le ?_ ?_
      · omega
      · rw [Nat.succ_mul]
        omega
    have hdiv := Nat.div_add_mod' num den
    rw [hquotient] at hdiv
    have hrest : 2 * (num % den) = den := by omega
    have hvalue : divNearest num den = if num / den % 2 = 0 then num / den else num / den + 1 := by
      conv_lhs => unfold divNearest
      dsimp only
      rw [hrest, if_neg (Nat.lt_irrefl _), if_neg (Nat.lt_irrefl _)]
    rw [hquotient] at hvalue
    split at hvalue <;> omega

theorem lastUnit_one {n : Nat} (hn : 0 < n) : lastUnit n 1 = (n.log2 : Int) - 52 := by
  have hlow := Nat.log2_self_le (Nat.ne_of_gt hn)
  have hguess : max ((n.log2 : Int) - Nat.log2 1 - 52) (-1074) = (n.log2 : Int) - 52 := by
    have hone : Nat.log2 1 = 0 := rfl
    omega
  have hbelow : isBelow n 1 ((n.log2 : Int) - 52) = false := by
    unfold isBelow
    split
    · next h =>
      have hdigits : 52 + ((n.log2 : Int) - 52).toNat = n.log2 := by omega
      rw [Nat.one_mul, twoTo_mul, hdigits]
      exact decide_eq_false (Nat.not_lt.mpr hlow)
    · next h =>
      have hdigits : n.log2 + (-((n.log2 : Int) - 52)).toNat = 52 := by omega
      rw [Nat.mul_one]
      refine decide_eq_false (Nat.not_lt.mpr ?_)
      calc twoTo 52 = twoTo n.log2 * twoTo (-((n.log2 : Int) - 52)).toNat := by
            rw [twoTo_mul, hdigits]
        _ ≤ n * twoTo (-((n.log2 : Int) - 52)).toNat := Nat.mul_le_mul_right _ hlow
  unfold lastUnit
  dsimp only
  rw [hguess, hbelow]
  exact if_neg fun h => Bool.false_ne_true h.1

/-- A whole number with digits to spare has a double. -/
theorem nearestBits_one_ne_top {n : Nat} (hn : 0 < n) (hsmall : n.log2 < 52) :
    nearestBits n 1 ≠ 0x7ff0000000000000 := by
  have hexponent : ((n.log2 : Int) - 52 + 1075).toNat = n.log2 + 1023 := by omega
  have hmantissa := mantissaAt_mul (n := n) hsmall.le Nat.one_pos
  have hne : n <<< (52 - n.log2) ≠ 0 := by
    rw [Nat.shiftLeft_eq]
    exact Nat.ne_of_gt (Nat.mul_pos hn (twoTo_pos _))
  have hbound : n <<< (52 - n.log2) < 2 ^ 53 := by
    rw [← Nat.log2_lt hne, log2_shiftLeft hn]
    omega
  rw [Nat.mul_one] at hmantissa
  rw [nearestBits_eq 1 (Nat.ne_of_gt hn), lastUnit_one hn]
  dsimp only
  rw [hmantissa, hexponent]
  clear hmantissa
  generalize n <<< (52 - n.log2) = m at hbound
  split <;> omega

/-- A whole number with digits below its last one has no double if these are too many, or if the
mantissa is rounded up to one more. -/
theorem nearestBits_one_eq_top_iff {n e : Nat} (hn : 0 < n) (he : n.log2 = 52 + e) :
    nearestBits n 1 = 0x7ff0000000000000 ↔
      971 < e ∨ e = 971 ∧ 2 * (2 ^ 53 * twoTo e) ≤ 2 * n + twoTo e := by
  have hlow : twoTo n.log2 ≤ n := Nat.log2_self_le (Nat.ne_of_gt hn)
  have hhigh : n < twoTo (n.log2 + 1) := Nat.lt_log2_self
  have hfirst : twoTo n.log2 = 2 ^ 52 * twoTo e := by
    rw [he, ← twoTo_mul]
    rfl
  have hlast : twoTo (n.log2 + 1) = 2 ^ 53 * twoTo e := by
    rw [he, Nat.add_right_comm, ← twoTo_mul]
    rfl
  have hexponent : ((n.log2 : Int) - 52 + 1075).toNat = n.log2 + 1023 := by omega
  have hmantissa : mantissaAt n 1 ((n.log2 : Int) - 52) = divNearest n (twoTo e) := by
    have hunit : (n.log2 : Int) - 52 = e := by omega
    rw [hunit, mantissaAt, if_pos (Int.natCast_nonneg e), Int.toNat_natCast, Nat.one_mul]
  have hround : ∀ top, top % 2 = 0 →
      (top ≤ divNearest n (twoTo e) ↔ 2 * (top * twoTo e) ≤ 2 * n + twoTo e) :=
    fun top heven => le_divNearest_iff heven (twoTo_pos e) n
  rw [nearestBits_eq 1 (Nat.ne_of_gt hn), lastUnit_one hn, ← hround _ (by decide)]
  dsimp only
  rw [hmantissa, hexponent]
  clear hmantissa
  generalize divNearest n (twoTo e) = m at hround
  have hfull : 2 ^ 52 ≤ m := (hround _ (by decide)).mpr (by omega)
  have hcarry : ¬2 ^ 53 + 2 ≤ m := by
    rw [hround _ (by decide)]
    omega
  rw [if_neg (Nat.not_lt.mpr hfull)]
  omega

/-- Whole numbers leave the doubles half a unit below the power of two that has no double. -/
theorem nearestBits_one_eq_top {n : Nat} :
    nearestBits n 1 = 0x7ff0000000000000 ↔ twoTo 1024 ≤ n + twoTo 970 := by
  -- Powers of this size are not evaluated: only how they compare is used.
  have htop : twoTo 1024 = twoTo 54 * twoTo 970 := (twoTo_mul 54 970).symm
  have h54 : twoTo 54 = 2 ^ 54 := rfl
  have h53 : twoTo 53 = 2 ^ 53 := rfl
  have hless : ∀ e, e ≤ 1023 → twoTo e ≤ 2 ^ 53 * twoTo 970 := by
    intro e he
    rw [← h53, twoTo_mul]
    exact twoTo_le he
  have hpos : 0 < twoTo 970 := twoTo_pos 970
  rcases Nat.eq_zero_or_pos n with rfl | hn
  · refine iff_of_false (by decide) ?_
    rw [htop, h54]
    generalize twoTo 970 = half at hpos
    omega
  have hlow : twoTo n.log2 ≤ n := Nat.log2_self_le (Nat.ne_of_gt hn)
  have hhigh : n < twoTo (n.log2 + 1) := Nat.lt_log2_self
  have hfew : n.log2 < 1023 → ¬twoTo 1024 ≤ n + twoTo 970 := by
    intro hlog
    have hnext := hless (n.log2 + 1) hlog
    rw [htop, h54]
    generalize twoTo 970 = half at hpos hnext
    omega
  rcases Nat.lt_or_ge n.log2 52 with hsmall | hlarge
  · exact iff_of_false (nearestBits_one_ne_top hn hsmall) (hfew (by omega))
  · obtain ⟨e, he⟩ : ∃ e, n.log2 = 52 + e := ⟨_, (Nat.add_sub_cancel' hlarge).symm⟩
    rw [nearestBits_one_eq_top_iff hn he]
    rcases lt_trichotomy e 971 with hdown | rfl | hup
    · exact iff_of_false (by omega) (hfew (by omega))
    · have h1 : twoTo 1 = 2 := rfl
      have hunit : twoTo 971 = 2 * twoTo 970 := by rw [← h1, twoTo_mul]
      rw [htop, h54, hunit]
      generalize twoTo 970 = half at *
      omega
    · have hmore : twoTo 1024 ≤ twoTo n.log2 := twoTo_le (by omega)
      exact iff_of_true (.inl hup) (by omega)

/-- The quotient and what remains lead a number that is divided. -/
theorem leads_quotient (num : Nat) {den : Nat} (hden : 0 < den) :
    Leads (.ofMantissaAndAccuracy (num / den) (accuracyOfFraction (num % den) den)) den num := by
  have hdiv := Nat.div_add_mod' num den
  have hmod := Nat.mod_lt num hden
  unfold accuracyOfFraction
  by_cases hzero : num % den = 0
  · rw [if_pos hzero]
    refine ⟨hden, fun _ => ?_, nofun⟩
    rw [halves_mul]
    simp only [ExtendedMantissa.ofMantissaAndAccuracy, Bool.toNat_false]
    omega
  · rw [if_neg hzero]
    rcases lt_trichotomy (2 * (num % den)) den with hless | hequal | hmore
    · rw [compare_lt_iff_lt.mpr hless]
      refine ⟨hden, nofun, fun _ => ?_⟩
      rw [halves_mul]
      simp only [ExtendedMantissa.ofMantissaAndAccuracy, Bool.toNat_false]
      omega
    · rw [compare_eq_iff_eq.mpr hequal]
      refine ⟨hden, fun _ => ?_, nofun⟩
      rw [halves_mul]
      simp only [ExtendedMantissa.ofMantissaAndAccuracy, Bool.toNat_true]
      omega
    · rw [compare_gt_iff_gt.mpr hmore]
      refine ⟨hden, nofun, fun _ => ?_⟩
      rw [halves_mul]
      simp only [ExtendedMantissa.ofMantissaAndAccuracy, Bool.toNat_true]
      omega

/-- The dividend is filled up with digits until the quotient has 52 digits or more, or its last
digit counts single steps or less. -/
theorem exists_divCore {m : Nat} (m' : Nat) (e e' : Int) (hm : 0 < m) :
    ∃ (z : Int) (j : Nat), divCore Format.binary64 m e m' e' =
        (m * 2 ^ j / m', z, accuracyOfFraction (m * 2 ^ j % m') m') ∧ z + j = e - e' ∧
      min (e - e') (-1074) ≤ z ∧ (-1074 < z → 2 ^ 52 * m' ≤ m * 2 ^ j) := by
  have hbits : Format.binary64.mantissaBits = 53 := rfl
  have hleast : Format.binary64.minExponent = -1074 := by decide
  have htarget : Format.binary64.targetExponent (totalExponent m e - totalExponent m' e') =
      max ((m.log2 : Int) + e - m'.log2 - e' - 53) (-1074) := by
    rw [Format.targetExponent, totalExponent, totalExponent, hbits, hleast]
    omega
  obtain ⟨z, hz⟩ : ∃ z, z = min (e - e') (max ((m.log2 : Int) + e - m'.log2 - e' - 53) (-1074)) :=
    ⟨_, rfl⟩
  obtain ⟨j, hj⟩ : ∃ j, j = (e - e' - z).toNat := ⟨_, rfl⟩
  refine ⟨z, j, ?_, by omega, by omega, fun hmore => ?_⟩
  · unfold divCore
    dsimp only
    rw [htarget, ← hz, ← hj, Nat.shiftLeft_eq]
  · calc 2 ^ 52 * m' ≤ 2 ^ 52 * 2 ^ (m'.log2 + 1) := Nat.mul_le_mul_left _ Nat.lt_log2_self.le
      _ = 2 ^ (52 + (m'.log2 + 1)) := (Nat.pow_add 2 _ _).symm
      _ ≤ 2 ^ (m.log2 + j) := Nat.pow_le_pow_right (by decide) (by omega)
      _ = 2 ^ m.log2 * 2 ^ j := Nat.pow_add 2 _ _
      _ ≤ m * 2 ^ j := Nat.mul_le_mul_right _ (Nat.log2_self_le (Nat.ne_of_gt hm))

/-- What rounding gives is the rounded number, unless this is beyond the largest double. -/
theorem ofFields_pack_rounded {s : Sign} {u : UnpackedFloat} {r : Nat} {t : Int}
    (hrest : r ≠ 0 → ∃ m e hm, u = .finite s m e hm ∧ Least m e ∧ scaled m e = scaled r t)
    (hzero : r = 0 → u = .zero s) :
    ofFields (UnpackedFloat.pack Format.binary64 u) = finite (s.apply (scaled r t)) ∨
      ofFields (UnpackedFloat.pack Format.binary64 u) = infinite (s == .negative) := by
  by_cases hr : r = 0
  · have hnone : s.apply (scaled 0 t) = 0 := by
      rw [scaled, Nat.zero_mul]
      cases s <;> rfl
    rw [hzero hr, hr, hnone]
    exact .inl (ofFields_pack (u := .zero s) trivial)
  · obtain ⟨m, e, hm, hround, hleast, hvalue⟩ := hrest hr
    rw [hround, ofFields_pack_of_least hleast, hvalue]
    split
    · exact .inl rfl
    · exact .inr rfl

/-- A rounded quotient and the exact one are both brought to the weight of the last digit of the
dividend. -/
theorem near_of_quotient {m m' r j k : Nat} {e e' z : Int} (hz : z + j = e - e') (he : -1074 ≤ e)
    (he' : -1074 ≤ e') (hleast : -2148 ≤ z + e') (hcut : -1074 ≤ z + k)
    (hlow : 2 * (r * (2 ^ k * m')) ≤ 2 * (m * 2 ^ j) + 2 ^ k * m')
    (hhigh : 2 * (m * 2 ^ j) ≤ 2 * (r * (2 ^ k * m')) + 2 ^ k * m')
    (hfull : z + k ≠ -1074 → 2 ^ 52 ≤ r) :
    2 ^ 52 * (scaled r (z + k) * scaled m' e') ≤
        2 ^ 52 * (scaled m e * stepsPerOne) + scaled m e * stepsPerOne + 2 ^ 51 * scaled m' e' ∧
      2 ^ 52 * (scaled m e * stepsPerOne) ≤
        2 ^ 52 * (scaled r (z + k) * scaled m' e') + scaled m e * stepsPerOne +
          2 ^ 51 * scaled m' e' := by
  obtain ⟨w, hw⟩ : ∃ w : Nat, (w : Int) = z + e' + 2148 := ⟨(z + e' + 2148).toNat, by omega⟩
  have hdividend : (e + 1074).toNat + 1074 = j + w := by omega
  have hdivisor : (z + k + 1074).toNat + (e' + 1074).toNat = k + w := by omega
  have hnum : scaled m e * stepsPerOne = m * 2 ^ j * 2 ^ w := by
    rw [scaled, stepsPerOne, Nat.mul_assoc, twoTo_mul, hdividend, Nat.mul_assoc, ← Nat.pow_add]
    rfl
  have hquotient : scaled r (z + k) * scaled m' e' = r * (2 ^ k * m' * 2 ^ w) := by
    have hunit : twoTo (z + k + 1074).toNat * twoTo (e' + 1074).toNat = 2 ^ k * 2 ^ w := by
      rw [twoTo_mul, hdivisor, ← Nat.pow_add]
      rfl
    rw [scaled, scaled, Nat.mul_right_comm (2 ^ k), ← hunit]
    ring
  -- The last digit counts single steps, or it is small against all 53 of them.
  have hlast : 2 ^ k * m' * 2 ^ w = scaled m' e' ∨
      2 ^ 52 * (2 ^ k * m' * 2 ^ w) ≤ scaled r (z + k) * scaled m' e' := by
    by_cases hsteps : z + k = -1074
    · refine .inl ?_
      have hpower : (e' + 1074).toNat = k + w := by
        rw [← hdivisor, hsteps]
        exact (Nat.zero_add _).symm
      rw [scaled, hpower, ← twoTo_mul, ← Nat.mul_assoc, Nat.mul_comm m']
      rfl
    · rw [hquotient]
      exact .inr (Nat.mul_le_mul_right _ (hfull hsteps))
  have hlow' := Nat.mul_le_mul_right (2 ^ w) hlow
  have hhigh' := Nat.mul_le_mul_right (2 ^ w) hhigh
  rw [Nat.add_mul, Nat.mul_assoc 2, Nat.mul_assoc 2, Nat.mul_assoc r, ← hnum, ← hquotient]
    at hlow' hhigh'
  generalize scaled r (z + k) * scaled m' e' = product at *
  generalize 2 ^ k * m' * 2 ^ w = unit at *
  generalize scaled m e * stepsPerOne = num at *
  generalize scaled m' e' = divisor at *
  clear hnum hquotient hlow hhigh
  omega

/-- The quotient of two numbers in steps is rounded to steps: it misses the exact quotient by half
of its last digit, or by half a step. -/
theorem div_parts {m m' : Nat} {e e' : Int} (s s' : Sign) (hm : 0 < m) (hm' : 0 < m')
    (he : -1074 ≤ e) (he' : -1074 ≤ e') :
    ∃ q : Nat, (2 ^ 52 * (q * scaled m' e') ≤
          2 ^ 52 * (scaled m e * stepsPerOne) + scaled m e * stepsPerOne + 2 ^ 51 * scaled m' e' ∧
        2 ^ 52 * (scaled m e * stepsPerOne) ≤
          2 ^ 52 * (q * scaled m' e') + scaled m e * stepsPerOne + 2 ^ 51 * scaled m' e') ∧
      (ofFields (UnpackedFloat.pack Format.binary64 (UnpackedFloat.div Format.binary64
          (.finite s m e hm) (.finite s' m' e' hm'))) = finite ((s / s').apply q) ∨
        ofFields (UnpackedFloat.pack Format.binary64 (UnpackedFloat.div Format.binary64
          (.finite s m e hm) (.finite s' m' e' hm'))) = infinite (s / s' == .negative)) := by
  obtain ⟨z, j, hcore, hz, hmin, hfull⟩ := exists_divCore m' e e' hm
  have hlog : -1074 < z → 52 ≤ (m * 2 ^ j / m').log2 := by
    intro hmore
    have hlarge := (Nat.le_div_iff_mul_le hm').mpr (hfull hmore)
    exact (Nat.le_log2 (by omega)).mpr hlarge
  obtain ⟨k, hk⟩ := Int.le.dest
    (show z ≤ max (((m * 2 ^ j / m').log2 : Int) + z - 52) (-1074) by omega)
  have hleast : -2148 ≤ z + e' := by omega
  have hcut : -1074 ≤ z + k := by omega
  obtain ⟨r, ⟨hlow, hhigh⟩, -, hrfull, hrest, hzero⟩ :=
    roundWithAccuracy_of_leads (s / s') (leads_quotient (m * 2 ^ j) hm') hk
  have hdiv : UnpackedFloat.div Format.binary64 (.finite s m e hm) (.finite s' m' e' hm') =
      roundWithAccuracy Format.binary64 (s / s') (m * 2 ^ j / m') z
        (accuracyOfFraction (m * 2 ^ j % m') m') := by
    unfold UnpackedFloat.div
    dsimp only
    rw [hcore]
  rw [hdiv]
  exact ⟨scaled r (z + k), near_of_quotient hz he he' hleast hcut hlow hhigh hrfull,
    ofFields_pack_rounded hrest hzero⟩

theorem abs_sub_le_of_near {product num unit : Nat}
    (hlow : 2 ^ 52 * product ≤ 2 ^ 52 * num + num + 2 ^ 51 * unit)
    (hhigh : 2 ^ 52 * num ≤ 2 ^ 52 * product + num + 2 ^ 51 * unit) :
    2 ^ 52 * |(product : Int) - num| ≤ num + 2 ^ 51 * unit := by
  rcases abs_choice ((product : Int) - num) with habs | habs
  · rw [habs]
    omega
  · rw [habs]
    omega

theorem abs_apply_sub (s : Sign) (a b c d : Nat) :
    |s.apply a * (b : Int) - s.apply c * d| = |(a * b : Int) - c * d| := by
  cases s with
  | positive => rfl
  | negative =>
    change |-(a : Int) * b - -(c : Int) * d| = _
    rw [neg_mul, neg_mul, neg_sub_neg, abs_sub_comm]

theorem abs_apply (s : Sign) (n : Nat) : |s.apply n| = n := by
  cases s with
  | positive => exact Nat.abs_cast n
  | negative => exact (abs_neg _).trans (Nat.abs_cast n)

/-- A quotient is near the exact one, or misses it by half a step. -/
theorem abs_div_sub_le {x y : Float} (hx : IsFinite x) (hy : IsFinite y) (hpos : 0 < stepsOf y)
    (h : IsFinite (x / y)) :
    2 ^ 52 * |stepsOf (x / y) * stepsOf y - stepsOf x * stepsPerOne| ≤
      |stepsOf x| * stepsPerOne + 2 ^ 51 * stepsOf y := by
  have hu := canonical_unpack x
  have hv := canonical_unpack y
  have hvalue : ofFields (UnpackedFloat.pack Format.binary64 (UnpackedFloat.div Format.binary64
      x.toModel.unpack y.toModel.unpack)) = finite (stepsOf (x / y)) :=
    (ofFloat_eq_ofFields (x / y)).symm.trans h
  rw [IsFinite, ofFloat_eq] at hx hy
  generalize stepsOf x = a at *
  generalize stepsOf y = b at *
  generalize stepsOf (x / y) = c at *
  generalize x.toModel.unpack = u at *
  generalize y.toModel.unpack = v at *
  cases v with
  | infinity => cases hy
  | notANumber => cases hy
  | zero => cases hy; exact absurd hpos (Int.lt_irrefl 0)
  | finite s' m' e' hm' =>
    cases hy
    cases s' with
    | negative =>
      exact absurd hpos (Int.not_lt.mpr (Int.neg_nonpos_of_nonneg (Int.natCast_nonneg _)))
    | positive =>
      change 2 ^ 52 * |c * (scaled m' e' : Int) - a * stepsPerOne| ≤
        |a| * stepsPerOne + 2 ^ 51 * (scaled m' e' : Int)
      cases u with
      | infinity => cases hx
      | notANumber => cases hx
      | zero s =>
        cases hx
        have hdiv : UnpackedFloat.div Format.binary64 (.zero s) (.finite .positive m' e' hm') =
            .zero (s / .positive) := rfl
        rw [hdiv, ofFields_pack (u := .zero (s / .positive)) trivial] at hvalue
        cases hvalue
        rw [zero_mul, zero_mul, sub_zero, abs_zero, mul_zero, zero_mul, zero_add]
        exact mul_nonneg (by decide) (Int.natCast_nonneg _)
      | finite s m e hm =>
        cases hx
        obtain ⟨q, ⟨hlow, hhigh⟩, hfinite | hinfinite⟩ :=
          div_parts s .positive hm hm' hu.least.low hv.least.low
        · rw [hfinite] at hvalue
          have hsign : s / .positive = s := by cases s <;> rfl
          rw [hsign] at hvalue
          cases hvalue
          rw [abs_apply_sub, abs_apply]
          exact_mod_cast abs_sub_le_of_near hlow hhigh
        · rw [hinfinite] at hvalue
          cases hvalue

/-- Bits below those of the infinity stand for a number. -/
theorem ofFloat_nearestBits {num den : Nat} (h : nearestBits num den ≠ 0x7ff0000000000000) :
    ∃ steps, ofFloat (Float.ofBits (UInt64.ofNat (nearestBits num den))) = finite steps := by
  have hle := nearestBits_le num den
  have hbits : (UInt64.ofNat (nearestBits num den)).toNat = nearestBits num den :=
    UInt64.toNat_ofNat_of_lt (by rw [UInt64.size]; omega)
  rw [ofFloat_ofBits]
  exact ⟨_, ofFields_of_fields (e := nearestBits num den / 2 ^ 52)
    (f := nearestBits num den % 2 ^ 52) (hbits.trans (Nat.div_add_mod' _ _).symm)
    (Nat.mod_lt _ (by decide)) (by omega)⟩

theorem isInf_nearestFloat {negative : Bool} {num den : Nat} :
    (nearestFloat negative num den).isInf = true ↔ nearestBits num den = 0x7ff0000000000000 := by
  have hmagnitude : (∃ sign, ofFloat (Float.ofBits (UInt64.ofNat (nearestBits num den))) =
      infinite sign) ↔ nearestBits num den = 0x7ff0000000000000 := by
    constructor
    · rintro ⟨sign, hvalue⟩
      by_contra hne
      obtain ⟨steps, hsteps⟩ := ofFloat_nearestBits hne
      rw [hsteps] at hvalue
      cases hvalue
    · intro htop
      rw [ofFloat_ofBits, htop]
      exact ⟨false, by decide⟩
  rw [isInf_iff, ← hmagnitude, nearestFloat]
  cases negative with
  | false => rfl
  | true =>
    rw [if_pos rfl, ofFloat_neg]
    generalize ofFloat (Float.ofBits (UInt64.ofNat (nearestBits num den))) = value
    cases value <;> simp [neg]

theorem isFinite_nearestFloat {negative : Bool} {num den : Nat}
    (h : (nearestFloat negative num den).isInf = false) :
    IsFinite (nearestFloat negative num den) := by
  have hne : nearestBits num den ≠ 0x7ff0000000000000 := fun htop => by
    rw [isInf_nearestFloat.mpr htop] at h
    cases h
  obtain ⟨steps, hsteps⟩ := ofFloat_nearestBits hne
  cases negative with
  | false => exact isFinite_of_eq hsteps
  | true =>
    rw [nearestFloat, if_pos rfl]
    exact isFinite_of_eq ((ofFloat_neg _).trans (congrArg neg hsteps))

end Exact

/-- A whole number is beyond the doubles from half a unit below the power of two that has none. -/
theorem intFloat?_eq_none_iff {n : Int} :
    intFloat? n = none ↔ twoTo 1024 ≤ n.natAbs + twoTo 970 := by
  have hinfinite := @Exact.isInf_nearestFloat (decide (n < 0)) n.natAbs 1
  rw [← Exact.nearestBits_one_eq_top, ← hinfinite, intFloat?, quotientFloat?]
  split
  · next h => exact iff_of_true rfl h
  · next h => exact iff_of_false (Option.some_ne_none _) h

theorem isFinite_of_intFloat? {n : Int} {x : Float} (h : intFloat? n = some x) :
    Exact.IsFinite x := by
  unfold intFloat? quotientFloat? at h
  dsimp only at h
  split at h
  · cases h
  · next hin =>
    rw [← Option.some.inj h]
    exact Exact.isFinite_nearestFloat (Bool.eq_false_iff.mpr hin)

end LeagueAudit
