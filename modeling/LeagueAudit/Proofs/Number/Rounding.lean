import LeagueAudit.Proofs.Number.Packing
import Mathlib.Tactic.Ring

/-!
Rounding. A mantissa that is cut keeps a round bit and a sticky bit, which tell where the number
lies between two mantissas; so a difference of doubles misses the exact one by half of its last
digit at most.
-/
namespace LeagueAudit

open Float.Model Float.Model.UnpackedFloat

namespace Double

/-- The mantissa and the round bit, in halves of the last digit. -/
def halves (em : ExtendedMantissa) : Nat := 2 * em.mantissa + em.roundBit.toNat

/-- What a mantissa and its two bits say of a number that they lead, the last digit of the mantissa
having this weight: the sticky bit tells whether something follows. -/
structure Leads (em : ExtendedMantissa) (weight n : Nat) : Prop where
  pos : 0 < weight
  whole : em.stickyBit = false → 2 * n = halves em * weight
  more : em.stickyBit = true →
    halves em * weight < 2 * n ∧ 2 * n < halves em * weight + weight

variable {em : ExtendedMantissa} {weight n : Nat}

theorem halves_mul (em : ExtendedMantissa) (weight : Nat) :
    halves em * weight = 2 * (em.mantissa * weight) + em.roundBit.toNat * weight := by
  rw [halves, Nat.add_mul, Nat.mul_assoc]

theorem halves_shiftRightOne (em : ExtendedMantissa) : halves em.shiftRightOne = em.mantissa := by
  have hbit : (em.mantissa % 2 != 0).toNat = em.mantissa % 2 := by
    rcases Nat.mod_two_eq_zero_or_one em.mantissa with h | h <;> rw [h] <;> rfl
  rw [halves, ExtendedMantissa.shiftRightOne, hbit]
  exact Nat.div_add_mod em.mantissa 2

theorem leads_exact (m : Nat) : Leads (.ofMantissaAndAccuracy m .exact) 1 m where
  pos := by decide
  whole _ := (Nat.mul_one _).symm
  more h := nomatch h

theorem Leads.shiftRightOne (h : Leads em weight n) : Leads em.shiftRightOne (2 * weight) n := by
  obtain ⟨hpos, hwhole, hmore⟩ := h
  have hsticky : em.shiftRightOne.stickyBit = (em.roundBit || em.stickyBit) := rfl
  rw [halves_mul] at hwhole hmore
  refine ⟨by omega, ?_, ?_⟩ <;> rw [hsticky, halves_shiftRightOne, Nat.mul_left_comm]
  · intro hnone
    obtain ⟨hround, hsticky⟩ := Bool.or_eq_false_iff.mp hnone
    have hn := hwhole hsticky
    rw [hround, Bool.toNat_false] at hn
    omega
  · intro hsome
    cases hround : em.roundBit with
    | false =>
      rw [hround, Bool.false_or] at hsome
      have hn := hmore hsome
      rw [hround, Bool.toNat_false] at hn
      omega
    | true =>
      rw [hround, Bool.toNat_true] at hwhole hmore
      cases hs : em.stickyBit with
      | false =>
        have hn := hwhole hs
        omega
      | true =>
        have hn := hmore hs
        omega

theorem Leads.shiftRight (h : Leads em weight n) (k : Nat) :
    Leads (em >>> k) (2 ^ k * weight) n := by
  induction k with
  | zero => rwa [Nat.pow_zero, Nat.one_mul]
  | succ k ih =>
    rw [Nat.pow_succ', Nat.mul_assoc]
    exact ih.shiftRightOne

/-- The rounded mantissa misses the number by half of its last digit at most. -/
theorem Leads.rounded (h : Leads em weight n) :
    2 * (em.roundedMantissa * weight) ≤ 2 * n + weight ∧
      2 * n ≤ 2 * (em.roundedMantissa * weight) + weight := by
  obtain ⟨-, hwhole, hmore⟩ := h
  obtain ⟨m, round, sticky⟩ := em
  rw [halves_mul] at hwhole hmore
  unfold ExtendedMantissa.roundedMantissa ExtendedMantissa.accuracy
  cases sticky with
  | false =>
    have hn := hwhole rfl
    cases round with
    | false =>
      dsimp [Accuracy.roundToNearestEven] at hn ⊢
      omega
    | true =>
      dsimp [Accuracy.roundToNearestEven] at hn ⊢
      rcases Nat.mod_two_eq_zero_or_one m with hm | hm <;> rw [hm, Nat.add_mul] <;> omega
  | true =>
    have hn := hmore rfl
    cases round with
    | false =>
      dsimp [Accuracy.roundToNearestEven] at hn ⊢
      omega
    | true =>
      dsimp [Accuracy.roundToNearestEven] at hn ⊢
      rw [Nat.add_mul]
      omega

/-- The digits before the cut. -/
theorem Leads.mantissa_mul_le (h : Leads em weight n) :
    em.mantissa * weight ≤ n ∧ n < (em.mantissa + 1) * weight := by
  obtain ⟨hpos, hwhole, hmore⟩ := h
  have hnext : (em.mantissa + 1) * weight = em.mantissa * weight + weight := Nat.succ_mul _ _
  rw [halves_mul] at hwhole hmore
  rw [hnext]
  cases hsticky : em.stickyBit <;> cases hround : em.roundBit <;>
    simp only [hsticky, hround, Bool.toNat_false, Bool.toNat_true, Nat.zero_mul, Nat.one_mul,
      forall_const] at hwhole hmore <;> omega

end Double

namespace Exact

open Double

theorem log2_shiftLeft {m : Nat} (hm : 0 < m) (k : Nat) : (m <<< k).log2 = m.log2 + k := by
  rw [Nat.shiftLeft_eq]
  induction k with
  | zero => rw [Nat.pow_zero, Nat.mul_one, Nat.add_zero]
  | succ k ih =>
    have hpos : 0 < m * 2 ^ k := Nat.mul_pos hm (Nat.pow_pos (by decide))
    rw [Nat.pow_succ', Nat.mul_left_comm, Nat.log2_two_mul (by omega), ih, Nat.add_assoc]

/-- The exponent for a mantissa of 53 digits, or the least one. -/
theorem targetExponent_eq (m : Nat) (e : Int) :
    Format.binary64.targetExponent (totalExponent m e) = max (m.log2 + e - 52) (-1074) := by
  have hbits : Format.binary64.mantissaBits = 53 := rfl
  have hleast : Format.binary64.minExponent = -1074 := by decide
  rw [Format.targetExponent, totalExponent, hbits, hleast]
  congr 1
  omega

/-- A number is near another when it misses it by half of the last of 53 digits at most. -/
def Near (n near : Nat) : Prop := 2 ^ 53 * near ≤ 2 ^ 53 * n + n ∧ 2 ^ 53 * n ≤ 2 ^ 53 * near + n

theorem Near.mul {n near : Nat} (h : Near n near) (w : Nat) : Near (n * w) (near * w) := by
  unfold Near
  rw [← Nat.mul_assoc, ← Nat.mul_assoc, ← Nat.add_mul, ← Nat.add_mul]
  exact ⟨Nat.mul_le_mul_right w h.1, Nat.mul_le_mul_right w h.2⟩

theorem near_of_half {n near w : Nat} (hlow : 2 * near ≤ 2 * n + w) (hhigh : 2 * n ≤ 2 * near + w)
    (hw : 1 < w → 2 ^ 52 * w ≤ n) : Near n near := by
  unfold Near
  by_cases h : 1 < w
  · have := hw h
    omega
  · omega

/-- What is led by a mantissa of 53 digits keeps them when the last one is rounded, or gets one
more. -/
theorem rounded_mem {m k n weight r : Nat} (hweight : 0 < weight)
    (hdigits : m * weight ≤ n ∧ n < (m + 1) * weight) (hupper : m + 1 ≤ 2 ^ 53 * 2 ^ k)
    (hlow : 2 * (r * (2 ^ k * weight)) ≤ 2 * n + 2 ^ k * weight)
    (hhigh : 2 * n ≤ 2 * (r * (2 ^ k * weight)) + 2 ^ k * weight) :
    r ≤ 2 ^ 53 ∧ (2 ^ 52 * 2 ^ k ≤ m → 2 ^ 52 ≤ r) := by
  have hunit : 0 < 2 ^ k * weight := Nat.mul_pos (Nat.pow_pos (by decide)) hweight
  constructor
  · have hless : n < 2 ^ 53 * (2 ^ k * weight) := by
      refine Nat.lt_of_lt_of_le hdigits.2 ?_
      rw [← Nat.mul_assoc]
      exact Nat.mul_le_mul_right weight hupper
    refine Nat.le_of_lt_add_one (Nat.lt_of_mul_lt_mul_right (a := 2 ^ k * weight) ?_)
    rw [Nat.succ_mul (2 ^ 53)]
    omega
  · intro hlower
    have hmore : 2 ^ 52 * (2 ^ k * weight) ≤ n := by
      refine Nat.le_trans ?_ hdigits.1
      rw [← Nat.mul_assoc]
      exact Nat.mul_le_mul_right weight hlower
    refine Nat.le_of_lt_add_one (Nat.lt_of_mul_lt_mul_right (a := 2 ^ k * weight) ?_)
    rw [Nat.succ_mul r]
    omega

/-- A number cut to its leading digits, the last one being rounded. -/
theorem near_of_cut {n r k : Nat} (hlow : 2 * (r * 2 ^ k) ≤ 2 * n + 2 ^ k)
    (hhigh : 2 * n ≤ 2 * (r * 2 ^ k) + 2 ^ k) (hupper : n < 2 ^ 53 * 2 ^ k)
    (hlower : k ≠ 0 → 2 ^ 52 * 2 ^ k ≤ n) :
    Near n (r * 2 ^ k) ∧ r ≤ 2 ^ 53 ∧ (2 ^ 52 * 2 ^ k ≤ n → 2 ^ 52 ≤ r) := by
  have hdigits : n * 1 ≤ n ∧ n < (n + 1) * 1 := by omega
  refine ⟨near_of_half hlow hhigh fun hone => hlower fun hzero => ?_,
    rounded_mem Nat.one_pos hdigits hupper (by rwa [Nat.mul_one]) (by rwa [Nat.mul_one])⟩
  rw [hzero] at hone
  omega

/-- A mantissa that rounding has filled with one digit too many gives up the last one, which is
zero; others stay as they are. -/
theorem shiftToTargetExponent_settled {r : Nat} {t : Int} (hle : r ≤ 2 ^ 53) (hlow : -1074 ≤ t)
    (hfull : t ≠ -1074 → 2 ^ 52 ≤ r) :
    let p := shiftToTargetExponent Format.binary64 r t .exact
    Least p.1.mantissa p.2 ∧ scaled p.1.mantissa p.2 = scaled r t := by
  unfold shiftToTargetExponent
  rw [targetExponent_eq]
  unfold shiftToExponent
  dsimp only
  rcases Nat.lt_or_eq_of_le hle with hlt | rfl
  · have hlog : r.log2 < 53 := by
      by_cases hr : r = 0
      · rw [hr]
        decide
      · exact (Nat.log2_lt hr).mpr hlt
    have hshift : (max ((r.log2 : Int) + t - 52) (-1074) - t).toNat = 0 := by omega
    rw [hshift, Int.natCast_zero, Int.add_zero]
    exact ⟨⟨hlt, hlow, hfull⟩, rfl⟩
  · have hshift : (max (((2 ^ 53 : Nat).log2 : Int) + t - 52) (-1074) - t).toNat = 1 := by
      rw [Nat.log2_two_pow]
      omega
    have hpower : (t + 1 + 1074).toNat = (t + 1074).toNat + 1 := by omega
    rw [hshift]
    refine ⟨⟨by decide, by omega, fun _ => by decide⟩, ?_⟩
    change 2 ^ 52 * 2 ^ (t + 1 + 1074).toNat = 2 ^ 53 * 2 ^ (t + 1074).toNat
    rw [hpower]
    ring

/-- A mantissa with this much of it cut off has at most 53 digits, and 53 of them unless the exponent
is least. -/
theorem digits_of_cut {m k : Nat} {e : Int}
    (hcut : e + k = max ((m.log2 : Int) + e - 52) (-1074)) :
    m + 1 ≤ 2 ^ 53 * 2 ^ k ∧ (e + k ≠ -1074 → 2 ^ 52 * 2 ^ k ≤ m) := by
  rw [← Nat.pow_add, ← Nat.pow_add]
  constructor
  · rcases Nat.eq_zero_or_pos m with rfl | hm
    · exact Nat.pow_pos (by decide)
    · exact (Nat.log2_lt (by omega)).mp (by omega)
  · intro hne
    have hlog : 52 + k ≤ m.log2 := by omega
    have hm : m ≠ 0 := by
      rintro rfl
      rw [Nat.log2_zero] at hlog
      omega
    exact (Nat.le_log2 hm).mp hlog

theorem scaled_eq_zero_iff {m : Nat} {e : Int} : scaled m e = 0 ↔ m = 0 := by
  constructor
  · intro h
    by_contra hm
    have hpos := scaled_pos (Nat.pos_of_ne_zero hm) e
    omega
  · rintro rfl
    rw [scaled, Nat.zero_mul]

/-- Rounding a number that a mantissa leads, with this much of it cut off: the rounded mantissa has
53 digits, one more at most or fewer if the exponent is least, and it stays as it is. -/
theorem roundWithAccuracy_of_leads (s : Sign) {weight n m k : Nat} {e : Int} {accuracy : Accuracy}
    (h : Leads (.ofMantissaAndAccuracy m accuracy) weight n)
    (hcut : e + k = max ((m.log2 : Int) + e - 52) (-1074)) :
    ∃ r, (2 * (r * (2 ^ k * weight)) ≤ 2 * n + 2 ^ k * weight ∧
        2 * n ≤ 2 * (r * (2 ^ k * weight)) + 2 ^ k * weight) ∧
      r ≤ 2 ^ 53 ∧ (e + k ≠ -1074 → 2 ^ 52 ≤ r) ∧
      (r ≠ 0 → ∃ m' e' hm', roundWithAccuracy Format.binary64 s m e accuracy = .finite s m' e' hm' ∧
        Least m' e' ∧ scaled m' e' = scaled r (e + k)) ∧
      (r = 0 → roundWithAccuracy Format.binary64 s m e accuracy = .zero s) := by
  have hmantissa : (ExtendedMantissa.ofMantissaAndAccuracy m accuracy).mantissa = m := by
    unfold ExtendedMantissa.ofMantissaAndAccuracy
    split <;> rfl
  have hdigits := h.mantissa_mul_le
  rw [hmantissa] at hdigits
  have hfirst : shiftToTargetExponent Format.binary64 m e accuracy =
      (ExtendedMantissa.ofMantissaAndAccuracy m accuracy >>> k, e + k) := by
    have hshift : (e + k - e).toNat = k := by omega
    rw [shiftToTargetExponent, targetExponent_eq, ← hcut, shiftToExponent, hshift]
  obtain ⟨r, hr⟩ : ∃ r, r = ExtendedMantissa.roundedMantissa
    (ExtendedMantissa.ofMantissaAndAccuracy m accuracy >>> k) := ⟨_, rfl⟩
  have hrounded := (h.shiftRight k).rounded
  rw [← hr] at hrounded
  obtain ⟨hupper, hlower⟩ := digits_of_cut hcut
  obtain ⟨hle, hkept⟩ := rounded_mem h.pos hdigits hupper hrounded.1 hrounded.2
  have hround : roundWithAccuracy Format.binary64 s m e accuracy =
      let p := shiftToTargetExponent Format.binary64 r (e + k) .exact
      if h : p.1.mantissa = 0 then .zero s else .finite s p.1.mantissa p.2 (by omega) := by
    unfold roundWithAccuracy
    rw [hfirst]
    dsimp only
    rw [← hr]
  have hfull : e + k ≠ -1074 → 2 ^ 52 ≤ r := fun hne => hkept (hlower hne)
  obtain ⟨hleast, hvalue⟩ := shiftToTargetExponent_settled hle (by omega) hfull
  have hsame : (shiftToTargetExponent Format.binary64 r (e + k) .exact).1.mantissa = 0 ↔ r = 0 := by
    rw [← scaled_eq_zero_iff, hvalue, scaled_eq_zero_iff]
  refine ⟨r, hrounded, hle, hfull, fun hne => ?_, fun hzero => ?_⟩
  · rw [hround, dif_neg (mt hsame.mp hne)]
    exact ⟨_, _, Nat.pos_of_ne_zero (mt hsame.mp hne), rfl, hleast, hvalue⟩
  · rw [hround, dif_pos (hsame.mpr hzero)]

/-- Rounding at an exponent that is not too large gives the parts of a number near the given
one. -/
theorem roundWithAccuracy_eq (s : Sign) {m : Nat} {e : Int} (hm : 0 < m) (he : -1074 ≤ e)
    (hle : e ≤ max ((m.log2 : Int) + e - 52) (-1074)) :
    ∃ m' e' hm', roundWithAccuracy Format.binary64 s m e .exact = .finite s m' e' hm' ∧
      Least m' e' ∧ Near (scaled m e) (scaled m' e') := by
  obtain ⟨k, hk⟩ := Int.le.dest hle
  obtain ⟨r, ⟨hlow, hhigh⟩, hrle, hfull, hrest, -⟩ :=
    roundWithAccuracy_of_leads s (leads_exact m) hk
  rw [Nat.mul_one] at hlow hhigh
  have hlower : k ≠ 0 → 2 ^ 52 * 2 ^ k ≤ m := by
    intro hne
    rw [← Nat.pow_add]
    exact (Nat.le_log2 (by omega)).mp (by omega)
  have hnear : Near m (r * 2 ^ k) := by
    refine near_of_half hlow hhigh fun hone => hlower fun hzero => ?_
    rw [hzero] at hone
    omega
  have hpower : (e + k + 1074).toNat = k + (e + 1074).toNat := by omega
  have hscaled := hnear.mul (2 ^ (e + 1074).toNat)
  rw [Nat.mul_assoc, ← Nat.pow_add, ← hpower] at hscaled
  have hne : r ≠ 0 := by
    rintro rfl
    unfold Near at hnear
    omega
  obtain ⟨m', e', hm', hround, hleast, hvalue⟩ := hrest hne
  refine ⟨m', e', hm', hround, hleast, ?_⟩
  rw [hvalue]
  exact hscaled

theorem scaled_shiftLeft (m : Nat) {e e' : Int} (hle : e' ≤ e) (he : -1074 ≤ e') :
    scaled (m <<< (e - e').toNat) e' = scaled m e := by
  have hpower : (e + 1074).toNat = (e - e').toNat + (e' + 1074).toNat := by omega
  rw [scaled, scaled, Nat.shiftLeft_eq, Nat.mul_assoc, hpower]
  congr 1
  exact (Nat.pow_add 2 _ _).symm

/-- Rounding gives the parts of a number near the given one. -/
theorem round_eq (s : Sign) {m : Nat} {e : Int} (hm : 0 < m) (he : -1074 ≤ e) :
    ∃ m' e' hm', UnpackedFloat.round Format.binary64 s m e = .finite s m' e' hm' ∧ Least m' e' ∧
      Near (scaled m e) (scaled m' e') := by
  obtain ⟨up, hup⟩ :
    ∃ up, up = (e - max ((m.log2 : Int) + e - 52) (-1074)).toNat := ⟨_, rfl⟩
  have hlog := log2_shiftLeft hm up
  have hpos : 0 < m <<< up := Nat.shiftLeft_eq m up ▸ Nat.mul_pos hm (Nat.pow_pos (by decide))
  have hback : (e - (e - up)).toNat = up := by omega
  have hsame := @scaled_shiftLeft m e (e - up) (by omega) (by omega)
  rw [hback] at hsame
  unfold UnpackedFloat.round decreaseExponent
  rw [targetExponent_eq]
  dsimp only
  rw [← hup, ← hsame]
  exact roundWithAccuracy_eq s hpos (by omega) (by omega)

/-- What a number may be rounded to: a number near it, or an infinity. -/
inductive RoundsTo (n : Int) : Exact → Prop where
  | near {d : Int} (h : 2 ^ 53 * |d - n| ≤ |n|) : RoundsTo n (finite d)
  | beyond (negative : Bool) : RoundsTo n (infinite negative)

theorem RoundsTo.neg {n : Int} {value : Exact} (h : RoundsTo n value) :
    RoundsTo (-n) value.neg := by
  cases h with
  | near h =>
    refine .near ?_
    rwa [neg_sub_neg, abs_sub_comm, abs_neg]
  | beyond negative => exact .beyond _

theorem Near.abs_sub_le {n d : Nat} (h : Near n d) : 2 ^ 53 * |(d : Int) - n| ≤ n := by
  obtain ⟨hlow, hhigh⟩ := h
  rcases abs_cases ((d : Int) - n) with ⟨habs, -⟩ | ⟨habs, -⟩ <;> rw [habs] <;> omega

theorem Near.apply {n d : Nat} (h : Near n d) (s : Sign) :
    2 ^ 53 * |s.apply d - s.apply n| ≤ |s.apply n| := by
  have hle := h.abs_sub_le
  cases s with
  | negative =>
    simp only [Sign.apply]
    rw [neg_sub_neg, abs_sub_comm, abs_neg, Int.abs_natCast]
    exact hle
  | positive =>
    simp only [Sign.apply]
    rw [Int.abs_natCast]
    exact hle

theorem roundsTo_round (s : Sign) {m : Nat} {e : Int} (hm : 0 < m) (he : -1074 ≤ e) :
    RoundsTo (s.apply (scaled m e)) (ofFields (UnpackedFloat.pack Format.binary64
      (UnpackedFloat.round Format.binary64 s m e))) := by
  obtain ⟨m', e', hm', hround, hleast, hnear⟩ := round_eq s hm he
  rw [hround, ofFields_pack_of_least hleast]
  split
  · exact .near (hnear.apply s)
  · exact .beyond _

theorem roundsTo_normalize (m : Int) {e : Int} (he : -1074 ≤ e) :
    RoundsTo (m * twoTo (e + 1074).toNat) (ofFields (UnpackedFloat.pack Format.binary64
      (UnpackedFloat.normalize Format.binary64 m e .positive))) := by
  unfold UnpackedFloat.normalize
  rcases lt_trichotomy m 0 with hm | rfl | hm
  · have hvalue : m * twoTo (e + 1074).toNat =
        Sign.negative.apply (scaled (-m).toNat e) := by
      simp only [Sign.apply, scaled]
      push_cast
      rw [Int.toNat_of_nonneg (by omega)]
      ring
    rw [compare_lt_iff_lt.mpr hm, hvalue]
    exact roundsTo_round .negative (by omega) he
  · rw [compare_eq_iff_eq.mpr rfl, Int.zero_mul]
    exact (ofFields_pack (u := .zero .positive) trivial) ▸ .near (by decide)
  · have hvalue : m * twoTo (e + 1074).toNat =
        Sign.positive.apply (scaled m.toNat e) := by
      simp only [Sign.apply, scaled]
      push_cast
      rw [Int.toNat_of_nonneg (by omega)]
    rw [compare_gt_iff_gt.mpr hm, hvalue]
    exact roundsTo_round .positive (by omega) he

theorem apply_shiftLeft (s : Sign) (m : Nat) {e e' : Int} (hle : e' ≤ e) (he : -1074 ≤ e') :
    s.apply (m <<< (e - e').toNat : Nat) * twoTo (e' + 1074).toNat = s.apply (scaled m e) := by
  rw [← scaled_shiftLeft m hle he, scaled, Nat.cast_mul]
  cases s with
  | negative => exact Int.neg_mul _ _
  | positive => rfl

theorem roundsTo_self (n : Int) : RoundsTo n (finite n) :=
  .near (by rw [sub_self, abs_zero, mul_zero]; exact abs_nonneg n)

/-- What adding up so many steps gives: their number, or what it is rounded to. -/
inductive Normalizes (n : Int) : Exact → Prop where
  | exact : Normalizes n (finite n)
  | rounded {m e : Int} (he : -1074 ≤ e) (hvalue : m * twoTo (e + 1074).toNat = n) :
    Normalizes n (ofFields (UnpackedFloat.pack Format.binary64
      (UnpackedFloat.normalize Format.binary64 m e .positive)))

theorem Normalizes.roundsTo {n : Int} {value : Exact} (h : Normalizes n value) :
    RoundsTo n value := by
  cases h with
  | exact => exact roundsTo_self n
  | rounded he hvalue => exact hvalue ▸ roundsTo_normalize _ he

theorem normalizes_pack {u : UnpackedFloat} {n : Int} (h : Canonical u)
    (hvalue : ofUnpacked u = finite n) :
    Normalizes n (ofFloat (.ofModel (Float.Model.pack u))) := by
  rw [ofFloat_pack h, hvalue]
  exact .exact

theorem ofFloat_add (x y : Float) :
    ofFloat (x + y) = ofFloat (.ofModel (Float.Model.pack
      (UnpackedFloat.add Format.binary64 x.toModel.unpack y.toModel.unpack))) := rfl

theorem normalizes_add {x y : Float} {a b : Int} (hx : ofFloat x = finite a)
    (hy : ofFloat y = finite b) : Normalizes (a + b) (ofFloat (x + y)) := by
  have hu := canonical_unpack x
  have hv := canonical_unpack y
  rw [ofFloat_eq] at hx hy
  rw [ofFloat_add]
  generalize x.toModel.unpack = u at *
  generalize y.toModel.unpack = v at *
  cases u with
  | infinity => cases hx
  | notANumber => cases hx
  | zero s =>
    cases hx
    rw [Int.zero_add]
    cases v with
    | infinity => cases hy
    | notANumber => cases hy
    | zero s' =>
      cases hy
      cases s <;> cases s' <;> exact normalizes_pack trivial rfl
    | finite s' m' e' hm' => exact normalizes_pack hv hy
  | finite s m e hm =>
    cases v with
    | infinity => cases hy
    | notANumber => cases hy
    | zero s' =>
      cases hy
      rw [Int.add_zero]
      exact normalizes_pack hu hx
    | finite s' m' e' hm' =>
      cases hx
      cases hy
      have hlow := hu.least.low
      have hlow' := hv.least.low
      have hleast : -1074 ≤ min e e' := by omega
      rw [ofFloat_eq_ofFields]
      refine .rounded hleast ?_
      rw [add_mul, apply_shiftLeft s m (by omega) hleast,
        apply_shiftLeft s' m' (by omega) hleast]

theorem ofFloat_sub (x y : Float) :
    ofFloat (x - y) = ofFloat (.ofModel (Float.Model.pack
      (UnpackedFloat.sub Format.binary64 x.toModel.unpack y.toModel.unpack))) := rfl

theorem normalizes_sub {x y : Float} {a b : Int} (hx : ofFloat x = finite a)
    (hy : ofFloat y = finite b) : Normalizes (a - b) (ofFloat (x - y)) := by
  have hu := canonical_unpack x
  have hv := canonical_unpack y
  rw [ofFloat_eq] at hx hy
  rw [ofFloat_sub]
  generalize x.toModel.unpack = u at *
  generalize y.toModel.unpack = v at *
  cases u with
  | infinity => cases hx
  | notANumber => cases hx
  | zero s =>
    cases hx
    cases v with
    | infinity => cases hy
    | notANumber => cases hy
    | zero s' =>
      cases hy
      cases s <;> cases s' <;> exact normalizes_pack trivial rfl
    | finite s' m' e' hm' =>
      cases hy
      refine normalizes_pack hv ?_
      rw [Int.zero_sub]
      cases s' with
      | negative => exact congrArg finite (Int.neg_neg _).symm
      | positive => rfl
  | finite s m e hm =>
    cases hx
    cases v with
    | infinity => cases hy
    | notANumber => cases hy
    | zero s' =>
      cases hy
      rw [Int.sub_zero]
      exact normalizes_pack hu rfl
    | finite s' m' e' hm' =>
      cases hy
      have hlow := hu.least.low
      have hlow' := hv.least.low
      have hleast : -1074 ≤ min e e' := by omega
      rw [ofFloat_eq_ofFields]
      refine .rounded hleast ?_
      rw [sub_mul, apply_shiftLeft s m (by omega) hleast,
        apply_shiftLeft s' m' (by omega) hleast]

/-- A difference is rounded once. -/
theorem roundsTo_sub {x y : Float} {a b : Int} (hx : ofFloat x = finite a)
    (hy : ofFloat y = finite b) : RoundsTo (a - b) (ofFloat (x - y)) :=
  (normalizes_sub hx hy).roundsTo

/-- A difference with something undefined is undefined. -/
theorem ofFloat_sub_undefined {x y : Float} (h : ofFloat x = undefined ∨ ofFloat y = undefined) :
    ofFloat (x - y) = undefined := by
  have hnone : ∀ {u : UnpackedFloat}, ofUnpacked u = undefined → u = .notANumber := by
    intro u hu
    cases u <;> first | rfl | cases hu
  rw [ofFloat_eq, ofFloat_eq] at h
  rw [ofFloat_sub]
  rcases h with h | h
  · rw [hnone h]
    exact ofFloat_pack trivial
  · rw [hnone h]
    cases x.toModel.unpack <;> exact ofFloat_pack trivial

end Exact
end LeagueAudit
