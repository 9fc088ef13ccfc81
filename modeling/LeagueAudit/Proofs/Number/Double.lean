import LeagueAudit.Number.Nearest
import Mathlib.Algebra.Order.Ring.Int
import Mathlib.Order.Compare

/-!
What the fields of a double stand for, and that doubles compare as their values do.
-/
namespace LeagueAudit

open Float.Model Float.Model.UnpackedFloat

namespace Double

def fraction (b : BitVec 64) : Nat := b.toNat % 2 ^ 52

def exponent (b : BitVec 64) : Nat := b.toNat / 2 ^ 52 % 2 ^ 11

def sign (b : BitVec 64) : Sign := if b.toNat / 2 ^ 63 = 1 then .negative else .positive

theorem fraction_lt (b : BitVec 64) : fraction b < 2 ^ 52 := Nat.mod_lt _ (by decide)

theorem exponent_lt (b : BitVec 64) : exponent b < 2 ^ 11 := Nat.mod_lt _ (by decide)

theorem toNat_unpackMantissa (b : BitVec 64) :
    (@unpackMantissa Format.binary64 b).toNat = fraction b := by
  simp [unpackMantissa, BitVec.extractLsb_toNat, fraction]

theorem toNat_unpackExponent (b : BitVec 64) :
    (@unpackExponent Format.binary64 b).toNat = exponent b := by
  simp [unpackExponent, BitVec.extractLsb_toNat, Nat.shiftRight_eq_div_pow, exponent]

theorem toNat_unpackSign (b : BitVec 64) :
    (@unpackSign Format.binary64 b).toNat = b.toNat / 2 ^ 63 := by
  have hlt := b.isLt
  have hbit : (@unpackSign Format.binary64 b).toNat = b.toNat >>> 63 % 2 ^ 1 := by
    unfold unpackSign
    rw [BitVec.toNat_cast, BitVec.extractLsb_toNat]
    rfl
  rw [hbit, Nat.shiftRight_eq_div_pow]
  omega

theorem ofBitVec_unpackSign (b : BitVec 64) :
    Sign.ofBitVec (@unpackSign Format.binary64 b) = sign b := by
  have hlt := b.isLt
  have hzero : @unpackSign Format.binary64 b = 0#1 ↔ b.toNat / 2 ^ 63 = 0 := by
    rw [← BitVec.toNat_inj, toNat_unpackSign]
    rfl
  unfold Sign.ofBitVec sign
  by_cases h : b.toNat / 2 ^ 63 = 1
  · rw [if_pos h, if_neg (by rw [hzero]; omega)]
  · rw [if_neg h, if_pos (by rw [hzero]; omega)]

/-- How the fields of a double are read: a number is a whole mantissa times a power of two, and the
mantissa has 53 digits unless the exponent is the least one. -/
inductive Reads (b : BitVec 64) : UnpackedFloat → Prop where
  | infinite (he : exponent b = 2047) (hf : fraction b = 0) : Reads b (.infinity (sign b))
  | undefined (he : exponent b = 2047) (hf : fraction b ≠ 0) : Reads b .notANumber
  | zero (he : exponent b = 0) (hf : fraction b = 0) : Reads b (.zero (sign b))
  | small (m : Nat) (e : Int) (hpos : 0 < m) (he : exponent b = 0) (hm : m = fraction b)
    (hleast : e = -1074) : Reads b (.finite (sign b) m e hpos)
  | normal (m : Nat) (e : Int) (hpos : 0 < m) (hlow : 0 < exponent b) (hhigh : exponent b < 2047)
    (hm : m = 2 ^ 52 + fraction b) (hbias : e = exponent b - 1075) :
    Reads b (.finite (sign b) m e hpos)

theorem reads_unpack (b : BitVec 64) : Reads b (UnpackedFloat.unpack Format.binary64 b) := by
  have hmantissa := toNat_unpackMantissa b
  have hexponent := toNat_unpackExponent b
  have htop : @unpackExponent Format.binary64 b = -1#11 ↔ exponent b = 2047 := by
    rw [← BitVec.toNat_inj, hexponent]
    rfl
  have hbottom : @unpackExponent Format.binary64 b = 0#11 ↔ exponent b = 0 := by
    rw [← BitVec.toNat_inj, hexponent]
    rfl
  have hnone : @unpackMantissa Format.binary64 b = 0#52 ↔ fraction b = 0 := by
    rw [← BitVec.toNat_inj, hmantissa]
    rfl
  unfold UnpackedFloat.unpack
  dsimp only
  rw [ofBitVec_unpackSign]
  by_cases he : exponent b = 2047
  · rw [if_pos (htop.mpr he)]
    by_cases hf : fraction b = 0
    · rw [if_pos (hnone.mpr hf)]
      exact .infinite he hf
    · rw [if_neg (mt hnone.mp hf)]
      exact .undefined he hf
  · rw [if_neg (mt htop.mp he)]
    by_cases hzero : exponent b = 0
    · rw [if_pos (hbottom.mpr hzero)]
      by_cases hf : fraction b = 0
      · rw [dif_pos (hnone.mpr hf)]
        exact .zero hzero hf
      · rw [dif_neg (mt hnone.mp hf)]
        refine .small _ _ _ hzero hmantissa ?_
        rw [hexponent, hzero]
        rfl
    · have hlt := exponent_lt b
      rw [if_neg (mt hbottom.mp hzero)]
      refine .normal _ _ _ (by omega) (by omega) ?_ ?_
      · rw [BitVec.toNat_append, hmantissa, ← Nat.shiftLeft_add_eq_or_of_lt (fraction_lt b)]
        rfl
      · rw [hexponent]
        rfl

end Double

namespace Exact

open Double

/-- The steps of a mantissa with an exponent. -/
def scaled (mantissa : Nat) (exponent : Int) : Nat := mantissa * twoTo (exponent + 1074).toNat

theorem scaled_pos {m : Nat} (hm : 0 < m) (e : Int) : 0 < (scaled m e : Int) :=
  Int.natCast_pos.mpr (Nat.mul_pos hm (Nat.pow_pos (by decide)))

/-- What the parts of a double stand for. -/
def ofUnpacked : UnpackedFloat → Exact
  | .infinity sign => infinite (sign == .negative)
  | .notANumber => undefined
  | .zero _ => finite 0
  | .finite sign mantissa exponent _ => finite (sign.apply (scaled mantissa exponent))

/-- The steps of a number with these fields, without the sign. -/
def magnitude (b : BitVec 64) : Nat :=
  if exponent b = 0 then fraction b else (2 ^ 52 + fraction b) * twoTo (exponent b - 1)

/-- What fields stand for. -/
def ofFields (b : BitVec 64) : Exact :=
  if exponent b = 2047 then
    if fraction b = 0 then infinite (sign b == .negative) else undefined
  else finite ((sign b).apply (magnitude b))

theorem ofFloat_eq_ofFields (x : Float) : ofFloat x = ofFields x.toModel.toBits.toBitVec := by
  have hfields : ofFloat x =
      let b := x.toModel.toBits.toBitVec
      if exponent b = 2047 then
        if fraction b = 0 then infinite (b.toNat / 2 ^ 63 == 1) else undefined
      else finite (if b.toNat / 2 ^ 63 == 1 then -(magnitude b : Int) else magnitude b) := rfl
  rw [hfields]
  dsimp only
  generalize x.toModel.toBits.toBitVec = b
  unfold ofFields sign
  by_cases h : b.toNat / 2 ^ 63 = 1
  · rw [if_pos h, h]
    rfl
  · have hnot : (b.toNat / 2 ^ 63 == 1) = false := by simpa using h
    rw [if_neg h, hnot]
    rfl

theorem ofUnpacked_finite (s : Sign) (m : Nat) (e : Int) (hm : 0 < m) :
    ofUnpacked (.finite s m e hm) = finite (s.apply (scaled m e)) := rfl

theorem ofFields_of_reads {b : BitVec 64} {u : UnpackedFloat} (h : Reads b u) :
    ofFields b = ofUnpacked u := by
  unfold ofFields magnitude
  cases h with
  | infinite he hf =>
    rw [if_pos he, if_pos hf]
    rfl
  | undefined he hf =>
    rw [if_pos he, if_neg hf]
    rfl
  | zero he hf =>
    rw [if_neg (by omega), if_pos he, hf]
    cases sign b <;> rfl
  | small m e hpos he hm hleast =>
    have hsteps : scaled (fraction b) (-1074) = fraction b := Nat.mul_one _
    rw [ofUnpacked_finite, if_neg (by omega), if_pos he, hm, hleast, hsteps]
  | normal m e hpos hlow hhigh hm hbias =>
    have hpower : ((exponent b : Int) - 1075 + 1074).toNat = exponent b - 1 := by omega
    rw [ofUnpacked_finite, if_neg (by omega), if_neg (by omega), scaled, hm, hbias, hpower]

/-- The bits of a double and its parts stand for the same value. -/
theorem ofFloat_eq (x : Float) : ofFloat x = ofUnpacked x.toModel.unpack := by
  rw [ofFloat_eq_ofFields]
  exact ofFields_of_reads (reads_unpack _)

/-- A mantissa of 53 digits, or one of less digits with the least exponent. -/
structure Least (mantissa : Nat) (exponent : Int) : Prop where
  lt : mantissa < 2 ^ 53
  low : -1074 ≤ exponent
  full : exponent ≠ -1074 → 2 ^ 52 ≤ mantissa

/-- The parts of a double: the mantissa has all digits that it can have, and the exponent is in
range. -/
def Canonical : UnpackedFloat → Prop
  | .finite _ mantissa exponent _ => Least mantissa exponent ∧ exponent ≤ 971
  | _ => True

theorem Canonical.least {s : Sign} {m : Nat} {e : Int} {hm : 0 < m}
    (h : Canonical (.finite s m e hm)) : Least m e := h.1

theorem canonical_of_reads {b : BitVec 64} {u : UnpackedFloat} (h : Reads b u) : Canonical u := by
  have hlt := fraction_lt b
  cases h with
  | small m e hpos he hm hleast =>
    exact ⟨⟨by omega, by omega, fun h => absurd hleast h⟩, by omega⟩
  | normal m e hpos hlow hhigh hm hbias =>
    exact ⟨⟨by omega, by omega, fun _ => by omega⟩, by omega⟩
  | _ => exact trivial

theorem canonical_unpack (x : Float) : Canonical x.toModel.unpack :=
  canonical_of_reads (reads_unpack _)

theorem scaled_lt_scaled {m m' : Nat} {e e' : Int} (h : Least m e) (h' : Least m' e')
    (he : e < e') : scaled m e < scaled m' e' := by
  have hlow := h.low
  have hfull := h'.full (by omega)
  obtain ⟨more, hmore⟩ : ∃ more, (e' + 1074).toNat = (e + 1074).toNat + 1 + more :=
    ⟨(e' - e - 1).toNat, by omega⟩
  have hpos : 0 < 2 ^ (e + 1074).toNat := Nat.pow_pos (by decide)
  calc scaled m e < 2 ^ 53 * 2 ^ (e + 1074).toNat := Nat.mul_lt_mul_of_pos_right h.lt hpos
    _ = 2 ^ 52 * 2 ^ ((e + 1074).toNat + 1) := by rw [Nat.pow_succ 2 (e + 1074).toNat]; omega
    _ ≤ m' * 2 ^ ((e + 1074).toNat + 1 + more) :=
      Nat.mul_le_mul hfull (Nat.pow_le_pow_right (by decide) (by omega))
    _ = scaled m' e' := by rw [← hmore]; rfl

/-- Comparing exponents first and mantissas then compares the values. -/
theorem compare_scaled {m m' : Nat} {e e' : Int} (h : Least m e) (h' : Least m' e') :
    (compare e e').then (compare m m') = compare (scaled m e) (scaled m' e') := by
  rcases lt_trichotomy e e' with he | rfl | he
  · rw [compare_lt_iff_lt.mpr he, compare_lt_iff_lt.mpr (scaled_lt_scaled h h' he)]
    rfl
  · have hpos : 0 < twoTo (e + 1074).toNat := Nat.pow_pos (by decide)
    rw [compare_eq_iff_eq.mpr rfl, Ordering.eq_then]
    rcases lt_trichotomy m m' with hm | rfl | hm
    · rw [compare_lt_iff_lt.mpr hm, eq_comm, compare_lt_iff_lt]
      exact Nat.mul_lt_mul_of_pos_right hm hpos
    · rw [compare_eq_iff_eq.mpr rfl, compare_eq_iff_eq.mpr rfl]
    · rw [compare_gt_iff_gt.mpr hm, eq_comm, compare_gt_iff_gt]
      exact Nat.mul_lt_mul_of_pos_right hm hpos
  · rw [compare_gt_iff_gt.mpr he, compare_gt_iff_gt.mpr (scaled_lt_scaled h' h he)]
    rfl

theorem compare_natCast (a b : Nat) : compare (a : Int) (b : Int) = compare a b := by
  rcases lt_trichotomy a b with h | rfl | h
  · rw [compare_lt_iff_lt.mpr h, compare_lt_iff_lt.mpr (Int.ofNat_lt.mpr h)]
  · rw [compare_eq_iff_eq.mpr rfl, compare_eq_iff_eq.mpr rfl]
  · rw [compare_gt_iff_gt.mpr h, compare_gt_iff_gt.mpr (Int.ofNat_lt.mpr h)]

theorem compare_neg (a b : Int) : compare (-a) (-b) = (compare a b).swap := by
  rcases lt_trichotomy a b with h | rfl | h
  · rw [compare_lt_iff_lt.mpr h, compare_gt_iff_gt.mpr (by omega)]
    rfl
  · rw [compare_eq_iff_eq.mpr rfl, compare_eq_iff_eq.mpr rfl]
    rfl
  · rw [compare_gt_iff_gt.mpr h, compare_lt_iff_lt.mpr (by omega)]
    rfl

/-- How two values compare; undefined ones do not. -/
def compare? : Exact → Exact → Option Ordering
  | undefined, _ => none
  | _, undefined => none
  | finite a, finite b => some (compare a b)
  | infinite negative, finite _ => some (if negative then .lt else .gt)
  | finite _, infinite negative => some (if negative then .gt else .lt)
  | infinite a, infinite b => some (if a = b then .eq else if a then .lt else .gt)

theorem compare?_finite (a b : Int) : (finite a).compare? (finite b) = some (compare a b) := rfl

theorem compare_of_canonical {u v : UnpackedFloat} (hu : Canonical u) (hv : Canonical v) :
    u.compare v = (ofUnpacked u).compare? (ofUnpacked v) := by
  cases u with
  | notANumber => cases v <;> rfl
  | infinity s =>
    cases v with
    | infinity s' => cases s <;> cases s' <;> rfl
    | _ => cases s <;> rfl
  | zero s =>
    cases v with
    | infinity s' => cases s' <;> rfl
    | finite s' m e hm =>
      have hpos := scaled_pos hm e
      cases s' with
      | negative => exact congrArg some (compare_gt_iff_gt.mpr (neg_lt_zero.mpr hpos)).symm
      | positive => exact congrArg some (compare_lt_iff_lt.mpr hpos).symm
    | _ => rfl
  | finite s m e hm =>
    have hpos := scaled_pos hm e
    cases v with
    | infinity s' => cases s <;> cases s' <;> rfl
    | notANumber => cases s <;> rfl
    | zero s' =>
      cases s with
      | negative => exact congrArg some (compare_lt_iff_lt.mpr (neg_lt_zero.mpr hpos)).symm
      | positive => exact congrArg some (compare_gt_iff_gt.mpr hpos).symm
    | finite s' m' e' hm' =>
      have hsteps := compare_scaled hu.least hv.least
      have hpos' := scaled_pos hm' e'
      rw [ofUnpacked_finite, ofUnpacked_finite, compare?_finite]
      cases s with
      | negative =>
        cases s' with
        | negative =>
          rw [Sign.apply, Sign.apply, compare_neg, compare_natCast, ← hsteps]
          rfl
        | positive =>
          rw [compare_lt_iff_lt.mpr (by simp only [Sign.apply]; omega)]
          rfl
      | positive =>
        cases s' with
        | negative =>
          rw [compare_gt_iff_gt.mpr (by simp only [Sign.apply]; omega)]
          rfl
        | positive =>
          rw [Sign.apply, Sign.apply, compare_natCast, ← hsteps]
          rfl

/-- Doubles compare as their values do. -/
theorem compare_unpack (x y : Float) :
    x.toModel.unpack.compare y.toModel.unpack = (ofFloat x).compare? (ofFloat y) := by
  rw [ofFloat_eq, ofFloat_eq, compare_of_canonical (canonical_unpack x) (canonical_unpack y)]

theorem beq_iff (x y : Float) :
    (x == y) = true ↔ (ofFloat x).compare? (ofFloat y) = some .eq := by
  have h : (x == y) = (x.toModel.unpack.compare y.toModel.unpack == some .eq) := rfl
  rw [h, beq_iff_eq, compare_unpack]

theorem lt_iff (x y : Float) : x < y ↔ (ofFloat x).compare? (ofFloat y) = some .lt := by
  have h : x < y ↔ decide (x.toModel < y.toModel) = true := Iff.rfl
  rw [h, decide_eq_true_eq, ← compare_unpack]
  exact beq_iff_eq

theorem le_iff (x y : Float) :
    x ≤ y ↔ ((ofFloat x).compare? (ofFloat y)).any (·.isLE) = true := by
  have h : x ≤ y ↔ decide (x.toModel ≤ y.toModel) = true := Iff.rfl
  rw [h, decide_eq_true_eq, ← compare_unpack]
  exact Iff.rfl

theorem isLE_compare?_finite (a b : Int) :
    ((finite a).compare? (finite b)).any (·.isLE) = true ↔ a ≤ b := by
  rw [compare?_finite, Option.any_some, Ordering.isLE_iff_ne_gt]
  exact compare_le_iff_le

theorem ofFloat_zero : ofFloat 0.0 = finite 0 := by decide +kernel

theorem isInf_iff (x : Float) : x.isInf = true ↔ ∃ negative, ofFloat x = infinite negative := by
  have h : x.isInf = x.toModel.unpack.isInf := rfl
  rw [h, ofFloat_eq]
  cases x.toModel.unpack with
  | infinity s => exact iff_of_true rfl ⟨_, rfl⟩
  | _ => exact iff_of_false Bool.false_ne_true fun ⟨_, hvalue⟩ => nomatch hvalue

theorem isNaN_iff (x : Float) : x.isNaN = true ↔ ofFloat x = undefined := by
  have h : x.isNaN = x.toModel.unpack.isNaN := rfl
  rw [h, ofFloat_eq]
  cases x.toModel.unpack with
  | notANumber => exact iff_of_true rfl rfl
  | _ => exact iff_of_false Bool.false_ne_true fun hvalue => nomatch hvalue

end Exact
end LeagueAudit
