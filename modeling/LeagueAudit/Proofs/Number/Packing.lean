import LeagueAudit.Proofs.Number.Double
import Mathlib.Algebra.Order.Group.Abs

/-!
Packed doubles. The parts of a number survive packing when its exponent is in range, so a double
that is made of such parts stands for what they stand for.
-/
namespace LeagueAudit

open Float.Model Float.Model.UnpackedFloat

namespace Double

theorem toNat_packComponents (s : Sign) (e : BitVec 11) (m : BitVec 52) :
    (@packComponents Format.binary64 s e m).toNat =
      s.toBitVec.toNat * 2 ^ 63 + e.toNat * 2 ^ 52 + m.toNat := by
  unfold packComponents
  rw [BitVec.toNat_append, BitVec.toNat_append, ← Nat.shiftLeft_add_eq_or_of_lt m.isLt,
    ← Nat.shiftLeft_add_eq_or_of_lt e.isLt, Nat.shiftLeft_eq, Nat.shiftLeft_eq]
  omega

theorem fraction_packComponents (s : Sign) (e : BitVec 11) (m : BitVec 52) :
    fraction (@packComponents Format.binary64 s e m) = m.toNat := by
  have hm := m.isLt
  rw [fraction, toNat_packComponents]
  omega

theorem exponent_packComponents (s : Sign) (e : BitVec 11) (m : BitVec 52) :
    exponent (@packComponents Format.binary64 s e m) = e.toNat := by
  have he := e.isLt
  have hm := m.isLt
  rw [exponent, toNat_packComponents]
  omega

theorem sign_packComponents (s : Sign) (e : BitVec 11) (m : BitVec 52) :
    sign (@packComponents Format.binary64 s e m) = s := by
  have he := e.isLt
  have hm := m.isLt
  rw [sign, toNat_packComponents]
  cases s with
  | negative =>
    have h : Sign.negative.toBitVec.toNat = 1 := rfl
    rw [h, if_pos (by omega)]
  | positive =>
    have h : Sign.positive.toBitVec.toNat = 0 := rfl
    rw [h, if_neg (by omega)]

end Double

namespace Exact

open Double

theorem ofFields_packComponents (s : Sign) (e : BitVec 11) (m : BitVec 52) :
    ofFields (@packComponents Format.binary64 s e m) =
      if e.toNat = 2047 then if m.toNat = 0 then infinite (s == .negative) else undefined
      else finite (s.apply
        (if e.toNat = 0 then m.toNat else (2 ^ 52 + m.toNat) * twoTo (e.toNat - 1) : Nat)) := by
  rw [ofFields, magnitude, exponent_packComponents, fraction_packComponents, sign_packComponents]

theorem ofFields_packedInfinity (s : Sign) :
    ofFields (packedInfinity Format.binary64 s) = infinite (s == .negative) :=
  ofFields_packComponents s _ _

/-- Parts whose exponent is in range are kept, and an infinity is packed for the others. -/
theorem ofFields_pack_of_least {s : Sign} {m : Nat} {e : Int} {hm : 0 < m} (h : Least m e) :
    ofFields (UnpackedFloat.pack Format.binary64 (.finite s m e hm)) =
      if e ≤ 971 then finite (s.apply (scaled m e)) else infinite (s == .negative) := by
  have hlt := h.lt
  have hlow := h.low
  have hbias : (e + Format.binary64.exponentBias +
      Format.binary64.mantissaBitsWithoutImplicit).toNat = (e + 1075).toNat := by
    congr 1
    exact Int.add_assoc e 1023 52
  have hbits : m.log2 + 1 = Format.binary64.mantissaBits ↔ 2 ^ 52 ≤ m := by
    have hdigits : Format.binary64.mantissaBits = 53 := rfl
    have hlog : m.log2 < 53 := (Nat.log2_lt (by omega)).mpr hlt
    rw [hdigits, ← Nat.le_log2 (by omega)]
    omega
  unfold UnpackedFloat.pack
  dsimp only
  rw [hbias]
  by_cases he : e ≤ 971
  · rw [if_pos he, if_neg (by simp only [Nat.reducePow]; omega)]
    by_cases hfull : 2 ^ 52 ≤ m
    · have hexponent : (BitVec.ofNat 11 (e + 1075).toNat).toNat = (e + 1075).toNat := by
        rw [BitVec.toNat_ofNat]
        omega
      have hfraction : (BitVec.ofNat 52 m).toNat = m - 2 ^ 52 := by
        rw [BitVec.toNat_ofNat]
        omega
      have hpower : (e + 1075).toNat - 1 = (e + 1074).toNat := by omega
      rw [if_pos (hbits.mpr hfull), ofFields_packComponents, hexponent, hfraction,
        if_neg (by omega), if_neg (by omega), Nat.add_sub_cancel' hfull, hpower, scaled]
    · have hleast : e = -1074 := by
        by_contra hne
        exact hfull (h.full hne)
      have hfraction : (BitVec.ofNat 52 m).toNat = m := by
        rw [BitVec.toNat_ofNat]
        omega
      have hsteps : scaled m (-1074) = m := Nat.mul_one m
      rw [if_neg (mt hbits.mp hfull), ofFields_packComponents, hfraction, hleast, hsteps]
      rfl
  · rw [if_neg he, if_pos (by simp only [Nat.reducePow]; omega), ofFields_packedInfinity]

theorem ofFields_pack {u : UnpackedFloat} (h : Canonical u) :
    ofFields (UnpackedFloat.pack Format.binary64 u) = ofUnpacked u := by
  cases u with
  | infinity s => exact ofFields_packedInfinity s
  | notANumber => exact ofFields_packComponents .positive _ _
  | zero s =>
    refine (ofFields_packComponents s _ _).trans ?_
    cases s <;> rfl
  | finite s m e hm => rw [ofFields_pack_of_least h.least, if_pos h.2, ofUnpacked_finite]

/-- The double with these parts stands for what they stand for. -/
theorem ofFloat_pack {u : UnpackedFloat} (h : Canonical u) :
    ofFloat (.ofModel (Float.Model.pack u)) = ofUnpacked u := by
  rw [ofFloat_eq_ofFields]
  exact ofFields_pack h

def neg : Exact → Exact
  | finite n => finite (-n)
  | infinite negative => infinite !negative
  | undefined => undefined

def abs : Exact → Exact
  | finite n => finite |n|
  | infinite _ => infinite false
  | undefined => undefined

theorem ofFloat_neg (x : Float) : ofFloat (-x) = (ofFloat x).neg := by
  have hx := canonical_unpack x
  have h : ofFloat (-x) = ofFloat (.ofModel (Float.Model.pack x.toModel.unpack.neg)) := rfl
  rw [h, ofFloat_eq x]
  generalize x.toModel.unpack = u at hx
  rw [ofFloat_pack (by cases u <;> exact hx)]
  cases u with
  | infinity s => cases s <;> rfl
  | finite s m e hm =>
    cases s with
    | negative => exact congrArg finite (Int.neg_neg _).symm
    | positive => rfl
  | _ => rfl

theorem ofFloat_abs (x : Float) : ofFloat x.abs = (ofFloat x).abs := by
  have hx := canonical_unpack x
  have h : ofFloat x.abs = ofFloat (.ofModel (Float.Model.pack x.toModel.unpack.abs)) := rfl
  rw [h, ofFloat_eq x]
  generalize x.toModel.unpack = u at hx
  rw [ofFloat_pack (by cases u <;> exact hx)]
  cases u with
  | finite s m e hm =>
    have hpos := scaled_pos hm e
    cases s with
    | negative => exact congrArg finite ((abs_neg _).trans (abs_of_pos hpos)).symm
    | positive => exact congrArg finite (abs_of_pos hpos).symm
  | _ => rfl

theorem ofFloat_ofBits (w : UInt64) : ofFloat (Float.ofBits w) = ofFields w.toBitVec := by
  have h : ofFloat (Float.ofBits w) = ofFloat (.ofModel (Float.Model.pack
    (UnpackedFloat.unpack Format.binary64 w.toBitVec))) := rfl
  have hreads := reads_unpack w.toBitVec
  rw [h, ofFloat_pack (canonical_of_reads hreads), ofFields_of_reads hreads]

end Exact
end LeagueAudit
