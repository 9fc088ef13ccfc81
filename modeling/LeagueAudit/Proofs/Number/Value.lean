import LeagueAudit.Proofs.Number.Nearest
import Mathlib.Data.Rat.Cast.Order

/-!
The numbers that doubles stand for, and the sign of products.
-/
namespace LeagueAudit

open Float.Model Float.Model.UnpackedFloat

namespace Exact

open Double

/-- A double stands for a number. -/
def StandsFor (x : Float) (q : ℚ) : Prop := IsFinite x ∧ (stepsOf x : ℚ) = q * stepsPerOne

theorem standsFor_of_eq {x : Float} {steps : Int} {q : ℚ} (h : ofFloat x = finite steps)
    (hq : (steps : ℚ) = q * stepsPerOne) : StandsFor x q :=
  ⟨isFinite_of_eq h, by rw [stepsOf_eq h, hq]⟩

theorem standsFor_of_ofInt {x : Float} {n : Int} (h : ofFloat x = ofInt n) : StandsFor x n :=
  standsFor_of_eq h (Int.cast_mul _ _)

theorem stepsPerOne_pos : (0 : ℚ) < stepsPerOne := Nat.cast_pos.mpr (twoTo_pos 1074)

/-- Whole numbers are compared with the number that a double stands for. -/
theorem intLtFloat_iff {x : Float} {q : ℚ} (h : StandsFor x q) (n : Int) :
    intLtFloat n x = true ↔ (n : ℚ) < q := by
  obtain ⟨hfinite, hq⟩ := h
  have hsteps : intLtFloat n x = true ↔ n * stepsPerOne < stepsOf x := by
    rw [intLtFloat, hfinite, compareInt, beq_iff_eq, Option.some.injEq, Int.compare_eq_lt]
  rw [hsteps, ← mul_lt_mul_iff_left₀ stepsPerOne_pos, ← hq]
  norm_cast

/-- A value that is zero or more. -/
def NotNegative : Exact → Prop
  | finite steps => 0 ≤ steps
  | infinite negative => negative = false
  | undefined => False

/-- A whole number below zero is less than a double that is zero or more. -/
theorem intLtFloat_of_neg {x : Float} (hx : NotNegative (ofFloat x)) {n : Int} (hn : n < 0) :
    intLtFloat n x = true := by
  unfold intLtFloat
  cases hvalue : ofFloat x with
  | finite steps =>
    rw [hvalue] at hx
    have hsteps : 0 ≤ steps := hx
    have hless : n * stepsPerOne < 0 :=
      Int.mul_neg_of_neg_of_pos hn (Int.natCast_pos.mpr (twoTo_pos 1074))
    rw [compareInt, beq_iff_eq, Option.some.injEq, Int.compare_eq_lt]
    omega
  | infinite negative =>
    rw [hvalue] at hx
    cases hx
    rfl
  | undefined =>
    rw [hvalue] at hx
    exact hx.elim

/-- Parts with a plus sign are packed as a value that is zero or more. -/
theorem notNegative_pack (m : Nat) (e : Int) (hm : 0 < m) :
    NotNegative (ofFields (UnpackedFloat.pack Format.binary64 (.finite .positive m e hm))) := by
  unfold UnpackedFloat.pack
  dsimp only
  split
  · rw [ofFields_packedInfinity]
    rfl
  · next hrange =>
    have hexponent : ∀ e : BitVec 11, ∀ f : BitVec 52, e.toNat ≠ 2047 →
        NotNegative (ofFields (@packComponents Format.binary64 .positive e f)) := by
      intro e f he
      rw [ofFields_packComponents, if_neg he]
      exact Int.natCast_nonneg _
    split
    · refine hexponent _ _ ?_
      rw [BitVec.toNat_ofNat]
      omega
    · exact hexponent _ _ (by decide)

theorem roundWithAccuracy_cases (s : Sign) (m : Nat) (e : Int) (accuracy : Accuracy) :
    roundWithAccuracy Format.binary64 s m e accuracy = .zero s ∨
      ∃ m' e' hm', roundWithAccuracy Format.binary64 s m e accuracy = .finite s m' e' hm' :=
  (dite_eq_or_eq _).imp (fun ⟨_, h⟩ => h) fun ⟨_, h⟩ => ⟨_, _, _, h⟩

theorem notNegative_roundWithAccuracy (m : Nat) (e : Int) (accuracy : Accuracy) :
    NotNegative (ofFields (UnpackedFloat.pack Format.binary64
      (roundWithAccuracy Format.binary64 .positive m e accuracy))) := by
  rcases roundWithAccuracy_cases .positive m e accuracy with h | ⟨m', e', hm', h⟩
  · rw [h]
    exact (ofFields_pack (u := .zero .positive) trivial) ▸ Int.le_refl 0
  · rw [h]
    exact notNegative_pack m' e' hm'

/-- The parts of a double that is more than zero. -/
inductive Positive : UnpackedFloat → Prop where
  | infinity : Positive (.infinity .positive)
  | finite (m : Nat) (e : Int) (hm : 0 < m) : Positive (.finite .positive m e hm)

theorem positive_unpack {x : Float} (h : 0.0 < x) : Positive x.toModel.unpack := by
  rw [lt_iff, ofFloat_zero, ofFloat_eq x] at h
  generalize x.toModel.unpack = u at h
  cases u with
  | infinity s =>
    cases s with
    | negative => cases h
    | positive => exact .infinity
  | notANumber => cases h
  | zero s => cases h
  | finite s m e hm =>
    cases s with
    | negative =>
      have hpos := scaled_pos hm e
      rw [ofUnpacked_finite, compare?_finite, Option.some.injEq, compare_lt_iff_lt, Sign.apply] at h
      omega
    | positive => exact .finite m e hm

theorem not_le_of_zero_lt {x : Float} (h : 0.0 < x) : ¬x ≤ 0.0 := by
  have hx := positive_unpack h
  rw [le_iff, ofFloat_zero, ofFloat_eq x]
  generalize x.toModel.unpack = u at hx
  cases hx with
  | infinity => exact Bool.false_ne_true
  | finite m e hm =>
    have hpos := scaled_pos hm e
    rw [ofUnpacked_finite, isLE_compare?_finite, Sign.apply]
    omega

theorem ofFloat_mul (x y : Float) :
    ofFloat (x * y) = ofFloat (.ofModel (Float.Model.pack
      (UnpackedFloat.mul Format.binary64 x.toModel.unpack y.toModel.unpack))) := rfl

/-- A product of numbers that are more than zero is zero or more. -/
theorem notNegative_mul {x y : Float} (hx : 0.0 < x) (hy : 0.0 < y) :
    NotNegative (ofFloat (x * y)) := by
  have hu := positive_unpack hx
  have hv := positive_unpack hy
  rw [ofFloat_mul, ofFloat_eq_ofFields]
  generalize x.toModel.unpack = u at hu
  generalize y.toModel.unpack = v at hv
  cases hu with
  | infinity =>
    have hinfinite : NotNegative (ofFields (UnpackedFloat.pack Format.binary64
        (.infinity .positive))) := (ofFields_packedInfinity .positive) ▸ rfl
    cases hv with
    | infinity => exact hinfinite
    | finite m e hm => exact hinfinite
  | finite m e hm =>
    cases hv with
    | infinity => exact (ofFields_packedInfinity .positive) ▸ rfl
    | finite m' e' hm' => exact notNegative_roundWithAccuracy (m * m') (e + e') .exact

end Exact
end LeagueAudit
