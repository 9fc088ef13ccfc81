import LeagueAudit.Fault
import LeagueAudit.Proofs.Number.Quotient
import LeagueAudit.Proofs.Number.Value

/-!
Signs survive rounding. A quotient of one or more is rounded to a double that is more than zero, and
a double that is not negative to a whole number that is not negative.
-/
namespace LeagueAudit

theorem divNearest_pos {num den : Nat} (hden : 0 < den) (h : den ≤ num) :
    0 < divNearest num den := by
  have hlow := Nat.div_pos h hden
  unfold divNearest
  dsimp only
  split
  · exact hlow
  · split
    · exact Nat.succ_pos _
    · split
      · exact hlow
      · exact Nat.succ_pos _

namespace Exact

variable {num den : Nat}

theorem lastUnit_mem (num den : Nat) : -1074 ≤ lastUnit num den ∧
    lastUnit num den ≤ max ((num.log2 : Int) - den.log2 - 52) (-1074) := by
  unfold lastUnit
  dsimp only
  split
  · next h =>
    have hguess := h.2
    omega
  · omega

theorem mantissaAt_pos (hden : 0 < den) (h : den ≤ num) :
    0 < mantissaAt num den (lastUnit num den) := by
  have hunit := lastUnit_mem num den
  generalize lastUnit num den = unit at hunit
  unfold mantissaAt
  split
  · -- A unit of one or more was guessed from the digits that the number has beyond the divisor.
    have hweight : den * twoTo unit.toNat ≤ num := by
      calc den * twoTo unit.toNat ≤ twoTo (den.log2 + 1) * twoTo unit.toNat :=
            Nat.mul_le_mul_right _ Nat.lt_log2_self.le
        _ = twoTo (den.log2 + 1 + unit.toNat) := twoTo_mul _ _
        _ ≤ twoTo num.log2 := Nat.pow_le_pow_right (by decide) (by omega)
        _ ≤ num := Nat.log2_self_le (by omega)
    exact divNearest_pos (Nat.mul_pos hden (twoTo_pos _)) hweight
  · exact divNearest_pos hden (h.trans (Nat.le_mul_of_pos_right _ (twoTo_pos _)))

theorem nearestBits_pos (hden : 0 < den) (h : den ≤ num) : 0 < nearestBits num den := by
  have hmantissa := mantissaAt_pos hden h
  have hunit := (lastUnit_mem num den).1
  rw [nearestBits_eq den (by omega)]
  dsimp only
  refine Nat.lt_min.mpr ⟨?_, by decide⟩
  split
  · exact hmantissa
  · omega

/-- Bits that lie behind those of zero, up to those of the infinity, stand for more than zero. -/
theorem zero_lt_ofBits {w : UInt64} (hpos : 0 < w.toNat) (hle : w.toNat ≤ 0x7ff0000000000000) :
    0.0 < Float.ofBits w := by
  rw [lt_iff, ofFloat_zero, ofFloat_ofBits]
  rcases Nat.lt_or_eq_of_le hle with hlt | heq
  · have hfields := ofFields_of_fields (b := w.toBitVec) (e := w.toNat / 2 ^ 52)
      (f := w.toNat % 2 ^ 52) (Nat.div_add_mod' _ _).symm (Nat.mod_lt _ (by decide)) (by omega)
    have hsteps : 0 < (if w.toNat / 2 ^ 52 = 0 then w.toNat % 2 ^ 52
        else (2 ^ 52 + w.toNat % 2 ^ 52) * twoTo (w.toNat / 2 ^ 52 - 1)) := by
      split
      · omega
      · exact Nat.mul_pos (by omega) (twoTo_pos _)
    rw [hfields, compare?_finite, Option.some.injEq, compare_lt_iff_lt]
    omega
  · have htop : w.toBitVec = 0x7ff0000000000000#64 := BitVec.eq_of_toNat_eq heq
    rw [htop]
    decide

theorem zero_lt_nearestFloat (hden : 0 < den) (h : den ≤ num) :
    0.0 < nearestFloat false num den := by
  have hle := nearestBits_le num den
  have hbits : (UInt64.ofNat (nearestBits num den)).toNat = nearestBits num den :=
    UInt64.toNat_ofNat_of_lt (by rw [UInt64.size]; omega)
  refine zero_lt_ofBits ?_ ?_
  · rw [hbits]
    exact nearestBits_pos hden h
  · rw [hbits]
    exact hle

theorem zero_lt_of_intToFloat {n : Int} {x : Float} (hn : 0 < n) (h : intToFloat n = .ok x) :
    0.0 < x := by
  unfold intToFloat at h
  split at h
  · next y hy =>
    unfold intFloat? quotientFloat? at hy
    dsimp only at hy
    split at hy
    · cases hy
    · have hsign : decide (n < 0) = false := decide_eq_false (Int.not_lt.mpr hn.le)
      rw [← Except.ok.inj h, ← Option.some.inj hy, hsign]
      exact zero_lt_nearestFloat (by decide) (by omega)
  · cases h

theorem roundHalfEven_nonneg {steps : Int} (h : 0 ≤ steps) : 0 ≤ roundHalfEven steps := by
  have hlow : 0 ≤ steps.fdiv stepsPerOne := Int.fdiv_nonneg h (Int.natCast_nonneg _)
  unfold roundHalfEven
  dsimp only
  split
  · exact hlow
  · split
    · omega
    · split
      · exact hlow
      · omega

theorem roundToInt_nonneg {x : Float} (hx : NotNegative (ofFloat x)) {n : Int}
    (h : roundToInt x = .ok n) : 0 ≤ n := by
  unfold roundToInt at h
  cases hvalue : ofFloat x with
  | finite steps =>
    rw [hvalue] at h hx
    rw [← Except.ok.inj h]
    exact roundHalfEven_nonneg hx
  | infinite negative =>
    rw [hvalue] at h
    cases h
  | undefined =>
    rw [hvalue] at h
    cases h

end Exact
end LeagueAudit
