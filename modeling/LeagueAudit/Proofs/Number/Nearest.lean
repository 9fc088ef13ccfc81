import LeagueAudit.Number.Sum
import LeagueAudit.Proofs.Number.Rounding
import LeagueAudit.Proofs.Outcome
import Mathlib.Algebra.BigOperators.Group.List.Basic
import Mathlib.Tactic.Linarith

/-!
The double nearest to a whole number of steps, and sums that are rounded once.
-/
namespace LeagueAudit

open Float.Model

namespace Exact

open Double

theorem divNearest_spec (a : Nat) {b : Nat} (hb : 0 < b) :
    2 * (divNearest a b * b) ≤ 2 * a + b ∧ 2 * a ≤ 2 * (divNearest a b * b) + b := by
  have hdiv := Nat.div_add_mod' a b
  have hmod := Nat.mod_lt a hb
  unfold divNearest
  dsimp only
  split
  · omega
  · split
    · rw [Nat.add_mul]
      omega
    · split
      · omega
      · rw [Nat.add_mul]
        omega

theorem ofFields_of_fields {b : BitVec 64} {e f : Nat} (hb : b.toNat = e * 2 ^ 52 + f)
    (hf : f < 2 ^ 52) (he : e < 2047) :
    ofFields b = finite (if e = 0 then f else (2 ^ 52 + f) * twoTo (e - 1) : Nat) := by
  have hfraction : fraction b = f := by
    rw [fraction, hb]
    omega
  have hexponent : exponent b = e := by
    rw [exponent, hb]
    omega
  have hsign : sign b = .positive := if_neg (by omega)
  rw [ofFields, magnitude, hfraction, hexponent, hsign, if_neg (by omega)]
  rfl

/-- The bits of a positive number with a mantissa of 53 digits, or fewer if the exponent is least;
a mantissa of one digit more carries into the exponent. -/
theorem ofFields_bits {r q : Nat} (hle : r ≤ 2 ^ 53) (hfull : q ≠ 0 → 2 ^ 52 ≤ r) {b : BitVec 64}
    (hb : b.toNat = min (if r < 2 ^ 52 then r else (q + 1) * 2 ^ 52 + (r - 2 ^ 52))
      0x7ff0000000000000) :
    ofFields b = finite (r * 2 ^ q : Nat) ∨ ofFields b = infinite false := by
  by_cases hsmall : r < 2 ^ 52
  · have hq : q = 0 := by
      by_contra h
      exact absurd (hfull h) (by omega)
    rw [if_pos hsmall, Nat.min_eq_left (by omega)] at hb
    rw [ofFields_of_fields (e := 0) (hb.trans (by omega)) hsmall (by decide), if_pos rfl, hq,
      Nat.pow_zero, Nat.mul_one]
    exact .inl rfl
  · rw [if_neg hsmall] at hb
    by_cases htop : 0x7ff0000000000000 ≤ (q + 1) * 2 ^ 52 + (r - 2 ^ 52)
    · rw [Nat.min_eq_right htop] at hb
      have h : b = 0x7ff0000000000000#64 := BitVec.eq_of_toNat_eq hb
      rw [h]
      exact .inr (by decide)
    · rw [Nat.min_eq_left (by omega)] at hb
      left
      rcases Nat.lt_or_eq_of_le hle with hlt | rfl
      · rw [ofFields_of_fields hb (by omega) (by omega), if_neg (by omega),
          Nat.add_sub_cancel' (by omega)]
        rfl
      · have hbits : b.toNat = (q + 2) * 2 ^ 52 + 0 := by
          rw [hb]
          ring
        rw [ofFields_of_fields hbits (by omega) (by omega), if_neg (by omega)]
        congr 2
        change 2 ^ 52 * 2 ^ (q + 1) = 2 ^ 53 * 2 ^ q
        rw [Nat.pow_succ]
        ring

theorem log2_twoTo (n : Nat) : (twoTo n).log2 = n := Nat.log2_two_pow

/-- A quotient is less than the least mantissa of 53 digits with this weight. -/
def isBelow (num den : Nat) (unit : Int) : Bool :=
  if unit ≥ 0 then num < twoTo 52 * (den * twoTo unit.toNat)
  else num * twoTo (-unit).toNat < twoTo 52 * den

/-- The weight of the last digit of a quotient that is rounded to 53 digits. -/
def lastUnit (num den : Nat) : Int :=
  let guess : Int := max ((num.log2 : Int) - den.log2 - 52) (-1074)
  if isBelow num den guess ∧ guess > -1074 then guess - 1 else guess

/-- A quotient, rounded to a multiple of a weight. -/
def mantissaAt (num den : Nat) (unit : Int) : Nat :=
  if unit ≥ 0 then divNearest num (den * twoTo unit.toNat)
  else divNearest (num * twoTo (-unit).toNat) den

theorem nearestBits_eq {num : Nat} (den : Nat) (h : num ≠ 0) :
    nearestBits num den =
      let unit := lastUnit num den
      let mantissa := mantissaAt num den unit
      min (if mantissa < 2 ^ 52 then mantissa
        else (unit + 1075).toNat * 2 ^ 52 + (mantissa - 2 ^ 52)) 0x7ff0000000000000 := by
  rw [nearestBits, if_neg h]
  rfl

theorem twoTo_mul (a b : Nat) : twoTo a * twoTo b = twoTo (a + b) := (Nat.pow_add 2 a b).symm

theorem twoTo_pos (a : Nat) : 0 < twoTo a := Nat.pow_pos (by decide)

theorem stepsPerOne_mul {q : Nat} (h : (q : Int) - 1074 ≥ 0) :
    stepsPerOne * twoTo ((q : Int) - 1074).toNat = twoTo q := by
  have hq : 1074 + ((q : Int) - 1074).toNat = q := by omega
  rw [stepsPerOne, twoTo_mul, hq]

theorem stepsPerOne_eq {q : Nat} (h : ¬(q : Int) - 1074 ≥ 0) :
    stepsPerOne = twoTo q * twoTo (-((q : Int) - 1074)).toNat := by
  have hq : q + (-((q : Int) - 1074)).toNat = 1074 := by omega
  rw [twoTo_mul, hq, stepsPerOne]

theorem isBelow_steps (n q : Nat) :
    isBelow n stepsPerOne (q - 1074) = decide (n < twoTo 52 * twoTo q) := by
  unfold isBelow
  split
  · next h => rw [stepsPerOne_mul h]
  · next h =>
    rw [decide_eq_decide, stepsPerOne_eq h, ← Nat.mul_assoc]
    exact Nat.mul_lt_mul_right (twoTo_pos _)

theorem lastUnit_steps (n : Nat) : lastUnit n stepsPerOne = (n.log2 - 52 : Nat) - 1074 := by
  have hdigits : stepsPerOne.log2 = 1074 := log2_twoTo 1074
  have hguess : max ((n.log2 : Int) - stepsPerOne.log2 - 52) (-1074) =
      (n.log2 - 52 : Nat) - 1074 := by
    rw [hdigits]
    omega
  unfold lastUnit
  rw [hguess]
  dsimp only
  rw [if_neg]
  rintro ⟨hbelow, hmore⟩
  rw [isBelow_steps, decide_eq_true_eq, twoTo_mul] at hbelow
  have hlog := (Nat.log2_lt (by rintro rfl; exact absurd hmore (by decide))).mpr hbelow
  omega

theorem mantissaAt_steps (n q : Nat) :
    2 * (mantissaAt n stepsPerOne (q - 1074) * twoTo q) ≤ 2 * n + twoTo q ∧
      2 * n ≤ 2 * (mantissaAt n stepsPerOne (q - 1074) * twoTo q) + twoTo q := by
  unfold mantissaAt
  split
  · next h =>
    rw [stepsPerOne_mul h]
    exact divNearest_spec n (twoTo_pos q)
  · next h =>
    have hpos := twoTo_pos (-((q : Int) - 1074)).toNat
    have hspec := divNearest_spec (n * twoTo (-((q : Int) - 1074)).toNat) (twoTo_pos 1074)
    rw [← stepsPerOne] at hspec
    generalize divNearest (n * twoTo (-((q : Int) - 1074)).toNat) stepsPerOne = r at hspec ⊢
    rw [stepsPerOne_eq h] at hspec
    exact ⟨Nat.le_of_mul_le_mul_right (by linarith) hpos,
      Nat.le_of_mul_le_mul_right (by linarith) hpos⟩

theorem roundsTo_nearestBits {n : Nat} (hn : 0 < n) {b : BitVec 64}
    (hb : b.toNat = nearestBits n stepsPerOne) : RoundsTo n (ofFields b) := by
  obtain ⟨q, hq⟩ : ∃ q, q = n.log2 - 52 := ⟨_, rfl⟩
  obtain ⟨r, hr⟩ : ∃ r, r = mantissaAt n stepsPerOne (q - 1074) := ⟨_, rfl⟩
  obtain ⟨hlow, hhigh⟩ := mantissaAt_steps n q
  rw [← hr] at hlow hhigh
  have hupper : n < 2 ^ 53 * 2 ^ q := by
    rw [← Nat.pow_add]
    exact (Nat.log2_lt (by omega)).mp (by omega)
  have hlower : q ≠ 0 → 2 ^ 52 * 2 ^ q ≤ n := by
    intro hne
    rw [← Nat.pow_add]
    exact (Nat.le_log2 (by omega)).mp (by omega)
  obtain ⟨hnear, hle, hfull⟩ := near_of_cut hlow hhigh hupper hlower
  have hexponent : ((q : Int) - 1074 + 1075).toNat = q + 1 := by omega
  rw [nearestBits_eq _ (by omega), lastUnit_steps, ← hq] at hb
  dsimp only at hb
  rw [← hr, hexponent] at hb
  rcases ofFields_bits hle (hfull ∘ hlower) hb with h | h
  · rw [h]
    exact .near (hnear.apply .positive)
  · rw [h]
    exact .beyond _

theorem nearestBits_le (num den : Nat) : nearestBits num den ≤ 0x7ff0000000000000 := by
  by_cases h : num = 0
  · rw [h, nearestBits, if_pos rfl]
    exact Nat.zero_le _
  · rw [nearestBits_eq den h]
    exact Nat.min_le_right _ _

/-- A whole number of steps is rounded once. -/
theorem roundsTo_stepsFloat (n : Int) : RoundsTo n (ofFloat (stepsFloat n)) := by
  rcases eq_or_ne n 0 with rfl | hn
  · have h : ofFloat (stepsFloat 0) = finite 0 := by decide +kernel
    rw [h]
    exact roundsTo_self 0
  have hbits : (UInt64.ofNat (nearestBits n.natAbs stepsPerOne)).toBitVec.toNat =
      nearestBits n.natAbs stepsPerOne := by
    have hle := nearestBits_le n.natAbs stepsPerOne
    exact UInt64.toNat_ofNat_of_lt (by rw [UInt64.size]; omega)
  have hmagnitude := roundsTo_nearestBits (Int.natAbs_pos.mpr hn) hbits
  rw [← ofFloat_ofBits] at hmagnitude
  unfold stepsFloat nearestFloat
  dsimp only
  by_cases hneg : n < 0
  · have hopposite := hmagnitude.neg
    rw [← ofFloat_neg, Int.ofNat_natAbs_of_nonpos hneg.le, Int.neg_neg] at hopposite
    rwa [if_pos (decide_eq_true hneg)]
  · rw [Int.natAbs_of_nonneg (Int.not_lt.mp hneg)] at hmagnitude
    rwa [if_neg (by simpa using hneg)]

/-- The steps of a double that stands for a number. -/
def stepsOf (x : Float) : Int :=
  match ofFloat x with
  | finite steps => steps
  | _ => 0

/-- A double is neither infinite nor undefined. -/
def IsFinite (x : Float) : Prop := ofFloat x = finite (stepsOf x)

instance (x : Float) : Decidable (IsFinite x) := inferInstanceAs (Decidable (_ = _))

theorem stepsOf_eq {x : Float} {n : Int} (h : ofFloat x = finite n) : stepsOf x = n := by
  rw [stepsOf, h]

theorem isFinite_of_eq {x : Float} {n : Int} (h : ofFloat x = finite n) : IsFinite x := by
  rw [IsFinite, stepsOf_eq h, h]

theorem isInf_eq_false {x : Float} (hx : IsFinite x) : x.isInf = false := by
  rw [Bool.eq_false_iff, ne_eq, isInf_iff, hx]
  simp

theorem isNaN_eq_false {x : Float} (hx : IsFinite x) : x.isNaN = false := by
  rw [Bool.eq_false_iff, ne_eq, isNaN_iff, hx]
  simp

theorem isFinite_iff (x : Float) : x.isFinite = true ↔ IsFinite x := by
  have h : x.isFinite = x.toModel.unpack.isFinite := rfl
  rw [h, IsFinite, stepsOf, ofFloat_eq]
  cases x.toModel.unpack with
  | finite s m e hm => exact iff_of_true rfl rfl
  | zero s => exact iff_of_true rfl rfl
  | _ => exact iff_of_false Bool.false_ne_true nofun

theorem isFinite_stepsFloat {n : Int} (h : (stepsFloat n).isInf = false) :
    IsFinite (stepsFloat n) := by
  have hrounds := roundsTo_stepsFloat n
  generalize hvalue : ofFloat (stepsFloat n) = value at hrounds
  cases hrounds with
  | near _ => exact isFinite_of_eq hvalue
  | beyond negative =>
    rw [(isInf_iff _).mpr ⟨negative, hvalue⟩] at h
    cases h

/-- The sum of the terms in steps, without rounding. -/
def sumSteps (xs : List Float) : Int := (xs.map stepsOf).sum

theorem sumSteps_perm {xs ys : List Float} (h : xs.Perm ys) : sumSteps xs = sumSteps ys :=
  (h.map stepsOf).sum_eq

/-- The sums of numbers that are close to each other one by one are as close as these add up to. -/
theorem abs_sumSteps_sub_le {α : Type} {c : Int} (hc : 0 ≤ c) {f g : α → Float} {bound : α → Int}
    {xs : List α} (h : ∀ x ∈ xs, c * |stepsOf (f x) - stepsOf (g x)| ≤ bound x) :
    c * |sumSteps (xs.map f) - sumSteps (xs.map g)| ≤ (xs.map bound).sum := by
  induction xs with
  | nil => exact (mul_zero c).le
  | cons x rest ih =>
    have hfirst := h x List.mem_cons_self
    have hrest := ih fun y hy => h y (List.mem_cons_of_mem x hy)
    have hf : sumSteps ((x :: rest).map f) = stepsOf (f x) + sumSteps (rest.map f) := rfl
    have hg : sumSteps ((x :: rest).map g) = stepsOf (g x) + sumSteps (rest.map g) := rfl
    rw [hf, hg, add_sub_add_comm, List.map_cons, List.sum_cons]
    calc c * |stepsOf (f x) - stepsOf (g x) + (sumSteps (rest.map f) - sumSteps (rest.map g))|
        ≤ c * (|stepsOf (f x) - stepsOf (g x)| +
            |sumSteps (rest.map f) - sumSteps (rest.map g)|) :=
          Int.mul_le_mul_of_nonneg_left (abs_add_le _ _) hc
      _ ≤ bound x + (rest.map bound).sum := by
          rw [Int.mul_add]
          exact Int.add_le_add hfirst hrest

/-- What rounding takes from the sum of the terms. -/
def sumRounding (xs : List Float) : Int := |stepsOf (stepsFloat (sumSteps xs)) - sumSteps xs|

/-- What rounding takes from a difference. -/
def gapRounding (x y : Float) : Int := |stepsOf (y - x) - (stepsOf y - stepsOf x)|

theorem sumRounding_le {xs : List Float} (h : IsFinite (stepsFloat (sumSteps xs))) :
    2 ^ 53 * sumRounding xs ≤ |sumSteps xs| := by
  have hrounds := roundsTo_stepsFloat (sumSteps xs)
  rw [h] at hrounds
  cases hrounds with
  | near hnear => exact hnear

theorem gapRounding_le {x y : Float} (hx : IsFinite x) (hy : IsFinite y)
    (h : IsFinite (y - x)) : 2 ^ 53 * gapRounding x y ≤ |stepsOf y - stepsOf x| := by
  have hrounds := roundsTo_sub hy hx
  rw [h] at hrounds
  cases hrounds with
  | near hnear => exact hnear

/-- The rounded sums are apart by what rounding takes from them and by what the exact ones are. -/
theorem abs_sub_stepsFloat_le (n : Int) (xs ys : List Float) :
    |n - stepsOf (stepsFloat (sumSteps ys))| ≤ |n - stepsOf (stepsFloat (sumSteps xs))| +
      sumRounding xs + |sumSteps xs - sumSteps ys| + sumRounding ys := by
  have hfirst := abs_sub_le n (stepsOf (stepsFloat (sumSteps xs)))
    (stepsOf (stepsFloat (sumSteps ys)))
  have hsecond := abs_sub_le (stepsOf (stepsFloat (sumSteps xs))) (sumSteps xs)
    (stepsOf (stepsFloat (sumSteps ys)))
  have hthird := abs_sub_le (sumSteps xs) (sumSteps ys) (stepsOf (stepsFloat (sumSteps ys)))
  rw [abs_sub_comm (sumSteps ys)] at hthird
  unfold sumRounding
  omega

end Exact

namespace RunningSum

open Exact

/-- Numbers are added exactly, as long as no running sum is beyond the largest double. -/
theorem foldlM_add {xs : List Float} (hfinite : ∀ x ∈ xs, IsFinite x) {n : Int} {s : RunningSum}
    (hn : (stepsFloat n).isInf = false)
    (h : xs.foldlM add ⟨n, false, false, false⟩ = .ok s) :
    s = ⟨n + sumSteps xs, false, false, false⟩ ∧
      (stepsFloat (n + sumSteps xs)).isInf = false := by
  induction xs generalizing n with
  | nil =>
    cases Except.ok.inj h
    rw [sumSteps, List.map_nil, List.sum_nil, Int.add_zero]
    exact ⟨rfl, hn⟩
  | cons x rest ih =>
    obtain ⟨next, hnext, h⟩ := bind_eq_ok.mp h
    rw [add, hfinite x List.mem_cons_self] at hnext
    dsimp only at hnext
    split at hnext
    · cases hnext
    · next hin =>
      cases Except.ok.inj hnext
      obtain ⟨rfl, hend⟩ := ih (fun y hy => hfinite y (List.mem_cons_of_mem x hy))
        (Bool.eq_false_iff.mpr hin) h
      have hsum : n + sumSteps (x :: rest) = n + stepsOf x + sumSteps rest := by
        rw [sumSteps, List.map_cons, List.sum_cons, Int.add_assoc]
        rfl
      rw [hsum]
      exact ⟨rfl, hend⟩

end RunningSum

open Exact in
/-- The sum of numbers is rounded once. -/
theorem exactSum_eq_ok {xs : List Float} (hfinite : ∀ x ∈ xs, IsFinite x) {total : Float}
    (h : exactSum xs = .ok total) : total = stepsFloat (sumSteps xs) ∧ IsFinite total := by
  obtain ⟨s, hs, h⟩ := bind_eq_ok.mp h
  obtain ⟨rfl, hend⟩ := RunningSum.foldlM_add hfinite (by decide +kernel) hs
  rw [Int.zero_add] at h hend
  cases Except.ok.inj h
  exact ⟨rfl, isFinite_stepsFloat hend⟩

end LeagueAudit
