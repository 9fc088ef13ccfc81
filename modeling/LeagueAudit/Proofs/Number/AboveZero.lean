import LeagueAudit.Proofs.Number.Quotient
import LeagueAudit.Proofs.Number.Value

/-!
Doubles above zero. A number of steps that is a whole number below `2 ^ 53` bounds what is rounded
from below, before and after rounding; so sums and differences above zero stay above zero, and so
does a number that is multiplied with, and then divided by, a whole number.
-/
namespace LeagueAudit

open Float.Model Float.Model.UnpackedFloat

namespace Exact

open Double

/-- A value of so many steps, or of more. -/
def AtLeast (n : Int) : Exact → Prop
  | finite steps => n ≤ steps
  | infinite negative => negative = false
  | undefined => False

variable {x y : Float} {n : Int} {value : Exact}

theorem AtLeast.mono (h : AtLeast n value) {k : Int} (hk : k ≤ n) : AtLeast k value := by
  cases value with
  | finite steps => exact hk.trans h
  | infinite negative => exact h
  | undefined => exact h

theorem AtLeast.notNegative (h : AtLeast n value) (hn : 0 ≤ n) : NotNegative value := by
  cases value with
  | finite steps => exact hn.trans h
  | infinite negative => exact h
  | undefined => exact h

/-- More than zero is one step or more. -/
theorem zero_lt_iff : 0.0 < x ↔ AtLeast 1 (ofFloat x) := by
  rw [lt_iff, ofFloat_zero]
  cases ofFloat x with
  | finite steps =>
    rw [compare?_finite, Option.some.injEq, compare_lt_iff_lt]
    exact Iff.rfl
  | infinite negative =>
    cases negative with
    | false => exact iff_of_true rfl rfl
    | true => exact iff_of_false nofun nofun
  | undefined => exact iff_of_false nofun id

theorem ne_zero_of_zero_lt (h : 0.0 < x) : (x == 0.0) = false := by
  rw [lt_iff, ofFloat_zero] at h
  rw [Bool.eq_false_iff, Ne, beq_iff, ofFloat_zero]
  cases hvalue : ofFloat x with
  | finite steps =>
    rw [hvalue, compare?_finite, Option.some.injEq, compare_lt_iff_lt] at h
    rw [compare?_finite, Option.some.injEq, compare_eq_iff_eq]
    exact h.ne'
  | infinite negative => cases negative <;> nofun
  | undefined => nofun

theorem zero_lt_of_not_le (h : ¬x ≤ 0.0) (hx : ofFloat x ≠ undefined) : 0.0 < x := by
  rw [le_iff, ofFloat_zero] at h
  rw [lt_iff, ofFloat_zero]
  cases hvalue : ofFloat x with
  | finite steps =>
    rw [hvalue, isLE_compare?_finite] at h
    rw [compare?_finite, Option.some.injEq, compare_lt_iff_lt]
    omega
  | infinite negative =>
    cases negative with
    | false => rfl
    | true => exact absurd (hvalue ▸ rfl) h
  | undefined => exact absurd hvalue hx

section Rounding

variable {m : Nat} {e : Int}

theorem atLeast_pack (hm : 0 < m) (h : Least m e) (hn : n ≤ scaled m e) :
    AtLeast n (ofFields (UnpackedFloat.pack Format.binary64 (.finite .positive m e hm))) := by
  rw [ofFields_pack_of_least h]
  split
  · exact hn
  · exact rfl

/-- Rounding misses a number by less than a step, or by less than what lies between it and the
bound. -/
theorem atLeast_round (hm : 0 < m) (he : -1074 ≤ e) (hpos : 0 < n) (hlt : n < 2 ^ 53)
    (hn : n ≤ scaled m e) : AtLeast n (ofFields (UnpackedFloat.pack Format.binary64
      (UnpackedFloat.round Format.binary64 .positive m e))) := by
  obtain ⟨m', e', hm', hround, hleast, -, hnear⟩ := round_eq .positive hm he
  rw [hround]
  exact atLeast_pack hm' hleast (by omega)

theorem Normalizes.atLeast {steps : Int} (h : Normalizes steps value) (hpos : 0 < n)
    (hlt : n < 2 ^ 53) (hn : n ≤ steps) : AtLeast n value := by
  cases h with
  | exact => exact hn
  | @rounded m e he hvalue =>
    have hunit : (0 : Int) < twoTo (e + 1074).toNat := Int.natCast_pos.mpr (twoTo_pos _)
    have hm : 0 < m := by
      by_contra hneg
      have hmul := Int.mul_nonpos_of_nonpos_of_nonneg (Int.not_lt.mp hneg) hunit.le
      omega
    have hscaled : (scaled m.toNat e : Int) = steps := by
      rw [scaled, Int.natCast_mul, Int.toNat_of_nonneg hm.le, hvalue]
    unfold UnpackedFloat.normalize
    rw [compare_gt_iff_gt.mpr hm]
    exact atLeast_round (by omega) he hpos hlt (hscaled ▸ hn)

end Rounding

section Arithmetic

theorem atLeast_sub {a b : Int} (hx : ofFloat x = finite a) (hy : ofFloat y = finite b)
    (hpos : 0 < n) (hlt : n < 2 ^ 53) (hn : n ≤ a - b) : AtLeast n (ofFloat (x - y)) :=
  (normalizes_sub hx hy).atLeast hpos hlt hn

theorem ofUnpacked_eq_infinite {u : UnpackedFloat} {negative : Bool}
    (h : ofUnpacked u = infinite negative) :
    u = .infinity (if negative then .negative else .positive) := by
  cases u with
  | infinity s => cases s <;> cases h <;> rfl
  | _ => cases h

/-- An infinity stays what it is when a finite number is taken from it. -/
theorem ofFloat_infinite_sub {negative : Bool} {b : Int} (hx : ofFloat x = infinite negative)
    (hy : ofFloat y = finite b) : ofFloat (x - y) = infinite negative := by
  rw [ofFloat_eq] at hx hy
  rw [ofFloat_sub, ofUnpacked_eq_infinite hx]
  generalize y.toModel.unpack = v at hy
  cases v with
  | infinity => cases hy
  | notANumber => cases hy
  | _ => cases negative <;> exact ofFloat_pack trivial

/-- What is no number is no number after a product. -/
theorem ofFloat_undefined_mul (hx : ofFloat x = undefined) (y : Float) :
    ofFloat (x * y) = undefined := by
  rw [ofFloat_eq] at hx
  rw [ofFloat_mul]
  generalize x.toModel.unpack = u at hx
  cases u with
  | notANumber => exact ofFloat_pack trivial
  | _ => cases hx

/-- An infinity stays what it is when something that is not below zero is added. -/
theorem ofFloat_add_infinite (hx : NotNegative (ofFloat x)) (hy : NotNegative (ofFloat y))
    (h : ofFloat x = infinite false ∨ ofFloat y = infinite false) :
    ofFloat (x + y) = infinite false := by
  rw [ofFloat_eq] at hx hy
  rw [ofFloat_eq, ofFloat_eq] at h
  rw [ofFloat_add]
  generalize x.toModel.unpack = u at *
  generalize y.toModel.unpack = v at *
  rcases h with h | h
  · rw [ofUnpacked_eq_infinite h]
    cases v with
    | infinity s =>
      cases s with
      | negative => cases hy
      | positive => exact ofFloat_pack trivial
    | notANumber => exact hy.elim
    | _ => exact ofFloat_pack trivial
  · rw [ofUnpacked_eq_infinite h]
    cases u with
    | infinity s =>
      cases s with
      | negative => cases hx
      | positive => exact ofFloat_pack trivial
    | notANumber => exact hx.elim
    | _ => exact ofFloat_pack trivial

/-- A sum is above zero when one term is, and the other one not below. -/
theorem zero_lt_add (hx : NotNegative (ofFloat x)) (hy : 0.0 < y) : 0.0 < x + y := by
  rw [zero_lt_iff] at hy ⊢
  have hy' := hy.notNegative (by decide)
  have hinfinite : ofFloat x = infinite false ∨ ofFloat y = infinite false →
      AtLeast 1 (ofFloat (x + y)) := fun h => (ofFloat_add_infinite hx hy' h) ▸ rfl
  cases hvalue : ofFloat x with
  | finite a =>
    cases hvalue' : ofFloat y with
    | finite b =>
      rw [hvalue] at hx
      rw [hvalue'] at hy
      exact (normalizes_add hvalue hvalue').atLeast (by decide) (by decide)
        (Int.add_le_add hx hy)
    | infinite negative =>
      rw [hvalue'] at hy
      exact hinfinite (.inr (hvalue'.trans (congrArg infinite hy)))
    | undefined => exact (hvalue' ▸ hy : AtLeast 1 undefined).elim
  | infinite negative =>
    rw [hvalue] at hx
    exact hinfinite (.inl (hvalue.trans (congrArg infinite hx)))
  | undefined => exact (hvalue ▸ hx : NotNegative undefined).elim

/-- Terms above zero add up to more than zero. -/
theorem zero_lt_foldl_add {terms : List Float} (hne : terms ≠ []) (h : ∀ t ∈ terms, 0.0 < t)
    {start : Float} (hstart : NotNegative (ofFloat start)) :
    0.0 < terms.foldl (· + ·) start := by
  induction terms generalizing start with
  | nil => exact absurd rfl hne
  | cons t rest ih =>
    have hsum := zero_lt_add hstart (h t List.mem_cons_self)
    cases rest with
    | nil => exact hsum
    | cons t' rest' =>
      exact ih (List.cons_ne_nil _ _) (fun u hu => h u (List.mem_cons_of_mem _ hu))
        ((zero_lt_iff.mp hsum).notNegative (by decide))

/-- What a positive double and a positive whole number are as parts. -/
theorem unpack_of_ofInt (hn : 0 < n) (hy : ofFloat y = ofInt n) :
    ∃ m e hm, y.toModel.unpack = .finite .positive m e hm ∧ Least m e ∧ 2 ^ 52 ≤ m ∧
      scaled m e = n.toNat * stepsPerOne := by
  have hv := canonical_unpack y
  rw [ofFloat_eq] at hy
  generalize y.toModel.unpack = v at hv hy
  cases v with
  | infinity => cases hy
  | notANumber => cases hy
  | zero s => exact absurd (eq_zero_of_ofInt hy) hn.ne'
  | finite s m e hm =>
    obtain ⟨hne, hs, hsteps⟩ := signed_of_whole hy
    have habs : n.natAbs = n.toNat := by omega
    rw [habs] at hs hsteps
    refine ⟨m, e, hm, ?_, hv.least, full_of_whole hv.least (by omega) hsteps, hsteps⟩
    cases s with
    | negative =>
      rw [Sign.apply] at hs
      omega
    | positive => rfl

/-- What a product with a whole number is rounded to, if the last digit counts single steps. -/
theorem le_of_product {m m' r k : Nat} {e e' : Int} {n : Nat} (hm : 0 < m) (hlow : -1074 ≤ e)
    (hlow' : -1074 ≤ e') (hsteps : scaled m' e' = n * stepsPerOne) (hcut : e + e' + k = -1074)
    (hround : 2 * (m * m') ≤ 2 * (r * 2 ^ k) + 2 ^ k) : n ≤ r := by
  obtain ⟨j, hj⟩ : ∃ j : Nat, e' = -(k + j : Nat) := ⟨(-e' - k).toNat, by omega⟩
  have hfactor : m' = n * 2 ^ j * 2 ^ k := by
    have hpower : (e' + 1074).toNat + (k + j) = 1074 := by omega
    have hsplit : stepsPerOne = 2 ^ j * 2 ^ k * twoTo (e' + 1074).toNat := by
      rw [← Nat.pow_add, Nat.add_comm j k, Nat.mul_comm, stepsPerOne, ← hpower]
      exact (twoTo_mul _ _).symm
    refine Nat.eq_of_mul_eq_mul_right (twoTo_pos (e' + 1074).toNat) ?_
    rw [scaled, hsplit] at hsteps
    rw [hsteps]
    ring
  have hmore : n * 2 ^ k ≤ m * m' := by
    rw [hfactor, Nat.mul_right_comm, ← Nat.mul_assoc, ← Nat.mul_assoc]
    refine Nat.le_trans ?_ (Nat.le_mul_of_pos_right _ (Nat.pow_pos (by decide)))
    rw [Nat.mul_assoc]
    exact Nat.le_mul_of_pos_left _ hm
  refine Nat.le_of_lt_add_one (Nat.lt_of_mul_lt_mul_right (a := 2 ^ k) ?_)
  have hunit : 0 < 2 ^ k := Nat.pow_pos (by decide)
  rw [Nat.succ_mul r]
  omega

/-- A positive double times a whole number has at least that number of steps. -/
theorem atLeast_mul (hx : 0.0 < x) (hn : 0 < n) (hlt : n < 2 ^ 53) (hy : ofFloat y = ofInt n) :
    AtLeast n (ofFloat (x * y)) := by
  obtain ⟨m', e', hm', hv, hleast', hfull', hsteps'⟩ := unpack_of_ofInt hn hy
  have hu := canonical_unpack x
  have hpositive := positive_unpack hx
  rw [ofFloat_mul, hv]
  generalize x.toModel.unpack = u at hu hpositive
  cases hpositive with
  | infinity => exact (ofFloat_pack (u := .infinity .positive) trivial) ▸ rfl
  | finite m e hm =>
    have hlow := hu.least.low
    have hlow' := hleast'.low
    have hlarge : 2 ^ 52 ≤ m * m' := hfull'.trans (Nat.le_mul_of_pos_left _ hm)
    have hlog : 52 ≤ (m * m').log2 := (Nat.le_log2 (by omega)).mpr hlarge
    obtain ⟨k, hk⟩ := Int.le.dest
      (show e + e' ≤ max (((m * m').log2 : Int) + (e + e') - 52) (-1074) by omega)
    obtain ⟨r, ⟨-, hhigh⟩, -, hfull, hrest, -⟩ :=
      roundWithAccuracy_of_leads .positive (leads_exact (m * m')) hk
    rw [Nat.mul_one] at hhigh
    have hsteps : n ≤ scaled r (e + e' + k) := by
      by_cases hcut : e + e' + k = -1074
      · have hr := le_of_product hm hlow hlow' hsteps' hcut hhigh
        rw [hcut, scaled]
        have hone : twoTo ((-1074 : Int) + 1074).toNat = 1 := rfl
        rw [hone, Nat.mul_one]
        omega
      · have hr := hfull hcut
        have hpower : 2 ≤ twoTo (e + e' + k + 1074).toNat := twoTo_le (j := 1) (by omega)
        have hmul := Nat.mul_le_mul hr hpower
        rw [scaled]
        omega
    have hne : r ≠ 0 := by
      rintro rfl
      rw [scaled, Nat.zero_mul] at hsteps
      omega
    obtain ⟨m'', e'', hm'', hround, hleast, hvalue⟩ := hrest hne
    rw [ofFloat_eq_ofFields]
    change AtLeast n (ofFields (UnpackedFloat.pack Format.binary64
      (roundWithAccuracy Format.binary64 .positive (m * m') (e + e') .exact)))
    rw [hround]
    exact atLeast_pack hm'' hleast (hvalue ▸ hsteps)

/-- A large double has no digits for small powers of two. -/
theorem twoTo_dvd_of_large {k : Nat} {steps : Int} (hx : ofFloat x = finite steps)
    (hlarge : (twoTo (53 + k) : Int) ≤ steps) : (twoTo k : Int) ∣ steps := by
  have hu := canonical_unpack x
  have hstep : (1 : Int) ≤ twoTo (53 + k) := Int.natCast_pos.mpr (twoTo_pos _)
  have hpositive := positive_unpack (x := x) (zero_lt_iff.mpr (hx ▸ hstep.trans hlarge))
  rw [ofFloat_eq] at hx
  generalize x.toModel.unpack = u at hu hx hpositive
  cases hpositive with
  | infinity => cases hx
  | finite m e hm =>
    have hsteps : (scaled m e : Int) = steps := finite.inj hx
    have hfew : m * twoTo (e + 1074).toNat ≤ twoTo (53 + (e + 1074).toNat) := by
      rw [← twoTo_mul]
      exact Nat.mul_le_mul_right _ hu.least.lt.le
    have hexponent : k ≤ (e + 1074).toNat := by
      by_contra hless
      have hpower : twoTo (53 + (e + 1074).toNat) < twoTo (53 + k) :=
        Nat.pow_lt_pow_right (by decide) (by omega)
      rw [← hsteps, scaled] at hlarge
      omega
    rw [← hsteps, scaled]
    exact Int.natCast_dvd_natCast.mpr
      (Nat.dvd_mul_left_of_dvd (Nat.pow_dvd_pow 2 hexponent) m)

/-- What has at least so many steps is still above zero when it is divided by this number. -/
theorem zero_lt_div (hn : 0 < n) (hx : AtLeast n (ofFloat x)) (hy : ofFloat y = ofInt n) :
    0.0 < x / y := by
  obtain ⟨m', e', hm', hv, hleast', -, hsteps'⟩ := unpack_of_ofInt hn hy
  have hu := canonical_unpack x
  have hpositive := positive_unpack (zero_lt_iff.mpr (hx.mono hn))
  have hvalue : ofFloat (x / y) = ofFields (UnpackedFloat.pack Format.binary64
      (UnpackedFloat.div Format.binary64 x.toModel.unpack y.toModel.unpack)) :=
    ofFloat_eq_ofFields (x / y)
  rw [ofFloat_eq] at hx
  rw [zero_lt_iff, hvalue, hv]
  generalize x.toModel.unpack = u at hu hpositive hx
  cases hpositive with
  | infinity => exact (ofFields_pack (u := .infinity .positive) trivial) ▸ rfl
  | finite m e hm =>
    have hsteps : n ≤ (scaled m e : Int) := hx
    obtain ⟨q, ⟨-, hhigh⟩, hfinite | hinfinite⟩ :=
      div_parts .positive .positive hm hm' hu.least.low hleast'.low
    · have hone : n.toNat * stepsPerOne ≤ scaled m e * stepsPerOne :=
        Nat.mul_le_mul_right _ (by omega)
      have hdivisor : 0 < n.toNat * stepsPerOne := Nat.mul_pos (by omega) (twoTo_pos 1074)
      have hq : q ≠ 0 := by
        rintro rfl
        rw [hsteps', Nat.zero_mul] at hhigh
        omega
      rw [hfinite]
      exact Int.natCast_pos.mpr (Nat.pos_of_ne_zero hq)
    · rw [hinfinite]
      rfl

/-- A whole number above zero is a double above zero, also when it is rounded. -/
theorem zero_lt_toFloat {count : Nat} (hcount : 0 < count) : 0.0 < count.toFloat := by
  rw [zero_lt_iff]
  rcases Nat.lt_or_ge count (2 ^ 53) with hlt | hge
  · have hone : (0 : Int) < stepsPerOne := Int.natCast_pos.mpr (twoTo_pos 1074)
    rw [Nat.toFloat, ofFloat_ofNat hlt]
    exact Int.mul_pos (Int.natCast_pos.mpr hcount) hone
  · obtain ⟨m, hm⟩ : ∃ m, m = count <<< 53 * 10 ^ 0 := ⟨_, rfl⟩
    have hdigits : m.log2 = count.log2 + 53 := by
      rw [hm, Nat.pow_zero, Nat.mul_one, log2_shiftLeft hcount]
    have hlog : 53 ≤ count.log2 := (Nat.le_log2 (by omega)).mpr hge
    have hpos : 0 < m := by
      rw [hm, Nat.shiftLeft_eq]
      exact Nat.mul_pos (Nat.mul_pos hcount (Nat.pow_pos (by decide))) (by decide)
    have hround : ofFloat count.toFloat = ofFields (UnpackedFloat.pack Format.binary64
        (roundWithAccuracy Format.binary64 .positive m (-53) .exact)) := by
      have hmodel : count.toFloat = .ofModel (Float.Model.ofScientific count 0) :=
        dif_neg fun h => absurd h.1 (Nat.not_lt.mpr hge)
      have hparts : UnpackedFloat.ofScientific Format.binary64 count 0 =
          roundWithAccuracy Format.binary64 .positive m (-53) .exact := by
        have hbits : Format.binary64.exponentBits = 11 := rfl
        unfold UnpackedFloat.ofScientific
        rw [dif_neg (Nat.ne_of_gt hcount), hbits, if_neg (by decide), if_neg (by omega),
          if_pos (by decide), hm]
        rfl
      rw [hmodel, ofFloat_eq_ofFields, ← hparts]
      rfl
    obtain ⟨k, hk⟩ := Int.le.dest
      (show (-53 : Int) ≤ max ((m.log2 : Int) + -53 - 52) (-1074) by omega)
    obtain ⟨r, -, -, hfull, hrest, -⟩ := roundWithAccuracy_of_leads .positive (leads_exact m) hk
    have hr := hfull (by omega)
    obtain ⟨m', e', hm', hparts, hleast, -⟩ := hrest (by omega)
    rw [hround, hparts]
    exact atLeast_pack hm' hleast (scaled_pos hm' e')

end Arithmetic

end Exact
end LeagueAudit
