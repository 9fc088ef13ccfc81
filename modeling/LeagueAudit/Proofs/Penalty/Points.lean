import LeagueAudit.Penalty.Parser
import LeagueAudit.Proofs.Number.AboveZero
import LeagueAudit.Proofs.Number.Quotient

/-!
Which amounts have points. Under every descriptor, however malformed, an amount has points, which
are a number, unless it is a whole number beyond the doubles; without a model or without a finite
amount above zero the points are zero.
-/
namespace LeagueAudit

open Exact

/-- The double that an amount converts to. -/
def doubleOf? : Json → Option Float
  | .int n => intFloat? n
  | .float x => some x
  | .str s => readFreeFloat? s
  | _ => none

/-- An amount converts to a finite number above zero. -/
def Chargeable (amount : Json) (x : Float) : Prop :=
  doubleOf? amount = some x ∧ x.isFinite = true ∧ 0.0 < x

/-- There is nothing to charge: the descriptor is missing or no model, or the amount is no finite
number above zero. -/
def Free (descriptor amount : Json) : Prop :=
  descriptor = .null ∨ (∃ fault, PenaltyModel.read descriptor = .error fault) ∨
    ∀ x, ¬Chargeable amount x

/-- Points as an amount should have them under a descriptor. -/
structure Priced (descriptor amount : Json) (points : Float) : Prop where
  isNumber : points.isNaN = false
  free : Free descriptor amount → points = 0.0
  charged : ∀ model x, PenaltyModel.read descriptor = .ok model → Chargeable amount x →
    points = model.pointsOf x

/-- An amount is a whole number that rounds to no double. -/
def BeyondDoubles (amount : Json) : Prop :=
  ∃ n, amount = .int n ∧ twoTo 1024 ≤ n.natAbs + twoTo 970

variable {descriptor amount : Json}

theorem isNaN_zero : (0.0 : Float).isNaN = false := by decide +kernel

theorem PenaltyModel.isNaN_pointsOf (m : PenaltyModel) (x : Float) :
    (m.pointsOf x).isNaN = false := by
  unfold PenaltyModel.pointsOf
  split
  · exact isNaN_zero
  · dsimp only
    split
    · exact isNaN_zero
    · next h => exact Bool.eq_false_iff.mpr h

theorem beyondDoubles_int {n : Int} : BeyondDoubles (.int n) ↔ intFloat? n = none := by
  rw [intFloat?_eq_none_iff]
  constructor
  · rintro ⟨m, hm, h⟩
    rwa [Json.int.inj hm]
  · exact fun h => ⟨n, rfl, h⟩

theorem exists_intToFloat_iff {n : Int} :
    (∃ x, intToFloat n = .ok x) ↔ ¬BeyondDoubles (.int n) := by
  rw [beyondDoubles_int, intToFloat]
  cases intFloat? n <;> simp

/-- The amount that is charged: what is no finite number above zero counts as zero. -/
def chargedAmount (amount : Json) : Float :=
  match doubleOf? amount with
  | some x => if x.isFinite && x > 0.0 then x else 0.0
  | none => 0.0

theorem amountOf_eq_error (h : BeyondDoubles amount) :
    amountOf amount = .error .integerTooLarge := by
  obtain ⟨n, rfl, -⟩ := id h
  have hnone := beyondDoubles_int.mp h
  unfold amountOf
  dsimp only
  rw [intToFloat, hnone]
  rfl

theorem amountOf_eq_ok (h : ¬BeyondDoubles amount) :
    amountOf amount = .ok (chargedAmount amount) := by
  unfold amountOf chargedAmount doubleOf?
  cases amount with
  | int n =>
    obtain ⟨x, hx⟩ := Option.ne_none_iff_exists'.mp (mt beyondDoubles_int.mpr h)
    dsimp only
    rw [intToFloat, hx]
    rfl
  | float x => rfl
  | str s =>
    dsimp only
    cases readFreeFloat? s <;> rfl
  | _ => rfl

theorem chargedAmount_of_chargeable {x : Float} (h : Chargeable amount x) :
    chargedAmount amount = x := by
  obtain ⟨hdouble, hfinite, hpos⟩ := h
  unfold chargedAmount
  rw [hdouble]
  exact if_pos (Bool.and_eq_true_iff.mpr ⟨hfinite, decide_eq_true hpos⟩)

theorem chargedAmount_eq_zero (h : ∀ x, ¬Chargeable amount x) : chargedAmount amount = 0.0 := by
  unfold chargedAmount
  cases hdouble : doubleOf? amount with
  | none => rfl
  | some x =>
    dsimp only
    refine if_neg fun hpositive => ?_
    obtain ⟨hfinite, hpos⟩ := Bool.and_eq_true_iff.mp hpositive
    exact h x ⟨hdouble, hfinite, of_decide_eq_true hpos⟩

theorem penaltyPoints_eq_error (h : BeyondDoubles amount) :
    penaltyPoints descriptor amount = .error .integerTooLarge := by
  unfold penaltyPoints
  rw [amountOf_eq_error h]
  rfl

theorem not_free {model : PenaltyModel} {x : Float}
    (hmodel : PenaltyModel.read descriptor = .ok model) (hx : Chargeable amount x) :
    ¬Free descriptor amount := by
  rintro (rfl | ⟨fault, hfault⟩ | hnone)
  · cases hmodel
  · rw [hfault] at hmodel
    cases hmodel
  · exact hnone x hx

theorem priced_zero (h : Free descriptor amount) : Priced descriptor amount 0.0 where
  isNumber := isNaN_zero
  free _ := rfl
  charged _ _ hmodel hx := absurd h (not_free hmodel hx)

theorem priced_pointsOf {model : PenaltyModel} {x : Float}
    (hmodel : PenaltyModel.read descriptor = .ok model) (hx : Chargeable amount x) :
    Priced descriptor amount (model.pointsOf x) where
  isNumber := model.isNaN_pointsOf x
  free h := absurd h (not_free hmodel hx)
  charged model' x' hmodel' hx' := by
    rw [hmodel] at hmodel'
    rw [Except.ok.inj hmodel', Option.some.inj (hx.1.symm.trans hx'.1)]

/-- The points of an amount that has a double. -/
theorem exists_priced (h : ¬BeyondDoubles amount) :
    ∃ points, penaltyPoints descriptor amount = .ok points ∧ Priced descriptor amount points := by
  unfold penaltyPoints
  rw [amountOf_eq_ok h]
  dsimp only [bind, Except.bind]
  by_cases hx : ∃ x, Chargeable amount x
  · obtain ⟨x, hx⟩ := hx
    rw [chargedAmount_of_chargeable hx, ne_zero_of_zero_lt hx.2.2, Bool.false_or]
    split
    · next hnull =>
      refine ⟨_, rfl, priced_zero (.inl ?_)⟩
      cases descriptor <;> first | rfl | cases hnull
    · cases hmodel : PenaltyModel.read descriptor with
      | ok model => exact ⟨_, rfl, priced_pointsOf hmodel hx⟩
      | error fault => exact ⟨_, rfl, priced_zero (.inr (.inl ⟨fault, hmodel⟩))⟩
  · have hzero := chargedAmount_eq_zero (not_exists.mp hx)
    have hbeq : ((0.0 : Float) == 0.0) = true := by decide +kernel
    rw [hzero, hbeq, Bool.true_or, if_pos rfl]
    exact ⟨_, rfl, priced_zero (.inr (.inr (not_exists.mp hx)))⟩

/-- An amount has points, as it should have them, exactly if it is no whole number beyond the
doubles. -/
theorem exists_priced_iff (descriptor amount : Json) :
    (∃ points, penaltyPoints descriptor amount = .ok points ∧ Priced descriptor amount points) ↔
      ¬BeyondDoubles amount := by
  constructor
  · rintro ⟨points, hpoints, -⟩ hbeyond
    rw [penaltyPoints_eq_error hbeyond] at hpoints
    cases hpoints
  · exact exists_priced

/-- A whole number of 401 digits has no points. -/
theorem not_priced_tenTo400 : ¬∃ points,
    penaltyPoints (.obj [("model", .str "linear"), ("weight", .int 1)]) (.int (tenTo 400)) =
      .ok points := by
  rintro ⟨points, hpoints⟩
  have hbeyond : BeyondDoubles (.int (tenTo 400)) := ⟨_, rfl, by decide +kernel⟩
  rw [penaltyPoints_eq_error hbeyond] at hpoints
  cases hpoints

namespace PenaltyModel

open Lax

theorem field_eq {α : Type} (members : List (String × Json)) (names : List String) (default : α)
    (read : Json → Read α) : (field members names default read).1 = default ∨
      ∃ value, read value = .ok (field members names default read).1 := by
  unfold field
  split
  · exact .inl rfl
  · next name value _ =>
    cases hread : read value with
    | ok a => exact .inr ⟨value, hread⟩
    | error rule => exact .inl rfl

theorem readPositive_pos {value : Json} {x : Float} (h : readPositive value = .ok x) : 0.0 < x := by
  obtain ⟨y, -, hy⟩ := bind_eq_ok.mp h
  split at hy
  · next hpos => exact Except.ok.inj hy ▸ hpos
  · cases hy

theorem readTier_limit_pos {value : Json} {limit : Float}
    (h : (readTier value).1.limit = some limit) : 0.0 < limit := by
  unfold readTier at h
  split at h
  · next members =>
    have hlimit : (field members ["upTo", "up_to"] none (readOptional readPositive)).1 =
        some limit := h
    rcases field_eq members ["upTo", "up_to"] none (readOptional readPositive) with hnone | hread
    · rw [hlimit] at hnone
      cases hnone
    · obtain ⟨found, hfound⟩ := hread
      rw [hlimit] at hfound
      unfold readOptional at hfound
      split at hfound
      · cases hfound
      · obtain ⟨x, hx, hsome⟩ := map_eq_ok.mp hfound
        exact Option.some.inj hsome ▸ readPositive_pos hx
  · cases h

theorem readTiers_limit_pos {position : Nat} {values : List Json} {t : Tier Float}
    (ht : t ∈ (readTiers position values).1) {limit : Float} (h : t.limit = some limit) :
    0.0 < limit := by
  induction values generalizing position with
  | nil => cases ht
  | cons value rest ih =>
    rcases List.mem_cons.mp ht with rfl | hrest
    · exact readTier_limit_pos h
    · exact ih hrest

theorem readTierList_limit_pos {members : List (String × Json)} {t : Tier Float}
    (ht : t ∈ (readTierList members).1) {limit : Float} (h : t.limit = some limit) :
    0.0 < limit := by
  unfold readTierList at ht
  split at ht
  · cases ht
  · exact readTiers_limit_pos ht h
  · cases ht

theorem tiers_of_ofMembers {members : List (String × Json)} {w : Float} {tiers : List (Tier Float)}
    (h : (ofMembers members).1 = .piecewise w tiers) : tiers = (readTierList members).1 := by
  unfold ofMembers at h
  dsimp only at h
  split at h
  · cases h
  · cases h
  · split at h <;> cases h <;> rfl
  · cases h

/-- Limits that are read are above zero. -/
theorem limit_pos_of_read {descriptor : Json} {w : Float} {tiers : List (Tier Float)}
    (hread : PenaltyModel.read descriptor = .ok (.piecewise w tiers)) {t : Tier Float}
    (ht : t ∈ tiers) {limit : Float} (h : t.limit = some limit) : 0.0 < limit := by
  unfold PenaltyModel.read at hread
  split at hread
  · next members =>
    dsimp only at hread
    split at hread
    · rw [tiers_of_ofMembers (Except.ok.inj hread)] at ht
      exact readTierList_limit_pos ht h
    · cases hread
  · cases hread

end PenaltyModel

end LeagueAudit
