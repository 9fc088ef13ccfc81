import LeagueAudit.Fault
import LeagueAudit.Proofs.Number.Nearest
import Mathlib.Data.List.DropRight

/-!
When terms add up. What a sum has met decides how it goes on: the exact part holds the terms since
the last one that is not finite, and it must stay within the doubles from term to term. Infinities
of both signs have no sum either.
-/
namespace LeagueAudit

namespace Exact

/-- The sum of the terms behind the last one that is not finite, without rounding. -/
def openSteps (xs : List Float) : Int := sumSteps (xs.rtakeWhile fun x => decide (IsFinite x))

/-- Infinities of both signs are among the terms. -/
def Opposed (xs : List Float) : Prop :=
  infinite false ∈ xs.map ofFloat ∧ infinite true ∈ xs.map ofFloat

/-- Terms have a sum: what is added up exactly is within the doubles after each of them, and no
infinity meets the opposite one. -/
structure AddsUp (xs : List Float) : Prop where
  within : ∀ part, part <+: xs → IsFinite (stepsFloat (openSteps part))
  unopposed : ¬Opposed xs

variable {xs : List Float} {x : Float}

theorem sumSteps_concat (xs : List Float) (x : Float) :
    sumSteps (xs ++ [x]) = sumSteps xs + stepsOf x := by
  simp [sumSteps]

theorem openSteps_concat (hx : IsFinite x) :
    openSteps (xs ++ [x]) = openSteps xs + stepsOf x := by
  rw [openSteps, List.rtakeWhile_concat, if_pos (decide_eq_true hx), sumSteps_concat, openSteps]

theorem openSteps_concat_of_not (hx : ¬IsFinite x) : openSteps (xs ++ [x]) = 0 := by
  rw [openSteps, List.rtakeWhile_concat, if_neg (by simpa using hx)]
  rfl

theorem isFinite_stepsFloat_zero : IsFinite (stepsFloat 0) := by decide +kernel

end Exact

namespace RunningSum

open Exact

/-- The running sum behind some terms. -/
def behind (xs : List Float) : RunningSum where
  steps := openSteps xs
  plusInfinity := decide (infinite false ∈ xs.map ofFloat)
  minusInfinity := decide (infinite true ∈ xs.map ofFloat)
  undefined := decide (Exact.undefined ∈ xs.map ofFloat)

/-- One more term is added unless the exact part leaves the doubles. -/
theorem add_behind_eq_ok_iff {xs : List Float} {x : Float} {s : RunningSum} :
    add (behind xs) x = .ok s ↔
      IsFinite (stepsFloat (openSteps (xs ++ [x]))) ∧ s = behind (xs ++ [x]) := by
  unfold add behind
  cases hx : ofFloat x with
  | finite n =>
    have hsteps : openSteps (xs ++ [x]) = openSteps xs + n := by
      rw [openSteps_concat (isFinite_of_eq hx), stepsOf_eq hx]
    dsimp only
    rw [hsteps]
    cases hin : (stepsFloat (openSteps xs + n)).isInf with
    | true =>
      have hout : ¬IsFinite (stepsFloat (openSteps xs + n)) := fun hfinite => by
        rw [isInf_eq_false hfinite] at hin
        cases hin
      simp [hout]
    | false => simp [isFinite_stepsFloat hin, hx, eq_comm]
  | infinite negative =>
    have hsteps : openSteps (xs ++ [x]) = 0 := openSteps_concat_of_not (by simp [IsFinite, hx])
    rw [hsteps]
    cases negative <;> simp [isFinite_stepsFloat_zero, hx, eq_comm]
  | undefined =>
    have hsteps : openSteps (xs ++ [x]) = 0 := openSteps_concat_of_not (by simp [IsFinite, hx])
    rw [hsteps]
    simp [isFinite_stepsFloat_zero, hx, eq_comm]

/-- All terms are added unless the exact part leaves the doubles behind one of them. -/
theorem foldlM_add_eq_ok_iff {xs : List Float} {s : RunningSum} :
    xs.foldlM add empty = .ok s ↔
      (∀ part, part <+: xs → IsFinite (stepsFloat (openSteps part))) ∧ s = behind xs := by
  -- The last term is taken off, as a running sum is told by all terms before.
  induction xs using List.reverseRecOn generalizing s with
  | nil =>
    have hempty : (.ok empty : Except SumFault RunningSum) = .ok s ↔ s = behind [] := by
      rw [Except.ok.injEq, eq_comm]
      rfl
    have hnone : ∀ part : List Float, part <+: [] → IsFinite (stepsFloat (openSteps part)) := by
      intro part hpart
      rw [List.prefix_nil.mp hpart]
      exact isFinite_stepsFloat_zero
    exact hempty.trans (and_iff_right hnone).symm
  | append_singleton xs x ih =>
    rw [List.foldlM_append, bind_eq_ok]
    have hlast : ∀ t : RunningSum, [x].foldlM add t = add t x := fun t => bind_pure _
    simp only [hlast, ih, List.prefix_concat_iff]
    constructor
    · rintro ⟨_, ⟨hwithin, rfl⟩, h⟩
      obtain ⟨hwhole, rfl⟩ := add_behind_eq_ok_iff.mp h
      exact ⟨fun part hpart => hpart.elim (fun heq => heq ▸ hwhole) (hwithin part), rfl⟩
    · rintro ⟨hwithin, rfl⟩
      exact ⟨_, ⟨fun part hpart => hwithin part (.inr hpart), rfl⟩,
        add_behind_eq_ok_iff.mpr ⟨hwithin _ (.inl rfl), rfl⟩⟩

theorem exists_result_behind_iff {xs : List Float} :
    (∃ total, (behind xs).result = .ok total) ↔ ¬Opposed xs := by
  have hopposed : ((behind xs).plusInfinity && (behind xs).minusInfinity) = true ↔ Opposed xs := by
    simp [behind, Opposed]
  rw [← hopposed]
  unfold result
  split
  · next h => simp [h]
  · next h =>
    refine iff_of_true ?_ h
    split_ifs <;> exact ⟨_, rfl⟩

end RunningSum

/-- Terms have a sum exactly when they add up. -/
theorem exists_sumFloats_iff {xs : List Float} :
    (∃ total, sumFloats xs = .ok total) ↔ Exact.AddsUp xs := by
  simp only [sumFloats, mapError_eq_ok, exactSum, bind_eq_ok, RunningSum.foldlM_add_eq_ok_iff]
  constructor
  · rintro ⟨total, _, ⟨hwithin, rfl⟩, htotal⟩
    exact ⟨hwithin, RunningSum.exists_result_behind_iff.mp ⟨total, htotal⟩⟩
  · rintro ⟨hwithin, hunopposed⟩
    obtain ⟨total, htotal⟩ := RunningSum.exists_result_behind_iff.mpr hunopposed
    exact ⟨total, _, ⟨hwithin, rfl⟩, htotal⟩

end LeagueAudit
