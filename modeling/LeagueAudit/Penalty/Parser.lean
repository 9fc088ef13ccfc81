import LeagueAudit.Penalty.Model
import LeagueAudit.Record.Lax

/-!
Reading penalty models from descriptors, and pricing amounts by descriptors of any shape: what is no
model, or no positive finite amount, costs nothing.
-/
namespace LeagueAudit

/-- Why a descriptor is no penalty model. -/
inductive PenaltyFault where
  | notObject (typeName : String)
  | misfits (misfits : List Misfit)

namespace PenaltyFault

def message : PenaltyFault → String
  | notObject typeName => s!"Penalty descriptor must be an object, got {typeName}"
  | misfits ms =>
    "Invalid penalty descriptor: " ++ String.intercalate "; " (ms.map Misfit.brief)

def action : PenaltyFault → Option String
  | notObject _ => none
  | misfits _ => some "Check the penalty model fields (weight, tiers, exponent, base)."

def trouble (f : PenaltyFault) : Trouble :=
  ⟨.penaltyModel, f.message, "parse_penalty_model", f.action⟩

end PenaltyFault

namespace PenaltyModel

open Lax

/-- A positive double. -/
def readPositive (value : Json) : Read Float := do
  let x ← readFloat value
  if x > 0.0 then .ok x else .error (.greaterThan "0")

/-- A value that may be null. -/
def readOptional {α : Type} (read : Json → Read α) (value : Json) : Read (Option α) :=
  if value.isNull then .ok none else (read value).map some

def tierFields : List String := ["upTo", "up_to", "above", "weight"]

/-- Reads one tier: bounded by `upTo`, or a catch-all by `above`. -/
def readTier (value : Json) : Tier Float × List Misfit :=
  match value with
  | .obj members =>
    let (limit, m1) := field members ["upTo", "up_to"] none (readOptional readPositive)
    let (above, m2) := field members ["above"] none (readOptional readFloat)
    let (weight, m3) := field members ["weight"] 0.0 readFloat
    let extra := (members.filter fun (k, _) => !isTierField members k).map fun (k, v) =>
      (Misfit.ofJson .declared v).below k
    let misfits := m1 ++ m2 ++ m3 ++ extra
    let unbounded := misfits.isEmpty && limit.isNone && above.isNone
    (⟨limit, weight⟩,
      if unbounded then
        [Misfit.ofJson (.stated "piecewise tier needs either 'upTo' or 'above'") value]
      else misfits)
  | _ => (⟨none, 0.0⟩, [Misfit.ofJson (.record "PiecewiseTier") value])
where
  isTierField (members : List (String × Json)) (key : String) : Bool :=
    tierFields.contains key && !(key == "up_to" && (members.lookup "upTo").isSome)

/-- Reads tiers from a position on. -/
def readTiers (position : Nat) : List Json → List (Tier Float) × List Misfit
  | [] => ([], [])
  | value :: rest =>
    let (tier, misfits) := readTier value
    let (tiers, more) := readTiers (position + 1) rest
    (tier :: tiers, misfits.map (Misfit.below (toString position)) ++ more)

def readTierList (members : List (String × Json)) : List (Tier Float) × List Misfit :=
  match members.lookup "tiers" with
  | none => ([], [])
  | some (.arr items) =>
    let (tiers, misfits) := readTiers 0 items
    (tiers, misfits.map (Misfit.below "tiers"))
  | some value => ([], [(Misfit.ofJson .list value).below "tiers"])

/-- The weight is written with a minus sign. -/
def hasMinus (members : List (String × Json)) : Bool :=
  match members.lookup "weight" with
  | some (.int n) => n < 0
  | some (.float x) => hasMinusSign x
  | some (.str s) => (trimNumber s).head? == some '-'
  | _ => false

/-- Reads a descriptor's fields by the model that it names; no name means linear. -/
def ofMembers (members : List (String × Json)) : PenaltyModel × List Misfit :=
  let number (names : List String) (default : Float) := field members names default readFloat
  let (w, mw) := number ["weight"] 0.0
  match members.lookup "model" with
  | none =>
    let (p, mp) := number ["perViolation", "per_violation"] 0.0
    (linear w p, mw ++ mp)
  | some .null =>
    let (p, mp) := number ["perViolation", "per_violation"] 0.0
    (linear w p, mw ++ [(Misfit.ofJson (.literally "linear") .null).below "model"] ++ mp)
  | some (.str name) =>
    match name with
    | "linear" =>
      let (p, mp) := number ["perViolation", "per_violation"] 0.0
      (linear w p, mw ++ mp)
    | "quadratic" =>
      let (e, me) := number ["exponent"] 2.0
      (quadratic w e (hasMinus members), mw ++ me)
    | "exponential" =>
      let (b, mb) := field members ["base"] eulerBase readPositive
      (exponential w b (hasMinus members), mw ++ mb)
    | "logarithmic" => (logarithmic w, mw)
    | "step" => (step w, mw)
    | "flat" => (step w, mw)
    | "lexicographic" =>
      let (w, mw) := number ["weight"] 1.0
      (lexicographic w, mw)
    | "piecewise" =>
      let (tiers, mt) := readTierList members
      (piecewise w tiers, mw ++ mt)
    | "tiered" =>
      let (tiers, mt) := readTierList members
      (piecewise w tiers, mw ++ mt)
    | name => (other w name, mw)
  | some value => (other w "", mw ++ [(Misfit.ofJson .text value).below "model"])

/-- Reads a descriptor. -/
def read (descriptor : Json) : Except PenaltyFault PenaltyModel :=
  match descriptor with
  | .obj members =>
    let (model, misfits) := ofMembers members
    if misfits.isEmpty then .ok model else .error (.misfits misfits)
  | j => .error (.notObject j.typeName)

/-- A short description of a descriptor. -/
def describeDescriptor (descriptor : Json) : String :=
  if descriptor.isNull then "no penalty"
  else
    match read descriptor with
    | .ok m => m.describe
    | .error _ => "invalid penalty model"

end PenaltyModel

/-- The amount that a value stands for; what is no positive finite number counts as zero. -/
def amountOf (value : Json) : Except Fault Float := do
  let x : Option Float ←
    match value with
    | .int n => do .ok (some (← intToFloat n))
    | .float x => .ok (some x)
    | .str s => .ok (readFreeFloat? s)
    | _ => .ok none
  match x with
  | some x => .ok (if x.isFinite && x > 0.0 then x else 0.0)
  | none => .ok 0.0

/-- The points of an amount under a descriptor. -/
def penaltyPoints (descriptor amount : Json) : Except Fault Float := do
  let x ← amountOf amount
  if x == 0.0 || descriptor.isNull then .ok 0.0
  else
    match PenaltyModel.read descriptor with
    | .ok m => .ok (m.pointsOf x)
    | .error _ => .ok 0.0

end LeagueAudit
