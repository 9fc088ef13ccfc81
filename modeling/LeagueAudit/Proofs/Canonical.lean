import LeagueAudit.Canonical
import LeagueAudit.Proofs.Json.Members

/-!
What the canonical layout depends on. Each part is replaced by itself: the scores do not bear on the
other parts, and the order of the assignments bears on nothing else.
-/
namespace LeagueAudit.Canonical

open Json

theorem find?_put (key other : String) (r : Replacement) (c : Canonical) :
    (put key r c).toJson.find? other =
      if other = key then (r.map (·.1)).or (c.toJson.find? key) else c.toJson.find? other := by
  cases r with
  | none =>
    split
    · next h => rw [h]; rfl
    · rfl
  | some p =>
    split
    · next h =>
      rw [h]
      exact lookup_setMember_self _ _ _
    · next h => exact lookup_setMember_of_ne h _ _

theorem substitutions_put (key : String) (r : Replacement) (c : Canonical) :
    (put key r c).substitutions = c.substitutions ++ (r.map (·.2)).toList := by
  cases r with
  | none => exact (List.append_nil _).symm
  | some p => rfl

theorem agreeBut_put {key part : String} {r r' : Replacement} {c c' : Canonical}
    (h : AgreeBut key c.toJson c'.toJson) (hr : part ≠ key → r = r') :
    AgreeBut key (put part r c).toJson (put part r' c').toJson where
  isObject := rfl
  find? := by
    intro other hother
    rw [find?_put, find?_put]
    split
    · next hpart =>
      subst hpart
      rw [hr hother, h.find? _ hother]
    · exact h.find? other hother

theorem feasible_congr {raw raw' : Json} (hhas : raw.has "feasible" = raw'.has "feasible")
    (hdetails : raw.field "details" = raw'.field "details")
    (hschedule : raw.field "schedule" = raw'.field "schedule")
    (hassignments : (raw.field "assignments").truthy = (raw'.field "assignments").truthy) :
    feasible raw = feasible raw' := by
  unfold feasible
  dsimp only
  rw [hhas, hdetails, hschedule, hassignments]

/-- The scores bear on no other part of the layout. -/
theorem agreeBut_scores {members members' : List (String × Json)}
    (h : AgreeBut "scores" (obj members) (obj members')) :
    AgreeBut "scores" (ofMembers members).toJson (ofMembers members').toJson := by
  have hassignments : (obj members).field "assignments" = (obj members').field "assignments" :=
    h.field (by decide)
  have hschedule : (obj members).field "schedule" = (obj members').field "schedule" :=
    h.field (by decide)
  have hfeasible : feasible (obj members) = feasible (obj members') :=
    feasible_congr (h.has (by decide)) (h.field (by decide)) hschedule (by rw [hassignments])
  have hscheduled :
      (obj members).field "scheduledFixtures" = (obj members').field "scheduledFixtures" :=
    h.field (by decide)
  have hfixtures : (obj members).field "fixtures" = (obj members').field "fixtures" :=
    h.field (by decide)
  have hlisted : assignments (obj members) = assignments (obj members') := by
    unfold assignments otherAssignments
    rw [hassignments, hschedule, hscheduled, hfixtures]
  exact agreeBut_put (agreeBut_put (agreeBut_put h fun _ => hfeasible) fun _ => hlisted)
    fun hne => absurd rfl hne

theorem assignments_of_listed {raw : Json} (h : (raw.field "assignments").isArray = true) :
    assignments raw = none := by
  unfold assignments
  rw [if_pos h]

theorem scores_congr {raw raw' : Json} (h : AgreeBut "assignments" raw raw') :
    scores raw = scores raw' := by
  have hfield : ∀ other, other ≠ "assignments" → raw.field other = raw'.field other :=
    fun other hother => h.field hother
  unfold scores builtScores
  simp [hfield]

/-- Assignments that are listed in their place stay as they are. -/
theorem field_assignments {members : List (String × Json)}
    (h : ((obj members).field "assignments").isArray = true) :
    (ofMembers members).toJson.field "assignments" = (obj members).field "assignments" := by
  unfold ofMembers Json.field
  dsimp only
  rw [find?_put, if_neg (by decide), assignments_of_listed h]
  change ((put "feasible" _ _).toJson.find? "assignments").getD null = _
  rw [find?_put, if_neg (by decide)]
  rfl

/-- The order of the assignments bears on no other part of the layout. -/
theorem agreeBut_assignments {members members' : List (String × Json)}
    (h : AgreeBut "assignments" (obj members) (obj members'))
    (hlisted : ((obj members).field "assignments").isArray = true)
    (hlisted' : ((obj members').field "assignments").isArray = true)
    (htruthy : ((obj members).field "assignments").truthy =
      ((obj members').field "assignments").truthy) :
    AgreeBut "assignments" (ofMembers members).toJson (ofMembers members').toJson ∧
      (ofMembers members).warnings = (ofMembers members').warnings := by
  have hfeasible : feasible (obj members) = feasible (obj members') :=
    feasible_congr (h.has (by decide)) (h.field (by decide)) (h.field (by decide)) htruthy
  have hscores := scores_congr h
  unfold ofMembers warnings
  dsimp only
  rw [assignments_of_listed hlisted, assignments_of_listed hlisted']
  constructor
  · exact agreeBut_put (agreeBut_put (agreeBut_put h fun _ => hfeasible) fun _ => rfl)
      fun _ => hscores
  · simp only [substitutions_put, hfeasible, hscores]

end LeagueAudit.Canonical
