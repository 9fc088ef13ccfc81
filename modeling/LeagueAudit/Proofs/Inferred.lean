import LeagueAudit.Proofs.Layout

/-!
Feasibility that nobody declares is inferred from schedule data, and the assignments are mapped from
the first place that lists them. The two do not look in the same places, nor for the same thing:
the one for a value that is truthy in two places, the other for an array in four.
-/
namespace LeagueAudit.Canonical

open Json

/-- Feasibility is declared in no place where it could be. -/
structure Undeclared (raw : Json) : Prop where
  top : raw.has "feasible" = false
  details : ((raw.field "details").field "feasible").isNull = true
  schedule : ((raw.field "schedule").field "feasible").isNull = true

/-- Schedule data as feasibility is inferred from it. -/
def ShowsData (raw : Json) : Prop :=
  (raw.field "assignments").truthy = true ∨
    ((raw.field "schedule").field "fixtures").truthy = true

/-- Games are listed in the first of some places that is an array. -/
def Lists : List Json → Prop
  | [] => False
  | arr items :: _ => items ≠ []
  | _ :: rest => Lists rest

/-- The places that assignments are taken from. -/
def places (raw : Json) : List Json :=
  raw.field "assignments" :: (otherAssignments raw).map (·.2)

/-- A value that is neither truthy nor an array. -/
def Blank (value : Json) : Prop := value.truthy = false ∧ value.isArray = false

/-- How what is inferred and what is listed can disagree. -/
inductive Disagrees (raw : Json) : Prop where
  /-- Games are listed where feasibility is not inferred from. -/
  | overlooked (hassignments : Blank (raw.field "assignments"))
    (hschedule : Blank ((raw.field "schedule").field "fixtures"))
    (hlists : Lists [raw.field "scheduledFixtures", raw.field "fixtures"])
  /-- An empty list stands before games. -/
  | emptied (hassignments : raw.field "assignments" = arr [])
    (hschedule : ((raw.field "schedule").field "fixtures").truthy = true)
  /-- The assignments are something other than a list, and no games are listed elsewhere. -/
  | misshapen (hassignments : (raw.field "assignments").truthy = true)
    (harray : (raw.field "assignments").isArray = false)
    (hlists : ¬Lists ((otherAssignments raw).map (·.2)))
  /-- So are the fixtures of the schedule. -/
  | misplaced (hassignments : Blank (raw.field "assignments"))
    (hschedule : ((raw.field "schedule").field "fixtures").truthy = true)
    (harray : ((raw.field "schedule").field "fixtures").isArray = false)
    (hlists : ¬Lists [raw.field "scheduledFixtures", raw.field "fixtures"])

variable {raw value : Json} {rest : List Json}

theorem lists_cons_of_isArray (h : value.isArray = true) :
    Lists (value :: rest) ↔ value.truthy = true := by
  cases value with
  | arr items => simp [Lists, truthy]
  | _ => cases h

theorem lists_cons_of_not_isArray (h : value.isArray = false) :
    Lists (value :: rest) ↔ Lists rest := by
  cases value with
  | arr items => cases h
  | _ => exact Iff.rfl

theorem Disagrees.not_iff (h : Disagrees raw) : ¬(ShowsData raw ↔ Lists (places raw)) := by
  unfold ShowsData places
  cases h with
  | overlooked hassignments hschedule hlists =>
    rw [lists_cons_of_not_isArray hassignments.2, hassignments.1, hschedule.1]
    have h : Lists ((otherAssignments raw).map (·.2)) :=
      (lists_cons_of_not_isArray hschedule.2).mpr hlists
    simp [h]
  | emptied hassignments hschedule =>
    have hempty : (raw.field "assignments").truthy = false := by rw [hassignments]; rfl
    rw [lists_cons_of_isArray (by rw [hassignments]; rfl)]
    simp [hempty, hschedule]
  | misshapen hassignments harray hlists =>
    rw [lists_cons_of_not_isArray harray]
    simp [hassignments, hlists]
  | misplaced hassignments hschedule harray hlists =>
    rw [lists_cons_of_not_isArray hassignments.2]
    have h : ¬Lists ((otherAssignments raw).map (·.2)) := by
      rwa [otherAssignments, List.map_cons, lists_cons_of_not_isArray harray]
    simp [hschedule, h]

theorem disagrees_of_not_iff (h : ¬(ShowsData raw ↔ Lists (places raw))) : Disagrees raw := by
  unfold ShowsData places at h
  cases harray : (raw.field "assignments").isArray with
  | true =>
    rw [lists_cons_of_isArray harray] at h
    cases hassignments : raw.field "assignments" with
    | arr items =>
      cases items with
      | nil => exact .emptied hassignments (by simpa [hassignments, truthy] using h)
      | cons item rest => simp [hassignments, truthy] at h
    | _ => simp [hassignments, isArray] at harray
  | false =>
    rw [lists_cons_of_not_isArray harray] at h
    cases hassignments : (raw.field "assignments").truthy with
    | true => exact .misshapen hassignments harray (by simpa [hassignments] using h)
    | false =>
      rw [otherAssignments, List.map_cons] at h
      cases hplace : ((raw.field "schedule").field "fixtures").isArray with
      | true => simp [lists_cons_of_isArray hplace, hassignments] at h
      | false =>
        rw [lists_cons_of_not_isArray hplace] at h
        cases hschedule : ((raw.field "schedule").field "fixtures").truthy with
        | true =>
          exact .misplaced ⟨hassignments, harray⟩ hschedule hplace
            (by simpa [hassignments, hschedule] using h)
        | false =>
          exact .overlooked ⟨hassignments, harray⟩ ⟨hschedule, hplace⟩
            (by simpa [hassignments, hschedule] using h)

/-- What is inferred and what is listed agree but for these cases. -/
theorem showsData_iff_lists : (ShowsData raw ↔ Lists (places raw)) ↔ ¬Disagrees raw :=
  ⟨fun hiff h => h.not_iff hiff,
    fun h => Classical.byContradiction fun hnot => h (disagrees_of_not_iff hnot)⟩

/-- The assignments mapped from a place. -/
def mapped (place : String × Json) : Replacement :=
  match place.2 with
  | arr items => some (arr (items.map assignment), .mappedAssignments place.1 items.length)
  | _ => none

theorem assignments_eq (h : (raw.field "assignments").isArray = false) :
    Canonical.assignments raw = (otherAssignments raw).findSome? mapped := by
  unfold Canonical.assignments
  rw [h, if_neg Bool.false_ne_true]
  rfl

/-- A document that lists games. -/
def ListsGames (value : Json) : Prop := ∃ item items, value = arr (item :: items)

theorem listsGames_of_isArray (h : value.isArray = true) :
    ListsGames value ↔ value.truthy = true := by
  cases value with
  | arr items => cases items <;> simp [ListsGames, truthy]
  | _ => cases h

theorem not_listsGames (h : value.isArray = false) : ¬ListsGames value := by
  rintro ⟨item, items, rfl⟩
  cases h

theorem listsGames_findSome? (h : value.isArray = false) (places : List (String × Json)) :
    ListsGames (((places.findSome? mapped).map (·.1)).getD value) ↔ Lists (places.map (·.2)) := by
  induction places with
  | nil => exact iff_of_false (not_listsGames h) id
  | cons place rest ih =>
    obtain ⟨name, items⟩ := place
    cases items with
    | arr items => cases items <;> simp [mapped, Lists, ListsGames]
    | _ => exact ih

variable {members : List (String × Json)}

theorem listsGames_assignments : ListsGames ((ofMembers members).toJson.field "assignments") ↔
    Lists (places (obj members)) := by
  rw [field_ofMembers]
  change ListsGames (((Canonical.assignments (obj members)).map (·.1)).getD _) ↔ _
  unfold places
  cases harray : ((obj members).field "assignments").isArray with
  | true =>
    rw [assignments_eq_none_iff.mpr (.inl harray), lists_cons_of_isArray harray]
    exact listsGames_of_isArray harray
  | false =>
    rw [assignments_eq harray, lists_cons_of_not_isArray harray]
    exact listsGames_findSome? harray _

theorem feasible_of_undeclared (h : Undeclared (obj members)) :
    ∃ b, (ofMembers members).toJson.field "feasible" = .bool b ∧
      (b = true ↔ ShowsData (obj members)) := by
  rw [field_ofMembers]
  change ∃ b, ((Canonical.feasible (obj members)).map (·.1)).getD _ = _ ∧ _
  unfold Canonical.feasible ShowsData
  simp only [h.top, notNull?, h.details, h.schedule, if_true, Bool.false_eq_true, if_false,
    Bool.or_eq_true]
  split
  · next hshown => exact ⟨true, rfl, by simpa using hshown⟩
  · next hshown => exact ⟨false, rfl, by simpa using hshown⟩

/-- What becomes of a result that declares feasibility nowhere. It is feasible when it shows
schedule data, it lists games when one of the places does, and the two go together but in certain
cases. -/
structure Infers (raw : Json) (c : Canonical) : Prop where
  feasible : ∃ b, c.toJson.field "feasible" = .bool b ∧ (b = true ↔ ShowsData raw)
  assignments : ListsGames (c.toJson.field "assignments") ↔ Lists (places raw)
  agrees : (c.toJson.field "feasible" = .bool true ↔ ListsGames (c.toJson.field "assignments")) ↔
    ¬Disagrees raw

theorem infers_of_undeclared (h : Undeclared (obj members)) :
    ∃ c, Canonical.read (obj members) = .ok c ∧ Infers (obj members) c := by
  obtain ⟨b, hfeasible, hb⟩ := feasible_of_undeclared h
  refine ⟨ofMembers members, rfl, ⟨b, hfeasible, hb⟩, listsGames_assignments, ?_⟩
  rw [hfeasible, Json.bool.injEq, hb, listsGames_assignments]
  exact showsData_iff_lists

/-- A game is listed under a name of its own. -/
def scheduledElsewhere : List (String × Json) :=
  [("scheduledFixtures", arr [obj [("id", .str "F1")]])]

theorem infers_of_undeclared_scheduledElsewhere :
    ∃ c, Canonical.read (obj scheduledElsewhere) = .ok c ∧ Infers (obj scheduledElsewhere) c ∧
      Disagrees (obj scheduledElsewhere) := by
  have hundeclared : Undeclared (obj scheduledElsewhere) := ⟨rfl, rfl, rfl⟩
  obtain ⟨c, hc, hinfers⟩ := infers_of_undeclared hundeclared
  exact ⟨c, hc, hinfers, .overlooked ⟨rfl, rfl⟩ ⟨rfl, rfl⟩ (List.cons_ne_nil _ _)⟩

/-- A schedule that is there can be taken for infeasible. -/
theorem infeasible_scheduledElsewhere :
    Undeclared (obj scheduledElsewhere) ∧ ∃ c, Canonical.read (obj scheduledElsewhere) = .ok c ∧
      ¬(c.toJson.field "feasible" = .bool true ↔ ListsGames (c.toJson.field "assignments")) := by
  refine ⟨⟨rfl, rfl, rfl⟩, _, rfl, fun hiff => ?_⟩
  have hlists : ListsGames ((ofMembers scheduledElsewhere).toJson.field "assignments") :=
    ⟨_, _, rfl⟩
  cases hiff.mpr hlists

end LeagueAudit.Canonical
