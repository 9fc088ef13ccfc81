import LeagueAudit.Proofs.Canonical

/-!
The canonical layout as the image and the fixed points of reading. What is read stands in the
layout, and exactly the documents that stand in it already are left as they are, without a note.
-/
namespace LeagueAudit

namespace Json

theorem has_iff {key : String} {j : Json} : j.has key = true ↔ ∃ v, j.find? key = some v :=
  Option.isSome_iff_exists

/-- Equal values are arrays or objects together. -/
theorem shape_of_same {a b : Json} (h : a.same b = true) :
    a.isArray = b.isArray ∧ a.isObject = b.isObject := by
  cases a <;> cases b <;> first | exact ⟨rfl, rfl⟩ | cases h

/-- Every member of an object has an equal one in an equal object. -/
theorem exists_find?_of_same {a b : Json} (h : a.same b = true) {key : String} {v : Json}
    (hv : a.find? key = some v) : ∃ w, b.find? key = some w ∧ v.same w = true := by
  cases a with
  | obj xs =>
    cases b with
    | obj ys =>
      have hmembers : equalMembers true xs ys = true := (Bool.and_eq_true_iff.mp h).2
      clear h
      induction xs with
      | nil => cases hv
      | cons member rest ih =>
        obtain ⟨name, value⟩ := member
        obtain ⟨hfirst, hrest⟩ := Bool.and_eq_true_iff.mp hmembers
        have hlookup : ((name, value) :: rest).lookup key = some v := hv
        rw [lookup_cons_eq] at hlookup
        split at hlookup
        · next hname =>
          subst hname
          cases hlookup
          split at hfirst
          · next w hw => exact ⟨w, hw, hfirst⟩
          · cases hfirst
        · exact ih hlookup hrest
    | _ => cases h
  | _ => cases hv

/-- Members that are not null are arrays or objects together in equal objects. -/
theorem shape_of_same_field {a b : Json} (h : a.same b = true) {key : String}
    (hkey : a.field key ≠ null) : (a.field key).isArray = (b.field key).isArray ∧
      (a.field key).isObject = (b.field key).isObject := by
  unfold field at hkey ⊢
  cases hv : a.find? key with
  | none =>
    rw [hv] at hkey
    exact absurd rfl hkey
  | some v =>
    obtain ⟨w, hw, hsame⟩ := exists_find?_of_same h hv
    rw [hw]
    exact shape_of_same hsame

end Json

namespace Canonical

open Json

/-- The members that the layout is about. -/
def parts : List String := ["feasible", "assignments", "scores"]

/-- A document whose parts are in their places. Assignments that are listed nowhere have none. -/
structure InLayout (raw : Json) : Prop where
  feasible : raw.has "feasible" = true
  assignments : (raw.field "assignments").isArray = true ∨
    ∀ p ∈ otherAssignments raw, p.2.isArray = false
  scores : (raw.field "scores").isObject = true

/-- What a member is replaced by. -/
def replacementOf (raw : Json) (key : String) : Replacement :=
  if key = "feasible" then Canonical.feasible raw
  else if key = "assignments" then Canonical.assignments raw
  else if key = "scores" then Canonical.scores raw
  else none

variable {members : List (String × Json)} {raw : Json}

theorem feasible_eq_none_iff : Canonical.feasible raw = none ↔ raw.has "feasible" = true := by
  unfold Canonical.feasible
  dsimp only
  split
  · next h => simp [h]
  · next h =>
    split
    · simp [h]
    · simp [h]
    · split <;> simp [h]

theorem assignments_eq_none_iff : Canonical.assignments raw = none ↔
    (raw.field "assignments").isArray = true ∨ ∀ p ∈ otherAssignments raw, p.2.isArray = false := by
  unfold Canonical.assignments
  split
  · next h => simp [h]
  · next h =>
    rw [List.findSome?_eq_none_iff, or_iff_right h]
    refine forall₂_congr fun p _ => ?_
    obtain ⟨place, items⟩ := p
    cases items <;> simp [isArray]

theorem scores_eq_none_iff :
    Canonical.scores raw = none ↔ (raw.field "scores").isObject = true := by
  unfold Canonical.scores
  split
  · next h => simp [h]
  · next h =>
    split
    · simp [h]
    · split <;> simp [h]

theorem substitutions_ofMembers : (ofMembers members).substitutions =
    ((Canonical.feasible (obj members)).map (·.2)).toList ++
      ((Canonical.assignments (obj members)).map (·.2)).toList ++
        ((Canonical.scores (obj members)).map (·.2)).toList := by
  unfold ofMembers
  dsimp only
  rw [substitutions_put, substitutions_put, substitutions_put, List.nil_append]

theorem substitutions_eq_nil_iff :
    (ofMembers members).substitutions = [] ↔ InLayout (obj members) := by
  rw [substitutions_ofMembers]
  simp only [List.append_eq_nil_iff, Option.toList_eq_nil_iff, Option.map_eq_none_iff,
    feasible_eq_none_iff, assignments_eq_none_iff, scores_eq_none_iff]
  constructor
  · rintro ⟨⟨hfeasible, hassignments⟩, hscores⟩
    exact ⟨hfeasible, hassignments, hscores⟩
  · rintro ⟨hfeasible, hassignments, hscores⟩
    exact ⟨⟨hfeasible, hassignments⟩, hscores⟩

theorem warnings_eq_nil_iff : (ofMembers members).warnings = [] ↔ InLayout (obj members) := by
  unfold warnings
  rw [List.map_eq_nil_iff, substitutions_eq_nil_iff]

/-- A document in the layout stays as it is. -/
theorem ofMembers_of_inLayout (h : InLayout (obj members)) : ofMembers members = ⟨members, []⟩ := by
  unfold ofMembers
  dsimp only
  rw [feasible_eq_none_iff.mpr h.feasible, assignments_eq_none_iff.mpr h.assignments,
    scores_eq_none_iff.mpr h.scores]
  rfl

/-- A member of what is read is its replacement, or what it was when there is none. -/
theorem find?_ofMembers (key : String) : (ofMembers members).toJson.find? key =
    ((replacementOf (obj members) key).map (·.1)).or ((obj members).find? key) := by
  unfold ofMembers replacementOf
  dsimp only
  simp only [find?_put]
  by_cases hscores : key = "scores"
  · subst hscores
    rfl
  · by_cases hassignments : key = "assignments"
    · subst hassignments
      rfl
    · by_cases hfeasible : key = "feasible"
      · subst hfeasible
        rfl
      · simp only [hscores, hassignments, hfeasible, if_false]
        rfl

theorem field_ofMembers (key : String) : (ofMembers members).toJson.field key =
    ((replacementOf (obj members) key).map (·.1)).getD ((obj members).field key) := by
  unfold Json.field
  rw [find?_ofMembers]
  cases replacementOf (obj members) key <;> rfl

/-- Nothing but the parts of the layout is replaced. -/
theorem find?_ofMembers_of_notMem {key : String} (h : key ∉ parts) :
    (ofMembers members).toJson.find? key = (obj members).find? key := by
  simp only [parts, List.mem_cons, List.not_mem_nil, or_false, not_or] at h
  rw [find?_ofMembers, replacementOf, if_neg h.1, if_neg h.2.1, if_neg h.2.2]
  rfl

theorem field_ofMembers_of_notMem {key : String} (h : key ∉ parts) :
    (ofMembers members).toJson.field key = (obj members).field key := by
  unfold Json.field
  rw [find?_ofMembers_of_notMem h]

theorem otherAssignments_ofMembers :
    otherAssignments (ofMembers members).toJson = otherAssignments (obj members) := by
  unfold otherAssignments
  rw [field_ofMembers_of_notMem (by decide), field_ofMembers_of_notMem (by decide),
    field_ofMembers_of_notMem (by decide)]

theorem isArray_of_assignments {value : Json} {note : Substitution}
    (h : Canonical.assignments raw = some (value, note)) : value.isArray = true := by
  unfold Canonical.assignments at h
  split at h
  · cases h
  · obtain ⟨⟨place, items⟩, -, h⟩ := List.exists_of_findSome?_eq_some h
    cases items with
    | arr items =>
      cases h
      rfl
    | _ => cases h

theorem isObject_of_scores {value : Json} {note : Substitution}
    (h : Canonical.scores raw = some (value, note)) : value.isObject = true := by
  unfold Canonical.scores at h
  split at h
  · cases h
  · split at h
    · next hscore =>
      cases h
      exact hscore
    · split at h
      · next hscoring =>
        cases h
        exact hscoring
      · cases h
        rfl

/-- What is read stands in the layout. -/
theorem inLayout_ofMembers (members : List (String × Json)) :
    InLayout (ofMembers members).toJson where
  feasible := by
    rw [has_iff, find?_ofMembers]
    change ∃ v, ((Canonical.feasible (obj members)).map (·.1)).or _ = some v
    cases h : Canonical.feasible (obj members) with
    | none => exact has_iff.mp (feasible_eq_none_iff.mp h)
    | some p => exact ⟨p.1, rfl⟩
  assignments := by
    rw [otherAssignments_ofMembers]
    unfold Json.field
    rw [find?_ofMembers]
    change ((((Canonical.assignments (obj members)).map (·.1)).or _).getD null).isArray = true ∨ _
    cases h : Canonical.assignments (obj members) with
    | none => exact assignments_eq_none_iff.mp h
    | some p => exact .inl (isArray_of_assignments h)
  scores := by
    unfold Json.field
    rw [find?_ofMembers]
    change ((((Canonical.scores (obj members)).map (·.1)).or _).getD null).isObject = true
    cases h : Canonical.scores (obj members) with
    | none => exact scores_eq_none_iff.mp h
    | some p => exact isObject_of_scores h

/-- A document that equals what is read from it was in the layout. -/
theorem inLayout_of_same (h : (ofMembers members).toJson.same (obj members) = true) :
    InLayout (obj members) where
  feasible := by
    obtain ⟨v, hv⟩ := has_iff.mp (inLayout_ofMembers members).feasible
    obtain ⟨w, hw, -⟩ := exists_find?_of_same h hv
    exact has_iff.mpr ⟨w, hw⟩
  assignments := by
    rw [← otherAssignments_ofMembers]
    refine (inLayout_ofMembers members).assignments.imp_left fun hlisted => ?_
    rwa [← (shape_of_same_field h fun hnull => by rw [hnull] at hlisted; cases hlisted).1]
  scores := by
    have hscores := (inLayout_ofMembers members).scores
    rwa [← (shape_of_same_field h fun hnull => by rw [hnull] at hscores; cases hscores).2]

/-- What reading makes of a document. -/
structure Projects (raw : Json) (c : Canonical) : Prop where
  inLayout : InLayout c.toJson
  silent_iff_inLayout : c.warnings = [] ↔ InLayout raw
  silent_iff : c.warnings = [] ↔ c.toJson = raw
  /-- Whatever is noted makes a difference, also when numbers are compared by value. -/
  silent_of_same : c.toJson.same raw = true → c.warnings = []
  others : ∀ key ∉ parts, c.toJson.find? key = raw.find? key
  again : Canonical.read c.toJson = .ok ⟨c.document, []⟩

/-- Reading is a projection onto the layout: it moves no document that stands there, and what it
has read it reads again as it is. -/
theorem projects_of_read (members : List (String × Json)) :
    ∃ c, Canonical.read (obj members) = .ok c ∧ Projects (obj members) c := by
  refine ⟨ofMembers members, rfl, ?_⟩
  have hin : InLayout (ofMembers members).toJson := inLayout_ofMembers members
  refine
    { inLayout := hin
      silent_iff_inLayout := warnings_eq_nil_iff
      silent_iff := ?_
      silent_of_same := fun hsame => warnings_eq_nil_iff.mpr (inLayout_of_same hsame)
      others := fun _ hkey => find?_ofMembers_of_notMem hkey
      again := congrArg Except.ok (ofMembers_of_inLayout hin) }
  rw [warnings_eq_nil_iff]
  constructor
  · intro h
    rw [ofMembers_of_inLayout h]
    rfl
  · intro heq
    rwa [heq] at hin

end Canonical
end LeagueAudit
