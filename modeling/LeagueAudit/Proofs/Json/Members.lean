import LeagueAudit.Json.Basic

/-!
Members of objects. A member that was set is found again, and setting one leaves the values of all
others as they were.
-/
namespace LeagueAudit.Json

variable {α : Type}

theorem lookup_cons_eq (key name : String) (value : α) (rest : List (String × α)) :
    ((name, value) :: rest).lookup key = if key = name then some value else rest.lookup key := by
  rw [List.lookup_cons]
  cases hb : key == name with
  | true => rw [if_pos (by simpa using hb)]
  | false => rw [if_neg (by simpa using hb)]

theorem lookup_cons_of_ne {key name : String} (h : key ≠ name) (value : α)
    (rest : List (String × α)) : ((name, value) :: rest).lookup key = rest.lookup key := by
  rw [lookup_cons_eq, if_neg h]

theorem isSome_lookup_iff {key : String} {members : List (String × α)} :
    (members.lookup key).isSome ↔ key ∈ members.map (·.1) := by
  induction members with
  | nil => simp
  | cons member rest ih =>
    obtain ⟨name, value⟩ := member
    by_cases h : key = name
    · simp [h]
    · rw [lookup_cons_of_ne h, ih]
      simp [h]

theorem lookup_map {β : Type} (f : α → β) (key : String) (members : List (String × α)) :
    (members.map fun p => (p.1, f p.2)).lookup key = (members.lookup key).map f := by
  induction members with
  | nil => rfl
  | cons member rest ih =>
    rw [List.map_cons, lookup_cons_eq, lookup_cons_eq, ih]
    split <;> rfl

theorem mem_of_lookup {key : String} {value : α} {members : List (String × α)}
    (h : members.lookup key = some value) : (key, value) ∈ members := by
  obtain ⟨before, after, rfl, -⟩ := List.lookup_eq_some_iff.mp h
  simp

/-- When no name occurs twice, a member is what its name leads to. -/
theorem mem_iff_lookup {key : String} {value : α} {members : List (String × α)}
    (distinct : (members.map (·.1)).Nodup) :
    (key, value) ∈ members ↔ members.lookup key = some value := by
  induction members with
  | nil => simp
  | cons member rest ih =>
    obtain ⟨name, old⟩ := member
    rw [List.map_cons, List.nodup_cons] at distinct
    by_cases h : key = name
    · subst h
      have hrest : (key, value) ∉ rest := fun hm =>
        distinct.1 (List.mem_map_of_mem (f := (·.1)) hm)
      simp [hrest, eq_comm]
    · rw [lookup_cons_of_ne h, ← ih distinct.2]
      simp [h]

@[simp] theorem lookup_setMember_self (key : String) (value : α) (members : List (String × α)) :
    (setMember key value members).lookup key = some value := by
  induction members with
  | nil => simp [setMember]
  | cons member rest ih =>
    obtain ⟨name, old⟩ := member
    rw [setMember]
    split
    · next h => rw [h, List.lookup_cons_self]
    · next h => rw [lookup_cons_of_ne (Ne.symm h), ih]

theorem lookup_setMember_of_ne {key other : String} (h : other ≠ key) (value : α)
    (members : List (String × α)) :
    (setMember key value members).lookup other = members.lookup other := by
  induction members with
  | nil => rw [setMember, lookup_cons_of_ne h]
  | cons member rest ih =>
    obtain ⟨name, old⟩ := member
    rw [setMember]
    split
    · next hk =>
      subst hk
      rw [lookup_cons_of_ne h, lookup_cons_of_ne h]
    · rw [List.lookup_cons, List.lookup_cons, ih]

theorem lookup_setMember (key other : String) (value : α) (members : List (String × α)) :
    (setMember key value members).lookup other =
      if other = key then some value else members.lookup other := by
  split
  · next h => rw [h, lookup_setMember_self]
  · next h => exact lookup_setMember_of_ne h value members

theorem setMember_of_notMem {key : String} {members : List (String × α)}
    (h : key ∉ members.map (·.1)) (value : α) :
    setMember key value members = members ++ [(key, value)] := by
  induction members with
  | nil => rfl
  | cons member rest ih =>
    obtain ⟨name, old⟩ := member
    rw [List.map_cons, List.mem_cons, not_or] at h
    rw [setMember, if_neg (Ne.symm h.1), ih h.2, List.cons_append]

theorem map_fst_setMember_of_mem {key : String} {members : List (String × α)}
    (h : key ∈ members.map (·.1)) (value : α) :
    (setMember key value members).map (·.1) = members.map (·.1) := by
  induction members with
  | nil => simp at h
  | cons member rest ih =>
    obtain ⟨name, old⟩ := member
    by_cases hname : name = key
    · rw [setMember, if_pos hname, List.map_cons, List.map_cons, hname]
    · have hrest : key ∈ rest.map (·.1) := (List.mem_cons.mp h).resolve_left (Ne.symm hname)
      rw [setMember, if_neg hname, List.map_cons, List.map_cons, ih hrest]

theorem mem_keys_setMember_iff {key other : String} {value : α} {members : List (String × α)} :
    other ∈ (setMember key value members).map (·.1) ↔ other = key ∨ other ∈ members.map (·.1) := by
  by_cases h : key ∈ members.map (·.1)
  · rw [map_fst_setMember_of_mem h]
    exact (or_iff_right_of_imp fun heq => heq ▸ h).symm
  · rw [setMember_of_notMem h, List.map_append, List.mem_append, List.map_singleton,
      List.mem_singleton, or_comm]

theorem nodup_keys_setMember {key : String} {value : α} {members : List (String × α)}
    (distinct : (members.map (·.1)).Nodup) : ((setMember key value members).map (·.1)).Nodup := by
  by_cases h : key ∈ members.map (·.1)
  · rwa [map_fst_setMember_of_mem h]
  · rw [setMember_of_notMem h, List.map_append, List.nodup_append]
    refine ⟨distinct, by simp, fun name hname other hother heq => h ?_⟩
    obtain rfl : other = key := List.mem_singleton.mp hother
    rwa [← heq]

@[simp] theorem setMembers_nil (base : List (String × α)) : setMembers base [] = base := rfl

@[simp] theorem setMembers_cons (base : List (String × α)) (member : String × α)
    (more : List (String × α)) :
    setMembers base (member :: more) = setMembers (setMember member.1 member.2 base) more := rfl

/-- Members with new names are set one behind the other. -/
theorem setMembers_eq_append {base more : List (String × α)}
    (distinct : ((base ++ more).map (·.1)).Nodup) : setMembers base more = base ++ more := by
  induction more generalizing base with
  | nil => rw [setMembers_nil, List.append_nil]
  | cons member more ih =>
    have hnew : member.1 ∉ base.map (·.1) := by
      rw [List.map_append, List.nodup_append] at distinct
      exact fun hmem => distinct.2.2 _ hmem _ List.mem_cons_self rfl
    have happend : base ++ [member] ++ more = base ++ member :: more := by simp
    rw [setMembers_cons, setMember_of_notMem hnew, ih (by rwa [happend]), happend]

theorem lookup_setMembers_of_notMem {key : String} {more : List (String × α)}
    (h : key ∉ more.map (·.1)) (base : List (String × α)) :
    (setMembers base more).lookup key = base.lookup key := by
  induction more generalizing base with
  | nil => rw [setMembers_nil]
  | cons member more ih =>
    simp only [List.map_cons, List.mem_cons, not_or] at h
    rw [setMembers_cons, ih h.2, lookup_setMember_of_ne h.1]

/-- A member that is set once among several has its new value. -/
theorem lookup_setMembers_of_mem {key : String} {value : α} {more : List (String × α)}
    (distinct : (more.map (·.1)).Nodup) (h : (key, value) ∈ more) (base : List (String × α)) :
    (setMembers base more).lookup key = some value := by
  induction more generalizing base with
  | nil => simp at h
  | cons member more ih =>
    rw [List.map_cons, List.nodup_cons] at distinct
    rw [setMembers_cons]
    rcases List.mem_cons.mp h with rfl | h
    · rw [lookup_setMembers_of_notMem distinct.1, lookup_setMember_self]
    · exact ih distinct.2 h _

/-- A member has one place, whatever is set there. -/
theorem exists_setMember_eq (key : String) (members : List (String × α)) :
    ∃ before after, ∀ value, setMember key value members = before ++ (key, value) :: after := by
  induction members with
  | nil => exact ⟨[], [], fun _ => rfl⟩
  | cons member rest ih =>
    obtain ⟨name, old⟩ := member
    by_cases h : name = key
    · subst h
      exact ⟨[], rest, fun value => by rw [setMember, if_pos rfl, List.nil_append]⟩
    · obtain ⟨before, after, hrest⟩ := ih
      refine ⟨(name, old) :: before, after, fun value => ?_⟩
      rw [setMember, if_neg h, hrest, List.cons_append]

theorem setMember_setMember (key : String) (old value : α) (members : List (String × α)) :
    setMember key value (setMember key old members) = setMember key value members := by
  induction members with
  | nil => simp only [setMember, if_true]
  | cons member rest ih =>
    obtain ⟨name, other⟩ := member
    by_cases h : name = key
    · rw [setMember, setMember, if_pos h, if_pos h, setMember, if_pos h]
    · rw [setMember, setMember, if_neg h, if_neg h, setMember, if_neg h, ih]

/-- Members of two names are set in either order when the first one is there already. -/
theorem setMember_comm {key other : String} (h : other ≠ key) (value new : α)
    {members : List (String × α)} (hkey : key ∈ members.map (·.1)) :
    setMember key value (setMember other new members) =
      setMember other new (setMember key value members) := by
  induction members with
  | nil => simp at hkey
  | cons member rest ih =>
    obtain ⟨name, old⟩ := member
    by_cases hname : name = key
    · subst hname
      have hne : name ≠ other := Ne.symm h
      simp only [setMember, if_true, if_neg hne]
    · have hrest : key ∈ rest.map (·.1) := by
        rw [List.map_cons, List.mem_cons] at hkey
        exact hkey.resolve_left (Ne.symm hname)
      by_cases hother : name = other
      · simp only [setMember, if_pos hother, if_neg hname]
      · simp only [setMember, if_neg hother, if_neg hname, ih hrest]

theorem mem_keys_setMember {key other : String} (value : α) {members : List (String × α)}
    (h : key ∈ members.map (·.1)) : key ∈ (setMember other value members).map (·.1) := by
  rw [← isSome_lookup_iff] at h ⊢
  by_cases hkey : key = other
  · rw [hkey, lookup_setMember_self]
    rfl
  · rwa [lookup_setMember_of_ne hkey]

theorem setMember_setMembers {key : String} (value : α) {base : List (String × α)}
    (hkey : key ∈ base.map (·.1)) {more : List (String × α)} (hnew : key ∉ more.map (·.1)) :
    setMember key value (setMembers base more) = setMembers (setMember key value base) more := by
  induction more generalizing base with
  | nil => rfl
  | cons member more ih =>
    rw [List.map_cons, List.mem_cons, not_or] at hnew
    rw [setMembers_cons, setMembers_cons, ih (mem_keys_setMember _ hkey) hnew.2,
      setMember_comm (Ne.symm hnew.1) value member.2 hkey]

/-- A member that was set first is set once more. -/
theorem setMember_setMembers_cons {key : String} (old value : α) (base : List (String × α))
    {more : List (String × α)} (hnew : key ∉ more.map (·.1)) :
    setMember key value (setMembers base ((key, old) :: more)) =
      setMembers base ((key, value) :: more) := by
  have hthere : key ∈ (setMember key old base).map (·.1) := by
    rw [← isSome_lookup_iff, lookup_setMember_self]
    rfl
  rw [setMembers_cons, setMembers_cons, setMember_setMembers value hthere hnew,
    setMember_setMember]

/-- Of members that are set twice the later values stay, in the earlier places. -/
theorem setMembers_setMembers {base more again : List (String × α)}
    (distinct : (more.map (·.1)).Nodup) (hnames : again.map (·.1) = more.map (·.1)) :
    setMembers (setMembers base more) again = setMembers base again := by
  induction more generalizing base again with
  | nil => rw [setMembers_nil]
  | cons member more ih =>
    obtain ⟨key, old⟩ := member
    cases again with
    | nil => cases hnames
    | cons member again =>
      obtain ⟨key', value⟩ := member
      obtain ⟨hkey, hrest⟩ := List.cons.inj hnames
      obtain rfl : key' = key := hkey
      rw [List.map_cons, List.nodup_cons] at distinct
      rw [setMembers_cons, setMember_setMembers_cons old value base distinct.1, setMembers_cons,
        ih distinct.2 hrest, setMembers_cons]

theorem field_obj (members : List (String × Json)) (key : String) :
    (obj members).field key = (members.lookup key).getD null := rfl

@[simp] theorem field_obj_setMember_self (key : String) (value : Json)
    (members : List (String × Json)) : (obj (setMember key value members)).field key = value := by
  simp [field_obj]

theorem field_obj_setMember_of_ne {key other : String} (h : other ≠ key) (value : Json)
    (members : List (String × Json)) :
    (obj (setMember key value members)).field other = (obj members).field other := by
  simp only [field_obj, lookup_setMember_of_ne h]

theorem exists_eq_obj {j : Json} (h : j.isObject = true) : ∃ members, j = obj members := by
  cases j with
  | obj members => exact ⟨members, rfl⟩
  | _ => cases h

/-- A property of all documents, from the parts to the whole. -/
theorem induct {P : Json → Prop}
    (onScalar : ∀ j : Json, j.isArray = false → j.isObject = false → P j)
    (onArr : ∀ items, (∀ j ∈ items, P j) → P (arr items))
    (onObj : ∀ members, (∀ member ∈ members, P member.2) → P (obj members)) (j : Json) : P j :=
  Json.rec (motive_1 := P) (motive_2 := fun items => ∀ j ∈ items, P j)
    (motive_3 := fun members => ∀ member ∈ members, P member.2)
    (motive_4 := fun member => P member.2) (onScalar null rfl rfl)
    (fun b => onScalar (bool b) rfl rfl) (fun n => onScalar (int n) rfl rfl)
    (fun x => onScalar (float x) rfl rfl) (fun s => onScalar (str s) rfl rfl) onArr onObj
    (List.forall_mem_nil _) (fun _ _ hj hrest => List.forall_mem_cons.mpr ⟨hj, hrest⟩)
    (List.forall_mem_nil _)
    (fun _ _ hmember hrest => List.forall_mem_cons.mpr ⟨hmember, hrest⟩) (fun _ _ h => h) j

/-- Documents whose members are the same but for one name. -/
structure AgreeBut (key : String) (a b : Json) : Prop where
  isObject : a.isObject = b.isObject
  find? : ∀ other, other ≠ key → a.find? other = b.find? other

theorem AgreeBut.field {key other : String} {a b : Json} (h : AgreeBut key a b)
    (hother : other ≠ key) : a.field other = b.field other := by
  unfold Json.field
  rw [h.find? other hother]

theorem AgreeBut.has {key other : String} {a b : Json} (h : AgreeBut key a b)
    (hother : other ≠ key) : a.has other = b.has other := by
  unfold Json.has
  rw [h.find? other hother]

theorem agreeBut_setMember (key : String) (value other : Json) (members : List (String × Json)) :
    AgreeBut key (obj (setMember key value members)) (obj (setMember key other members)) where
  isObject := rfl
  find? := by
    intro name hname
    have hset := lookup_setMember_of_ne hname value members
    exact hset.trans (lookup_setMember_of_ne hname other members).symm

/-- Documents that differ at most in how numbers are written: a whole number may stand as a double
of the same value. -/
inductive SameValue : Json → Json → Prop where
  | refl (j : Json) : SameValue j j
  | whole {n : Int} {x : Float} (h : floatEqInt x n = true) : SameValue (int n) (float x)
  | item {before after : List Json} {a b : Json} (h : SameValue a b) :
    SameValue (arr (before ++ a :: after)) (arr (before ++ b :: after))
  | member {before after : List (String × Json)} {key : String} {a b : Json} (h : SameValue a b) :
    SameValue (obj (before ++ (key, a) :: after)) (obj (before ++ (key, b) :: after))
  | trans {a b c : Json} (hab : SameValue a b) (hbc : SameValue b c) : SameValue a c

namespace SameValue

theorem setMember {a b : Json} (h : SameValue a b) (key : String) (members : List (String × Json)) :
    SameValue (obj (Json.setMember key a members)) (obj (Json.setMember key b members)) := by
  obtain ⟨before, after, heq⟩ := exists_setMember_eq key members
  rw [heq, heq]
  exact h.member

theorem map {α : Type} {f g : α → Json} {xs : List α} (h : ∀ x ∈ xs, SameValue (f x) (g x))
    (before : List Json) : SameValue (arr (before ++ xs.map f)) (arr (before ++ xs.map g)) := by
  -- The items before the current one are replaced already.
  induction xs generalizing before with
  | nil => exact .refl _
  | cons x rest ih =>
    obtain ⟨hx, hrest⟩ := List.forall_mem_cons.mp h
    have hlater := ih hrest (before ++ [g x])
    rw [List.append_assoc, List.append_assoc] at hlater
    exact (SameValue.item hx).trans hlater

end SameValue

theorem items_arr (xs : List Json) : (arr xs).items = xs := rfl

end LeagueAudit.Json
