import LeagueAudit.Proofs.Json.Members
import LeagueAudit.Rule.Default
import Mathlib.Data.List.Induction

/-!
Names of rules. A call that is refused changes nothing, and one that is accepted gives its names to
its rule for good: no later call can take a name over.
-/
namespace LeagueAudit.Catalog

variable {α β : Type} {c : Catalog} {calls : List Registration} {call : Registration}

theorem Change.on_bind (change : Change α) (next : α → Change β) (c : Catalog) :
    (change >>= next).on c =
      match change.on c with
      | (.ok a, after) => (next a).on after
      | (.error f, after) => (.error f, after) := by
  change (match change.on c with
    | (outcome, after) => (ExceptT.bindCont next outcome).run after) = _
  rcases change.on c with ⟨outcome, after⟩
  cases outcome <;> rfl

theorem on_refuseTaken (name : String) (c : Catalog) :
    (refuseTaken name).on c = (if c.isTaken name then .error (.taken name) else .ok (), c) := by
  unfold refuseTaken
  rw [Change.on_bind]
  change (if c.isTaken name then _ else _ : Change Unit).on c = _
  split <;> rfl

/-- Checking names writes nothing. -/
theorem on_forM_refuseTaken (names : List String) (c : Catalog) :
    (names.forM refuseTaken).on c =
      match names.find? c.isTaken with
      | some name => (.error (.taken name), c)
      | none => (.ok (), c) := by
  induction names with
  | nil => rfl
  | cons name rest ih =>
    rw [List.forM_eq_forM, List.forM_cons, Change.on_bind, on_refuseTaken, List.find?_cons]
    cases c.isTaken name with
    | true => rfl
    | false => exact ih

theorem on_forM_setAlias (id : String) (names : List String) (c : Catalog) :
    (names.forM fun name => (modify (setAlias id name) : Change Unit)).on c =
      (.ok (), names.foldl (fun c name => c.setAlias id name) c) := by
  induction names generalizing c with
  | nil => rfl
  | cons name rest ih =>
    rw [List.forM_eq_forM, List.forM_cons, Change.on_bind]
    exact ih (c.setAlias id name)

/-- A catalog with the rule of a call under all of its names. -/
def entered (c : Catalog) (call : Registration) : Catalog :=
  call.aliases.foldl (fun c name => c.setAlias call.rule.id name) (c.setRule call.rule)

theorem on_enter (call : Registration) (c : Catalog) :
    (enter call).on c =
      if call.rule.id.isEmpty then (.error (.unnamed call.rule.maker), c)
      else match call.names.find? c.isTaken with
        | some name => (.error (.taken name), c)
        | none => (.ok (), c.entered call) := by
  unfold enter
  split
  · rfl
  · change ((call.names.forM refuseTaken >>= fun _ => _) : Change Unit).on c = _
    rw [Change.on_bind, on_forM_refuseTaken]
    cases call.names.find? c.isTaken with
    | some name => rfl
    | none =>
      change ((modify (setRule call.rule) : Change Unit) >>= fun _ => _).on c = _
      rw [Change.on_bind]
      exact on_forM_setAlias _ _ _

/-- The rule of a call has an id, and none of the names is taken. -/
def Admits (c : Catalog) (call : Registration) : Prop :=
  call.rule.id ≠ "" ∧ ∀ name ∈ call.names, c.isTaken name = false

theorem Admits.notMem_of_isTaken (h : c.Admits call) {name : String}
    (htaken : c.isTaken name = true) : name ∉ call.names := by
  intro hname
  rw [h.2 name hname] at htaken
  cases htaken

theorem submit_of_admits (h : c.Admits call) : c.submit call = (c.entered call, none) := by
  have hid : call.rule.id.isEmpty = false := by simpa using h.1
  have hfree : call.names.find? c.isTaken = none := by simpa using h.2
  rw [submit, on_enter, hid, hfree]
  rfl

theorem submit_of_not_admits (h : ¬c.Admits call) : ∃ f, c.submit call = (c, some f) := by
  by_cases hid : call.rule.id.isEmpty = true
  · exact ⟨_, by rw [submit, on_enter, if_pos hid]⟩
  · cases hfree : call.names.find? c.isTaken with
    | some name => exact ⟨_, by rw [submit, on_enter, if_neg hid, hfree]⟩
    | none => exact absurd ⟨by simpa using hid, by simpa using hfree⟩ h

/-- A call is not refused. -/
def Accepts (c : Catalog) (call : Registration) : Prop := (c.submit call).2 = none

/-- The catalog after a call, refused or not. -/
def after (c : Catalog) (call : Registration) : Catalog := (c.submit call).1

theorem accepts_iff_admits : c.Accepts call ↔ c.Admits call := by
  constructor
  · intro haccepts
    by_contra h
    obtain ⟨f, hf⟩ := submit_of_not_admits h
    rw [Accepts, hf] at haccepts
    cases haccepts
  · intro h
    rw [Accepts, submit_of_admits h]

theorem after_of_accepts (h : c.Accepts call) : c.after call = c.entered call := by
  rw [after, submit_of_admits (accepts_iff_admits.mp h)]

/-- A refused call leaves the catalog as it was. -/
theorem after_of_not_accepts (h : ¬c.Accepts call) : c.after call = c := by
  obtain ⟨f, hf⟩ := submit_of_not_admits (mt accepts_iff_admits.mpr h)
  rw [after, hf]

theorem isTaken_iff {name : String} : c.isTaken name = true ↔
    (c.rules.lookup name).isSome ∨ (c.aliases.lookup name).isSome := by
  rw [isTaken, Bool.or_eq_true]

theorem foldl_setAlias (id : String) (names : List String) (c : Catalog) (name : String) :
    (names.foldl (fun c name => c.setAlias id name) c).rules = c.rules ∧
      (names.foldl (fun c name => c.setAlias id name) c).aliases.lookup name =
        if name ∈ names then some id else c.aliases.lookup name := by
  induction names generalizing c with
  | nil => exact ⟨rfl, rfl⟩
  | cons first rest ih =>
    obtain ⟨hrules, haliases⟩ := ih (c.setAlias id first)
    refine ⟨hrules, ?_⟩
    rw [List.foldl_cons, haliases, setAlias, Json.lookup_setMember]
    by_cases hrest : name ∈ rest <;> simp [hrest]

theorem lookup_rules_entered (c : Catalog) (call : Registration) (id : String) :
    (c.entered call).rules.lookup id =
      if id = call.rule.id then some call.rule else c.rules.lookup id := by
  rw [entered, (foldl_setAlias _ _ _ id).1, setRule, Json.lookup_setMember]

theorem lookup_aliases_entered (c : Catalog) (call : Registration) (name : String) :
    (c.entered call).aliases.lookup name =
      if name ∈ call.aliases then some call.rule.id else c.aliases.lookup name :=
  (foldl_setAlias _ _ _ name).2

/-- Every alias stands for the id of a rule, and an id stands for itself. -/
structure Direct (c : Catalog) : Prop where
  registered : ∀ name id, c.aliases.lookup name = some id →
    ∃ rule, c.rules.lookup id = some rule ∧ rule.id = id
  idOf_idOf : ∀ name, c.idOf (c.idOf name) = c.idOf name

/-- A name stands for itself or for a taken id. -/
theorem Direct.isTaken_idOf (h : c.Direct) (name : String) :
    c.idOf name = name ∨ c.isTaken (c.idOf name) = true := by
  unfold idOf
  cases hid : c.aliases.lookup name with
  | none => exact .inl rfl
  | some id =>
    obtain ⟨rule, hrule, -⟩ := h.registered name id hid
    exact .inr (isTaken_iff.mpr (.inl (Option.isSome_of_eq_some hrule)))

theorem Admits.idOf_entered_of_mem (h : c.Admits call) {name : String}
    (hname : name ∈ call.names) : (c.entered call).idOf name = call.rule.id := by
  rw [idOf, lookup_aliases_entered]
  split
  · rfl
  · next hother =>
    -- Only the id is left, which is no alias since it is not taken.
    obtain rfl := (List.mem_cons.mp hname).resolve_right hother
    have hfree := h.2 _ hname
    rw [isTaken, Bool.or_eq_false_iff, Option.isSome_eq_false_iff, Option.isNone_iff_eq_none,
      Option.isSome_eq_false_iff, Option.isNone_iff_eq_none] at hfree
    rw [hfree.2, Option.getD_none]

theorem idOf_entered_of_notMem {name : String} (h : name ∉ call.names) :
    (c.entered call).idOf name = c.idOf name := by
  rw [idOf, lookup_aliases_entered, if_neg (mt (List.mem_cons_of_mem _) h), idOf]

/-- What a name stands for is no name of a call that is admitted. -/
theorem Direct.idOf_notMem (h : c.Direct) (hadmits : c.Admits call) {name : String}
    (hname : name ∉ call.names) : c.idOf name ∉ call.names := by
  rcases h.isTaken_idOf name with hself | htaken
  · rwa [hself]
  · exact hadmits.notMem_of_isTaken htaken

theorem Direct.entered (h : c.Direct) (hadmits : c.Admits call) : (c.entered call).Direct where
  registered := by
    intro name id hid
    rw [lookup_aliases_entered] at hid
    rw [lookup_rules_entered]
    split
    · next heq => exact ⟨call.rule, rfl, heq.symm⟩
    · next hne =>
      split at hid
      · exact absurd (Option.some.inj hid).symm hne
      · exact h.registered name id hid
  idOf_idOf := by
    intro name
    by_cases hname : name ∈ call.names
    · rw [hadmits.idOf_entered_of_mem hname,
        hadmits.idOf_entered_of_mem List.mem_cons_self]
    · rw [idOf_entered_of_notMem hname, idOf_entered_of_notMem (h.idOf_notMem hadmits hname),
        h.idOf_idOf]

theorem Direct.after (h : c.Direct) (call : Registration) : (c.after call).Direct := by
  by_cases haccepts : c.Accepts call
  · rw [after_of_accepts haccepts]
    exact h.entered (accepts_iff_admits.mp haccepts)
  · rwa [after_of_not_accepts haccepts]

/-- The catalog that calls make one after the other. -/
def ofCalls (calls : List Registration) : Catalog := calls.foldl after {}

/-- One of several calls that was not refused when it was made. -/
def Succeeded (calls : List Registration) (call : Registration) : Prop :=
  ∃ before later, calls = before ++ call :: later ∧ (ofCalls before).Accepts call

theorem Succeeded.append (h : Succeeded calls call) (later : List Registration) :
    Succeeded (calls ++ later) call := by
  obtain ⟨before, rest, rfl, haccepts⟩ := h
  exact ⟨before, rest ++ later, by simp, haccepts⟩

/-- The calls that make the default catalog. -/
def defaultCalls : List Registration :=
  defaultRules.map fun rule =>
    { rule, aliases := if rule.id = "no_overlap_venue_resource" then ["no_overlap_venue"] else [] }

example : (ofCalls defaultCalls).rules.map (·.1) = Catalog.default.rules.map (·.1) ∧
    (ofCalls defaultCalls).aliases = Catalog.default.aliases := by decide +kernel

end LeagueAudit.Catalog
