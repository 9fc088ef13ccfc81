import LeagueAudit.Proofs.Json.Members
import LeagueAudit.Proofs.Rule.Teams
import Mathlib.Algebra.BigOperators.Group.Finset.Basic
import Mathlib.Data.List.Sort
import Mathlib.Data.Sym.Sym2

/-!
Meetings of opponents. Opponents are kept under their ids in order, so each group of meetings is
that of one unordered pair. Its starts are those of the assignments of the pair, in order.
-/
namespace LeagueAudit

open scoped BigOperators

namespace Rule

/-- Two opponents, whichever of them comes first. -/
def Opponents.pair (o : Opponents) : Sym2 String := s(o.first, o.second)

@[simp] theorem Opponents.pair_of (a b : String) : (Opponents.of a b).pair = s(a, b) := by
  unfold Opponents.of Opponents.pair
  split
  · exact Sym2.eq_swap
  · rfl

theorem Opponents.of_comm (a b : String) : Opponents.of a b = Opponents.of b a := by
  unfold Opponents.of
  by_cases hba : b < a
  · rw [if_pos hba, if_neg (String.lt_asymm hba)]
  · by_cases hab : a < b
    · rw [if_neg hba, if_pos hab]
    · rw [String.le_antisymm (String.not_lt.mp hba) (String.not_lt.mp hab)]

theorem Opponents.of_eq_iff {a b c d : String} :
    Opponents.of a b = Opponents.of c d ↔ s(a, b) = s(c, d) := by
  constructor
  · intro h
    simpa using congrArg Opponents.pair h
  · intro h
    rcases Sym2.eq_iff.mp h with ⟨rfl, rfl⟩ | ⟨rfl, rfl⟩
    · rfl
    · exact Opponents.of_comm a b

end Rule

namespace Index

open Rule

/-- The first two participants of the fixture of an assignment, when one of them is in scope. -/
def opponentsOf (index : Index) (a : Assignment) : Option (Sym2 String) :=
  match index.listed a.fixture with
  | t1 :: t2 :: _ => if index.teamInScope t1 || index.teamInScope t2 then some s(t1, t2) else none
  | _ => none

/-- The pairs that are opponents in some assignment. -/
def opponents (index : Index) : Finset (Sym2 String) :=
  (index.assignments.filterMap index.opponentsOf).toFinset

/-- The starts of the assignments of a pair. -/
def startsOf (index : Index) (pair : Sym2 String) : List Int :=
  (index.assignments.filter fun a => index.opponentsOf a = some pair).filterMap (·.start)

/-- The starts of the assignments of a pair in increasing order. -/
def meetingStarts (index : Index) (pair : Sym2 String) : List Int :=
  (index.startsOf pair).mergeSort

/-- The participants of the fixture of every assignment can be listed. -/
def ListsOpponents (index : Index) : Prop :=
  ∀ a ∈ index.assignments, ∃ teams, index.participants a.fixture = .ok teams

theorem listsOpponents_iff {index : Index} : index.ListsOpponents ↔
    ∀ a ∈ index.assignments, (index.participants a.fixture).toOption.isSome := by
  refine forall₂_congr fun a _ => ?_
  cases index.participants a.fixture with
  | ok teams => exact iff_of_true ⟨teams, rfl⟩ rfl
  | error f => exact iff_of_false nofun nofun

instance (index : Index) : Decidable index.ListsOpponents := decidable_of_iff' _ listsOpponents_iff

/-- The opponents of an assignment in order. -/
def orderedOpponents (index : Index) (a : Assignment) : Option Opponents :=
  match index.listed a.fixture with
  | t1 :: t2 :: _ =>
    if index.teamInScope t1 || index.teamInScope t2 then some (Opponents.of t1 t2) else none
  | _ => none

/-- The meeting of an assignment with a readable start. -/
def encounter? (index : Index) (a : Assignment) : Option (Opponents × Game) :=
  a.start.bind fun start => (index.orderedOpponents a).map (·, ⟨start, start, a.fixture⟩)

def encounters (index : Index) : List (Opponents × Game) :=
  index.assignments.filterMap index.encounter?

variable {index : Index} {a : Assignment}

theorem exists_of_orderedOpponents {o : Opponents} (h : index.orderedOpponents a = some o) :
    ∃ t1 t2, o = Opponents.of t1 t2 := by
  unfold orderedOpponents at h
  split at h
  · next t1 t2 rest hlisted =>
    split at h
    · exact ⟨t1, t2, (Option.some.inj h).symm⟩
    · cases h
  · cases h

theorem orderedOpponents_eq_some_iff {t1 t2 : String} :
    index.orderedOpponents a = some (Opponents.of t1 t2) ↔
      index.opponentsOf a = some s(t1, t2) := by
  unfold orderedOpponents opponentsOf
  split
  · split
    · rw [Option.some.injEq, Option.some.injEq, Opponents.of_eq_iff]
    · simp
  · simp

theorem meeting?_eq (h : ∃ teams, index.participants a.fixture = .ok teams) :
    meeting? index a = .ok (index.encounter? a) := by
  obtain ⟨teams, hteams⟩ := h
  have hlisted : index.listed a.fixture = teams := by
    simp [listed, hteams, Except.toOption]
  unfold meeting? encounter? orderedOpponents
  rw [hteams, hlisted]
  cases a.start with
  | none => rfl
  | some start =>
    cases teams with
    | nil => rfl
    | cons t1 others =>
      cases others with
      | nil => rfl
      | cons t2 others =>
        dsimp only [bind, Except.bind, Option.bind]
        split
        · rfl
        · rfl

theorem listed_of_meeting? {found : Option (Opponents × Game)}
    (h : meeting? index a = .ok found) : ∃ teams, index.participants a.fixture = .ok teams := by
  unfold meeting? at h
  obtain ⟨teams, hteams, -⟩ := bind_eq_ok.mp h
  exact ⟨teams, hteams⟩

theorem meetings_eq_ok {groups : List (Opponents × List Game)} :
    meetings index = .ok groups ↔
      index.ListsOpponents ∧ groups = groupGames index.encounters := by
  have hread : index.ListsOpponents → index.assignments.mapM (meeting? index) =
      .ok (index.assignments.map index.encounter?) := by
    intro hlists
    rw [mapM_eq_ok, List.forall₂_map_right_iff, List.forall₂_same]
    exact fun a ha => meeting?_eq (hlists a ha)
  have hall : (index.assignments.map index.encounter?).filterMap (fun m => m) =
      index.encounters := by
    rw [List.filterMap_map]
    rfl
  unfold meetings
  rw [bind_eq_ok]
  constructor
  · rintro ⟨found, hfound, h⟩
    have hlists : index.ListsOpponents := by
      intro a ha
      obtain ⟨m, -, hm⟩ := exists_of_mapM_eq_ok hfound ha
      exact listed_of_meeting? hm
    rw [hread hlists] at hfound
    cases Except.ok.inj hfound
    rw [hall] at h
    exact ⟨hlists, (Except.ok.inj h).symm⟩
  · rintro ⟨hlists, rfl⟩
    exact ⟨_, hread hlists, by rw [hall]⟩

theorem pairwise_meetingStarts (pair : Sym2 String) :
    (index.meetingStarts pair).Pairwise (· ≤ ·) :=
  List.pairwise_mergeSort' (· ≤ ·) _

/-- The starts of the meetings of a pair, kept in order, are those of its assignments. -/
theorem starts_inOrder (t1 t2 : String) :
    (inOrder (valuesOf (Opponents.of t1 t2) index.encounters)).map (·.start) =
      index.meetingStarts s(t1, t2) := by
  have hvalues : (valuesOf (Opponents.of t1 t2) index.encounters).map (·.start) =
      index.startsOf s(t1, t2) := by
    unfold valuesOf encounters startsOf
    rw [List.filter_filterMap, List.map_map, List.map_filterMap, List.filterMap_filter]
    refine List.filterMap_congr fun a _ => ?_
    unfold encounter?
    cases a.start with
    | none => simp
    | some start =>
      by_cases h : index.opponentsOf a = some s(t1, t2)
      · simp [h, orderedOpponents_eq_some_iff.mpr h]
      · have hother := orderedOpponents_eq_some_iff.not.mpr h
        cases ho : index.orderedOpponents a with
        | none => simp [h]
        | some o =>
          have hne : o ≠ Opponents.of t1 t2 := fun heq => hother (heq ▸ ho)
          simp [h, hne]
  -- Games are put in order by start and fixture, but their starts alone are in order as well, and
  -- there is one such list of them.
  have hperm := (inOrder_perm (valuesOf (Opponents.of t1 t2) index.encounters)).map (·.start)
  have hgames : ((inOrder (valuesOf (Opponents.of t1 t2) index.encounters)).map
      (·.start)).Pairwise (· ≤ ·) := List.pairwise_map.mpr (pairwise_inOrder _)
  rw [hvalues] at hperm
  exact (hperm.trans (List.mergeSort_perm _ _).symm).eq_of_pairwise
    (fun _ _ _ _ => Int.le_antisymm) hgames (pairwise_meetingStarts _)

/-- The pairs that have meetings, in order of first occurrence. -/
def metOpponents (index : Index) : List Opponents := (grouped index.encounters).map (·.1)

theorem nodup_metOpponents : index.metOpponents.Nodup := (keys_grouped _).1

theorem mem_metOpponents {o : Opponents} : o ∈ index.metOpponents ↔
    ∃ a ∈ index.assignments, a.start.isSome ∧ index.orderedOpponents a = some o := by
  unfold metOpponents
  rw [(keys_grouped _).2, List.mem_map]
  constructor
  · rintro ⟨p, hp, rfl⟩
    obtain ⟨a, ha, hp⟩ := List.mem_filterMap.mp hp
    obtain ⟨start, hstart, hp⟩ := Option.bind_eq_some_iff.mp hp
    obtain ⟨o, ho, rfl⟩ := Option.map_eq_some_iff.mp hp
    exact ⟨a, ha, Option.isSome_iff_exists.mpr ⟨start, hstart⟩, ho⟩
  · rintro ⟨a, ha, hstart, ho⟩
    obtain ⟨start, hstart⟩ := Option.isSome_iff_exists.mp hstart
    refine ⟨(o, ⟨start, start, a.fixture⟩), List.mem_filterMap.mpr ⟨a, ha, ?_⟩, rfl⟩
    rw [encounter?, hstart, Option.bind_some, ho, Option.map_some]

theorem exists_of_mem_metOpponents {o : Opponents} (h : o ∈ index.metOpponents) :
    ∃ t1 t2, o = Opponents.of t1 t2 := by
  obtain ⟨a, -, -, ho⟩ := mem_metOpponents.mp h
  exact exists_of_orderedOpponents ho

theorem nodup_pairs : (index.metOpponents.map Opponents.pair).Nodup := by
  apply List.Nodup.map_on _ nodup_metOpponents
  intro o ho o' ho' hpair
  obtain ⟨t1, t2, rfl⟩ := exists_of_mem_metOpponents ho
  obtain ⟨t1', t2', rfl⟩ := exists_of_mem_metOpponents ho'
  simpa [Opponents.of_eq_iff] using hpair

theorem mem_opponents_of_met {pair : Sym2 String}
    (h : pair ∈ index.metOpponents.map Opponents.pair) : pair ∈ index.opponents := by
  obtain ⟨o, ho, rfl⟩ := List.mem_map.mp h
  obtain ⟨a, ha, -, hopponents⟩ := mem_metOpponents.mp ho
  obtain ⟨t1, t2, rfl⟩ := exists_of_orderedOpponents hopponents
  rw [Opponents.pair_of, opponents, List.mem_toFinset, List.mem_filterMap]
  exact ⟨a, ha, orderedOpponents_eq_some_iff.mp hopponents⟩

theorem meetingStarts_of_not_met {pair : Sym2 String}
    (h : pair ∉ index.metOpponents.map Opponents.pair) : index.meetingStarts pair = [] := by
  have hnone : index.startsOf pair = [] := by
    induction pair using Sym2.ind with
    | _ t1 t2 =>
      apply List.eq_nil_iff_forall_not_mem.mpr
      intro start hstart
      obtain ⟨a, ha, hstart⟩ := List.mem_filterMap.mp hstart
      obtain ⟨ha, hopponents⟩ := List.mem_filter.mp ha
      have ho := orderedOpponents_eq_some_iff.mpr (of_decide_eq_true hopponents)
      have hmet := mem_metOpponents.mpr ⟨a, ha, by simp [hstart], ho⟩
      exact h (List.mem_map.mpr ⟨_, hmet, Opponents.pair_of t1 t2⟩)
  rw [meetingStarts, hnone, List.mergeSort_nil]

theorem map_groupGames {β : Type} (f : List Int → β) :
    ((groupGames index.encounters).map fun g => f (g.2.map (·.start))) =
      (index.metOpponents.map Opponents.pair).map fun pair => f (index.meetingStarts pair) := by
  have hgroups : groupGames index.encounters =
      index.metOpponents.map fun o => (o, inOrder (valuesOf o index.encounters)) :=
    groupGames_eq _
  rw [hgroups, List.map_map, List.map_map]
  apply List.map_congr_left
  intro o ho
  obtain ⟨t1, t2, rfl⟩ := exists_of_mem_metOpponents ho
  simp [starts_inOrder]

/-- What is added up over the groups of meetings is added up over the pairs of opponents. -/
theorem sum_groupGames {β : Type} [AddCommMonoid β] (f : List Int → β) (hf : f [] = 0) :
    ((groupGames index.encounters).map fun g => f (g.2.map (·.start))).sum =
      ∑ pair ∈ index.opponents, f (index.meetingStarts pair) := by
  rw [map_groupGames, ← List.sum_toFinset _ nodup_pairs]
  -- Opponents without a start to their name have no group, and add nothing.
  apply Finset.sum_subset
  · intro pair hpair
    exact mem_opponents_of_met (List.mem_toFinset.mp hpair)
  · intro pair _ hpair
    rw [List.mem_toFinset] at hpair
    rw [meetingStarts_of_not_met hpair, hf]

def swapFirst {α : Type} : List α → List α
  | x :: y :: rest => y :: x :: rest
  | xs => xs

/-- The same schedule, but for the order of the first two participants of some fixtures. -/
structure Swapped (index index' : Index) : Prop where
  assignments : index'.assignments = index.assignments
  excludedTeams : index'.excludedTeams = index.excludedTeams
  participants (fixture : String) :
    index'.participants fixture = index.participants fixture ∨
      index'.participants fixture = (index.participants fixture).map swapFirst

variable {index' : Index}

theorem Swapped.meeting?_eq (h : index.Swapped index') (a : Assignment) :
    meeting? index' a = meeting? index a := by
  have hscope : index'.teamInScope = index.teamInScope := by
    unfold teamInScope
    rw [h.excludedTeams]
  unfold meeting?
  rw [hscope]
  rcases h.participants a.fixture with hsame | hswapped
  · rw [hsame]
  · rw [hswapped]
    cases index.participants a.fixture with
    | error f => rfl
    | ok teams =>
      cases a.start with
      | none => rfl
      | some start =>
        match teams with
        | [] => rfl
        | [_] => rfl
        | t1 :: t2 :: rest =>
          simp only [Except.map, swapFirst, bind, Except.bind]
          rw [Opponents.of_comm t2 t1, Bool.or_comm]

theorem Swapped.meetings_eq (h : index.Swapped index') : meetings index' = meetings index := by
  have hread : meeting? index' = meeting? index := funext h.meeting?_eq
  unfold meetings
  rw [hread, h.assignments]

/-- A fixture document whose first two participants change places. -/
def swapOpponents (doc : Json) : Json :=
  match doc with
  | .obj members =>
    match members.lookup "participants" with
    | some (.arr items) =>
      .obj (Json.setMember "participants" (.arr (swapFirst items)) members)
    | _ => doc
  | _ => doc

/-- The first two participants of the chosen fixtures change places. -/
def swapping (index : Index) (chosen : String → Bool) : Index :=
  { index with
    fixtures := index.fixtures.map fun p => (p.1, if chosen p.1 then swapOpponents p.2 else p.2) }

theorem map_swapFirst {α β : Type} (f : α → β) (xs : List α) :
    (swapFirst xs).map f = swapFirst (xs.map f) := by
  match xs with
  | [] => rfl
  | [_] => rfl
  | _ :: _ :: _ => rfl

theorem participantsOf_obj {members : List (String × Json)} {items : List Json}
    (h : members.lookup "participants" = some (.arr items)) :
    participantsOf (.obj members) = .ok (items.map Json.sealedText) := by
  have hfield : (Json.obj members).field "participants" = .arr items :=
    congrArg (·.getD Json.null) h
  unfold participantsOf Json.listedOrNone
  rw [hfield]
  cases items with
  | nil => rfl
  | cons item rest => rfl

theorem participantsOf_swapOpponents (doc : Json) :
    participantsOf (swapOpponents doc) = participantsOf doc ∨
      participantsOf (swapOpponents doc) = (participantsOf doc).map swapFirst := by
  unfold swapOpponents
  split
  · next members =>
    split
    · next items hitems =>
      right
      rw [participantsOf_obj hitems, participantsOf_obj (Json.lookup_setMember_self ..),
        map_swapFirst]
      rfl
    · exact .inl rfl
  · exact .inl rfl

theorem swapped_swapping (chosen : String → Bool) : index.Swapped (index.swapping chosen) where
  assignments := rfl
  excludedTeams := rfl
  participants fixture := by
    have hdoc : (index.swapping chosen).fixture? fixture =
        (index.fixture? fixture).map fun doc =>
          if chosen fixture then swapOpponents doc else doc := by
      unfold fixture? swapping
      induction index.fixtures with
      | nil => rfl
      | cons p rest ih =>
        rw [List.map_cons, Json.lookup_cons_eq, Json.lookup_cons_eq, ih]
        split
        · next h => rw [h, Option.map_some]
        · rfl
    unfold participants
    rw [hdoc]
    cases index.fixture? fixture with
    | none => exact .inl rfl
    | some doc =>
      rw [Option.map_some]
      dsimp only
      split
      · exact participantsOf_swapOpponents doc
      · exact .inl rfl

end Index
end LeagueAudit
