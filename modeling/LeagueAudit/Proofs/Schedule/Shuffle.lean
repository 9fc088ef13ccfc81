import LeagueAudit.Proofs.Outcome
import LeagueAudit.Proofs.Schedule.Grouping
import LeagueAudit.Selector.Scope
import Mathlib.Data.List.Nodup

/-!
Schedules that list their assignments in different orders. When no fixture is assigned twice, its
assignment can be found in either list, and whatever is collected from all assignments comes out in
another order at most.
-/
namespace LeagueAudit

/-- An assignment without its place in the result's list. -/
def Assignment.unplaced (a : Assignment) : Assignment := { a with position := 0 }

namespace Index

/-- Two indexes of the same entities that list the same assignments. -/
structure Shuffled (index index' : Index) : Prop where
  league : index'.league = index.league
  zone : index'.zone = index.zone
  teams : index'.teams = index.teams
  venues : index'.venues = index.venues
  fixtures : index'.fixtures = index.fixtures
  excludedTeams : index'.excludedTeams = index.excludedTeams
  excludedVenues : index'.excludedVenues = index.excludedVenues
  assignments : (index.assignments.map Assignment.unplaced).Perm
    (index'.assignments.map Assignment.unplaced)
  distinct : (index.assignments.map (·.fixture)).Nodup

theorem find?_eq_some_iff {as : List Assignment} (hdistinct : (as.map (·.fixture)).Nodup)
    {id : String} {a : Assignment} :
    as.find? (·.fixture == id) = some a ↔ a ∈ as ∧ a.fixture = id := by
  constructor
  · intro hfound
    exact ⟨List.mem_of_find?_eq_some hfound, by simpa using List.find?_some hfound⟩
  · rintro ⟨ha, hid⟩
    cases hfound : as.find? (·.fixture == id) with
    | none => exact absurd hid (by simpa using List.find?_eq_none.mp hfound a ha)
    | some b =>
      have hbid : b.fixture = id := by simpa using List.find?_some hfound
      rw [List.inj_on_of_nodup_map hdistinct (List.mem_of_find?_eq_some hfound) ha
        (hbid.trans hid.symm)]

namespace Shuffled

variable {index index' : Index}

theorem entities (h : Shuffled index index') (kind : EntityKind) :
    index'.entities kind = index.entities kind := by
  cases kind with
  | team => exact h.teams
  | venue => exact h.venues
  | fixture => exact h.fixtures

theorem fixture? (h : Shuffled index index') (id : String) :
    index'.fixture? id = index.fixture? id := by
  unfold Index.fixture?
  rw [h.fixtures]

theorem participants (h : Shuffled index index') (id : String) :
    index'.participants id = index.participants id := by
  unfold Index.participants
  rw [h.fixture?]

theorem teamInScope (h : Shuffled index index') : index'.teamInScope = index.teamInScope := by
  funext team
  unfold Index.teamInScope
  rw [h.excludedTeams]

theorem venueInScope (h : Shuffled index index') : index'.venueInScope = index.venueInScope := by
  funext venue
  unfold Index.venueInScope
  rw [h.excludedVenues]

/-- What is computed for every assignment, from anything but its place. -/
theorem agree_mapM (h : Shuffled index index') {β : Type} {f : Assignment → Except Fault β}
    (hf : ∀ a : Assignment, f a.unplaced = f a) :
    Agree List.Perm (index.assignments.mapM f) (index'.assignments.mapM f) := by
  have hcomp : f ∘ Assignment.unplaced = f := funext hf
  have hagree := agree_mapM_of_perm h.assignments f
  rwa [List.mapM_map, List.mapM_map, hcomp] at hagree

theorem perm_filterMap (h : Shuffled index index') {β : Type} {f : Assignment → Option β}
    (hf : ∀ a : Assignment, f a.unplaced = f a) :
    (index.assignments.filterMap f).Perm (index'.assignments.filterMap f) := by
  have hcomp : f ∘ Assignment.unplaced = f := funext hf
  have hperm := h.assignments.filterMap f
  rwa [List.filterMap_map, List.filterMap_map, hcomp] at hperm

theorem perm_flatMap (h : Shuffled index index') {β : Type} {f : Assignment → List β}
    (hf : ∀ a : Assignment, f a.unplaced = f a) :
    (index.assignments.flatMap f).Perm (index'.assignments.flatMap f) := by
  have hperm := h.assignments.flatMap_right f
  simpa only [List.flatMap_map, hf] using hperm

theorem unique (h : Shuffled index index') {a b : Assignment} (ha : a ∈ index.assignments)
    (hb : b ∈ index.assignments) (hfixture : a.fixture = b.fixture) : a = b :=
  List.inj_on_of_nodup_map h.distinct ha hb hfixture

/-- Games that come from assignments are told apart by their fixtures. -/
theorem told (h : Shuffled index index') {games : List Game} {slot : Assignment → Option Game}
    (hslot : ∀ a g, slot a = some g → g.fixture = a.fixture)
    (hgames : ∀ g ∈ games, ∃ a ∈ index.assignments, slot a = some g) : Told games := by
  intro g hg g' hg' hfixture
  obtain ⟨a, ha, hag⟩ := hgames g hg
  obtain ⟨a', ha', hag'⟩ := hgames g' hg'
  have hsame : a = a' := by
    apply h.unique ha ha'
    rw [← hslot a g hag, ← hslot a' g' hag', hfixture]
  subst hsame
  exact Option.some.inj (hag.symm.trans hag')

/-- The assignment of a fixture is found wherever it is listed. -/
theorem assignmentOf (h : Shuffled index index') (id : String) :
    (index'.assignmentOf id).map Assignment.unplaced =
      (index.assignmentOf id).map Assignment.unplaced := by
  have hfind : ∀ as : List Assignment,
      (as.find? (·.fixture == id)).map Assignment.unplaced =
        (as.map Assignment.unplaced).find? (·.fixture == id) := by
    intro as
    rw [List.find?_map]
    rfl
  have hnames : ∀ as : List Assignment,
      (as.map Assignment.unplaced).map (·.fixture) = as.map (·.fixture) := by
    intro as
    rw [List.map_map]
    rfl
  have hdistinct : ((index.assignments.map Assignment.unplaced).map (·.fixture)).Nodup := by
    rw [hnames]
    exact h.distinct
  unfold Index.assignmentOf
  rw [hfind, hfind]
  -- With distinct fixtures, being found is being listed, and that does not depend on the order.
  ext a
  rw [find?_eq_some_iff hdistinct,
    find?_eq_some_iff ((h.assignments.map _).nodup_iff.mp hdistinct), h.assignments.mem_iff]

end Shuffled
end Index
end LeagueAudit
