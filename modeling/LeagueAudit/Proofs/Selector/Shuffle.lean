import LeagueAudit.Proofs.Schedule.Shuffle
import LeagueAudit.Proofs.Selector.Meaning

/-!
Scopes of schedules that list their assignments in different orders. A selector looks at entities
and at the one assignment of a fixture, and does not see the place of that assignment in its list;
so a scope keeps the same entities in both schedules, and the same assignments.
-/
namespace LeagueAudit

/-- A candidate whose assignment has no place. -/
def Candidate.unplaced (c : Candidate) : Candidate :=
  { c with assignment := c.assignment.map Assignment.unplaced }

theorem Leaf.test_unplaced (z : Zone) (c : Candidate) (leaf : Leaf) :
    leaf.test z c.unplaced = leaf.test z c := by
  have hspan : c.unplaced.assignment.bind Assignment.span? =
      c.assignment.bind Assignment.span? := by
    unfold Candidate.unplaced
    cases c.assignment <;> rfl
  have hparts : (c.unplaced.assignment.bind fun a => a.parts) = c.assignment.bind (·.parts) := by
    unfold Candidate.unplaced
    cases c.assignment <;> rfl
  cases leaf with
  | dateRange start finish =>
    unfold Leaf.test
    rw [hspan]
  | dayOfWeek days =>
    unfold Leaf.test
    rw [hparts]
  | _ => rfl

namespace Selector

variable {z : Zone} {c c' : Candidate} {children : List Selector}

theorem matchesAll_congr (h : ∀ s ∈ children, matchesOne z c s = matchesOne z c' s) :
    matchesAll z c children = matchesAll z c' children := by
  induction children with
  | nil => rfl
  | cons s rest ih =>
    obtain ⟨hs, hrest⟩ := List.forall_mem_cons.mp h
    rw [matchesAll, matchesAll, hs, ih hrest]

theorem matchesAny_congr (h : ∀ s ∈ children, matchesOne z c s = matchesOne z c' s) :
    matchesAny z c children = matchesAny z c' children := by
  induction children with
  | nil => rfl
  | cons s rest ih =>
    obtain ⟨hs, hrest⟩ := List.forall_mem_cons.mp h
    rw [matchesAny, matchesAny, hs, ih hrest]

theorem projectAll_congr {index index' : Index} {kind : EntityKind}
    (h : ∀ s ∈ children, s.project index' kind = s.project index kind) :
    projectAll index' kind children = projectAll index kind children := by
  induction children with
  | nil => rfl
  | cons s rest ih =>
    obtain ⟨hs, hrest⟩ := List.forall_mem_cons.mp h
    rw [projectAll, projectAll, hs, ih hrest]

theorem matchesOne_unplaced (z : Zone) (c : Candidate) (s : Selector) :
    s.matchesOne z c.unplaced = s.matchesOne z c := by
  induction s using induct with
  | onWildcard => rfl
  | onAllOf children ih =>
    rw [matchesOne, matchesOne]
    exact matchesAll_congr ih
  | onAnyOf children ih =>
    rw [matchesOne, matchesOne]
    exact matchesAny_congr ih
  | onNot child ih => rw [matchesOne, matchesOne, ih]
  | onScope scope inner ih =>
    rw [matchesOne, matchesOne, ih]
    rfl
  | onLeaf criterion =>
    rw [matchesOne, matchesOne, Leaf.holds, Leaf.holds, Leaf.test_unplaced]
    rfl

end Selector

namespace Index

theorem someMatches_unplaced (z : Zone) (s : Selector) (candidates : List Candidate) :
    someMatches z s (candidates.map Candidate.unplaced) = someMatches z s candidates := by
  induction candidates with
  | nil => rfl
  | cons c rest ih => rw [List.map_cons, someMatches, someMatches, s.matchesOne_unplaced, ih]

namespace Shuffled

variable {index index' : Index}

theorem knownTags (h : Shuffled index index') (kind : EntityKind) :
    index'.knownTags kind = index.knownTags kind := by
  unfold Index.knownTags
  rw [h.entities]

theorem restricts (h : Shuffled index index') (kind : EntityKind) (leaf : Leaf) :
    leaf.restricts index' kind = leaf.restricts index kind := by
  unfold Leaf.restricts Index.tagsOfKind
  simp only [h.entities, h.knownTags]

theorem project (h : Shuffled index index') (kind : EntityKind) (s : Selector) :
    s.project index' kind = s.project index kind := by
  induction s using Selector.induct with
  | onWildcard => rfl
  | onAllOf children ih => rw [Selector.project, Selector.project, Selector.projectAll_congr ih]
  | onAnyOf children ih => rw [Selector.project, Selector.project, Selector.projectAll_congr ih]
  | onNot child ih => rw [Selector.project, Selector.project, ih]
  | onScope scope inner ih => rfl
  | onLeaf criterion => rw [Selector.project, Selector.project, h.restricts]

theorem select (h : Shuffled index index') (kind : EntityKind) (rest : Option Selector) :
    index'.select kind rest = index.select kind rest := by
  unfold Index.select
  rw [h.entities, h.zone]

/-- A fixture is seen in the same way, but for the place of its assignment. -/
theorem fixtureCandidates (h : Shuffled index index') (id : String) (doc : Json) :
    (index'.fixtureCandidates id doc).map (·.map Candidate.unplaced) =
      (index.fixtureCandidates id doc).map (·.map Candidate.unplaced) := by
  have hassignment := h.assignmentOf id
  have hvenue : (index'.assignmentOf id).bind (·.venue) =
      (index.assignmentOf id).bind (·.venue) := by
    have hmap : ∀ a : Option Assignment,
        a.bind (·.venue) = (a.map Assignment.unplaced).bind (·.venue) := by
      intro a
      cases a <;> rfl
    rw [hmap, hassignment, ← hmap]
  unfold Index.fixtureCandidates
  dsimp only
  rw [h.participants, h.teams, h.venues, hvenue]
  cases index.participants id with
  | error f => rfl
  | ok participants =>
    cases participants with
    | nil => simp [bind, Except.bind, Except.map, Candidate.unplaced, hassignment]
    | cons first rest =>
      simp [bind, Except.bind, Except.map, Candidate.unplaced, hassignment]

theorem someMatches (h : Shuffled index index') (s : Selector) (id : String) (doc : Json) :
    (index'.fixtureCandidates id doc >>= Index.someMatches index'.zone s) =
      (index.fixtureCandidates id doc >>= Index.someMatches index.zone s) := by
  have hmap : ∀ x : Except Fault (List Candidate), (x >>= Index.someMatches index.zone s) =
      (x.map (·.map Candidate.unplaced) >>= Index.someMatches index.zone s) := by
    intro x
    cases x with
    | error f => rfl
    | ok candidates => exact (someMatches_unplaced index.zone s candidates).symm
  rw [h.zone, hmap, h.fixtureCandidates, ← hmap]

theorem restrict (h : Shuffled index index') (teams venues : Option (List String))
    {fixtures fixtures' : List String} (hfixtures : ∀ id, id ∈ fixtures' ↔ id ∈ fixtures) :
    Shuffled (index.restrict teams venues (some fixtures))
      (index'.restrict teams venues (some fixtures')) := by
  have hcontains : ∀ id, fixtures'.contains id = fixtures.contains id := by
    intro id
    rw [Bool.eq_iff_iff, List.contains_iff_mem, List.contains_iff_mem, hfixtures]
  have hkept : ∀ index : Index,
      (index.assignments.filter fun a => fixtures.contains a.fixture).map Assignment.unplaced =
        (index.assignments.map Assignment.unplaced).filter fun a =>
          fixtures.contains a.fixture := by
    intro index
    rw [List.filter_map]
    rfl
  constructor
  case assignments =>
    unfold Index.restrict
    simp only [Option.getD_some, hcontains]
    rw [hkept, hkept]
    exact h.assignments.filter _
  case distinct => exact (List.filter_sublist.map _).nodup h.distinct
  case league => exact h.league
  case zone => exact h.zone
  all_goals
    unfold Index.restrict keep dropped
    simp only [hcontains, h.teams, h.venues, h.fixtures, h.excludedTeams, h.excludedVenues]

theorem idsWhere (h : Shuffled index index') (kind : EntityKind) (inner : Selector) :
    (Index.idsWhere (index'.entities kind) fun _ doc =>
        inner.matchesOne index'.zone { kind, entity := doc }) =
      Index.idsWhere (index.entities kind) fun _ doc =>
        inner.matchesOne index.zone { kind, entity := doc } := by
  rw [h.entities, h.zone]

theorem scopeKind (h : Shuffled index index') (kind : EntityKind) (inner : Selector) :
    Agree Shuffled (index.scopeKind kind inner) (index'.scopeKind kind inner) := by
  unfold Index.scopeKind
  rw [h.idsWhere]
  refine Agree.bind_self fun ids => ?_
  cases kind with
  | team =>
    dsimp only
    simp only [h.fixtures, h.participants]
    refine Agree.bind_self fun fixtures => ?_
    exact .ok (h.restrict _ _ fun id => Iff.rfl)
  | venue =>
    have hnames : ∀ as : List Assignment,
        (as.filter fun a => a.venue.any ids.contains).map (·.fixture) =
          ((as.map Assignment.unplaced).filter fun a => a.venue.any ids.contains).map
            (·.fixture) := by
      intro as
      rw [List.filter_map, List.map_map]
      rfl
    refine .ok (h.restrict _ _ fun id => ?_)
    rw [hnames, hnames index.assignments]
    exact ((h.assignments.filter _).map _).symm.mem_iff
  | fixture => exact .ok (h.restrict _ _ fun id => Iff.rfl)

theorem scopeNormal (h : Shuffled index index') (s : Selector) :
    Agree Shuffled (index.scopeNormal s) (index'.scopeNormal s) := by
  unfold Index.scopeNormal
  simp only [h.project, h.select, h.fixtures, h.someMatches]
  refine Agree.bind_self fun teamPart => ?_
  refine Agree.bind_self fun teams => ?_
  refine Agree.bind_self fun venuePart => ?_
  refine Agree.bind_self fun venues => ?_
  refine Agree.bind_self fun fixtures => ?_
  exact .ok (h.restrict _ _ fun id => Iff.rfl)

/-- A scope fails in both schedules, or keeps the same of them. -/
theorem scope (h : Shuffled index index') (s : Selector) :
    Agree Shuffled (index.scope s) (index'.scope s) := by
  cases s with
  | wildcard => exact .ok h
  | entityScope kind inner => exact h.scopeKind kind inner
  | _ => exact h.scopeNormal _

end Shuffled
end Index
end LeagueAudit
