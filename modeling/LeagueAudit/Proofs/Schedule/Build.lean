import LeagueAudit.Proofs.Json.Members
import LeagueAudit.Proofs.Outcome
import LeagueAudit.Schedule.Build

/-!
What an index holds of its two documents. An id stands for the first entity that declares it. Every
entry that names a fixture becomes one assignment in the same order, the issues about an entry say
exactly what cannot be read off it, and the count of a fixture is the number of assignments that name
it.
-/
namespace LeagueAudit.Index

/-- An entity that declares an id. -/
def declares (id : String) (item : Json) : Bool := hasId item && (item.field "id").text == id

theorem lookup_collect (kind : EntityKind) (position : Nat) (found : Entities)
    (items : List Json) (id : String) :
    (collect kind position found items).1.lookup id =
      (found.lookup id).or (items.find? (declares id)) := by
  induction items generalizing position found with
  | nil => simp [collect]
  | cons item rest ih =>
    rw [collect, List.find?_cons]
    cases hid : hasId item with
    | false => simp [declares, hid, ih]
    | true =>
      simp only [if_pos, declares, hid, Bool.true_and, ih]
      by_cases hsame : (item.field "id").text = id
      · subst hsame
        cases hfound : found.lookup (item.field "id").text <;>
          simp [hfound, List.lookup_append]
      · have hne : (id == (item.field "id").text) = false := by simpa using Ne.symm hsame
        have hne' : ((item.field "id").text == id) = false := by simpa using hsame
        split <;> simp [hne', List.lookup_append, List.lookup_cons, hne]

theorem nodup_collect (kind : EntityKind) (position : Nat) {found : Entities}
    (h : found.ids.Nodup) (items : List Json) :
    (collect kind position found items).1.ids.Nodup := by
  induction items generalizing position found with
  | nil => exact h
  | cons item rest ih =>
    rw [collect]
    split
    · refine ih _ ?_
      split
      · exact h
      · next hnew =>
        rw [Entities.ids, List.map_append, List.nodup_append]
        refine ⟨h, by simp, ?_⟩
        intro a ha b hb hab
        rw [List.map_singleton, List.mem_singleton] at hb
        subst hab hb
        exact hnew (Json.isSome_lookup_iff.mpr ha)
    · exact ih _ h

theorem lookup_countOne (id key : String) (counts : List (String × Nat)) :
    (countOne id counts).lookup key =
      if key = id then some ((counts.lookup id).getD 0 + 1) else counts.lookup key := by
  induction counts with
  | nil => rw [countOne, Json.lookup_cons_eq, List.lookup_nil, List.lookup_nil]; rfl
  | cons count rest ih =>
    obtain ⟨k, n⟩ := count
    rw [countOne]
    by_cases hk : k = id
    · subst hk
      simp only [if_true, Json.lookup_cons_eq, Option.getD_some]
      split <;> rfl
    · simp only [if_neg hk, if_neg (Ne.symm hk), Json.lookup_cons_eq, ih]
      by_cases h : key = k
      · rw [if_pos h, if_pos h, if_neg fun hid => hk (h.symm.trans hid)]
      · rw [if_neg h, if_neg h]

theorem lookup_tally (ids : List String) (id : String) :
    ((tally ids).lookup id).getD 0 = ids.count id := by
  suffices hgen : ∀ counts : List (String × Nat),
      ((ids.foldl (fun acc id => countOne id acc) counts).lookup id).getD 0 =
        (counts.lookup id).getD 0 + ids.count id by
    simpa [tally] using hgen []
  induction ids with
  | nil => simp
  | cons head rest ih =>
    intro counts
    rw [List.foldl_cons, ih, lookup_countOne, List.count_cons]
    by_cases h : id = head
    · simp [h]
      omega
    · simp [h, Ne.symm h]

/-- An entry of the assignments that names a fixture. -/
def namesFixture (entry : Json) : Bool := (entry.field "fixtureId").truthy

/-- The name that an entry gives to its fixture. -/
def fixtureNamed (entry : Json) : String := (entry.field "fixtureId").text

/-- The entries of a list that name a fixture, with their places from a position on. -/
def namingEntries (position : Nat) (entries : List Json) : List (Json × Nat) :=
  (entries.zipIdx position).filter fun p => namesFixture p.1

/-- What a fixture id stands for: the first fixture that declares it. -/
def declared? (league : Json) (id : String) : Option Json :=
  (league.field "fixtures").items.find? (declares id)

/-- How many entries of a result name a fixture. -/
def timesNamed (result : Json) (id : String) : Nat :=
  (result.field "assignments").items.countP fun entry =>
    namesFixture entry && fixtureNamed entry == id

/-- An assignment and the issues about it, as they are read off an entry in its place. -/
structure ReadsAs (z : Zone) (default : Minutes) (fixtures : Entities) (p : Json × Nat)
    (q : Assignment × List Issue) : Prop where
  fixture : q.1.fixture = fixtureNamed p.1
  position : q.1.position = p.2
  start : q.1.start = readInstant? z (p.1.field "startTime")
  finish : finishOf z default (fixtures.lookup q.1.fixture) p.1 q.1.start = .ok q.1.finish
  about : ∀ issue ∈ q.2, issue.fixture = some q.1.fixture
  unknown : (∃ issue ∈ q.2, issue.kind = .unknownFixture) ↔ fixtures.lookup q.1.fixture = none
  unreadable : (∃ issue ∈ q.2, issue.kind = .invalidStart) ↔ q.1.start = none

variable {z : Zone} {default : Minutes} {fixtures : Entities}

theorem exists_flagged (bad : Bool) (kind wanted : IssueKind) (message id : String) :
    (∃ issue ∈ (if bad then [⟨kind, message, some id⟩] else [] : List Issue),
      issue.kind = wanted) ↔ bad = true ∧ kind = wanted := by
  cases bad <;> simp

theorem forall_flagged (bad : Bool) (kind : IssueKind) (message id : String) :
    ∀ issue ∈ (if bad then [⟨kind, message, some id⟩] else [] : List Issue),
      issue.fixture = some id := by
  cases bad <;> simp

theorem annotate_eq_ok {position : Nat} {raw : Json} {q : Assignment × List Issue}
    (h : annotate z default fixtures position raw = .ok q) :
    ReadsAs z default fixtures (raw, position) q := by
  unfold annotate at h
  obtain ⟨finish, hfinish, h⟩ := bind_eq_ok.mp h
  dsimp only at h
  split at h
  on_goal 1 => obtain ⟨clocks, -, h⟩ := bind_eq_ok.mp h
  all_goals
    obtain ⟨parts, -, h⟩ := bind_eq_ok.mp h
    cases Except.ok.inj h
    refine ⟨rfl, rfl, rfl, hfinish, ?about, ?unknown, ?unreadable⟩
    case about =>
      simp only [List.forall_mem_append]
      exact ⟨⟨forall_flagged _ _ _ _, forall_flagged _ _ _ _⟩, forall_flagged _ _ _ _⟩
    case unknown =>
      dsimp only
      simp only [List.mem_append, or_and_right, exists_or]
      rw [exists_flagged, exists_flagged, exists_flagged]
      simp
    case unreadable =>
      dsimp only
      simp only [List.mem_append, or_and_right, exists_or]
      rw [exists_flagged, exists_flagged, exists_flagged]
      simp

theorem isSome_finish {fixture : Option Json} {raw : Json} {start finish : Option Int}
    (h : finishOf z default fixture raw start = .ok finish) (hs : start.isSome = true) :
    finish.isSome = true := by
  unfold finishOf at h
  split at h
  · cases Except.ok.inj h
    rfl
  · split at h
    · simp at hs
    · obtain ⟨minutes, -, h⟩ := bind_eq_ok.mp h
      obtain ⟨millis, -, h⟩ := bind_eq_ok.mp h
      cases Except.ok.inj h
      rfl

theorem annotateAll_eq_ok {position : Nat} {entries : List Json}
    {found : List Assignment × List Issue}
    (h : annotateAll z default fixtures position entries = .ok found) :
    ∃ read, List.Forall₂ (ReadsAs z default fixtures) (namingEntries position entries) read ∧
      found.1 = read.map (·.1) ∧
      ∀ issue, issue.kind ≠ .malformedAssignment → (issue ∈ found.2 ↔ ∃ q ∈ read, issue ∈ q.2) := by
  induction entries generalizing position found with
  | nil =>
    cases Except.ok.inj h
    exact ⟨[], .nil, rfl, by simp⟩
  | cons entry rest ih =>
    rw [annotateAll] at h
    have hentries : namingEntries position (entry :: rest) =
        if namesFixture entry then (entry, position) :: namingEntries (position + 1) rest
        else namingEntries (position + 1) rest := by
      rw [namingEntries, List.zipIdx_cons, List.filter_cons]
      rfl
    rw [hentries]
    split at h
    · next hnames =>
      obtain ⟨q, hq, h⟩ := bind_eq_ok.mp h
      obtain ⟨more, hmore, h⟩ := bind_eq_ok.mp h
      cases Except.ok.inj h
      obtain ⟨read, hread, has, hissues⟩ := ih hmore
      rw [if_pos (show namesFixture entry = true from hnames)]
      refine ⟨q :: read, .cons (annotate_eq_ok hq) hread, by rw [has]; rfl, ?_⟩
      intro issue hkind
      rw [List.mem_append, hissues issue hkind]
      simp
    · next hnames =>
      -- The entry is skipped, but its place counts for those behind it.
      obtain ⟨more, hmore, h⟩ := bind_eq_ok.mp h
      cases Except.ok.inj h
      obtain ⟨read, hread, has, hissues⟩ := ih hmore
      rw [if_neg (show ¬namesFixture entry = true from hnames)]
      refine ⟨read, hread, has, ?_⟩
      intro issue hkind
      rw [List.mem_cons, hissues issue hkind]
      exact or_iff_right fun heq => hkind (by rw [heq])

theorem kind_of_mem_collect {kind : EntityKind} {position : Nat} {found : Entities}
    {items : List Json} {issue : Issue} (h : issue ∈ (collect kind position found items).2) :
    issue.kind = .malformedEntity := by
  induction items generalizing position found with
  | nil => simp [collect] at h
  | cons item rest ih =>
    rw [collect] at h
    split at h
    · exact ih h
    · rcases List.mem_cons.mp h with rfl | h
      · rfl
      · exact ih h

/-- Nothing of a result but its assignments is indexed. -/
theorem build_congr {default : Minutes} {fallback : String} {league result other : Json}
    (h : other.field "assignments" = result.field "assignments") :
    build default fallback league other = build default fallback league result := by
  unfold build
  rw [h]

/-- What an index holds of the instance and of the result that it was built from. -/
structure Built (default : Minutes) (fallback : String) (league result : Json) (index : Index) :
    Prop where
  zone : ∃ known, resolveZone fallback (declaredZone league) = .ok (index.zone, known)
  fixture : ∀ id, index.fixture? id = declared? league id
  distinct : index.fixtures.ids.Nodup
  unscoped : index.excludedTeams = []
  countOf : ∀ id, index.countOf id = timesNamed result id
  read : ∃ minutes read,
    minutesOr default (league.field "defaultFixtureDuration") = .ok minutes ∧
    List.Forall₂ (ReadsAs index.zone minutes index.fixtures)
      (namingEntries 0 (result.field "assignments").items) read ∧
    index.assignments = read.map (·.1) ∧
    ∀ issue, issue.kind = .unknownFixture ∨ issue.kind = .invalidStart →
      (issue ∈ index.issues ↔ ∃ q ∈ read, issue ∈ q.2)

theorem map_fst_namingEntries (position : Nat) (entries : List Json) :
    (namingEntries position entries).map (·.1) = entries.filter namesFixture := by
  conv_rhs => rw [← List.zipIdx_map_fst position entries]
  rw [List.filter_map]
  rfl

/-- The fixtures of what was read are those that the entries name. -/
theorem fixtures_of_read {entries : List Json} {read : List (Assignment × List Issue)}
    (h : List.Forall₂ (ReadsAs z default fixtures) (namingEntries 0 entries) read) :
    (read.map (·.1)).map (·.fixture) = (entries.filter namesFixture).map fixtureNamed := by
  have hnames : (namingEntries 0 entries).map (fun p => fixtureNamed p.1) =
      read.map fun q => q.1.fixture :=
    map_eq_map_of_forall₂ (h.imp fun p q hq => hq.fixture.symm)
  rw [List.map_map, ← map_fst_namingEntries 0, List.map_map]
  exact hnames.symm

theorem count_fixtures {entries : List Json} {read : List (Assignment × List Issue)}
    (h : List.Forall₂ (ReadsAs z default fixtures) (namingEntries 0 entries) read) (id : String) :
    ((read.map (·.1)).map (·.fixture)).count id =
      entries.countP fun entry => namesFixture entry && fixtureNamed entry == id := by
  rw [fixtures_of_read h, List.count, List.countP_map, List.countP_filter]
  congr 1
  funext entry
  exact Bool.and_comm _ _

theorem build_eq_ok {default : Minutes} {fallback : String} {league result : Json} {index : Index}
    (h : build default fallback league result = .ok index) :
    Built default fallback league result index := by
  unfold build at h
  obtain ⟨⟨zone, known⟩, hzone, h⟩ := bind_eq_ok.mp h
  obtain ⟨minutes, hminutes, h⟩ := bind_eq_ok.mp h
  obtain ⟨found, hfound, h⟩ := bind_eq_ok.mp h
  obtain ⟨whole, -, h⟩ := bind_eq_ok.mp h
  cases Except.ok.inj h
  obtain ⟨read, hread, has, hissues⟩ := annotateAll_eq_ok hfound
  have hdistinct : (Entities.ids []).Nodup := .nil
  refine ⟨⟨known, hzone⟩, ?fixture, nodup_collect _ _ hdistinct _, rfl, ?countOf, ?read⟩
  case fixture =>
    intro id
    rw [fixture?, lookup_collect]
    rfl
  case countOf =>
    intro id
    rw [Index.countOf, lookup_tally, has, count_fixtures hread]
    rfl
  case read =>
    refine ⟨minutes, read, hminutes, hread, has, ?_⟩
    intro issue hkind
    have hentity : issue.kind ≠ .malformedEntity := by rcases hkind with h | h <;> simp [h]
    have hzones : issue.kind ≠ .unknownTimezone := by rcases hkind with h | h <;> simp [h]
    rw [← hissues issue (by rcases hkind with h | h <;> simp [h])]
    simp only [List.mem_append]
    constructor
    · rintro ((((h | h) | h) | h) | h)
      · split at h
        · simp at h
        · exact absurd (by rw [List.mem_singleton.mp h]) hzones
      · exact absurd (kind_of_mem_collect h) hentity
      · exact absurd (kind_of_mem_collect h) hentity
      · exact absurd (kind_of_mem_collect h) hentity
      · exact h
    · exact .inr

theorem mem_namingEntries {entries : List Json} {entry : Json} {place : Nat} :
    (entry, place) ∈ namingEntries 0 entries ↔
      entries[place]? = some entry ∧ namesFixture entry = true := by
  rw [namingEntries, List.mem_filter, List.mem_zipIdx_iff_getElem?]

theorem exists_namingEntries {entries : List Json} {P : Json → Prop} :
    (∃ p ∈ namingEntries 0 entries, P p.1) ↔
      ∃ entry ∈ entries, namesFixture entry = true ∧ P entry := by
  constructor
  · rintro ⟨⟨entry, place⟩, hp, h⟩
    obtain ⟨hentry, hnames⟩ := mem_namingEntries.mp hp
    exact ⟨entry, List.mem_of_getElem? hentry, hnames, h⟩
  · rintro ⟨entry, hentry, hnames, h⟩
    obtain ⟨place, hplace⟩ := List.mem_iff_getElem?.mp hentry
    exact ⟨(entry, place), mem_namingEntries.mpr ⟨hplace, hnames⟩, h⟩

namespace Built

variable {fallback : String} {league result : Json} {index : Index}

/-- An issue of a kind belongs to an entry that shows it. -/
theorem exists_issue (b : Built default fallback league result index) {kind : IssueKind}
    (hkind : kind = .unknownFixture ∨ kind = .invalidStart) (wanted : Option String → Prop)
    (shows : Json → Prop)
    (hshows : ∀ minutes p q, ReadsAs index.zone minutes index.fixtures p q →
      ((∃ issue ∈ q.2, issue.kind = kind) ↔ shows p.1)) :
    (∃ issue ∈ index.issues, issue.kind = kind ∧ wanted issue.fixture) ↔
      ∃ entry ∈ (result.field "assignments").items, namesFixture entry = true ∧
        wanted (some (fixtureNamed entry)) ∧ shows entry := by
  obtain ⟨minutes, read, -, hread, -, hissues⟩ := b.read
  rw [← exists_namingEntries]
  constructor
  · rintro ⟨issue, hmem, hk, hw⟩
    obtain ⟨q, hq, hmem⟩ := (hissues issue (hk ▸ hkind)).mp hmem
    obtain ⟨p, hp, hpq⟩ := exists_left_of_forall₂ hread hq
    refine ⟨p, hp, ?_, (hshows minutes p q hpq).mp ⟨issue, hmem, hk⟩⟩
    rw [← hpq.fixture, ← hpq.about issue hmem]
    exact hw
  · rintro ⟨p, hp, hw, hs⟩
    obtain ⟨q, hq, hpq⟩ := exists_right_of_forall₂ hread hp
    obtain ⟨issue, hmem, hk⟩ := (hshows minutes p q hpq).mpr hs
    refine ⟨issue, (hissues issue (hk ▸ hkind)).mpr ⟨q, hq, hmem⟩, hk, ?_⟩
    rw [hpq.about issue hmem, hpq.fixture]
    exact hw

theorem exists_unknown (b : Built default fallback league result index) :
    (∃ issue ∈ index.issues, issue.kind = .unknownFixture) ↔
      ∃ entry ∈ (result.field "assignments").items, namesFixture entry = true ∧
        declared? league (fixtureNamed entry) = none := by
  have h := b.exists_issue (.inl rfl) (fun _ => True)
    (fun entry => declared? league (fixtureNamed entry) = none) ?_
  · simpa using h
  · intro minutes p q hpq
    rw [hpq.unknown, hpq.fixture, ← b.fixture]
    rfl

theorem exists_unreadable (b : Built default fallback league result index)
    (wanted : Option String → Prop) :
    (∃ issue ∈ index.issues, issue.kind = .invalidStart ∧ wanted issue.fixture) ↔
      ∃ entry ∈ (result.field "assignments").items, namesFixture entry = true ∧
        wanted (some (fixtureNamed entry)) ∧
        readInstant? index.zone (entry.field "startTime") = none := by
  refine b.exists_issue (.inr rfl) wanted _ ?_
  intro minutes p q hpq
  rw [hpq.unreadable, hpq.start]

/-- The entry of an assignment. -/
theorem entry_of (b : Built default fallback league result index) {a : Assignment}
    (ha : a ∈ index.assignments) :
    ∃ entry ∈ (result.field "assignments").items, namesFixture entry = true ∧
      a.fixture = fixtureNamed entry ∧
      a.start = readInstant? index.zone (entry.field "startTime") ∧
      (a.start.isSome = true → a.finish.isSome = true) := by
  obtain ⟨minutes, read, -, hread, has, -⟩ := b.read
  obtain ⟨q, hq, rfl⟩ := List.mem_map.mp (has ▸ ha)
  obtain ⟨⟨entry, place⟩, hp, hpq⟩ := exists_left_of_forall₂ hread hq
  obtain ⟨hentry, hnames⟩ := mem_namingEntries.mp hp
  exact ⟨entry, List.mem_of_getElem? hentry, hnames, hpq.fixture, hpq.start,
    isSome_finish hpq.finish⟩

/-- No two assignments are read from one entry. -/
theorem nodup_positions (b : Built default fallback league result index) :
    (index.assignments.map (·.position)).Nodup := by
  obtain ⟨minutes, read, -, hread, has, -⟩ := b.read
  have hplaces : (namingEntries 0 (result.field "assignments").items).map (·.2) =
      read.map fun q => q.1.position :=
    map_eq_map_of_forall₂ (hread.imp fun p q hpq => hpq.position.symm)
  have hsub : ((namingEntries 0 (result.field "assignments").items).map (·.2)).Sublist
      (((result.field "assignments").items.zipIdx).map (·.2)) :=
    List.filter_sublist.map _
  rw [has, List.map_map]
  refine hplaces ▸ hsub.nodup ?_
  rw [List.zipIdx_map_snd]
  exact List.nodup_range'

end Built

end LeagueAudit.Index
