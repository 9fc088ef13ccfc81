import LeagueAudit.Proofs.Number.Positive
import LeagueAudit.Proofs.Rule.Rest
import LeagueAudit.Proofs.Schedule.Assembly

/-!
Assignments that end before they start. An end that follows from a duration keeps the order of time
unless the default itself is negative; a declared end that can be read is taken as it is, and no
issue tells of it.
-/
namespace LeagueAudit

theorem zero_lt_of_positive? {declared : Json} {x : Float} (h : positive? declared = some x) :
    0.0 < x := by
  unfold positive? at h
  split at h
  · next n =>
    split at h
    · next hn =>
      unfold intFloat? quotientFloat? at h
      dsimp only at h
      rw [decide_eq_false (by omega)] at h
      split at h
      · cases h
      · rw [← Option.some.inj h]
        exact Exact.zero_lt_nearestFloat (by decide) (by omega)
    · cases h
  · split at h
    · next hx => exact Option.some.inj h ▸ hx
    · cases h
  · cases h

/-- A declared duration does not lead back in time. -/
theorem Minutes.nonneg_of_millis {x : Float} (hx : 0.0 < x) {ms : Int}
    (h : (Minutes.real x).millis = .ok ms) : 0 ≤ ms := by
  have hminute : (0.0 : Float) < 60000.0 := by
    rw [Exact.lt_iff]
    decide +kernel
  exact Exact.roundToInt_nonneg (Exact.notNegative_mul hx hminute) h

/-- Durations lead back in time only when nothing is declared and the default does. -/
theorem exists_minutesOf_neg {default : Minutes} {declared : Json} :
    (∃ ms, (minutesOf default declared).millis = .ok ms ∧ ms < 0) ↔
      positive? declared = none ∧ ∃ ms, default.millis = .ok ms ∧ ms < 0 := by
  unfold minutesOf
  cases hdeclared : positive? declared with
  | none => simp
  | some x =>
    simp only [Option.map_some, Option.getD_some, reduceCtorEq, false_and, iff_false]
    rintro ⟨ms, hms, hneg⟩
    exact absurd (Minutes.nonneg_of_millis (zero_lt_of_positive? hdeclared) hms) (by omega)

namespace Index

variable {default : Minutes} {fallback : String} {league result : Json} {index : Index} {z : Zone}

/-- An assignment with both times is not over before it starts, or an issue names its fixture. -/
def AnnouncesReversals (index : Index) : Prop :=
  ∀ a ∈ index.assignments, ∀ start finish, a.span? = some (start, finish) →
    start ≤ finish ∨ ∃ issue ∈ index.issues, issue.fixture = some a.fixture

/-- The times of an entry end before they start: as declared, or, with no readable end, after a
default duration that is negative. -/
def EndsEarly (z : Zone) (default : Minutes) (league entry : Json) : Prop :=
  ∃ start, readInstant? z (entry.field "startTime") = some start ∧
    ((∃ finish, readInstant? z (entry.field "endTime") = some finish ∧ finish < start) ∨
      (readInstant? z (entry.field "endTime") = none ∧
        positive? (durationOf (declared? league (fixtureNamed entry))) = none ∧
        positive? (league.field "defaultFixtureDuration") = none ∧
        ∃ ms, default.millis = .ok ms ∧ ms < 0))

/-- Nothing is wrong with an entry: its fixture is declared, and its times can be read as far as
they are declared. -/
structure Flawless (z : Zone) (league entry : Json) : Prop where
  declared : (declared? league (fixtureNamed entry)).isSome = true
  start : (readInstant? z (entry.field "startTime")).isSome = true
  finish : (entry.field "endTime").isNull = true ∨
    (readInstant? z (entry.field "endTime")).isSome = true

theorem exists_entryFlaw_iff {entry : Json} (hnames : namesFixture entry = true) (id : String) :
    (∃ flaw ∈ entryFlaws z (declared? league (fixtureNamed entry)) entry, flaw.2 = some id) ↔
      fixtureNamed entry = id ∧ ¬Flawless z league entry := by
  have hflawless : ¬Flawless z league entry ↔ declared? league (fixtureNamed entry) = none ∨
      readInstant? z (entry.field "startTime") = none ∨
      ((entry.field "endTime").isNull = false ∧
        readInstant? z (entry.field "endTime") = none) := by
    have hparts : Flawless z league entry ↔ (declared? league (fixtureNamed entry)).isSome = true ∧
        (readInstant? z (entry.field "startTime")).isSome = true ∧
        ((entry.field "endTime").isNull = true ∨
          (readInstant? z (entry.field "endTime")).isSome = true) :=
      ⟨fun ⟨hdeclared, hstart, hfinish⟩ => ⟨hdeclared, hstart, hfinish⟩,
        fun ⟨hdeclared, hstart, hfinish⟩ => ⟨hdeclared, hstart, hfinish⟩⟩
    rw [hparts]
    simp only [not_and_or, not_or, Bool.not_eq_true, Option.isSome_eq_false_iff,
      Option.isNone_iff_eq_none]
  rw [hflawless]
  constructor
  · rintro ⟨flaw, hflaw, hid⟩
    obtain ⟨hnamed, hwrong⟩ := (mem_entryFlaws hnames).mp hflaw
    refine ⟨Option.some.inj (hnamed.symm.trans hid), ?_⟩
    exact hwrong.imp And.right (Or.imp And.right And.right)
  · rintro ⟨rfl, hwrong⟩
    rcases hwrong with hwrong | hwrong | hwrong
    · exact ⟨(.unknownFixture, _), (mem_entryFlaws hnames).mpr ⟨rfl, .inl ⟨rfl, hwrong⟩⟩, rfl⟩
    · exact ⟨(.invalidStart, _), (mem_entryFlaws hnames).mpr ⟨rfl, .inr (.inl ⟨rfl, hwrong⟩)⟩, rfl⟩
    · exact ⟨(.invalidEnd, _), (mem_entryFlaws hnames).mpr ⟨rfl, .inr (.inr ⟨rfl, hwrong⟩)⟩, rfl⟩

/-- An issue names a fixture when something is wrong with an entry that names it. -/
theorem Assembled.exists_issue_iff (h : Assembled default league result index) (id : String) :
    (∃ issue ∈ index.issues, issue.fixture = some id) ↔
      ∃ entry ∈ (result.field "assignments").items, namesFixture entry = true ∧
        fixtureNamed entry = id ∧ ¬Flawless index.zone league entry := by
  obtain ⟨minutes, aside, issues, -, hread, hissues, haside⟩ := h.read
  have hflaws := map_subject_annotateAll hread
  simp only [h.fixtures, lookup_fixtures] at hflaws
  have hbehind : (∃ issue ∈ index.issues, issue.fixture = some id) ↔
      ∃ flaw ∈ issues.map subject, flaw.2 = some id := by
    rw [hissues]
    constructor
    · rintro ⟨issue, hissue, hid⟩
      rcases List.mem_append.mp hissue with hissue | hissue
      · rcases haside issue hissue with hsubject | hsubject
        · exact absurd ((congrArg Prod.snd hsubject).symm.trans hid) (by simp)
        · exact absurd ((congrArg Prod.snd hsubject).symm.trans hid) (by simp)
      · exact ⟨_, List.mem_map_of_mem hissue, hid⟩
    · rintro ⟨flaw, hflaw, hid⟩
      obtain ⟨issue, hissue, rfl⟩ := List.mem_map.mp hflaw
      exact ⟨issue, List.mem_append_right _ hissue, hid⟩
  rw [hbehind, hflaws]
  constructor
  · rintro ⟨flaw, hflaw, hid⟩
    obtain ⟨entry, hentry, hflaw⟩ := List.mem_flatMap.mp hflaw
    by_cases hnames : namesFixture entry = true
    · exact ⟨entry, hentry, hnames, (exists_entryFlaw_iff hnames id).mp ⟨flaw, hflaw, hid⟩⟩
    · rw [entryFlaws, if_neg hnames, List.mem_singleton] at hflaw
      subst hflaw
      cases hid
  · rintro ⟨entry, hentry, hnames, hid⟩
    obtain ⟨flaw, hflaw, hid⟩ := (exists_entryFlaw_iff hnames id).mpr hid
    exact ⟨flaw, List.mem_flatMap.mpr ⟨entry, hentry, hflaw⟩, hid⟩

/-- An assignment is over before it starts when the entry that it is read off ends early. -/
theorem endsEarly_iff {fixtures : Entities} {entry : Json} {place : Nat}
    {q : Assignment × List Issue} (hlookup : ∀ id, fixtures.lookup id = declared? league id)
    (h : ReadsAs z (minutesOf default (league.field "defaultFixtureDuration")) fixtures
      (entry, place) q) :
    EndsEarly z default league entry ↔
      ∃ start finish, q.1.span? = some (start, finish) ∧ finish < start := by
  have hstart := h.start
  have hfinish := finishOf_eq_ok.mp h.finish
  rw [hlookup, h.fixture] at hfinish
  unfold EndsEarly Assignment.span?
  dsimp only at hstart hfinish
  rw [← hstart]
  cases hs : q.1.start with
  | none => simp
  | some s =>
    rw [hs] at hfinish
    cases hend : readInstant? z (entry.field "endTime") with
    | some t =>
      rw [hend] at hfinish
      simp [show q.1.finish = some t from hfinish]
    | none =>
      rw [hend] at hfinish
      obtain ⟨-, ms, hms, hf⟩ := hfinish
      rw [hf, ← exists_minutesOf_neg, ← exists_minutesOf_neg, hms]
      constructor
      · rintro ⟨start, hsame, ⟨finish, hnone, -⟩ | ⟨-, ms', hms', hneg⟩⟩
        · cases hnone
        · cases Except.ok.inj hms'
          exact ⟨s, s + ms, rfl, by omega⟩
      · rintro ⟨start, finish, hspan, hlt⟩
        obtain ⟨rfl, rfl⟩ := Prod.mk.inj (Option.some.inj hspan)
        exact ⟨s, rfl, .inr ⟨rfl, ms, rfl, by omega⟩⟩

/-- Reversals are announced exactly when each entry that ends early names a fixture with which
something else is wrong. An end that can be read and lies before the start is itself no reason. -/
theorem announcesReversals_iff (h : build default fallback league result = .ok index) :
    index.AnnouncesReversals ↔
      ∀ entry ∈ (result.field "assignments").items, namesFixture entry = true →
        EndsEarly index.zone default league entry →
          ∃ other ∈ (result.field "assignments").items, namesFixture other = true ∧
            fixtureNamed other = fixtureNamed entry ∧ ¬Flawless index.zone league other := by
  have hbuilt := build_eq_ok h
  obtain ⟨minutes, read, hminutes, hread, has, -⟩ := hbuilt.read
  obtain ⟨-, rfl⟩ := minutesOr_eq_ok.mp hminutes
  have hissue := (assembled_of_build h).exists_issue_iff
  constructor
  · intro hannounces entry hentry hnames hearly
    obtain ⟨place, hplace⟩ := List.mem_iff_getElem?.mp hentry
    obtain ⟨q, hq, hpq⟩ := exists_right_of_forall₂ hread (mem_namingEntries.mpr ⟨hplace, hnames⟩)
    obtain ⟨start, finish, hspan, hlt⟩ := (endsEarly_iff hbuilt.fixture hpq).mp hearly
    have hfixture : q.1.fixture = fixtureNamed entry := hpq.fixture
    rcases hannounces q.1 (has ▸ List.mem_map_of_mem hq) start finish hspan with hle | hnamed
    · omega
    · exact hfixture ▸ (hissue q.1.fixture).mp hnamed
  · intro hall a ha start finish hspan
    obtain ⟨q, hq, rfl⟩ := List.mem_map.mp (has ▸ ha)
    obtain ⟨⟨entry, place⟩, hp, hpq⟩ := exists_left_of_forall₂ hread hq
    obtain ⟨hentry, hnames⟩ := mem_namingEntries.mp hp
    rw [hissue]
    refine or_iff_not_imp_left.mpr fun hearly => ?_
    have hfixture : q.1.fixture = fixtureNamed entry := hpq.fixture
    rw [hfixture]
    exact hall entry (List.mem_of_getElem? hentry) hnames
      ((endsEarly_iff hbuilt.fixture hpq).mpr ⟨start, finish, hspan, by omega⟩)

/-- A league of three teams. -/
def threeTeams : Json :=
  .obj [("fixtures", .arr [
    .obj [("id", .str "F"), ("participants", .arr [.str "A", .str "B"])],
    .obj [("id", .str "G"), ("participants", .arr [.str "A", .str "C"])]])]

/-- Two games of one team at ten, of which one is declared to end at a given time. -/
def gamesAtTen (finish : String) : Json :=
  .obj [("assignments", .arr [
    .obj [("fixtureId", .str "F"), ("startTime", .str "2025-03-01T10:00:00Z"),
      ("endTime", .str finish)],
    .obj [("fixtureId", .str "G"), ("startTime", .str "2025-03-01T10:00:00Z")]])]

/-- An end that is no time is replaced by the default and announced. -/
theorem announcesReversals_gamesAtTen :
    ∃ index, build (.whole 90) "UTC" threeTeams (gamesAtTen "soon") = .ok index ∧
      index.AnnouncesReversals := by
  obtain ⟨index, hindex, hzone⟩ := exists_ok_of_toOption_map
    (x := build (.whole 90) "UTC" threeTeams (gamesAtTen "soon")) (f := Index.zone) (b := utc)
    (by decide +kernel)
  refine ⟨index, hindex, (announcesReversals_iff hindex).mpr ?_⟩
  have hends : ∀ entry ∈ ((gamesAtTen "soon").field "assignments").items,
      readInstant? utc (entry.field "endTime") = none := by decide +kernel
  rintro entry hentry - ⟨start, -, ⟨finish, hend, -⟩ | ⟨-, -, -, ms, hms, hneg⟩⟩
  · rw [hzone, hends entry hentry] at hend
    cases hend
  · rw [← Except.ok.inj hms] at hneg
    exact absurd hneg (by decide)

/-- An end before the start is taken without an issue, and two games of one team at the same time
are no overlap. -/
theorem not_announcesReversals_gamesAtTen :
    ∃ index, build (.whole 90) "UTC" threeTeams (gamesAtTen "2025-03-01T09:00:00Z") = .ok index ∧
      ¬index.AnnouncesReversals ∧
        (Rule.noOverlapTeam.run ⟨.obj [], index⟩).findsNothing = true := by
  obtain ⟨index, hindex, hview⟩ := exists_ok_of_toOption_map
    (x := build (.whole 90) "UTC" threeTeams (gamesAtTen "2025-03-01T09:00:00Z"))
    (f := fun index => (index.assignments.head?.bind Assignment.span?, index.issues.isEmpty,
      index.appearances, decide index.ListsTeams))
    (b := (some (1740823200000, 1740819600000), true,
      [("A", ⟨1740823200000, 1740819600000, "F"⟩), ("B", ⟨1740823200000, 1740819600000, "F"⟩),
        ("A", ⟨1740823200000, 1740828600000, "G"⟩), ("C", ⟨1740823200000, 1740828600000, "G"⟩)],
      true)) (by decide +kernel)
  simp only [Prod.mk.injEq] at hview
  obtain ⟨hfirst, hissues, hgames, hlists⟩ := hview
  refine ⟨index, hindex, fun hannounces => ?_, ?_⟩
  · obtain ⟨a, ha, hspan⟩ := Option.bind_eq_some_iff.mp hfirst
    rcases hannounces a (List.mem_of_mem_head? ha) _ _ hspan with hle | ⟨issue, hissue, -⟩
    · omega
    · rw [List.isEmpty_iff.mp hissues] at hissue
      cases hissue
  · have hteam : ∀ team, index.gamesOf team = valuesOf team index.appearances :=
      gamesOf_eq_valuesOf (by rw [hgames]; decide)
    have hnone : Rule.teamOverlaps index = .ok [] := by
      refine Rule.teamOverlaps_eq_ok_nil.mpr ⟨of_decide_eq_true hlists, fun team _ => ?_⟩
      rw [hteam, hgames]
      exact pairwise_valuesOf (by decide) team
    exact RuleRun.findsNothing_silent.mpr (RuleRun.exists_listed.mpr hnone)

end Index
end LeagueAudit
