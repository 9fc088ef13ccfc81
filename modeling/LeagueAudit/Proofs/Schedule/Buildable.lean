import LeagueAudit.Proofs.Number.Nearest
import LeagueAudit.Proofs.Schedule.Build
import LeagueAudit.Proofs.Time.Limits

/-!
When an index can be built. Unknown zones, entities without ids and times that cannot be read are
recorded and worked around, one issue for each; what no issue is kept for are numbers beyond the
doubles and days beyond the calendar.
-/
namespace LeagueAudit

open Exact

/-- A declared number is one of the doubles, once rounded. -/
def FitsDouble : Json → Prop
  | .int n => n > 0 → (intFloat? n).isSome = true
  | _ => True

/-- A positive number as a double. -/
def positive? : Json → Option Float
  | .int n => if n > 0 then intFloat? n else none
  | .float x => if x > 0.0 then some x else none
  | _ => none

/-- The minutes that a document declares, else the given ones. -/
def minutesOf (default : Minutes) (declared : Json) : Minutes :=
  ((positive? declared).map Minutes.real).getD default

theorem positiveNumber?_eq_ok {declared : Json} {found : Option Float} :
    positiveNumber? declared = .ok found ↔
      FitsDouble declared ∧ found = positive? declared := by
  cases declared with
  | int n =>
    unfold positiveNumber? positive? FitsDouble intToFloat
    by_cases hn : n > 0
    · cases hfloat : intFloat? n <;> simp [hn, hfloat, bind, Except.bind, eq_comm (b := found)]
    · simp [hn, eq_comm (b := found)]
  | _ => simp [positiveNumber?, positive?, FitsDouble, eq_comm (b := found)]

theorem minutesOr_eq_ok {default minutes : Minutes} {declared : Json} :
    minutesOr default declared = .ok minutes ↔
      FitsDouble declared ∧ minutes = minutesOf default declared := by
  unfold minutesOr minutesOf
  constructor
  · intro h
    obtain ⟨found, hfound, h⟩ := bind_eq_ok.mp h
    obtain ⟨hfits, rfl⟩ := positiveNumber?_eq_ok.mp hfound
    generalize positive? declared = found at h ⊢
    cases found <;> exact ⟨hfits, (Except.ok.inj h).symm⟩
  · rintro ⟨hfits, rfl⟩
    refine bind_eq_ok.mpr ⟨_, positiveNumber?_eq_ok.mpr ⟨hfits, rfl⟩, ?_⟩
    cases positive? declared <;> rfl

namespace Minutes

/-- A duration whose milliseconds are finite. -/
def Countable : Minutes → Prop
  | whole _ => True
  | real x => IsFinite (x * 60000.0)

/-- A duration that is finite itself. -/
def Bounded : Minutes → Prop
  | whole _ => True
  | real x => IsFinite x

end Minutes

theorem exists_roundToInt {x : Float} : (∃ n, roundToInt x = .ok n) ↔ IsFinite x := by
  unfold roundToInt IsFinite stepsOf
  cases ofFloat x <;> simp

theorem exists_truncateToInt {x : Float} : (∃ n, truncateToInt x = .ok n) ↔ IsFinite x := by
  unfold truncateToInt IsFinite stepsOf
  cases ofFloat x <;> simp

theorem Minutes.exists_millis {m : Minutes} : (∃ ms, m.millis = .ok ms) ↔ m.Countable := by
  cases m with
  | whole n => exact iff_of_true ⟨_, rfl⟩ trivial
  | real x => exact exists_roundToInt

theorem Minutes.exists_truncated {m : Minutes} : (∃ n, m.truncated = .ok n) ↔ m.Bounded := by
  cases m with
  | whole n => exact iff_of_true ⟨_, rfl⟩ trivial
  | real x => exact exists_truncateToInt

namespace Index

variable {z : Zone} {default : Minutes} {fixtures : Entities} {league result : Json}

/-- The duration that the fixture of an entry declares. -/
def durationOf (fixture : Option Json) : Json := (fixture.getD .null).field "durationMinutes"

/-- An entry of the assignments whose times stay within the doubles and the calendar. -/
structure Annotatable (z : Zone) (default : Minutes) (fixture : Option Json) (entry : Json) :
    Prop where
  clocks : ∀ s, readInstant? z (entry.field "startTime") = some s → ShowsClocks z s
  duration : (readInstant? z (entry.field "startTime")).isSome = true →
    readInstant? z (entry.field "endTime") = none →
    FitsDouble (durationOf fixture) ∧ (minutesOf default (durationOf fixture)).Countable

/-- The end of an assignment: as declared, else the start and the duration of the fixture. -/
theorem finishOf_eq_ok {fixture : Option Json} {entry : Json} {start finish : Option Int} :
    finishOf z default fixture entry start = .ok finish ↔
      match readInstant? z (entry.field "endTime"), start with
      | some t, _ => finish = some t
      | none, none => finish = none
      | none, some s => FitsDouble (durationOf fixture) ∧
          ∃ ms, (minutesOf default (durationOf fixture)).millis = .ok ms ∧
            finish = some (s + ms) := by
  unfold finishOf
  cases readInstant? z (entry.field "endTime") with
  | some t => simp [eq_comm]
  | none =>
    cases start with
    | none => simp [eq_comm]
    | some s =>
      dsimp only
      rw [bind_eq_ok]
      constructor
      · rintro ⟨minutes, hminutes, h⟩
        obtain ⟨hfits, rfl⟩ := minutesOr_eq_ok.mp hminutes
        obtain ⟨ms, hms, h⟩ := bind_eq_ok.mp h
        exact ⟨hfits, ms, hms, (Except.ok.inj h).symm⟩
      · rintro ⟨hfits, ms, hms, rfl⟩
        exact ⟨_, minutesOr_eq_ok.mpr ⟨hfits, rfl⟩, bind_eq_ok.mpr ⟨ms, hms, rfl⟩⟩

theorem exists_finishOf {fixture : Option Json} {entry : Json} {start : Option Int} :
    (∃ finish, finishOf z default fixture entry start = .ok finish) ↔
      (start.isSome = true → readInstant? z (entry.field "endTime") = none →
        FitsDouble (durationOf fixture) ∧ (minutesOf default (durationOf fixture)).Countable) := by
  simp only [finishOf_eq_ok, ← Minutes.exists_millis]
  cases readInstant? z (entry.field "endTime") <;> cases start <;> simp

theorem exists_annotate {position : Nat} {entry : Json} :
    (∃ q, annotate z default fixtures position entry = .ok q) ↔
      Annotatable z default (fixtures.lookup (fixtureNamed entry)) entry := by
  unfold annotate
  dsimp only
  constructor
  · rintro ⟨q, h⟩
    obtain ⟨finish, hfinish, h⟩ := bind_eq_ok.mp h
    refine ⟨?clocks, exists_finishOf.mp ⟨finish, hfinish⟩⟩
    intro s hs
    rw [hs] at h
    obtain ⟨clocks, hclocks, -⟩ := bind_eq_ok.mp h
    exact exists_localParts.mp ⟨clocks, hclocks⟩
  · rintro ⟨hclocks, hduration⟩
    obtain ⟨finish, hfinish⟩ := exists_finishOf.mpr hduration
    cases hstart : readInstant? z (entry.field "startTime") with
    | none =>
      rw [hstart] at hfinish
      exact ⟨_, bind_eq_ok.mpr ⟨finish, hfinish, rfl⟩⟩
    | some s =>
      rw [hstart] at hfinish
      obtain ⟨parts, hparts⟩ := exists_localParts.mpr (hclocks s hstart)
      exact ⟨_, bind_eq_ok.mpr ⟨finish, hfinish, bind_eq_ok.mpr ⟨parts, hparts, rfl⟩⟩⟩

theorem exists_annotateAll {position : Nat} {entries : List Json} :
    (∃ found, annotateAll z default fixtures position entries = .ok found) ↔
      ∀ entry ∈ entries, namesFixture entry = true →
        Annotatable z default (fixtures.lookup (fixtureNamed entry)) entry := by
  -- The entries behind the first one stand in the next places, so the place varies.
  induction entries generalizing position with
  | nil => exact iff_of_true ⟨_, rfl⟩ (by simp)
  | cons entry rest ih =>
    have hrest := @ih (position + 1)
    have hentry : (∃ q, annotate z default fixtures position entry = .ok q) ↔ _ := exists_annotate
    rw [List.forall_mem_cons, ← hrest, annotateAll]
    by_cases hnames : namesFixture entry = true
    · rw [if_pos (show (entry.field "fixtureId").truthy = true from hnames), ← hentry]
      constructor
      · rintro ⟨found, h⟩
        obtain ⟨q, hq, h⟩ := bind_eq_ok.mp h
        obtain ⟨more, hmore, -⟩ := bind_eq_ok.mp h
        exact ⟨fun _ => ⟨q, hq⟩, more, hmore⟩
      · rintro ⟨hq, more, hmore⟩
        obtain ⟨q, hq⟩ := hq hnames
        exact ⟨_, bind_eq_ok.mpr ⟨q, hq, bind_eq_ok.mpr ⟨more, hmore, rfl⟩⟩⟩
    · rw [if_neg (show ¬(entry.field "fixtureId").truthy = true from hnames)]
      constructor
      · rintro ⟨found, h⟩
        obtain ⟨more, hmore, -⟩ := bind_eq_ok.mp h
        exact ⟨fun h => absurd h hnames, more, hmore⟩
      · rintro ⟨-, more, hmore⟩
        exact ⟨_, bind_eq_ok.mpr ⟨more, hmore, rfl⟩⟩

/-- What the numbers and days of two documents have to stay within. -/
structure Buildable (default : Minutes) (fallback : Zone) (league result : Json) : Prop where
  zone : ¬((declaredZone league).truthy = true ∧ leadsAstray (declaredZone league).text = true)
  fits : FitsDouble (league.field "defaultFixtureDuration")
  bounded : (minutesOf default (league.field "defaultFixtureDuration")).Bounded
  entries : ∀ entry ∈ (result.field "assignments").items, namesFixture entry = true →
    Annotatable (zoneOr fallback (declaredZone league))
      (minutesOf default (league.field "defaultFixtureDuration"))
      (declared? league (fixtureNamed entry)) entry

theorem lookup_fixtures (league : Json) (id : String) :
    (collect .fixture 0 [] (league.field "fixtures").items).1.lookup id = declared? league id := by
  rw [lookup_collect]
  rfl

theorem exists_build {fallback : String} (hfallback : namedZone fallback = .ok z) :
    (∃ index, build default fallback league result = .ok index) ↔
      Buildable default z league result := by
  unfold build
  constructor
  · rintro ⟨index, h⟩
    obtain ⟨found, hzone, h⟩ := bind_eq_ok.mp h
    obtain ⟨hnamed, rfl⟩ := (resolveZone_eq_ok hfallback).mp hzone
    obtain ⟨minutes, hminutes, h⟩ := bind_eq_ok.mp h
    obtain ⟨hfits, rfl⟩ := minutesOr_eq_ok.mp hminutes
    obtain ⟨read, hread, h⟩ := bind_eq_ok.mp h
    obtain ⟨whole, hwhole, -⟩ := bind_eq_ok.mp h
    refine ⟨hnamed, hfits, Minutes.exists_truncated.mp ⟨whole, hwhole⟩, ?_⟩
    intro entry hentry hnames
    rw [← lookup_fixtures]
    exact exists_annotateAll.mp ⟨read, hread⟩ entry hentry hnames
  · rintro ⟨hnamed, hfits, hbounded, hentries⟩
    simp only [← lookup_fixtures] at hentries
    obtain ⟨read, hread⟩ := exists_annotateAll.mpr hentries
    obtain ⟨whole, hwhole⟩ := Minutes.exists_truncated.mpr hbounded
    have hzone := (resolveZone_eq_ok hfallback).mpr ⟨hnamed, rfl⟩
    have hminutes : minutesOr default (league.field "defaultFixtureDuration") = .ok _ :=
      minutesOr_eq_ok.mpr ⟨hfits, rfl⟩
    exact ⟨_, bind_eq_ok.mpr ⟨_, hzone, bind_eq_ok.mpr ⟨_, hminutes,
      bind_eq_ok.mpr ⟨read, hread, bind_eq_ok.mpr ⟨whole, hwhole, rfl⟩⟩⟩⟩⟩

/-- What an issue is about: its kind and the fixture. -/
def subject (issue : Issue) : IssueKind × Option String := (issue.kind, issue.fixture)

/-- The entities without an id. -/
def entityFlaws (items : List Json) : List (IssueKind × Option String) :=
  (items.filter fun item => !hasId item).map fun _ => (.malformedEntity, none)

/-- What is wrong with an entry of the assignments. -/
def entryFlaws (z : Zone) (fixture : Option Json) (entry : Json) :
    List (IssueKind × Option String) :=
  let flaw (bad : Bool) (kind : IssueKind) :=
    if bad then [(kind, some (fixtureNamed entry))] else []
  let badEnd := (entry.field "endTime").notNull?.isSome &&
    (readInstant? z (entry.field "endTime")).isNone
  if namesFixture entry then
    flaw fixture.isNone .unknownFixture ++
      flaw (readInstant? z (entry.field "startTime")).isNone .invalidStart ++
      flaw badEnd .invalidEnd
  else [(.malformedAssignment, none)]

/-- All that is wrong with two documents, in the order in which they are read. -/
def flaws (z : Zone) (league result : Json) : List (IssueKind × Option String) :=
  (if knowsZone (declaredZone league) then [] else [(.unknownTimezone, none)]) ++
    entityFlaws (entityList league "teams") ++ entityFlaws (entityList league "venues") ++
    entityFlaws (league.field "fixtures").items ++
    (result.field "assignments").items.flatMap fun entry =>
      entryFlaws z (declared? league (fixtureNamed entry)) entry

theorem map_subject_collect (kind : EntityKind) (position : Nat) (found : Entities)
    (items : List Json) :
    (collect kind position found items).2.map subject = entityFlaws items := by
  induction items generalizing position found with
  | nil => rfl
  | cons item rest ih =>
    rw [collect]
    cases hid : hasId item with
    | true => simp [ih, entityFlaws, hid]
    | false => simp [ih, entityFlaws, hid, subject]

theorem map_subject_annotate {position : Nat} {entry : Json} {q : Assignment × List Issue}
    (hnames : namesFixture entry = true)
    (h : annotate z default fixtures position entry = .ok q) :
    q.2.map subject = entryFlaws z (fixtures.lookup (fixtureNamed entry)) entry := by
  have hflaw : ∀ (bad : Bool) (kind : IssueKind) (message id : String),
      (if bad then [⟨kind, message, some id⟩] else [] : List Issue).map subject =
        if bad then [(kind, some id)] else [] := by
    intro bad kind message id
    cases bad <;> rfl
  unfold annotate at h
  obtain ⟨finish, -, h⟩ := bind_eq_ok.mp h
  dsimp only at h
  split at h
  on_goal 1 => obtain ⟨clocks, -, h⟩ := bind_eq_ok.mp h
  all_goals
    cases Except.ok.inj h
    rw [entryFlaws, if_pos hnames, List.map_append, List.map_append, hflaw, hflaw, hflaw]
    rfl

theorem map_subject_annotateAll {position : Nat} {entries : List Json}
    {found : List Assignment × List Issue}
    (h : annotateAll z default fixtures position entries = .ok found) :
    found.2.map subject = entries.flatMap fun entry =>
      entryFlaws z (fixtures.lookup (fixtureNamed entry)) entry := by
  induction entries generalizing position found with
  | nil =>
    cases Except.ok.inj h
    rfl
  | cons entry rest ih =>
    rw [annotateAll] at h
    rw [List.flatMap_cons]
    split at h
    · next hnames =>
      obtain ⟨q, hq, h⟩ := bind_eq_ok.mp h
      obtain ⟨more, hmore, h⟩ := bind_eq_ok.mp h
      cases Except.ok.inj h
      rw [List.map_append, map_subject_annotate hnames hq, ih hmore]
    · next hnames =>
      obtain ⟨more, hmore, h⟩ := bind_eq_ok.mp h
      cases Except.ok.inj h
      have hflaws : entryFlaws z (fixtures.lookup (fixtureNamed entry)) entry =
          [(.malformedAssignment, none)] := if_neg hnames
      rw [hflaws, List.map_cons, ih hmore]
      rfl

/-- An assignment as it is read off an entry in its place. -/
structure ReadOff (z : Zone) (default : Minutes) (league : Json) (p : Json × Nat)
    (a : Assignment) : Prop where
  fixture : a.fixture = fixtureNamed p.1
  position : a.position = p.2
  start : a.start = readInstant? z (p.1.field "startTime")
  finish_declared : ∀ t, readInstant? z (p.1.field "endTime") = some t → a.finish = some t
  finish_default : ∀ s, a.start = some s → readInstant? z (p.1.field "endTime") = none →
    ∃ ms, (minutesOf default (durationOf (declared? league a.fixture))).millis = .ok ms ∧
      a.finish = some (s + ms)
  finish_none : a.start = none → readInstant? z (p.1.field "endTime") = none → a.finish = none

theorem readOff_of_readsAs {p : Json × Nat} {q : Assignment × List Issue}
    (hlookup : ∀ id, fixtures.lookup id = declared? league id)
    (h : ReadsAs z default fixtures p q) : ReadOff z default league p q.1 := by
  have hfinish := finishOf_eq_ok.mp h.finish
  rw [hlookup] at hfinish
  refine ⟨h.fixture, h.position, h.start, ?declared, ?default, ?none⟩
  case declared =>
    intro t ht
    rw [ht] at hfinish
    exact hfinish
  case default =>
    intro s hs hend
    rw [hs, hend] at hfinish
    exact hfinish.2
  case none =>
    intro hs hend
    rw [hs, hend] at hfinish
    exact hfinish

/-- An index that holds all that can be read off two documents, and one issue for each thing that is
wrong with them. -/
structure Diagnosed (default : Minutes) (fallback : Zone) (league result : Json) (index : Index) :
    Prop where
  zone : index.zone = zoneOr fallback (declaredZone league)
  fixture : ∀ id, index.fixture? id = declared? league id
  assignments : List.Forall₂
    (ReadOff index.zone (minutesOf default (league.field "defaultFixtureDuration")) league)
    (namingEntries 0 (result.field "assignments").items) index.assignments
  issues : index.issues.map subject = flaws index.zone league result

theorem diagnosed_of_build {fallback : String} (hfallback : namedZone fallback = .ok z)
    {index : Index} (h : build default fallback league result = .ok index) :
    Diagnosed default z league result index := by
  have hbuilt := build_eq_ok h
  obtain ⟨known, hzone⟩ := hbuilt.zone
  obtain ⟨minutes, read, hminutes, hread, has, -⟩ := hbuilt.read
  obtain ⟨-, rfl⟩ := minutesOr_eq_ok.mp hminutes
  refine ⟨?zone, hbuilt.fixture, ?assignments, ?issues⟩
  case zone => exact congrArg Prod.fst ((resolveZone_eq_ok hfallback).mp hzone).2
  case assignments =>
    rw [has, List.forall₂_map_right_iff]
    exact hread.imp fun p q hq => readOff_of_readsAs hbuilt.fixture hq
  case issues =>
    unfold build at h
    obtain ⟨found, hfound, h⟩ := bind_eq_ok.mp h
    obtain ⟨-, rfl⟩ := (resolveZone_eq_ok hfallback).mp hfound
    obtain ⟨minutes, -, h⟩ := bind_eq_ok.mp h
    obtain ⟨annotated, hannotated, h⟩ := bind_eq_ok.mp h
    obtain ⟨whole, -, h⟩ := bind_eq_ok.mp h
    cases Except.ok.inj h
    simp only [List.map_append, map_subject_collect, map_subject_annotateAll hannotated,
      lookup_fixtures, flaws]
    congr 4
    cases knowsZone (declaredZone league) <;> rfl

/-- An index is built, with all that is wrong recorded, exactly when the numbers stay within the
doubles and the days within the calendar. -/
theorem diagnosed_iff_buildable {default : Minutes} {fallback : String} {z : Zone}
    {league result : Json} (hfallback : namedZone fallback = .ok z) :
    (∃ index, build default fallback league result = .ok index ∧
      Diagnosed default z league result index) ↔ Buildable default z league result := by
  rw [← exists_build hfallback]
  constructor
  · rintro ⟨index, hindex, -⟩
    exact ⟨index, hindex⟩
  · rintro ⟨index, hindex⟩
    exact ⟨index, hindex, diagnosed_of_build hfallback hindex⟩

/-- A league with a team that has no id and with durations that are no positive numbers. -/
def oddLeague : Json :=
  .obj [("timezone", .str "Europe/Berlin"), ("teams", .arr [.null]),
    ("defaultFixtureDuration", .str "long"),
    ("fixtures", .arr [.obj [("id", .str "F"), ("durationMinutes", .int (-5))]])]

/-- Slots of a declared fixture, of an undeclared one and of none. -/
def oddSlots : Json :=
  .obj [("assignments", .arr [
    .obj [("fixtureId", .str "F"), ("startTime", .str "2025-03-01T10:00:00Z"),
      ("endTime", .str "later")],
    .obj [("fixtureId", .str "G"), ("startTime", .int 5)],
    .obj []])]

theorem buildable_oddLeague :
    Buildable (.whole 90) utc oddLeague oddSlots ∧
      flaws (zoneOr utc (declaredZone oddLeague)) oddLeague oddSlots =
        [(.malformedEntity, none), (.invalidEnd, some "F"), (.unknownFixture, some "G"),
          (.invalidStart, some "G"), (.malformedAssignment, none)] := by
  obtain ⟨index, hindex, -⟩ := exists_ok_of_toOption_map
    (x := build (.whole 90) "UTC" oddLeague oddSlots) (f := fun index => index.zone.name)
    (b := "Europe/Berlin") (by decide +kernel)
  refine ⟨?_, by decide +kernel⟩
  exact (diagnosed_iff_buildable rfl).mp ⟨index, hindex, diagnosed_of_build rfl hindex⟩

/-- A fixture that lasts longer than any double counts in milliseconds. -/
def endlessLeague : Json :=
  .obj [("fixtures", .arr [.obj [("id", .str "F"), ("durationMinutes", .float 1e308)]])]

def oneStart : Json :=
  .obj [("assignments", .arr [.obj
    [("fixtureId", .str "F"), ("startTime", .str "2025-03-01T10:00:00Z")]])]

/-- Some documents have no index. -/
theorem not_build_endlessLeague :
    namedZone "UTC" = .ok utc ∧
      ¬∃ index, build (.whole 90) "UTC" endlessLeague oneStart = .ok index := by
  refine ⟨rfl, ?_⟩
  have h : (build (.whole 90) "UTC" endlessLeague oneStart).toOption.isSome = false := by
    decide +kernel
  rintro ⟨index, hindex⟩
  rw [hindex] at h
  cases h

end Index
end LeagueAudit
