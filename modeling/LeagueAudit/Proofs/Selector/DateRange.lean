import LeagueAudit.Proofs.Rule.Blackout
import LeagueAudit.Proofs.Schedule.Assembly
import LeagueAudit.Proofs.Selector.Scope

/-!
Ranges of dates mean local days. A window of dates forbids, and a selector of dates picks, what the
clocks of the league say: the one the games during which they show one of the dates, the other those
during which they show no other.
-/
namespace LeagueAudit

/-- An index in whose zone the clocks are read at the start of every assignment, and are not changed
around midnight. -/
structure Index.ReadsClocks (index : Index) : Prop where
  spares : index.zone.SparesMidnights
  shown : ∀ a ∈ index.assignments, ∀ s, a.start = some s → ShowsClocks index.zone s

namespace Index

variable {index part : Index}

theorem mem_knownZones_of_resolveZone {fallback : String} {declared : Json} {z : Zone}
    {known : Bool} (h : resolveZone fallback declared = .ok (z, known)) : z ∈ knownZones := by
  have hnamed : ∀ {name : String} {z : Zone}, namedZone name = .ok z → z ∈ knownZones := by
    intro name z hz
    unfold namedZone at hz
    split at hz
    · next found hfound =>
      rw [← Except.ok.inj hz]
      exact List.mem_of_find?_eq_some hfound
    · cases hz
  unfold resolveZone at h
  dsimp only at h
  split at h
  · next found hfound =>
    cases Except.ok.inj h
    exact hnamed hfound
  · cases h
  · cases h
  · obtain ⟨found, hfound, hpair⟩ := map_eq_ok.mp h
    cases hpair
    exact hnamed hfound

/-- An index is built from starts at which the clocks could be read. -/
theorem readsClocks_of_build {default : Minutes} {fallback : String} {league result : Json}
    (h : build default fallback league result = .ok index) : index.ReadsClocks := by
  obtain ⟨known, hzone⟩ := (build_eq_ok h).zone
  obtain ⟨minutes, aside, issues, -, hfound, -⟩ := (assembled_of_build h).read
  refine ⟨sparesMidnights_of_mem_knownZones (mem_knownZones_of_resolveZone hzone), ?_⟩
  intro a ha s hs
  have hclocks := exists_annotateAll.mp ⟨_, hfound⟩
  obtain ⟨read, hread, has, -⟩ := annotateAll_eq_ok hfound
  change index.assignments = read.map (·.1) at has
  obtain ⟨q, hq, rfl⟩ := List.mem_map.mp (has ▸ ha)
  obtain ⟨⟨entry, place⟩, hp, hpq⟩ := exists_left_of_forall₂ hread hq
  obtain ⟨hentry, hnames⟩ := mem_namingEntries.mp hp
  exact (hclocks entry (List.mem_of_getElem? hentry) hnames).clocks s (hpq.start ▸ hs)

theorem ReadsClocks.of_scope (h : index.ReadsClocks) {s : Selector}
    (hscope : index.scope s = .ok part) : part.ReadsClocks := by
  have hzone : part.zone = index.zone := by
    rcases scope_eq_ok hscope with rfl | ⟨teams, venues, fixtures, rfl⟩ <;> rfl
  refine ⟨hzone ▸ h.spares, fun a ha s hs => ?_⟩
  rw [hzone]
  exact h.shown a (mem_of_scope hscope ha).1 s hs

end Index

namespace Selector

variable {z : Zone}

/-- The selector of a range of dates. -/
def dates (range : DateRange) : Selector :=
  .leaf (.dateRange (some range.first.text) (some range.last.text))

/-- A selector of dates as documents declare it. -/
def datesJson (range : DateRange) : Json := .obj [("dateRange", range.toJson)]

theorem read_datesJson (range : DateRange) :
    Selector.read (datesJson range) = .ok (dates range) := by
  have hbound : ∀ {d : Date} (path : String), d.valid = true →
      readDateBound path (.str d.text) = .ok (some d.text) := by
    intro d path hd
    have hread : Iso.read? (Json.str d.text).text.toList = some ⟨d, .midnight, none⟩ :=
      (Date.isDay_text hd).read
    unfold readDateBound
    rw [hread]
    rfl
  have hleaf : ∀ path, readDateRange path range.toJson =
      .ok (.dateRange (some range.first.text) (some range.last.text)) := by
    intro path
    have hstart : range.toJson.field "start" = .str range.first.text := rfl
    have hend : range.toJson.field "end" = .str range.last.text := rfl
    unfold readDateRange
    rw [hstart, hend, hbound _ range.first_valid, hbound _ range.last_valid]
    rfl
  have hpart : ∀ path, readPart path "dateRange" range.toJson = .ok (dates range) := by
    intro path
    unfold readPart readLeaf
    simp [hleaf, bind, Except.bind, dates]
  have hjoined : joinedKeys [("dateRange", range.toJson)] = ["dateRange"] := rfl
  have hfield : (Json.obj [("dateRange", range.toJson)]).field "dateRange" = range.toJson := rfl
  have hparts : ReadsParts "selector" [("dateRange", range.toJson)] [dates range] := by
    refine ⟨rfl, by simp [knownKeys, SelectorFault.leafKeys], ?_⟩
    rw [hjoined, mapM_eq_ok, List.forall₂_cons, hfield]
    exact ⟨hpart _, .nil⟩
  have hread : readNode "selector" (datesJson range) = .ok (dates range) :=
    readNode_obj_eq_ok.mpr ⟨[dates range], hparts, rfl⟩
  exact hread

/-- Whether the game of an assignment lies between the instants that open and close a range of
dates. -/
def liesIn (z : Zone) (range : DateRange) (a : Assignment) : Bool :=
  a.span?.any fun (start, finish) =>
    z.dayStart range.first.toDays ≤ start && finish ≤ z.dayStart (range.last.toDays + 1)

/-- Every fixture can be compared with a range of dates. -/
theorem matchesOne_dates (h : z.SparesMidnights) (range : DateRange) {c : Candidate}
    (hkind : c.kind = .fixture) :
    (dates range).matchesOne z c = .ok (c.assignment.any (liesIn z range)) := by
  have hbears : (Leaf.dateRange (some range.first.text) (some range.last.text)).bearsOn c.kind =
      true := by rw [hkind]; rfl
  unfold dates matchesOne Leaf.holds
  rw [if_pos hbears, Leaf.test]
  cases ha : c.assignment with
  | none => rfl
  | some a =>
    rw [Option.bind_some, Option.any_some, liesIn]
    cases hspan : a.span? with
    | none => rfl
    | some span =>
      dsimp only [Leaf.meetsBound]
      rw [h.readBound_first, h.readBound_last]
      by_cases hopen : z.dayStart range.first.toDays ≤ span.1
      · simp [hopen, bind, Except.bind]
      · simp [hopen, bind, Except.bind]

theorem liesIn_iff {range : DateRange} {a : Assignment} {start finish : Int}
    (h : z.SparesMidnights) (hspan : a.span? = some (start, finish)) (hlt : start < finish)
    (hstart : ShowsClocks z start) :
    liesIn z range a = true ↔ ∀ t, start ≤ t → t < finish → z.ShowsDateIn range t := by
  rw [h.forall_showsDateIn hstart hlt, liesIn, hspan]
  simp

end Selector

namespace Index

open Selector

variable {index : Index}

/-- All participants see a fixture by its first assignment. -/
theorem fixtureCandidates_of_participants {id : String} {names : List String}
    (h : index.participants id = .ok names) (doc : Json) :
    ∃ candidates, index.fixtureCandidates id doc = .ok candidates ∧ candidates ≠ [] ∧
      ∀ c ∈ candidates, c.kind = .fixture ∧ c.assignment = index.assignmentOf id := by
  unfold fixtureCandidates
  cases names with
  | nil => exact ⟨_, bind_eq_ok.mpr ⟨[], h, rfl⟩, by simp, by simp⟩
  | cons name names => exact ⟨_, bind_eq_ok.mpr ⟨_, h, rfl⟩, by simp, by simp⟩

theorem someMatches_of_forall {z : Zone} {s : Selector} {candidates : List Candidate} {b : Bool}
    (hne : candidates ≠ []) (h : ∀ c ∈ candidates, s.matchesOne z c = .ok b) :
    someMatches z s candidates = .ok b := by
  induction candidates with
  | nil => exact absurd rfl hne
  | cons c rest ih =>
    obtain ⟨hc, hrest⟩ := List.forall_mem_cons.mp h
    refine bind_eq_ok.mpr ⟨b, hc, ?_⟩
    cases b with
    | true => rfl
    | false =>
      cases rest with
      | nil => rfl
      | cons c' rest => exact ih (List.cons_ne_nil _ _) hrest

/-- The scope of a range of dates keeps the fixtures whose first assignment lies in it. -/
theorem exists_scope_dates (h : index.zone.SparesMidnights) (range : DateRange)
    (hlists : ∀ id ∈ index.fixtures.ids, ∃ names, index.participants id = .ok names) :
    ∃ part, index.scope (dates range) = .ok part ∧ ∀ id, id ∈ part.fixtures.ids ↔
      id ∈ index.fixtures.ids ∧
        (index.assignmentOf id).any (liesIn index.zone range) = true := by
  have htest : ∀ id doc, (id, doc) ∈ index.fixtures →
      (index.fixtureCandidates id doc >>= someMatches index.zone (dates range)) =
        .ok ((index.assignmentOf id).any (liesIn index.zone range)) := by
    intro id doc hmem
    obtain ⟨names, hnames⟩ := hlists id (mem_ids.mpr ⟨doc, hmem⟩)
    obtain ⟨candidates, hcandidates, hne, hall⟩ := fixtureCandidates_of_participants hnames doc
    refine bind_eq_ok.mpr ⟨candidates, hcandidates, someMatches_of_forall hne fun c hc => ?_⟩
    rw [matchesOne_dates h range (hall c hc).1, (hall c hc).2]
  have hkept : ∃ ids, idsWhere index.fixtures (fun id doc =>
      index.fixtureCandidates id doc >>= someMatches index.zone (dates range)) = .ok ids :=
    ⟨_, bind_eq_ok.mpr ⟨_, filterM_eq_ok.mpr ⟨fun x hx => ⟨_, htest x.1 x.2 hx⟩, rfl⟩, rfl⟩⟩
  obtain ⟨ids, hids⟩ := hkept
  -- A range of dates restricts neither teams nor venues.
  have hscope : index.scope (dates range) = .ok (index.restrict none none (some ids)) :=
    bind_eq_ok.mpr ⟨none, rfl, bind_eq_ok.mpr ⟨none, rfl, bind_eq_ok.mpr ⟨none, rfl,
      bind_eq_ok.mpr ⟨none, rfl, bind_eq_ok.mpr ⟨ids, hids, rfl⟩⟩⟩⟩⟩
  refine ⟨_, hscope, fun id => mem_keep.trans (and_congr_right fun hid => ?_)⟩
  obtain ⟨doc, hmem⟩ := mem_ids.mp hid
  rw [(idsWhere_eq_ok hids).2]
  constructor
  · rintro ⟨doc', hmem', hyes⟩
    rwa [htest id doc' hmem'] at hyes
  · intro hlies
    exact ⟨doc, hmem, by rwa [htest id doc hmem]⟩

/-- Ranges of dates mean the days of the league, as windows and as selectors. -/
structure DatesMeanDays (index : Index) (range : DateRange) : Prop where
  /-- The rule against blackouts reports for each assignment what each of the windows finds. -/
  windows : ∀ params items, Rule.declaredWindows ⟨params, index⟩ = .ok items →
    (∀ item ∈ items, ∃ w, Rule.readWindow? index.zone item = .ok w) →
      ∃ o : Outcome, (Rule.blackoutDates.run ⟨params, index⟩).result = .ok (.outcome o) ∧
        o.violations =
          index.assignments.flatMap fun a => items.flatMap (Rule.foundIn index.zone a)
  readable : ∃ w, Rule.readWindow? index.zone range.toJson = .ok w
  /-- A window of dates finds one thing when clocks show one of the dates during the game. -/
  reported : ∀ a ∈ index.assignments, ∀ start finish, a.span? = some (start, finish) →
    start < finish → (∃ t, start ≤ t ∧ t < finish ∧ index.zone.ShowsDateIn range t) →
      Rule.foundIn index.zone a range.toJson =
        [Rule.blackoutViolation a (Rule.dateWindow index.zone range)]
  spared : ∀ a ∈ index.assignments, ∀ start finish, a.span? = some (start, finish) →
    start < finish → (∀ t, start ≤ t → t < finish → ¬index.zone.ShowsDateIn range t) →
      Rule.foundIn index.zone a range.toJson = []
  selector : Selector.read (datesJson range) = .ok (dates range)
  /-- A fixture is admitted when clocks show no other date during its game. -/
  admitted : ∀ a ∈ index.assignments, ∀ start finish, a.span? = some (start, finish) →
    start < finish → ∀ c : Candidate, c.kind = .fixture → c.assignment = some a →
      ∃ b, (dates range).matchesOne index.zone c = .ok b ∧
        (b = true ↔ ∀ t, start ≤ t → t < finish → index.zone.ShowsDateIn range t)
  kept : (∀ id ∈ index.fixtures.ids, ∃ names, index.participants id = .ok names) →
    ∃ part, index.scope (dates range) = .ok part ∧
      ∀ id ∈ index.fixtures.ids, ∀ a, index.assignmentOf id = some a →
        ∀ start finish, a.span? = some (start, finish) → start < finish →
          (id ∈ part.fixtures.ids ↔
            ∀ t, start ≤ t → t < finish → index.zone.ShowsDateIn range t)

/-- In every index that is built, and in every part of it, ranges of dates mean local days. It does
not matter which zones are known: those that change no clocks around midnight are alike. -/
theorem datesMeanDays :
    (∀ {default : Minutes} {fallback : String} {league result : Json} {index : Index},
      build default fallback league result = .ok index → index.ReadsClocks) ∧
    ∀ {index : Index}, index.ReadsClocks →
      (∀ s part, index.scope s = .ok part → part.ReadsClocks) ∧
        ∀ range, index.DatesMeanDays range := by
  refine ⟨readsClocks_of_build, fun {index} h => ⟨fun s part => h.of_scope, fun range => ?_⟩⟩
  have hshown : ∀ a ∈ index.assignments, ∀ start finish, a.span? = some (start, finish) →
      ShowsClocks index.zone start := by
    intro a ha start finish hspan
    refine h.shown a ha start ?_
    unfold Assignment.span? at hspan
    split at hspan
    · next hstart _ =>
      rw [hstart]
      exact congrArg some (Prod.mk.inj (Option.some.inj hspan)).1
    · cases hspan
  refine ⟨fun params items => Rule.violations_of_readable,
    ⟨_, Rule.readWindow?_dates h.spares range⟩, ?reported, ?spared, read_datesJson range, ?admitted,
    ?kept⟩
  case reported =>
    intro a ha start finish hspan hlt
    exact (Rule.foundIn_dates h.spares hspan hlt (hshown a ha start finish hspan) range).1
  case spared =>
    intro a ha start finish hspan hlt
    exact (Rule.foundIn_dates h.spares hspan hlt (hshown a ha start finish hspan) range).2
  case admitted =>
    intro a ha start finish hspan hlt c hkind hc
    refine ⟨_, matchesOne_dates h.spares range hkind, ?_⟩
    rw [hc, Option.any_some]
    exact liesIn_iff h.spares hspan hlt (hshown a ha start finish hspan)
  case kept =>
    intro hlists
    obtain ⟨part, hpart, hids⟩ := exists_scope_dates h.spares range hlists
    refine ⟨part, hpart, fun id hid a hfirst start finish hspan hlt => ?_⟩
    have ha : a ∈ index.assignments := List.mem_of_find?_eq_some hfirst
    rw [hids id, hfirst, Option.any_some, and_iff_right hid]
    exact liesIn_iff h.spares hspan hlt (hshown a ha start finish hspan)

/-- A league in New York. -/
def newYorkLeague : Json :=
  .obj [("timezone", .str "America/New_York"), ("fixtures", .arr [.obj
    [("id", .str "F"), ("participants", .arr [.str "A", .str "B"])]])]

/-- A game around the midnight that begins the day on which New York loses an hour. -/
def midnightSlot : Json :=
  .obj [("assignments", .arr [.obj [("fixtureId", .str "F"),
    ("startTime", .str "2025-03-09T04:30:00Z"), ("endTime", .str "2025-03-09T05:30:00Z")]])]

def midnightGame : Assignment where
  fixture := "F"
  venue := none
  start := some 1741494600000
  finish := some 1741498200000
  parts := some ⟨"Saturday", "23:30", "2025-03-08"⟩
  resource := none
  officials := []
  position := 0

/-- The day that is an hour short. -/
def shortDay : DateRange :=
  ⟨⟨2025, 3, 9⟩, ⟨2025, 3, 9⟩, by decide, by decide, by decide, by decide⟩

/-- The game is in the window of the day that it ends on, but does not lie in this day. -/
theorem datesMeanDays_midnightGame :
    ∃ index, build (.whole 90) "UTC" newYorkLeague midnightSlot = .ok index ∧
      Rule.foundIn index.zone midnightGame shortDay.toJson =
        [Rule.blackoutViolation midnightGame (Rule.dateWindow index.zone shortDay)] ∧
      ∃ part, index.scope (dates shortDay) = .ok part ∧ "F" ∉ part.fixtures.ids := by
  obtain ⟨index, hindex, hview⟩ := exists_ok_of_toOption_map
    (x := build (.whole 90) "UTC" newYorkLeague midnightSlot)
    (f := fun index => (index.zone, index.assignments, index.fixtures.ids,
      (index.participants "F").toOption))
    (b := (americanZone "America/New_York" (hours (-5)), [midnightGame], ["F"], some ["A", "B"]))
    (by decide +kernel)
  simp only [Prod.mk.injEq] at hview
  obtain ⟨hzone, hall, hfixtures, hnames⟩ := hview
  have hfirst : index.assignmentOf "F" = some midnightGame := by
    rw [assignmentOf, hall]
    rfl
  have hmeaning := (datesMeanDays.2 (datesMeanDays.1 hindex)).2 shortDay
  have hmem : midnightGame ∈ index.assignments := hall ▸ List.mem_singleton_self _
  have hdate : ∀ t date, (localParts (americanZone "America/New_York" (hours (-5))) t).toOption.map
      LocalParts.date = some date → ∃ parts, localParts index.zone t = .ok parts ∧
        parts.date = date := by
    intro t date ht
    rw [hzone]
    exact exists_ok_of_toOption_map ht
  refine ⟨index, hindex, ?_, ?_⟩
  · refine hmeaning.reported _ hmem 1741494600000 1741498200000 rfl (by decide) ?_
    obtain ⟨parts, hparts, hparts'⟩ := hdate 1741496400000 "2025-03-09" (by decide +kernel)
    exact ⟨1741496400000, by decide, by decide, parts, ⟨2025, 3, 9⟩, hparts,
      hparts'.trans (by decide +kernel), by decide, by decide, by decide⟩
  · obtain ⟨part, hpart, hkept⟩ := hmeaning.kept fun id hid => by
      rw [hfixtures, List.mem_singleton] at hid
      subst hid
      exact ⟨_, toOption_eq_some.mp hnames⟩
    have hid : "F" ∈ index.fixtures.ids := hfixtures ▸ List.mem_singleton_self _
    refine ⟨part, hpart, fun hmem => ?_⟩
    have hshows := (hkept "F" hid _ hfirst 1741494600000 1741498200000 rfl (by decide)).mp hmem
      1741494600000 (by decide) (by decide)
    obtain ⟨parts, d, hparts, htext, hvalid, hlow, hhigh⟩ := hshows
    obtain ⟨parts', hparts', htext'⟩ := hdate 1741494600000 "2025-03-08" (by decide +kernel)
    rw [hparts] at hparts'
    cases Except.ok.inj hparts'
    have hday : d = ⟨2025, 3, 8⟩ := Date.text_inj hvalid (by decide)
      (htext.symm.trans (htext'.trans (by decide +kernel)))
    subst hday
    revert hlow
    decide

end Index
end LeagueAudit
