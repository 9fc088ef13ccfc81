import LeagueAudit.Proofs.Schedule.Restrict
import LeagueAudit.Rule.Default
import LeagueAudit.Schedule.Build

/-!
Scoping only relaxes the hard rules. A team that loses some of its games has longer rests, fewer
games in every window and fewer games that could overlap, and what is said about one assignment
does not depend on the others.
-/
namespace LeagueAudit

/-- A run came to its end and has no violation to report. -/
def RuleRun.findsNothing (run : RuleRun) : Bool :=
  match run.result with
  | .ok (.outcome o) => o.violations.isEmpty
  | _ => false

namespace RuleRun

theorem findsNothing_iff {run : RuleRun} : run.findsNothing = true ↔
    ∃ o : Outcome, run.result = .ok (.outcome o) ∧ o.violations = [] := by
  unfold findsNothing
  split
  · next o ho => simp [ho]
  · next hother =>
    simp only [Bool.false_eq_true, false_iff, not_exists, not_and]
    exact fun o ho => absurd ho (hother o)

theorem findsNothing_silent {x : Except Fault Outcome} :
    (silent x).findsNothing = true ↔ ∃ o, x = .ok o ∧ o.violations = [] := by
  cases x with
  | error f => simp [silent, findsNothing, Except.map]
  | ok o => simp [silent, findsNothing, Except.map]

/-- An outcome that is nothing but a list of violations. -/
theorem exists_listed {x : Except Fault (List Violation)} :
    (∃ o : Outcome, (do .ok { violations := ← x }) = Except.ok o ∧ o.violations = []) ↔
      x = .ok [] := by
  cases x with
  | error f => simp [bind, Except.bind]
  | ok violations => simp [bind, Except.bind]

end RuleRun

/-- Without a violation in the index there is none in any restriction of it. -/
def Rule.Relaxes (rule : Rule) : Prop :=
  ∀ params index teams venues fixtures, (rule.run ⟨params, index⟩).findsNothing = true →
    (rule.run ⟨params, index.restrict teams venues fixtures⟩).findsNothing = true

/-- A search in games in order of start, which finds nothing among some of them when it finds
nothing among all. -/
def Hereditary {β : Type} (search : List Game → List β) : Prop :=
  ∀ games kept : List Game, games.Pairwise (fun a b => a.start ≤ b.start) → kept.Sublist games →
    search games = [] → search kept = []

theorem hereditary_overlapPairs : Hereditary overlapPairs := by
  intro games kept sorted hsub hnone
  rw [overlapPairs_eq_nil sorted] at hnone
  rw [overlapPairs_eq_nil (sorted.sublist hsub)]
  exact hnone.sublist hsub

/-- A number below a whole number that is less than a double is less, too. -/
theorem intLtFloat_of_le {m n : Int} {x : Float} (hle : m ≤ n) (h : intLtFloat n x = true) :
    intLtFloat m x = true := by
  unfold intLtFloat at h ⊢
  cases hx : Exact.ofFloat x with
  | finite steps =>
    simp only [hx, Exact.compareInt, beq_iff_eq, Option.some.injEq, Int.compare_eq_lt] at h ⊢
    exact Int.lt_of_le_of_lt (Int.mul_le_mul_of_nonneg_right hle (Int.natCast_nonneg _)) h
  | infinite negative =>
    rw [hx] at h
    exact h
  | undefined => simp [hx, Exact.compareInt] at h

namespace Rule

section Rests

theorem isShortRest_of_le {minHours : Float} {m n : Int} (hle : m ≤ n)
    (h : isShortRest minHours n = true) : isShortRest minHours m = true :=
  intLtFloat_of_le hle h

variable {tooShort : Int → Bool}

theorem shortRests_cons_cons (a b : Game) (rest : List Game) :
    shortRests tooShort (a :: b :: rest) = [] ↔
      tooShort (restBetween a b) = false ∧ shortRests tooShort (b :: rest) = [] := by
  have hneighbours : neighbours (a :: b :: rest) = (a, b) :: neighbours (b :: rest) := rfl
  simp only [shortRests, hneighbours, List.filter_cons]
  cases hab : tooShort (restBetween a b) with
  | false => simp
  | true => simp

/-- The rests between neighbours are the shortest ones. -/
theorem shortRests_eq_nil (hshort : ∀ m n, m ≤ n → tooShort n = true → tooShort m = true)
    {games : List Game} (sorted : games.Pairwise fun a b => a.start ≤ b.start) :
    shortRests tooShort games = [] ↔
      games.Pairwise fun a b => tooShort (restBetween a b) = false := by
  induction games with
  | nil => simp [shortRests, neighbours]
  | cons a later ih =>
    obtain ⟨-, hlater⟩ := List.pairwise_cons.mp sorted
    cases later with
    | nil => simp [shortRests, neighbours]
    | cons b rest =>
      rw [shortRests_cons_cons, ih hlater, List.pairwise_cons (a := a)]
      refine and_congr_left fun _ => ⟨fun hab c hc => ?_, fun h => h b List.mem_cons_self⟩
      have hstart : b.start ≤ c.start := by
        rcases List.mem_cons.mp hc with rfl | hc
        · exact Int.le_refl _
        · exact (List.pairwise_cons.mp hlater).1 c hc
      have hrest : restBetween a b ≤ restBetween a c := by
        simp only [restBetween]
        omega
      rw [← Bool.not_eq_true] at hab ⊢
      exact fun hac => hab (hshort _ _ hrest hac)

theorem hereditary_shortRests (hshort : ∀ m n, m ≤ n → tooShort n = true → tooShort m = true) :
    Hereditary (shortRests tooShort) := by
  intro games kept sorted hsub hnone
  rw [shortRests_eq_nil hshort sorted] at hnone
  rw [shortRests_eq_nil hshort (sorted.sublist hsub)]
  exact hnone.sublist hsub

end Rests

section Windows

theorem startsWithin_of_le {windowDays : Float} {first a b : Game} (hle : a.start ≤ b.start)
    (h : startsWithin windowDays first b = true) : startsWithin windowDays first a = true :=
  intLtFloat_of_le hle h

variable {inWindow : Game → Game → Bool} {limit : Nat}

/-- A window that closes at some instant holds all games before it. -/
theorem windowOf_eq_filter
    (hwindow : ∀ first a b, a.start ≤ b.start → inWindow first b = true → inWindow first a = true)
    {first : Game} {later : List Game}
    (sorted : (first :: later).Pairwise fun a b => a.start ≤ b.start) :
    windowOf inWindow first later = (first :: later).filter (inWindow first) := by
  unfold windowOf
  generalize first :: later = games at sorted
  induction games with
  | nil => rfl
  | cons next rest ih =>
    obtain ⟨hnext, hrest⟩ := List.pairwise_cons.mp sorted
    rw [List.takeWhile_cons, List.filter_cons, ih hrest]
    split
    · rfl
    · next hout =>
      symm
      rw [List.filter_eq_nil_iff]
      exact fun g hg hin => hout (hwindow _ _ _ (hnext g hg) hin)

/-- As long as no window was reported, the first one over the limit is. -/
theorem bursts_cons_eq_nil {position covered : Nat} (hcovered : covered ≤ position) {first : Game}
    {later : List Game} :
    bursts inWindow limit position covered (first :: later) = [] ↔
      (windowOf inWindow first later).length ≤ limit ∧
        bursts inWindow limit (position + 1) covered later = [] := by
  rw [bursts]
  by_cases hlimit : (windowOf inWindow first later).length ≤ limit
  · simp [hlimit, Nat.not_lt.mpr hlimit]
  · have hreach : covered < position + (windowOf inWindow first later).length := by omega
    simp [hlimit, hreach, Nat.not_le.mp hlimit]

theorem bursts_eq_nil_of_sublist
    (hwindow : ∀ first a b, a.start ≤ b.start → inWindow first b = true → inWindow first a = true)
    {games kept : List Game} (sorted : games.Pairwise fun a b => a.start ≤ b.start)
    (hsub : kept.Sublist games) {position covered : Nat} (hcovered : covered ≤ position)
    (hnone : bursts inWindow limit position covered games = []) {position' covered' : Nat}
    (hcovered' : covered' ≤ position') :
    bursts inWindow limit position' covered' kept = [] := by
  -- Places move up when games are taken out, so those of the two lists are apart.
  induction hsub generalizing position position' with
  | slnil => rfl
  | cons first hrest ih =>
    exact ih sorted.of_cons (Nat.le_succ_of_le hcovered) ((bursts_cons_eq_nil hcovered).mp hnone).2
      hcovered'
  | @cons_cons some all first hrest ih =>
    obtain ⟨hlimit, hnone⟩ := (bursts_cons_eq_nil hcovered).mp hnone
    rw [bursts_cons_eq_nil hcovered']
    refine ⟨?_, ih sorted.of_cons (Nat.le_succ_of_le hcovered) hnone
      (Nat.le_succ_of_le hcovered')⟩
    rw [windowOf_eq_filter hwindow sorted] at hlimit
    rw [windowOf_eq_filter hwindow (sorted.sublist (hrest.cons_cons first))]
    exact Nat.le_trans ((hrest.cons_cons first).filter _).length_le hlimit

theorem hereditary_bursts
    (hwindow : ∀ first a b, a.start ≤ b.start → inWindow first b = true → inWindow first a = true) :
    Hereditary (bursts inWindow limit 0 0) :=
  fun _ _ sorted hsub hnone =>
    bursts_eq_nil_of_sublist hwindow sorted hsub (Nat.le_refl 0) hnone (Nat.le_refl 0)

end Windows

section Teams

variable {index : Index}

/-- A search in the games of every team that finds nothing in an index finds nothing in a
restriction of it. -/
theorem teamSearch_restrict {β : Type} (search : List Game → List β)
    (report : String → β → Violation) (hsearch : Hereditary search)
    (h : (do .ok ((← teamGames index).flatMap fun (team, games) =>
      (search games).map (report team))) = (.ok [] : Except Fault (List Violation)))
    (teams venues fixtures : Option (List String)) :
    (do .ok ((← teamGames (index.restrict teams venues fixtures)).flatMap fun (team, games) =>
      (search games).map (report team))) = (.ok [] : Except Fault (List Violation)) := by
  obtain ⟨groups, hgroups, h⟩ := bind_eq_ok.mp h
  have hnone := List.flatMap_eq_nil_iff.mp (Except.ok.inj h)
  obtain ⟨kept, hkept, hpart⟩ := teamGames_restrict hgroups teams venues fixtures
  refine bind_eq_ok.mpr ⟨kept, hkept, congrArg Except.ok (List.flatMap_eq_nil_iff.mpr ?_)⟩
  intro group hgroup
  obtain ⟨games, hgames, hsub, sorted⟩ := hpart group hgroup
  have hfree := List.map_eq_nil_iff.mp (hnone _ hgames)
  exact List.map_eq_nil_iff.mpr (hsearch games group.2 sorted hsub hfree)

theorem teamOverlaps_restrict (h : teamOverlaps index = .ok [])
    (teams venues fixtures : Option (List String)) :
    teamOverlaps (index.restrict teams venues fixtures) = .ok [] :=
  teamSearch_restrict overlapPairs (fun team pair => teamOverlap team pair.1 pair.2)
    hereditary_overlapPairs h teams venues fixtures

theorem restViolations_restrict {minHours : Float} (h : restViolations minHours index = .ok [])
    (teams venues fixtures : Option (List String)) :
    restViolations minHours (index.restrict teams venues fixtures) = .ok [] :=
  teamSearch_restrict (shortRests (isShortRest minHours))
    (fun team pair => restViolation minHours team pair.1 pair.2)
    (hereditary_shortRests fun _ _ => isShortRest_of_le) h teams venues fixtures

theorem burstViolations_restrict {limit : Nat} {windowDays : Float}
    (h : burstViolations limit windowDays index = .ok [])
    (teams venues fixtures : Option (List String)) :
    burstViolations limit windowDays (index.restrict teams venues fixtures) = .ok [] :=
  teamSearch_restrict (bursts (startsWithin windowDays) limit 0 0)
    (burstViolation limit windowDays) (hereditary_bursts fun _ _ _ => startsWithin_of_le) h
    teams venues fixtures

end Teams

theorem relaxes_noOverlapTeam : noOverlapTeam.Relaxes := by
  intro params index teams venues fixtures h
  have hnone := RuleRun.exists_listed.mp (RuleRun.findsNothing_silent.mp h)
  exact RuleRun.findsNothing_silent.mpr
    (RuleRun.exists_listed.mpr (teamOverlaps_restrict hnone teams venues fixtures))

theorem relaxes_minRestTime : minRestTime.Relaxes := by
  intro params index teams venues fixtures h
  obtain ⟨o, ho, hnone⟩ := RuleRun.findsNothing_silent.mp h
  obtain ⟨minHours, hminHours, ho⟩ := bind_eq_ok.mp ho
  refine RuleRun.findsNothing_silent.mpr ?_
  split at ho
  · next hoff => exact ⟨_, bind_eq_ok.mpr ⟨minHours, hminHours, if_pos hoff⟩, rfl⟩
  · next hon =>
    have hrests := RuleRun.exists_listed.mp ⟨o, ho, hnone⟩
    obtain ⟨kept, hkept, hnone⟩ :=
      RuleRun.exists_listed.mpr (restViolations_restrict hrests teams venues fixtures)
    exact ⟨kept, bind_eq_ok.mpr ⟨minHours, hminHours, (if_neg hon).trans hkept⟩, hnone⟩

theorem relaxes_maxGamesInWindow : maxGamesInWindow.Relaxes := by
  intro params index teams venues fixtures h
  obtain ⟨o, ho, hnone⟩ := RuleRun.findsNothing_silent.mp h
  obtain ⟨given, hgiven, ho⟩ := bind_eq_ok.mp ho
  obtain ⟨limit, hlimit, ho⟩ := bind_eq_ok.mp ho
  obtain ⟨windowDays, hwindowDays, ho⟩ := bind_eq_ok.mp ho
  refine RuleRun.findsNothing_silent.mpr ?_
  split at ho
  · next hoff =>
    exact ⟨_, bind_eq_ok.mpr ⟨given, hgiven, bind_eq_ok.mpr ⟨limit, hlimit,
      bind_eq_ok.mpr ⟨windowDays, hwindowDays, if_pos hoff⟩⟩⟩, rfl⟩
  · next hon =>
    have hbursts := RuleRun.exists_listed.mp ⟨o, ho, hnone⟩
    obtain ⟨kept, hkept, hnone⟩ :=
      RuleRun.exists_listed.mpr (burstViolations_restrict hbursts teams venues fixtures)
    exact ⟨kept, bind_eq_ok.mpr ⟨given, hgiven, bind_eq_ok.mpr ⟨limit, hlimit,
      bind_eq_ok.mpr ⟨windowDays, hwindowDays, (if_neg hon).trans hkept⟩⟩⟩, hnone⟩

section Places

variable {index : Index} {teams venues fixtures : Option (List String)} {perResource : Bool}

/-- What is placed in a restricted index was placed before, at a venue that is still in scope. -/
theorem placedGame_restrict (a : Assignment) :
    placedGame perResource (index.restrict teams venues fixtures) a =
      (placedGame perResource index a).filter fun placed =>
        (index.restrict teams venues fixtures).venueInScope (some placed.1.venue) := by
  unfold placedGame
  cases a.span? with
  | none => rfl
  | some span =>
    cases a.venue with
    | none => rfl
    | some venue =>
      simp only [Option.bind_eq_bind, Option.bind_some]
      by_cases hscope :
          (index.restrict teams venues fixtures).venueInScope (some venue) = true
      · rw [if_pos hscope, if_pos (Index.venueInScope_of_restrict hscope), Option.filter_some,
          if_pos hscope]
      · rw [if_neg hscope]
        split
        · rw [Option.filter_some, if_neg hscope]
        · rfl

theorem placedGames_restrict :
    ((index.restrict teams venues fixtures).assignments.filterMap
      (placedGame perResource (index.restrict teams venues fixtures))).Sublist
      (index.assignments.filterMap (placedGame perResource index)) := by
  rw [funext placedGame_restrict, ← List.filter_filterMap]
  exact List.filter_sublist.trans (List.filter_sublist.filterMap _)

end Places

theorem relaxes_noOverlapVenueResource : noOverlapVenueResource.Relaxes := by
  intro params index teams venues fixtures h
  obtain ⟨o, ho, hnone⟩ := RuleRun.findsNothing_silent.mp h
  cases Except.ok.inj ho
  refine RuleRun.findsNothing_silent.mpr ⟨_, rfl, List.flatMap_eq_nil_iff.mpr ?_⟩
  intro group hgroup
  obtain ⟨games, hgames, hsub⟩ := groupGames_sublist placedGames_restrict hgroup
  have hfree := List.map_eq_nil_iff.mp (List.flatMap_eq_nil_iff.mp hnone _ hgames)
  exact List.map_eq_nil_iff.mpr
    (hereditary_overlapPairs games group.2 (pairwise_of_mem_groupGames hgames) hsub hfree)

theorem relaxes_lockedVenue : lockedVenue.Relaxes := by
  intro params index teams venues fixtures h
  obtain ⟨o, ho, hnone⟩ := RuleRun.findsNothing_silent.mp h
  cases Except.ok.inj ho
  refine RuleRun.findsNothing_silent.mpr ⟨_, rfl, List.filterMap_eq_nil_iff.mpr ?_⟩
  intro a ha
  obtain ⟨ha, hfixture⟩ := Index.mem_of_mem_restrict ha
  have hlocked := List.filterMap_eq_nil_iff.mp hnone a ha
  rw [lockedViolation?, Index.fixture?_restrict hfixture]
  exact hlocked

/-- The windows are those of the parameters or of the league, however the index is limited. -/
theorem blackoutDates_run (params : Json) (index : Index) :
    (blackoutDates.run ⟨params, index⟩).result = (do
      let items ← declaredWindows ⟨params, index⟩
      let windows ← (readWindows index.zone items).2
      .ok (.outcome (blackoutOutcome index windows))) := by
  unfold blackoutDates
  dsimp only
  cases declaredWindows ⟨params, index⟩ with
  | error f => rfl
  | ok items =>
    simp only [bind, Except.bind]
    cases (readWindows index.zone items).2 <;> rfl

theorem blackoutOutcome_restrict {index : Index} {windows : List Blackout}
    (h : (blackoutOutcome index windows).violations = [])
    (teams venues fixtures : Option (List String)) :
    (blackoutOutcome (index.restrict teams venues fixtures) windows).violations = [] := by
  unfold blackoutOutcome at h ⊢
  split at h
  · next hempty => rw [if_pos hempty]
  · next hsome =>
    rw [if_neg hsome]
    refine List.flatMap_eq_nil_iff.mpr fun a ha => ?_
    exact List.flatMap_eq_nil_iff.mp h a (Index.mem_of_mem_restrict ha).1

theorem relaxes_blackoutDates : blackoutDates.Relaxes := by
  intro params index teams venues fixtures h
  obtain ⟨o, ho, hnone⟩ := RuleRun.findsNothing_iff.mp h
  rw [blackoutDates_run] at ho
  obtain ⟨items, hitems, ho⟩ := bind_eq_ok.mp ho
  obtain ⟨windows, hwindows, ho⟩ := bind_eq_ok.mp ho
  cases Except.ok.inj ho
  refine RuleRun.findsNothing_iff.mpr ⟨_, ?_, blackoutOutcome_restrict hnone teams venues fixtures⟩
  rw [blackoutDates_run]
  exact bind_eq_ok.mpr ⟨items, hitems, bind_eq_ok.mpr ⟨windows, hwindows, rfl⟩⟩

theorem relaxes_of_hard {rule : Rule} (hrule : rule ∈ Catalog.defaultRules)
    (hhard : rule.kind = .hard) : rule.Relaxes := by
  simp only [Catalog.defaultRules, List.mem_cons, List.not_mem_nil, or_false] at hrule
  rcases hrule with rfl | rfl | rfl | rfl | rfl | rfl | rfl | rfl | rfl
  · exact relaxes_noOverlapTeam
  · exact relaxes_noOverlapVenueResource
  · exact relaxes_minRestTime
  · exact relaxes_lockedVenue
  · exact relaxes_blackoutDates
  · exact relaxes_maxGamesInWindow
  -- The others are soft.
  · cases hhard
  · cases hhard
  · cases hhard

/-- A hard rule of the default catalog that finds nothing in an index finds nothing among any of its
teams, venues and fixtures, and so nothing in the scope of any selector. -/
theorem findsNothing_of_scoped {rule : Rule} (hrule : rule ∈ Catalog.defaultRules)
    (hhard : rule.kind = .hard) {params : Json} {index : Index}
    (h : (rule.run ⟨params, index⟩).findsNothing = true) :
    (∀ teams venues fixtures,
      (rule.run ⟨params, index.restrict teams venues fixtures⟩).findsNothing = true) ∧
      ∀ selector scope, index.scope selector = .ok scope →
        (rule.run ⟨params, scope⟩).findsNothing = true := by
  have hrelaxes := relaxes_of_hard hrule hhard
  refine ⟨fun teams venues fixtures => hrelaxes params index teams venues fixtures h, ?_⟩
  intro selector scope hscope
  rcases Index.scope_eq_ok hscope with rfl | ⟨teams, venues, fixtures, rfl⟩
  · exact h
  · exact hrelaxes params index teams venues fixtures h

/-- Two games of different teams. -/
def twoGames : Json :=
  .obj [("fixtures", .arr ([("F", "A", "B"), ("G", "C", "D")].map fun (fixture, home, away) =>
    .obj [("id", .str fixture), ("participants", .arr [.str home, .str away])]))]

/-- They are played four days apart. -/
def fourDaysApart : Json :=
  .obj [("assignments", .arr ([("F", "01"), ("G", "05")].map fun (fixture, day) =>
    .obj [("fixtureId", .str fixture), ("startTime", .str s!"2025-03-{day}T10:00:00Z")]))]

/-- No game from an instant until the second game starts. -/
def noGameFrom (start : String) : Json :=
  .obj [("windows", .arr [.obj [("start", .str start), ("end", .str "2025-03-05T10:00:00Z")]])]

theorem findsNothing_of_scoped_twoGames :
    ∃ index, Index.build (.whole 90) "UTC" twoGames fourDaysApart = .ok index ∧
      blackoutDates ∈ Catalog.defaultRules ∧ blackoutDates.kind = .hard ∧
      (blackoutDates.run ⟨noGameFrom "2025-03-01T11:29:00Z", index⟩).findsNothing = false ∧
      (blackoutDates.run ⟨noGameFrom "2025-03-01T11:30:00Z", index⟩).findsNothing = true ∧
      (blackoutDates.run ⟨noGameFrom "2025-03-01T11:30:00Z",
        index.restrict none none (some ["G"])⟩).findsNothing = true := by
  obtain ⟨index, hindex, hfinds⟩ := exists_ok_of_toOption_map
    (x := Index.build (.whole 90) "UTC" twoGames fourDaysApart)
    (f := fun index => ["2025-03-01T11:29:00Z", "2025-03-01T11:30:00Z"].map fun start =>
      (blackoutDates.run ⟨noGameFrom start, index⟩).findsNothing)
    (b := [false, true]) (by decide +kernel)
  obtain ⟨hplayed, hrest⟩ := List.cons.inj hfinds
  have hfree := (List.cons.inj hrest).1
  have hrule : blackoutDates ∈ Catalog.defaultRules := by simp [Catalog.defaultRules]
  exact ⟨index, hindex, hrule, rfl, hplayed, hfree,
    (findsNothing_of_scoped hrule rfl hfree).1 none none (some ["G"])⟩

end Rule
end LeagueAudit
