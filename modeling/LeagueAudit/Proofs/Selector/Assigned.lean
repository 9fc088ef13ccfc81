import LeagueAudit.Proofs.Schedule.Restrict
import LeagueAudit.Proofs.Selector.Scope
import LeagueAudit.Schedule.Build

/-!
Which assignments a scope holds: those of the fixtures it keeps, in their order. The scope of
everything is the index itself, with the assignments of fixtures that nobody declared.
-/
namespace LeagueAudit.Index

open Selector

/-- The assignments that name one of the fixtures. -/
def ofFixtures (fixtures : Entities) (assignments : List Assignment) : List Assignment :=
  assignments.filter fun a => fixtures.ids.contains a.fixture

variable {index part : Index} {s : Selector} {doc : Json}

theorem idsWhere_subset {entities : Entities} {test : String → Json → Except Fault Bool}
    {ids : List String} (h : idsWhere entities test = .ok ids) : ∀ id ∈ ids, id ∈ entities.ids := by
  intro id hid
  obtain ⟨doc, hmem, -⟩ := ((idsWhere_eq_ok h).2 id).mp hid
  exact mem_ids.mpr ⟨doc, hmem⟩

/-- A restriction holds the declared assignments of the fixtures that it keeps. -/
theorem ofFixtures_restrict (teams venues : Option (List String)) (ids : List String) :
    ofFixtures index.fixtures (index.restrict teams venues (some ids)).assignments =
      ofFixtures (index.restrict teams venues (some ids)).fixtures index.assignments := by
  change ofFixtures index.fixtures (index.assignments.filter fun a => ids.contains a.fixture) =
    ofFixtures (keep index.fixtures (some ids)) index.assignments
  rw [ofFixtures, ofFixtures, List.filter_filter]
  refine List.filter_congr fun a _ => ?_
  rw [Bool.eq_iff_iff, Bool.and_eq_true, List.contains_iff_mem, List.contains_iff_mem,
    List.contains_iff_mem, mem_keep]

/-- When only declared fixtures are kept, a restriction holds no other assignments. -/
theorem assignments_restrict_of_declared {ids : List String}
    (hids : ∀ id ∈ ids, id ∈ index.fixtures.ids) (teams venues : Option (List String)) :
    (index.restrict teams venues (some ids)).assignments =
      ofFixtures (index.restrict teams venues (some ids)).fixtures index.assignments := by
  rw [← ofFixtures_restrict, ofFixtures, List.filter_eq_self.mpr]
  intro a ha
  exact List.contains_iff_mem.mpr (hids _ (mem_of_mem_restrict ha).2)

/-- A selector that is about something limits the index to some fixtures. Only the fixtures that
are played at venues may be such as nobody declared. -/
theorem exists_restrict_of_scope (hwildcard : s ≠ wildcard) (h : index.scope s = .ok part) :
    ∃ teams venues ids, part = index.restrict teams venues (some ids) ∧
      ((∀ inner, s ≠ entityScope .venue inner) → ∀ id ∈ ids, id ∈ index.fixtures.ids) := by
  by_cases hkind : ∃ kind inner, s = entityScope kind inner
  · obtain ⟨kind, inner, rfl⟩ := hkind
    obtain ⟨ids, hids, h⟩ := bind_eq_ok.mp h
    cases kind with
    | team =>
      obtain ⟨fixtures, hfixtures, h⟩ := bind_eq_ok.mp h
      exact ⟨_, _, fixtures, (Except.ok.inj h).symm, fun _ => idsWhere_subset hfixtures⟩
    | venue => exact ⟨_, _, _, (Except.ok.inj h).symm, fun hvenue => absurd rfl (hvenue inner)⟩
    | fixture => exact ⟨_, _, ids, (Except.ok.inj h).symm, fun _ => idsWhere_subset hids⟩
  · rw [scope_eq_scopeNormal hwildcard fun kind inner heq => hkind ⟨kind, inner, heq⟩] at h
    obtain ⟨teamPart, -, h⟩ := bind_eq_ok.mp h
    obtain ⟨teams, -, h⟩ := bind_eq_ok.mp h
    obtain ⟨venuePart, -, h⟩ := bind_eq_ok.mp h
    obtain ⟨venues, -, h⟩ := bind_eq_ok.mp h
    obtain ⟨fixtures, hfixtures, h⟩ := bind_eq_ok.mp h
    exact ⟨teams, venues, fixtures, (Except.ok.inj h).symm, fun _ => idsWhere_subset hfixtures⟩

/-- A selector for venues says so. -/
theorem isText_venue_of_read {inner : Selector}
    (h : Selector.read doc = .ok (entityScope .venue inner)) :
    (doc.field "entityType").isText "venue" = true := by
  unfold Selector.read at h
  split at h
  · cases h
  · split at h
    · cases h
    · split at h
      · unfold readKindScope at h
        split at h
        · cases h
        · next kind hkind =>
          dsimp only at h
          split at h
          · cases h
          · obtain ⟨ids, -, h⟩ := bind_eq_ok.mp h
            obtain ⟨tags, -, h⟩ := bind_eq_ok.mp h
            have hvenue : kind = .venue := by injection Except.ok.inj h
            subst hvenue
            unfold readKind? at hkind
            have hname := List.find?_some hkind
            exact hname
      · exact absurd rfl (ReadsAsPart.ne_entityScope ⟨_, h⟩ .venue inner)

/-- Of the assignments of declared fixtures a scope holds those whose fixture it keeps, in the order
of the index. A selector without criteria leaves the index as it is. Any other one that is not for
venues leaves no assignments but these. -/
theorem assignments_of_scope (hread : Selector.read doc = .ok s)
    (hscope : index.scope s = .ok part) :
    ofFixtures index.fixtures part.assignments = ofFixtures part.fixtures index.assignments ∧
      (s = wildcard → part = index) ∧
      (s ≠ wildcard → (doc.field "entityType").isText "venue" = false →
        part.assignments = ofFixtures part.fixtures index.assignments) := by
  by_cases hwildcard : s = wildcard
  · subst hwildcard
    obtain rfl : index = part := Except.ok.inj hscope
    exact ⟨rfl, fun _ => rfl, fun hne => absurd rfl hne⟩
  · obtain ⟨teams, venues, ids, rfl, hids⟩ := exists_restrict_of_scope hwildcard hscope
    refine ⟨ofFixtures_restrict teams venues ids, fun heq => absurd heq hwildcard, ?_⟩
    intro _ hvenue
    refine assignments_restrict_of_declared (hids fun inner hinner => ?_) teams venues
    subst hinner
    rw [isText_venue_of_read hread] at hvenue
    cases hvenue

/-- A league with a final. -/
def finalOnly : Json :=
  .obj [("fixtures", .arr [.obj
    [("id", .str "F"), ("participants", .arr [.str "A", .str "B"]), ("phase", .str "final")]])]

/-- Slots for the final and for a game that nobody declared. -/
def finalAndGhost : Json :=
  .obj [("assignments", .arr [.obj [("fixtureId", .str "GHOST"), ("venueId", .str "V")],
    .obj [("fixtureId", .str "F"), ("venueId", .str "V")]])]

def inFinal : Json := .obj [("phase", .str "final")]

theorem assignments_of_scope_finalOnly :
    ∃ index s part, build (.whole 90) "UTC" finalOnly finalAndGhost = .ok index ∧
      Selector.read inFinal = .ok s ∧ index.scope s = .ok part ∧
      index.assignments.map (·.fixture) = ["GHOST", "F"] ∧
      part.assignments.map (·.fixture) = ["F"] ∧ s ≠ wildcard ∧
      (inFinal.field "entityType").isText "venue" = false ∧
      ofFixtures index.fixtures part.assignments = ofFixtures part.fixtures index.assignments ∧
      part.assignments = ofFixtures part.fixtures index.assignments := by
  obtain ⟨index, hindex, hview⟩ := exists_ok_of_toOption_map
    (x := build (.whole 90) "UTC" finalOnly finalAndGhost)
    (f := fun index => (index.assignments.map (·.fixture),
      (index.scope (.leaf (.among .phase [.str "final"]))).toOption.map fun part =>
        part.assignments.map (·.fixture)))
    (b := (["GHOST", "F"], some ["F"])) (by decide +kernel)
  obtain ⟨hall, hscope⟩ := Prod.mk.inj hview
  obtain ⟨part, hpart, hkept⟩ := exists_ok_of_toOption_map hscope
  have hread : Selector.read inFinal = .ok (.leaf (.among .phase [.str "final"])) := rfl
  have hvenue : (inFinal.field "entityType").isText "venue" = false := rfl
  obtain ⟨hdeclared, -, hrest⟩ := assignments_of_scope hread hpart
  exact ⟨index, _, part, hindex, hread, hpart, hall, hkept, Selector.noConfusion, hvenue, hdeclared,
    hrest Selector.noConfusion hvenue⟩

/-- The scope of everything holds an assignment of a fixture that it does not hold. -/
theorem not_declared_of_scope_everything :
    ∃ index part, build (.whole 90) "UTC" finalOnly finalAndGhost = .ok index ∧
      Selector.read .null = .ok wildcard ∧ index.scope wildcard = .ok part ∧
      ¬∀ a ∈ part.assignments, a.fixture ∈ part.fixtures.ids := by
  obtain ⟨index, hindex, hview⟩ := exists_ok_of_toOption_map
    (x := build (.whole 90) "UTC" finalOnly finalAndGhost)
    (f := fun index => index.assignments.all fun a => index.fixtures.ids.contains a.fixture)
    (b := false) (by decide +kernel)
  refine ⟨index, index, hindex, rfl, rfl, fun hall => ?_⟩
  have htrue := List.all_eq_true.mpr fun a ha => List.contains_iff_mem.mpr (hall a ha)
  rw [hview] at htrue
  cases htrue

end LeagueAudit.Index
