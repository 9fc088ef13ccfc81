import LeagueAudit.Rule.Basic

/-!
Locked venues: a fixture that names its venue is played there.
-/
namespace LeagueAudit.Rule

/-- The finding that an assignment is not at the locked venue of its fixture. -/
def lockedViolation? (index : Index) (a : Assignment) : Option Violation :=
  let locked := ((index.fixture? a.fixture).getD .null).field "lockedVenueId"
  let name := locked.sealedText
  let venue := a.venue.getD "None"
  if locked.truthy && a.venue != some name then
    some ⟨s!"Fixture '{a.fixture}' is locked to venue '{name}' but assigned to '{venue}'",
      [a.fixture, name]⟩
  else none

/-- A fixture with a locked venue is assigned to exactly that one. -/
def lockedVenue : Rule where
  id := "locked_venue"
  description := "Fixtures with a locked venue are played there"
  usesTime := false
  run ctx :=
    .silent (.ok { violations := ctx.index.assignments.filterMap (lockedViolation? ctx.index) })

end LeagueAudit.Rule
