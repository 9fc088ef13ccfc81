import LeagueAudit.Rule.Blackout
import LeagueAudit.Rule.Broadcast
import LeagueAudit.Rule.Catalog
import LeagueAudit.Rule.HomeAway
import LeagueAudit.Rule.LockedVenue
import LeagueAudit.Rule.Overlap
import LeagueAudit.Rule.Rest
import LeagueAudit.Rule.Spacing
import LeagueAudit.Rule.Window

/-!
The default catalog: six hard and three soft rules.
-/
namespace LeagueAudit.Catalog

/-- The rules that every audit knows. -/
def defaultRules : List Rule :=
  [Rule.noOverlapTeam, Rule.noOverlapVenueResource, Rule.minRestTime, Rule.lockedVenue,
    Rule.blackoutDates, Rule.maxGamesInWindow, Rule.homeAwayBalance, Rule.opponentSpacing,
    Rule.broadcastWindow]

/-- The default rules, and one more name for the rule about venues. -/
def default : Catalog where
  rules := defaultRules.map fun rule => (rule.id, rule)
  aliases := [("no_overlap_venue", "no_overlap_venue_resource")]

end LeagueAudit.Catalog
