import LeagueAudit.Main
import LeagueAudit.Proofs.Audit.Bundle
import LeagueAudit.Proofs.Audit.Cardinality
import LeagueAudit.Proofs.Audit.Clean
import LeagueAudit.Proofs.Audit.Declared
import LeagueAudit.Proofs.Audit.Ranking
import LeagueAudit.Proofs.Audit.Shuffle
import LeagueAudit.Proofs.Audit.Structure
import LeagueAudit.Proofs.Audit.Verdict
import LeagueAudit.Proofs.Audit.Visible
import LeagueAudit.Proofs.Documents
import LeagueAudit.Proofs.Evaluation.Account
import LeagueAudit.Proofs.Evaluation.Isolation
import LeagueAudit.Proofs.Evaluation.Satisfied
import LeagueAudit.Proofs.Inferred
import LeagueAudit.Proofs.Metrics.Shares
import LeagueAudit.Proofs.Penalty.Points
import LeagueAudit.Proofs.Penalty.Tiers
import LeagueAudit.Proofs.Registry.Container
import LeagueAudit.Proofs.Rule.Broadcast
import LeagueAudit.Proofs.Rule.Catalog
import LeagueAudit.Proofs.Rule.InScope
import LeagueAudit.Proofs.Rule.Relaxing
import LeagueAudit.Proofs.Rule.Rest
import LeagueAudit.Proofs.Rule.Spacing
import LeagueAudit.Proofs.Rule.Sweep
import LeagueAudit.Proofs.Rule.Window
import LeagueAudit.Proofs.Schedule.Buildable
import LeagueAudit.Proofs.Schedule.Reversed
import LeagueAudit.Proofs.Schedule.Traced
import LeagueAudit.Proofs.Score.Named
import LeagueAudit.Proofs.Score.Rebuilt
import LeagueAudit.Proofs.Score.Workable
import LeagueAudit.Proofs.Selector.Algebra
import LeagueAudit.Proofs.Selector.Assigned
import LeagueAudit.Proofs.Selector.DateRange
import LeagueAudit.Proofs.Selector.Projection
import LeagueAudit.Proofs.Selector.Role
