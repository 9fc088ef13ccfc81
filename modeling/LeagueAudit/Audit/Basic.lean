import LeagueAudit.Config
import LeagueAudit.Rule.Default
import LeagueAudit.Schedule.Build
import LeagueAudit.Schema.Catalog
import LeagueAudit.Score.Reconcile

/-!
What audits are made with: the settings, the rules that are known, and if given a registry and a way
to check the structure of documents.
-/
namespace LeagueAudit

/-- What audits are made with. -/
structure Auditor where
  config : Config := {}
  registry : Option Registry := none
  schemas : Option StructureCheck := none
  catalog : Catalog := .default
  /-- The time that corrected ledgers bear. -/
  now : String := ""

namespace Auditor

/-- The engine that evaluates constraints. -/
def engine (auditor : Auditor) : Engine :=
  { registry := auditor.registry, catalog := auditor.catalog, strict := auditor.config.strict
    workers := auditor.config.workers, timeout := auditor.config.timeout }

/-- The keeper of the ledger. -/
def scorekeeper (auditor : Auditor) : Scorekeeper :=
  { tolerance := auditor.config.tolerance, fix := auditor.config.fixScores
    validatedBy := auditor.config.validatedBy, now := auditor.now }

/-- The index of an instance and a result. -/
def index (auditor : Auditor) (league result : Json) : Except Fault Index :=
  Index.build (.whole auditor.config.defaultMinutes) auditor.config.timezone league result

/-- An audit that corrects nothing. -/
def withoutFixing (auditor : Auditor) : Auditor :=
  { auditor with config := { auditor.config with fixScores := false } }

/-- An empty report. -/
def report (auditor : Auditor) (subject : String) : Report :=
  { subject, failOnWarnings := auditor.config.failOnWarnings }

end Auditor
end LeagueAudit
