import LeagueAudit.Proofs.Audit.Stages
import LeagueAudit.Proofs.Audit.Standing

/-!
Rankings. Rows with distinct labels and numbers that have values are ranked in one way, however they
are given, and the first one is the best; the rows of a comparison are among them, and in these a
valid result is a feasible one.
-/
namespace LeagueAudit

namespace Standing

theorem exactOf?_ne_undefined {v : Json} {a : Exact} (h : exactOf? v = some a) :
    a ≠ .undefined := by
  unfold exactOf? at h
  split at h
  · cases h
    exact Exact.noConfusion
  · next x _ =>
    split at h
    · cases h
    · next hx =>
      cases h
      exact mt (Exact.isNaN_iff x).mpr hx
  · cases h

/-- A row for the ranking: its members tell a verdict, two numbers and a label. -/
structure Tells (row : List (String × Json)) (s : Standing) : Prop where
  verdicts : ∃ valid feasible, row.lookup "valid" = some valid ∧
    row.lookup "feasible" = some feasible ∧ s.fit = (valid.truthy && feasible.truthy)
  hardViolations : ∃ v, row.lookup "hardViolations" = some v ∧ exactOf? v = some s.hardViolations
  totalPenalty : ∃ v, row.lookup "totalPenalty" = some v ∧ exactOf? v = some s.totalPenalty
  label : row.lookup "label" = some (.str s.label)

theorem Tells.defined {row : List (String × Json)} {s : Standing} (h : Tells row s) : s.Defined := by
  obtain ⟨v, -, hv⟩ := h.hardViolations
  obtain ⟨w, -, hw⟩ := h.totalPenalty
  exact ⟨exactOf?_ne_undefined hv, exactOf?_ne_undefined hw⟩

/-- What a row declares when it tells its standing. -/
theorem Tells.declared {row : List (String × Json)} {s : Standing} (h : Tells row s) :
    ∃ d, DeclaredStanding.ofJson (.obj row) = .ok d ∧ d.standing? = some s := by
  obtain ⟨valid, feasible, hvalid, hfeasible, hfit⟩ := h.verdicts
  obtain ⟨v, hv, hhard⟩ := h.hardViolations
  obtain ⟨w, hw, htotal⟩ := h.totalPenalty
  refine ⟨{ fit := s.fit, hardViolations := v, totalPenalty := w, label := .str s.label }, ?_, ?_⟩
  · unfold DeclaredStanding.ofJson
    simp only [Json.required, hvalid, hfeasible, hv, hw, h.label, hfit, bind, Except.bind]
    cases valid.truthy <;> rfl
  · simp only [DeclaredStanding.standing?, hhard, htotal]
    rfl

end Standing

open Standing

theorem rankBy_eq {α : Type} (rows : List (Standing × α)) :
    rankBy rows = (sorted rows).mapIdx fun i p => (i + 1, p.2) := by
  rw [List.mapIdx_eq_zipIdx_map]
  rfl

theorem ranks_rankBy {α : Type} (rows : List (Standing × α)) :
    (rankBy rows).map (·.1) = List.range' 1 rows.length := by
  rw [rankBy_eq]
  refine List.ext_getElem (by simp [(sorted_perm rows).length_eq]) fun i _ _ => ?_
  simp [Nat.add_comm]

theorem map_rankBy {α : Type} (rows : List (Standing × α)) :
    (rankBy rows).map (·.2) = (sorted rows).map (·.2) := by
  rw [rankBy_eq]
  exact List.ext_getElem? fun i => by simp [Function.comp_def]

/-- The rows of a document. -/
def rowsJson (rows : List (Standing × List (String × Json))) : Json :=
  .arr (rows.map fun p => .obj p.2)

/-- Rows that tell their standings declare them, one by one. -/
theorem exists_declared {rows : List (Standing × List (String × Json))}
    (htold : ∀ p ∈ rows, Tells p.2 p.1) :
    ∃ ds : List (DeclaredStanding × Json),
      (rows.map fun p => Json.obj p.2).mapM
        (fun row => do Except.ok (← DeclaredStanding.ofJson row, row)) = .ok ds ∧
      ds.mapM (fun (d, row) => d.standing?.map (·, row)) =
        some (rows.map fun p => (p.1, Json.obj p.2)) := by
  induction rows with
  | nil => exact ⟨[], rfl, rfl⟩
  | cons p rest ih =>
    obtain ⟨hp, hrest⟩ := List.forall_mem_cons.mp htold
    obtain ⟨d, hd, hstanding⟩ := hp.declared
    obtain ⟨ds, hds, hstandings⟩ := ih hrest
    refine ⟨(d, .obj p.2) :: ds, ?_, ?_⟩
    · rw [List.map_cons, List.mapM_cons, hds, hd]
      rfl
    · rw [List.mapM_cons, hstandings]
      simp only [hstanding]
      rfl

theorem rankRows_eq {rows : List (Standing × List (String × Json))}
    (htold : ∀ p ∈ rows, Tells p.2 p.1) : rankRows (rowsJson rows) =
      .ok ((sorted rows).mapIdx fun i p => rankedRow (i + 1) p.2) := by
  obtain ⟨ds, hds, hstandings⟩ := exists_declared htold
  have hrows : sortRows ds = .ok ((sorted rows).map fun p => Json.obj p.2) := by
    rw [sortRows, hstandings]
    dsimp only
    rw [map_rankBy, sorted_map, List.map_map]
    rfl
  rw [rankRows, rowsJson, Json.listed]
  refine bind_eq_ok.mpr ⟨_, rfl, bind_eq_ok.mpr ⟨ds, hds, bind_eq_ok.mpr ⟨_, hrows, ?_⟩⟩⟩
  exact congrArg _ (List.mapIdx_eq_iff.mpr fun i => by simp [Json.members, Function.comp_def])

/-- A row without a rank of its own gets one in front. -/
theorem rankedRow_eq {row : List (String × Json)} (hkeys : ("rank" :: row.map (·.1)).Nodup)
    (rank : Nat) : rankedRow rank row = .obj (("rank", .int rank) :: row) := by
  have happend : Json.setMembers [("rank", .int rank)] row = [("rank", .int rank)] ++ row :=
    Json.setMembers_eq_append hkeys
  exact congrArg Json.obj happend

/-- Rows of a document in the order in which they are ranked. A row that has a rank of its own
keeps it. -/
structure IsRanking (rows order : List (Standing × List (String × Json))) : Prop where
  perm : order.Perm rows
  decided : order.Pairwise fun p q => p.1.Beats q.1
  ranked : ∀ others : List (Standing × List (String × Json)), others.Perm rows →
    rankRows (rowsJson others) = .ok (order.mapIdx fun i p => rankedRow (i + 1) p.2)
  ranks : ∀ p ∈ rows, ("rank" :: p.2.map (·.1)).Nodup →
    ∀ rank, rankedRow rank p.2 = .obj (("rank", .int rank) :: p.2)
  fit : ∀ best ∈ order.head?, ∀ p ∈ rows, p.1.fit = true → best.1.fit = true
  unled : ∀ best ∈ order.head?, ∀ p ∈ rows, ¬p.1.Leads best.1

theorem isRanking_sorted {rows : List (Standing × List (String × Json))}
    (htold : ∀ p ∈ rows, Tells p.2 p.1) (hlabels : (rows.map (·.1.label)).Nodup) :
    IsRanking rows (sorted rows) := by
  have hdecided : (sorted rows).Pairwise fun p q => p.1.Beats q.1 :=
    (pairwise_sorted hlabels).imp_of_mem fun {p q} _ hq hlt =>
      (beats_iff (htold q ((sorted_perm rows).mem_iff.mp hq)).defined).mpr hlt
  -- The head beats all rows but itself.
  have hhead : ∀ best ∈ (sorted rows).head?, ∀ p ∈ rows, p = best ∨ best.1.Beats p.1 := by
    intro best hbest p hp
    obtain ⟨rest, hrest⟩ := List.head?_eq_some_iff.mp hbest
    have hmem : p ∈ best :: rest := hrest ▸ (sorted_perm rows).mem_iff.mpr hp
    rw [hrest] at hdecided
    exact (List.mem_cons.mp hmem).imp_right fun hp => List.rel_of_pairwise_cons hdecided hp
  refine ⟨sorted_perm rows, hdecided, ?_, fun p _ hkeys => rankedRow_eq hkeys, ?_, ?_⟩
  · intro others hothers
    rw [rankRows_eq fun p hp => htold p (hothers.mem_iff.mp hp),
      sorted_eq_of_perm hlabels hothers]
  · intro best hbest p hp hfit
    rcases hhead best hbest p hp with rfl | hbeats
    · exact hfit
    · exact (hbeats.place_le hfit).1
  · intro best hbest p hp
    rcases hhead best hbest p hp with rfl | hbeats
    · exact not_leads_self _
    · exact hbeats.not_leads

namespace Report

theorem details_markPassed (r : Report) (check : String) :
    (r.markPassed check).details = r.details := by
  unfold markPassed
  split <;> rfl

theorem details_extend (r : Report) (errors warnings : List Entry) :
    (r.extend errors warnings).details = r.details :=
  r.details_addErrors errors

end Report

namespace ResultAudit

theorem details_noteIssues (index : Index) (timed : List String) (r : Report) :
    (noteIssues index timed r).details = r.details := by
  have hfold : ∀ issues : List Issue, ∀ r : Report,
      (issues.foldl (fun (report : Report) issue =>
        if isIssueError timed issue then report.addError (issueEntry issue)
        else report.addWarning (issueEntry issue)) r).details = r.details := by
    intro issues
    induction issues with
    | nil => exact fun _ => rfl
    | cons issue rest ih =>
      intro r
      rw [List.foldl_cons, ih]
      split <;> rfl
  exact hfold index.issues r

theorem detail_noteFeasible (document : Json) (r : Report) :
    (noteFeasible document r).details.lookup "feasible" = some (.bool (isFeasible document)) := by
  unfold noteFeasible
  cases isFeasible document <;>
    exact Json.lookup_setMembers_of_mem (by simp) List.mem_cons_self r.details

end ResultAudit

namespace Auditor

open ResultAudit

/-- What an audit of a document tells about feasibility is what the document says. -/
theorem detail_feasible {auditor : Auditor} {league document : Json} {report : Report}
    {audit : ResultAudit} (h : auditor.auditDocument league document report = .ok audit) :
    audit.report.detail "feasible" = .bool (isFeasible document) := by
  unfold auditDocument at h
  obtain ⟨index, -, h⟩ := bind_eq_ok.mp h
  obtain ⟨r, -, h⟩ := bind_eq_ok.mp h
  cases Except.ok.inj h
  have hkeys : "feasible" ∉ (details index r).map (·.1) := by simp [details]
  rw [Report.detail, Report.setDetails, Json.lookup_setMembers_of_notMem hkeys,
    details_noteIssues, Report.details_extend, Report.details_markPassed,
    Report.details_addErrors, detail_noteFeasible, Option.getD_some]

/-- A valid result is one that the solver calls feasible. -/
theorem feasible_of_valid {auditor : Auditor} {league raw : Json} {audit : ResultAudit}
    (h : auditor.auditResult league raw = .ok audit) (hvalid : audit.report.valid = true) :
    audit.report.detail "feasible" = .bool true := by
  have hcode : audit.report.exitCode = 0 := by simpa [Report.valid] using hvalid
  have hclean := (Report.clean_of_exitCode_eq_zero hcode).1
  rcases auditResult_eq_ok h with
    ⟨notes, errors, hbroken, herrors, -⟩ | ⟨checked, notes, hsound, index, r, hstaged⟩
  · exact absurd (List.map_eq_nil_iff.mp (herrors.symm.trans hclean))
      (errors_ne_nil_of_broken hbroken)
  · have hfeasible : audit.report.infeasible = false := by
      refine Bool.eq_false_iff.mpr fun hinfeasible => ?_
      have := audit.report.one_le_exitCode.mpr (.inl hinfeasible)
      omega
    rw [hstaged.infeasible, Bool.not_eq_false'] at hfeasible
    rw [auditResult, hsound] at h
    rw [detail_feasible h, hfeasible]

/-- A row tells of an audited result. -/
def RowOf (auditor : Auditor) (league : Json) (result : String × Json) (row : RankingRow) : Prop :=
  ∃ audit, auditor.withoutFixing.auditResult league result.2 = .ok audit ∧
    RankingRow.ofReport result.1 audit.report = .ok row

theorem compareResults_eq_ok {auditor : Auditor} {league : Json} {results : List (String × Json)}
    {c : Comparison} (h : auditor.compareResults league results = .ok c) :
    ∃ rows, List.Forall₂ (auditor.RowOf league) results rows ∧
      c.ranking = rankBy (rows.map fun row => (row.standing, row)) := by
  unfold compareResults compareAudits auditResults at h
  obtain ⟨reports, hreports, h⟩ := bind_eq_ok.mp h
  obtain ⟨rows, hrows, h⟩ := bind_eq_ok.mp h
  cases Except.ok.inj h
  refine ⟨rows, ?_, rfl⟩
  have hreported := List.forall₂_map_left_iff.mp (mapM_eq_ok.mp hreports)
  refine (forall₂_comp hreported (mapM_eq_ok.mp hrows)).imp ?_
  rintro result row ⟨labelled, hlabelled, hrow⟩
  obtain ⟨audit, haudit, hreport⟩ := bind_eq_ok.mp hlabelled
  cases Except.ok.inj hreport
  exact ⟨audit, haudit, hrow⟩

end Auditor

namespace RankingRow

theorem ofReport_eq_ok {label : String} {report : Report} {row : RankingRow}
    (h : ofReport label report = .ok row) : row.label = label ∧ row.valid = report.valid ∧
      row.feasible = (report.detail "feasible").truthy := by
  obtain ⟨total, -, h⟩ := bind_eq_ok.mp h
  cases Except.ok.inj h
  exact ⟨rfl, rfl, rfl⟩

/-- A row as a document tells its standing when its total is a number or an infinity. -/
theorem told_members {row : RankingRow} (h : row.totalPenalty.isNaN = false) :
    Standing.Tells row.members row.standing where
  verdicts := ⟨.bool row.valid, .bool row.feasible, rfl, rfl, rfl⟩
  hardViolations := ⟨.int row.hardViolations, rfl, rfl⟩
  totalPenalty := by
    have hvalue : Standing.exactOf? (.float row.totalPenalty) =
        some (.ofFloat row.totalPenalty) := if_neg (Bool.eq_false_iff.mp h)
    exact ⟨.float row.totalPenalty, rfl, hvalue⟩
  label := rfl

theorem nodup_keys_members (row : RankingRow) : ("rank" :: row.members.map (·.1)).Nodup := by
  simp [members]

/-- Rows as rows of a document. -/
def asRows (rows : List RankingRow) : List (Standing × List (String × Json)) :=
  rows.map fun row => (row.standing, row.members)

theorem sorted_map_standing {β : Type} (f : RankingRow → β) (rows : List RankingRow) :
    sorted (rows.map fun row => (row.standing, f row)) =
      (rows.mergeSort fun a b => a.standing.notAfter b.standing).map
        fun row => (row.standing, f row) :=
  (List.map_mergeSort (f := fun row : RankingRow => (row.standing, f row))
    fun _ _ _ _ => rfl).symm

theorem map_rankBy_standing (rows : List RankingRow) :
    (rankBy (rows.map fun row => (row.standing, row))).map (·.2) =
      rows.mergeSort fun a b => a.standing.notAfter b.standing := by
  rw [map_rankBy, sorted_map_standing fun row => row, List.map_map]
  exact List.map_id _

end RankingRow

open RankingRow

/-- What a comparison ranks: every audited result in one row, so that rows with numbers are ranked
as those of a document are, and a valid result is a feasible one. -/
structure RanksAudits (auditor : Auditor) (league : Json) (results : List (String × Json))
    (ranking : List (Nat × RankingRow)) : Prop where
  ranks : ranking.map (·.1) = List.range' 1 results.length
  numbered : ∀ p ∈ ranking, rankedRow p.1 p.2.members = .obj (("rank", .int p.1) :: p.2.members)
  audited : ∃ rows, List.Forall₂ (auditor.RowOf league) results rows ∧
    (ranking.map (·.2)).Perm rows
  asDocument : (results.map (·.1)).Nodup →
    (∀ p ∈ ranking, p.2.totalPenalty.isNaN = false) →
    IsRanking (asRows (ranking.map (·.2))) (asRows (ranking.map (·.2)))
  feasible : ∀ p ∈ ranking, p.2.valid = true → p.2.feasible = true

theorem isRanking_asRows {rows : List RankingRow} (hlabels : (rows.map (·.label)).Nodup)
    (hnumbers : ∀ row ∈ rows, row.totalPenalty.isNaN = false) :
    IsRanking (sorted (asRows rows)) (sorted (asRows rows)) := by
  have hsame : ((asRows rows).map (·.1.label)).Nodup := by
    rwa [asRows, List.map_map]
  have htold : ∀ p ∈ asRows rows, Tells p.2 p.1 := by
    intro p hp
    obtain ⟨row, hrow, rfl⟩ := List.mem_map.mp hp
    exact told_members (hnumbers row hrow)
  have hperm := sorted_perm (asRows rows)
  have h := isRanking_sorted (fun p hp => htold p (hperm.mem_iff.mp hp))
    ((hperm.map _).nodup_iff.mpr hsame)
  rwa [sorted_eq_of_perm hsame hperm] at h

theorem ranksAudits_of_compareResults {auditor : Auditor} {league : Json}
    {results : List (String × Json)} {c : Comparison}
    (h : auditor.compareResults league results = .ok c) :
    RanksAudits auditor league results c.ranking := by
  obtain ⟨rows, hrows, hranking⟩ := auditor.compareResults_eq_ok h
  have hsorted : c.ranking.map (·.2) =
      rows.mergeSort fun a b => a.standing.notAfter b.standing := by
    rw [hranking, map_rankBy_standing]
  have hperm : (c.ranking.map (·.2)).Perm rows := hsorted ▸ List.mergeSort_perm _ _
  refine ⟨?_, fun p _ => rankedRow_eq p.2.nodup_keys_members p.1, ⟨rows, hrows, hperm⟩,
    fun hdistinct hnumbers => ?_, fun p hp hvalid => ?_⟩
  · rw [hranking, ranks_rankBy, List.length_map, hrows.length_eq]
  · have hlabels : results.map (·.1) = rows.map (·.label) :=
      map_eq_map_of_forall₂ (hrows.imp fun _ _ ⟨_, _, hrow⟩ => (ofReport_eq_ok hrow).1.symm)
    have hnumbers' : ∀ row ∈ rows, row.totalPenalty.isNaN = false := fun row hrow => by
      obtain ⟨p, hp, rfl⟩ := List.mem_map.mp (hperm.mem_iff.mpr hrow)
      exact hnumbers p hp
    have hrows : asRows (c.ranking.map (·.2)) = sorted (asRows rows) := by
      rw [hsorted]
      exact (sorted_map_standing members rows).symm
    rw [hrows]
    exact isRanking_asRows (hlabels ▸ hdistinct) hnumbers'
  · obtain ⟨result, -, audit, haudit, hrow⟩ :=
      exists_left_of_forall₂ hrows (hperm.mem_iff.mp (List.mem_map_of_mem hp))
    obtain ⟨-, hvalid', hfeasible⟩ := RankingRow.ofReport_eq_ok hrow
    rw [hfeasible, Auditor.feasible_of_valid haudit (hvalid'.symm.trans hvalid)]
    rfl

end LeagueAudit
