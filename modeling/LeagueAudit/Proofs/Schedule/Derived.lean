import LeagueAudit.Proofs.Selector.DateRange

/-!
The indexes that can come up: those that are built from documents, and their parts. Their
assignments carry what the clocks of the league show.
-/
namespace LeagueAudit

/-- The assignment carries what the clocks of a zone show at its start. -/
structure Assignment.OnClocks (z : Zone) (a : Assignment) : Prop where
  shown : ∀ ms, a.start = some ms → ∃ parts, localParts z ms = .ok parts ∧ a.parts = some parts
  unknown : a.start = none → a.parts = none

namespace Index

/-- An index that was built, or a part of one. -/
inductive Derived : Index → Prop where
  | built {default : Minutes} {fallback : String} {league result : Json} {index : Index} :
      build default fallback league result = .ok index → Derived index
  | restricted {index : Index} (teams venues fixtures : Option (List String)) :
      Derived index → Derived (index.restrict teams venues fixtures)

variable {index part : Index}

theorem Derived.scope (h : index.Derived) {s : Selector} (hscope : index.scope s = .ok part) :
    part.Derived := by
  rcases scope_eq_ok hscope with rfl | ⟨teams, venues, fixtures, rfl⟩
  · exact h
  · exact .restricted teams venues fixtures h

theorem onClocks_of_annotate {z : Zone} {default : Minutes} {fixtures : Entities} {position : Nat}
    {raw : Json} {q : Assignment × List Issue}
    (h : annotate z default fixtures position raw = .ok q) : q.1.OnClocks z := by
  unfold annotate at h
  obtain ⟨finish, -, h⟩ := bind_eq_ok.mp h
  dsimp only at h
  split at h
  · next ms hstart =>
    obtain ⟨clocks, hclocks, h⟩ := bind_eq_ok.mp h
    obtain ⟨parts, hparts, h⟩ := bind_eq_ok.mp h
    cases Except.ok.inj h
    cases Except.ok.inj hparts
    refine ⟨fun s hs => ⟨clocks, ?_, rfl⟩, fun hnone => ?_⟩
    · rw [hstart] at hs
      rwa [← Option.some.inj hs]
    · rw [hstart] at hnone
      cases hnone
  · next hstart =>
    obtain ⟨parts, hparts, h⟩ := bind_eq_ok.mp h
    cases Except.ok.inj h
    cases Except.ok.inj hparts
    refine ⟨fun s hs => ?_, fun _ => rfl⟩
    rw [hstart] at hs
    cases hs

theorem onClocks_of_annotateAll {z : Zone} {default : Minutes} {fixtures : Entities}
    {position : Nat} {entries : List Json} {found : List Assignment × List Issue}
    (h : annotateAll z default fixtures position entries = .ok found) :
    ∀ a ∈ found.1, a.OnClocks z := by
  induction entries generalizing position found with
  | nil =>
    cases Except.ok.inj h
    exact nofun
  | cons entry rest ih =>
    rw [annotateAll] at h
    split at h
    · obtain ⟨q, hq, h⟩ := bind_eq_ok.mp h
      obtain ⟨more, hmore, h⟩ := bind_eq_ok.mp h
      cases Except.ok.inj h
      exact List.forall_mem_cons.mpr ⟨onClocks_of_annotate hq, ih hmore⟩
    · obtain ⟨more, hmore, h⟩ := bind_eq_ok.mp h
      cases Except.ok.inj h
      exact fun a => ih hmore a

theorem Derived.onClocks (h : index.Derived) : ∀ a ∈ index.assignments, a.OnClocks index.zone := by
  induction h with
  | built hbuild =>
    obtain ⟨minutes, aside, issues, -, hread, -⟩ := (assembled_of_build hbuild).read
    exact onClocks_of_annotateAll hread
  | restricted teams venues fixtures h ih => exact fun a ha => ih a (mem_of_mem_restrict ha).1

theorem Derived.readsClocks (h : index.Derived) : index.ReadsClocks := by
  induction h with
  | built hbuild => exact readsClocks_of_build hbuild
  | restricted teams venues fixtures h ih =>
    exact ⟨ih.spares, fun a ha => ih.shown a (mem_of_mem_restrict ha).1⟩

end Index
end LeagueAudit
