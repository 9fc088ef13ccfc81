import LeagueAudit.Documents
import LeagueAudit.Proofs.Audit.Ranking
import LeagueAudit.Proofs.Files.Path
import LeagueAudit.Proofs.Json.Members
import LeagueAudit.Proofs.Outcome
import Mathlib.Data.List.Induction

/-!
Several documents. Each is known by its file name, or by its whole path when that name is taken; a
document is lost when its whole path is the name of one before it.
-/
namespace LeagueAudit

namespace Path

/-- A file name alone, when another path leads to a file of this name. -/
def Displaces (p q : Path) : Prop := p.text = p.name ∧ q.name = p.name

instance (p q : Path) : Decidable (p.Displaces q) := inferInstanceAs (Decidable (_ ∧ _))

end Path

namespace Documents

variable {files : Files} {kind : String} {content : Path → Json} {paths : List Path}
  {documents : List (String × Json)}

/-- Documents that were loaded from paths: every file name is taken, and only names and whole paths
of files that were loaded are. -/
structure Labelled (paths : List Path) (documents : List (String × Json)) : Prop where
  distinct : (documents.map (·.1)).Nodup
  taken : ∀ p ∈ paths, p.name ∈ documents.map (·.1)
  source : ∀ label ∈ documents.map (·.1), ∃ p ∈ paths, label = p.name ∨ label = p.text

theorem labelFor_eq (documents : List (String × Json)) (p : Path) :
    labelFor documents p = if p.name ∈ documents.map (·.1) then p.text else p.name := by
  simp only [labelFor, Json.isSome_lookup_iff]

/-- The label of one more document is taken when its path displaces an earlier one. -/
theorem Labelled.labelFor_mem_iff (h : Labelled paths documents) {p : Path}
    (hproper : ∀ q ∈ p :: paths, q.Proper) (hnew : p ∉ paths) :
    labelFor documents p ∈ documents.map (·.1) ↔ ∃ q ∈ paths, p.Displaces q := by
  obtain ⟨hp, hpaths⟩ := List.forall_mem_cons.mp hproper
  rw [labelFor_eq]
  split
  · next htaken =>
    constructor
    · intro hmem
      obtain ⟨q, hq, hname | htext⟩ := h.source _ hmem
      · have hbare := Path.text_eq_name hp (hpaths q hq) hname
        exact ⟨q, hq, hbare, hname.symm.trans hbare⟩
      · exact absurd (Path.text_inj hp (hpaths q hq) htext ▸ hq) hnew
    · rintro ⟨q, hq, hbare, -⟩
      rwa [hbare]
  · next hfree =>
    refine iff_of_false hfree ?_
    rintro ⟨q, hq, -, hname⟩
    exact hfree (hname ▸ h.taken q hq)

theorem Labelled.next (h : Labelled paths documents) (p : Path) (document : Json) :
    Labelled (paths ++ [p]) (Json.setMember (labelFor documents p) document documents) where
  distinct := Json.nodup_keys_setMember h.distinct
  taken := by
    intro q hq
    rw [Json.mem_keys_setMember_iff]
    rcases List.mem_append.mp hq with hq | hq
    · exact .inr (h.taken q hq)
    · obtain rfl := List.mem_singleton.mp hq
      rw [labelFor_eq]
      split
      · next htaken => exact .inr htaken
      · exact .inl rfl
  source := by
    intro label hlabel
    rcases Json.mem_keys_setMember_iff.mp hlabel with rfl | hlabel
    · refine ⟨p, by simp, ?_⟩
      rw [labelFor_eq]
      split
      · exact .inr rfl
      · exact .inl rfl
    · obtain ⟨q, hq, hsource⟩ := h.source label hlabel
      exact ⟨q, List.mem_append_left _ hq, hsource⟩

/-- No path displaces an earlier one. -/
def Undisplaced (paths : List Path) : Prop := paths.Pairwise fun q p => ¬p.Displaces q

instance (paths : List Path) : Decidable (Undisplaced paths) :=
  inferInstanceAs (Decidable (List.Pairwise _ _))

theorem undisplaced_append_singleton {p : Path} :
    Undisplaced (paths ++ [p]) ↔ Undisplaced paths ∧ ¬∃ q ∈ paths, p.Displaces q := by
  simp [Undisplaced, List.pairwise_append]

/-- What loading leads to: all documents are kept, or some are lost. -/
structure Loaded (content : Path → Json) (paths : List Path) (documents : List (String × Json)) :
    Prop extends Labelled paths documents where
  kept : Undisplaced paths → documents.map (·.2) = paths.map content
  lost : ¬Undisplaced paths → documents.length < paths.length

theorem Loaded.length_le (h : Loaded content paths documents) :
    documents.length ≤ paths.length := by
  by_cases hpaths : Undisplaced paths
  · simpa using (congrArg List.length (h.kept hpaths)).le
  · exact (h.lost hpaths).le

theorem Loaded.next (h : Loaded content paths documents) {p : Path}
    (hproper : ∀ q ∈ p :: paths, q.Proper) (hnew : p ∉ paths) :
    Loaded content (paths ++ [p])
      (Json.setMember (labelFor documents p) (content p) documents) where
  toLabelled := h.toLabelled.next p (content p)
  kept := by
    intro hkept
    obtain ⟨hpaths, hp⟩ := undisplaced_append_singleton.mp hkept
    rw [Json.setMember_of_notMem (mt (h.labelFor_mem_iff hproper hnew).mp hp), List.map_append,
      List.map_append, h.kept hpaths]
    rfl
  lost := by
    intro hlost
    have hle := h.length_le
    rw [List.length_append, List.length_singleton]
    by_cases hp : ∃ q ∈ paths, p.Displaces q
    · have hkeys := Json.map_fst_setMember_of_mem ((h.labelFor_mem_iff hproper hnew).mpr hp)
        (content p)
      have hlength := congrArg List.length hkeys
      rw [List.length_map, List.length_map] at hlength
      omega
    · have hpaths : ¬Undisplaced paths := fun hpaths =>
        hlost (undisplaced_append_singleton.mpr ⟨hpaths, hp⟩)
      have hlt := h.lost hpaths
      rw [Json.setMember_of_notMem (mt (h.labelFor_mem_iff hproper hnew).mp hp),
        List.length_append, List.length_singleton]
      omega

theorem exists_loadMany (hproper : ∀ p ∈ paths, p.Proper) (hdistinct : paths.Nodup)
    (hload : ∀ p ∈ paths, load files kind p = .ok (content p)) :
    ∃ documents, loadMany files kind paths = .ok documents ∧ Loaded content paths documents := by
  induction paths using List.reverseRecOn with
  | nil => exact ⟨[], rfl, ⟨⟨List.nodup_nil, by simp, by simp⟩, fun _ => rfl,
      fun h => absurd List.Pairwise.nil h⟩⟩
  | append_singleton paths p ih =>
    rw [List.nodup_append] at hdistinct
    have hnew : p ∉ paths := fun hp => hdistinct.2.2 p hp p List.mem_cons_self rfl
    obtain ⟨documents, hdocuments, hloaded⟩ := ih
      (fun q hq => hproper q (List.mem_append_left _ hq)) hdistinct.1
      (fun q hq => hload q (List.mem_append_left _ hq))
    refine ⟨_, ?_, hloaded.next (p := p) ?_ hnew⟩
    · rw [loadMany, List.foldlM_append]
      refine bind_eq_ok.mpr ⟨documents, hdocuments, ?_⟩
      rw [List.foldlM_cons, loadAll, hload p (by simp)]
      rfl
    · simpa [or_comm, forall_and] using hproper

/-- Readable documents at distinct paths are loaded under distinct labels. All of them are kept, in
the order of their paths, and a comparison ranks them all, exactly when no path is the file name
alone of an earlier one. -/
theorem keepsAll_iff_undisplaced {texts : List String}
    (hdistinct : (texts.map Path.ofText).Nodup)
    (hload : ∀ p ∈ texts.map Path.ofText, load files kind p = .ok (content p)) :
    ∃ documents, loadMany files kind (texts.map Path.ofText) = .ok documents ∧
      (documents.map (·.1)).Nodup ∧
      (documents.length = texts.length ↔ Undisplaced (texts.map Path.ofText)) ∧
      (documents.map (·.2) = (texts.map Path.ofText).map content ↔
        Undisplaced (texts.map Path.ofText)) ∧
      ∀ (auditor : Auditor) (league : Json) (c : Comparison),
        auditor.compareResults league documents = .ok c →
          (c.ranking.length = texts.length ↔ Undisplaced (texts.map Path.ofText)) := by
  have hproper : ∀ p ∈ texts.map Path.ofText, p.Proper := by
    intro p hp
    obtain ⟨text, -, rfl⟩ := List.mem_map.mp hp
    exact Path.proper_ofText text
  obtain ⟨documents, hdocuments, h⟩ := exists_loadMany hproper hdistinct hload
  have hlength : documents.length = texts.length ↔ Undisplaced (texts.map Path.ofText) := by
    constructor
    · intro hlength
      by_contra hlost
      have hlt := h.lost hlost
      rw [List.length_map] at hlt
      omega
    · intro hkept
      simpa using congrArg List.length (h.kept hkept)
  refine ⟨documents, hdocuments, h.distinct, hlength, ⟨fun hsame => ?_, h.kept⟩, ?_⟩
  · exact hlength.mp (by simpa using congrArg List.length hsame)
  · intro auditor league c hc
    have hranks := congrArg List.length (ranksAudits_of_compareResults hc).ranks
    rw [List.length_map, List.length_range'] at hranks
    rw [hranks, hlength]

/-- Two files of one name, in a folder and beside it. -/
def sameNames : Files where
  entries := [(.ofText "a/x.json", .file "\x7b\"n\": 2\x7d".toUTF8.data.toList),
    (.ofText "x.json", .file "\x7b\"n\": 1\x7d".toUTF8.data.toList)]

/-- The document in one of them. -/
def counted (p : Path) : Json := .obj [("n", .int p.parts.length)]

theorem load_sameNames : ∀ p ∈ ["a/x.json", "x.json"].map Path.ofText,
    load sameNames "result" p = .ok (counted p) := by
  have hfolder : load sameNames "result" (.ofText "a/x.json") =
      .ok (counted (.ofText "a/x.json")) := rfl
  have hbeside : load sameNames "result" (.ofText "x.json") =
      .ok (counted (.ofText "x.json")) := rfl
  simpa using ⟨hfolder, hbeside⟩

theorem keepsAll_iff_undisplaced_sameNames :
    ∃ documents, loadMany sameNames "result" (["a/x.json", "x.json"].map Path.ofText) =
        .ok documents ∧ documents.length ≠ 2 := by
  have hdistinct : (["a/x.json", "x.json"].map Path.ofText).Nodup := by decide
  obtain ⟨documents, hdocuments, -, hlength, -⟩ :=
    keepsAll_iff_undisplaced hdistinct load_sameNames
  exact ⟨documents, hdocuments, mt hlength.mp (by decide)⟩

/-- The document at the second of two paths takes the place of the first one. -/
theorem loadMany_sameNames :
    (["a/x.json", "x.json"].map Path.ofText).Nodup ∧
    (∀ p ∈ ["a/x.json", "x.json"].map Path.ofText,
      load sameNames "result" p = .ok (counted p)) ∧
    loadMany sameNames "result" (["a/x.json", "x.json"].map Path.ofText) =
      .ok [("x.json", counted (.ofText "x.json"))] :=
  ⟨by decide, load_sameNames, rfl⟩

end Documents
end LeagueAudit
