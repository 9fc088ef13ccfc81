import LeagueAudit.Proofs.Selector.Meaning
import LeagueAudit.Proofs.Selector.Reading

/-!
Which entities a scope keeps. Teams and venues are kept when they meet what a selector demands of
their kind, fixtures when one of their participants sees the selector hold. So scopes of
conjunctions, alternatives and negations are put together from the scopes of their parts.
-/
namespace LeagueAudit.Index

open Selector

/-- A fixture as it is seen, or by itself when its participants cannot be read. -/
def views (index : Index) (fixture : String) (doc : Json) : List Candidate :=
  (index.fixtureCandidates fixture doc).toOption.getD [{ kind := .fixture, entity := doc }]

/-- An entity of a kind is what a selector is about. -/
def Suits (index : Index) (s : Selector) (kind : EntityKind) (id : String) (doc : Json) : Prop :=
  if kind = .fixture then
    ∃ c ∈ index.views id doc, truth c.kind (holdsOf index.zone c) s = true
  else
    admits kind (restrictsOf index kind) (holdsOf index.zone { kind, entity := doc }) false s = true

variable {index part : Index} {s : Selector} {kind : EntityKind} {id : String} {doc : Json}

theorem views_ne_nil (index : Index) (fixture : String) (doc : Json) :
    index.views fixture doc ≠ [] := by
  unfold views
  cases h : index.fixtureCandidates fixture doc with
  | error f => simp [Except.toOption]
  | ok candidates =>
    obtain ⟨participants, -, h⟩ := bind_eq_ok.mp h
    cases participants with
    | nil =>
      rw [← Except.ok.inj h]
      simp [Except.toOption]
    | cons first rest =>
      rw [← Except.ok.inj h]
      simp [Except.toOption]

theorem conjunctive_truth (kind : EntityKind) (holds : Leaf → Bool) :
    Conjunctive (truth kind holds) := by
  refine ⟨rfl, fun children => ?_⟩
  rw [truth, truthAll_eq]

theorem conjunctive_admits (kind : EntityKind) (restricts holds : Leaf → Bool) :
    Conjunctive (admits kind restricts holds false) := by
  refine ⟨rfl, fun children => ?_⟩
  rw [admits, if_neg Bool.false_ne_true, admitsAll_eq]

theorem suits_anyOf (children : List Selector) :
    index.Suits (anyOf children) kind id doc ↔ ∃ s ∈ children, index.Suits s kind id doc := by
  unfold Suits
  split
  · simp only [truth, truthAny_eq, List.any_eq_true]
    constructor
    · rintro ⟨c, hc, s, hs, h⟩
      exact ⟨s, hs, c, hc, h⟩
    · rintro ⟨s, hs, c, hc, h⟩
      exact ⟨c, hc, s, hs, h⟩
  · simp only [admits, Bool.false_eq_true, if_false, admitsAny_eq, List.any_eq_true]

theorem suits_of_suits_allOf {children : List Selector}
    (h : index.Suits (allOf children) kind id doc) : ∀ s ∈ children, index.Suits s kind id doc := by
  unfold Suits at h ⊢
  intro s hs
  split at h
  · next hkind =>
    obtain ⟨c, hc, hall⟩ := h
    rw [(conjunctive_truth _ _).allOf, List.all_eq_true] at hall
    rw [if_pos hkind]
    exact ⟨c, hc, hall s hs⟩
  · next hkind =>
    rw [(conjunctive_admits _ _ _).allOf, List.all_eq_true] at h
    rw [if_neg hkind]
    exact h s hs

theorem suits_allOf (hkind : kind ≠ .fixture) (children : List Selector) :
    index.Suits (allOf children) kind id doc ↔ ∀ s ∈ children, index.Suits s kind id doc := by
  refine ⟨suits_of_suits_allOf, fun hall => ?_⟩
  unfold Suits at hall ⊢
  simp only [if_neg hkind] at hall ⊢
  rw [(conjunctive_admits _ _ _).allOf, List.all_eq_true]
  exact hall

theorem suits_or_suits_not (index : Index) (s : Selector) (kind : EntityKind) (id : String)
    (doc : Json) : index.Suits s kind id doc ∨ index.Suits (not s) kind id doc := by
  unfold Suits
  split
  · obtain ⟨c, hc⟩ := List.exists_mem_of_ne_nil _ (views_ne_nil index id doc)
    cases htruth : truth c.kind (holdsOf index.zone c) s with
    | true => exact .inl ⟨c, hc, htruth⟩
    | false => exact .inr ⟨c, hc, by rw [truth, htruth]; rfl⟩
  · rw [← Bool.or_eq_true, admits]
    exact admits_or_admits_not s

/-- Selectors that every way of judging conjunctions takes for the same suit the same entities. -/
theorem suits_congr {s' : Selector}
    (h : ∀ judge : Selector → Bool, Conjunctive judge → judge s = judge s') :
    index.Suits s kind id doc ↔ index.Suits s' kind id doc := by
  unfold Suits
  split
  · refine exists_congr fun c => and_congr_right fun _ => ?_
    rw [h _ (conjunctive_truth _ _)]
  · rw [h _ (conjunctive_admits _ _ _)]

theorem suits_object {path : String} {members criteria : List (String × Json)}
    {singles : List Selector} (hkeys : (members.map (·.1)).Nodup)
    (hcriteria : criteria.Perm members) (hs : readNode path (.obj members) = .ok s)
    (hsingles : List.Forall₂ (fun member single => ReadsAsPart (.obj [member]) single)
      criteria singles) :
    index.Suits s kind id doc ↔ index.Suits (allOf singles) kind id doc := by
  refine suits_congr fun judge hjudge => ?_
  rw [hjudge.allOf]
  exact hjudge.singles hkeys hcriteria hs hsingles

theorem mem_ids {entities : Entities} : id ∈ entities.ids ↔ ∃ doc, (id, doc) ∈ entities := by
  unfold Entities.ids
  simp

theorem idsWhere_eq_ok {entities : Entities} {test : String → Json → Except Fault Bool}
    {ids : List String} (h : idsWhere entities test = .ok ids) :
    (∀ id doc, (id, doc) ∈ entities → ∃ b, test id doc = .ok b) ∧
      ∀ id, id ∈ ids ↔ ∃ doc, (id, doc) ∈ entities ∧ saysYes (test id doc) = true := by
  obtain ⟨kept, hkept, h⟩ := bind_eq_ok.mp h
  obtain ⟨hdecided, rfl⟩ := filterM_eq_ok.mp hkept
  refine ⟨fun id doc hmem => hdecided (id, doc) hmem, fun id => ?_⟩
  rw [← Except.ok.inj h, mem_ids]
  simp only [List.mem_filter]

theorem mem_keep {entities : Entities} {ids : List String} :
    id ∈ (keep entities (some ids)).ids ↔ id ∈ entities.ids ∧ id ∈ ids := by
  unfold keep
  rw [mem_ids, mem_ids]
  simp

theorem mem_select {rest : Option Selector} {ids : Option (List String)}
    (h : index.select kind rest = .ok ids) :
    id ∈ (keep (index.entities kind) ids).ids ↔ ∃ doc, (id, doc) ∈ index.entities kind ∧
      demands kind (holdsOf index.zone { kind, entity := doc }) rest = true := by
  cases rest with
  | none =>
    cases Except.ok.inj h
    simp [keep, mem_ids, demands]
  | some s =>
    obtain ⟨found, hfound, h⟩ := bind_eq_ok.mp h
    obtain ⟨hdecided, hids⟩ := idsWhere_eq_ok hfound
    have htruth : ∀ doc, (id, doc) ∈ index.entities kind →
        saysYes (s.matchesOne index.zone { kind, entity := doc }) =
          demands kind (holdsOf index.zone { kind, entity := doc }) (some s) := by
      intro doc hmem
      obtain ⟨b, hb⟩ := hdecided id doc hmem
      rw [hb, saysYes_ok, matchesOne_eq_ok s hb]
      rfl
    rw [← Except.ok.inj h, mem_keep, hids, and_iff_right_of_imp]
    · exact exists_congr fun doc => and_congr_right fun hmem => by rw [htruth doc hmem]
    · rintro ⟨doc, hmem, -⟩
      exact mem_ids.mpr ⟨doc, hmem⟩

theorem someMatches_eq_ok {z : Zone} {candidates : List Candidate} {b : Bool}
    (h : someMatches z s candidates = .ok b) :
    b = candidates.any fun c => truth c.kind (holdsOf z c) s := by
  induction candidates generalizing b with
  | nil => exact (Except.ok.inj h).symm
  | cons c rest ih =>
    obtain ⟨first, hfirst, h⟩ := bind_eq_ok.mp h
    rw [List.any_cons, ← matchesOne_eq_ok s hfirst]
    cases first with
    | true => exact (Except.ok.inj h).symm
    | false => exact ih h

theorem scope_eq_scopeNormal (hwildcard : s ≠ wildcard)
    (hscope : ∀ kind inner, s ≠ entityScope kind inner) :
    index.scope s = index.scopeNormal (normal false s) := by
  cases s with
  | wildcard => exact absurd rfl hwildcard
  | entityScope kind inner => exact absurd rfl (hscope kind inner)
  | _ => rfl

/-- A scope keeps the entities that suit its selector. -/
theorem mem_scope (hscope : ∀ kind inner, s ≠ entityScope kind inner)
    (h : index.scope s = .ok part) (kind : EntityKind) (id : String) :
    id ∈ (part.entities kind).ids ↔
      ∃ doc, (id, doc) ∈ index.entities kind ∧ index.Suits s kind id doc := by
  by_cases hwildcard : s = wildcard
  · subst hwildcard
    cases Except.ok.inj h
    have hsuits : ∀ doc, index.Suits wildcard kind id doc := by
      intro doc
      unfold Suits
      split
      · obtain ⟨c, hc⟩ := List.exists_mem_of_ne_nil _ (views_ne_nil index id doc)
        exact ⟨c, hc, rfl⟩
      · rfl
    simp [mem_ids, hsuits]
  · rw [scope_eq_scopeNormal hwildcard hscope] at h
    obtain ⟨teamPart, hteamPart, h⟩ := bind_eq_ok.mp h
    obtain ⟨teams, hteams, h⟩ := bind_eq_ok.mp h
    obtain ⟨venuePart, hvenuePart, h⟩ := bind_eq_ok.mp h
    obtain ⟨venues, hvenues, h⟩ := bind_eq_ok.mp h
    obtain ⟨fixtures, hfixtures, h⟩ := bind_eq_ok.mp h
    cases Except.ok.inj h
    cases kind with
    | team =>
      refine (mem_select hteams).trans (exists_congr fun doc => and_congr_right fun _ => ?_)
      rw [demands_project s hteamPart]
      rfl
    | venue =>
      refine (mem_select hvenues).trans (exists_congr fun doc => and_congr_right fun _ => ?_)
      rw [demands_project s hvenuePart]
      rfl
    | fixture =>
      obtain ⟨hdecided, hids⟩ := idsWhere_eq_ok hfixtures
      have hkept : ∀ doc, (id, doc) ∈ index.fixtures →
          (saysYes (index.fixtureCandidates id doc >>= someMatches index.zone (normal false s)) =
            true ↔ index.Suits s .fixture id doc) := by
        intro doc hmem
        obtain ⟨b, hb⟩ := hdecided id doc hmem
        obtain ⟨candidates, hcandidates, hmatch⟩ := bind_eq_ok.mp hb
        have hviews : index.views id doc = candidates := by
          unfold views
          rw [hcandidates]
          rfl
        unfold Suits
        rw [hb, saysYes_ok, someMatches_eq_ok hmatch, if_pos rfl, hviews, List.any_eq_true]
        simp only [truth_normal, Bool.bne_false]
      refine (mem_keep.trans (and_congr_right fun _ => hids id)).trans ?_
      rw [and_iff_right_of_imp]
      · exact exists_congr fun doc => and_congr_right fun hmem => hkept doc hmem
      · rintro ⟨doc, hmem, -⟩
        exact mem_ids.mpr ⟨doc, hmem⟩

end LeagueAudit.Index
