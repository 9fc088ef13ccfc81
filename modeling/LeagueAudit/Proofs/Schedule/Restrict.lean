import LeagueAudit.Proofs.Schedule.Grouping
import LeagueAudit.Selector.Scope

/-!
What a restricted index still holds: some of the assignments and the documents of the fixtures that
remain. Every group of games in it is part of a group there was before, in the same order.
-/
namespace LeagueAudit

section Sorting

variable {α : Type} {le : α → α → Bool}

/-- One more item parts the others into those before it and those behind it. -/
theorem mergeSort_cons_eq (trans : ∀ a b c, le a b = true → le b c = true → le a c = true)
    (total : ∀ a b, (le a b || le b a) = true) (a : α) (xs : List α) :
    (a :: xs).mergeSort le =
      (xs.mergeSort le).filter (fun b => !le a b) ++ a :: (xs.mergeSort le).filter (le a) := by
  obtain ⟨before, behind, hsorted, hrest, hbefore⟩ := List.mergeSort_cons trans total a xs
  have hpairs := List.pairwise_mergeSort trans total (a :: xs)
  rw [hsorted, List.pairwise_append, List.pairwise_cons] at hpairs
  have hbehind : ∀ b ∈ behind, le a b = true := hpairs.2.1.1
  have hkept : before.filter (fun b => !le a b) = before := List.filter_eq_self.mpr hbefore
  have hnone : behind.filter (fun b => !le a b) = [] :=
    List.filter_eq_nil_iff.mpr fun b hb => by simp [hbehind b hb]
  have hnone' : before.filter (le a) = [] :=
    List.filter_eq_nil_iff.mpr fun b hb => by simpa using hbefore b hb
  have hkept' : behind.filter (le a) = behind := List.filter_eq_self.mpr hbehind
  rw [hsorted, hrest, List.filter_append, List.filter_append, hkept, hnone, hnone', hkept',
    List.append_nil, List.nil_append]

/-- Sorting keeps the order of what is left when items are taken out. -/
theorem mergeSort_sublist (trans : ∀ a b c, le a b = true → le b c = true → le a c = true)
    (total : ∀ a b, (le a b || le b a) = true) {xs ys : List α} (h : xs.Sublist ys) :
    (xs.mergeSort le).Sublist (ys.mergeSort le) := by
  induction h with
  | slnil => exact .refl _
  | @cons xs ys a hrest ih =>
    obtain ⟨before, behind, hsorted, hsplit, -⟩ := List.mergeSort_cons trans total a ys
    rw [hsorted]
    rw [hsplit] at ih
    exact ih.trans ((List.sublist_cons_self a behind).append_left before)
  | @cons_cons xs ys a hrest ih =>
    rw [mergeSort_cons_eq trans total, mergeSort_cons_eq trans total]
    exact (ih.filter _).append ((ih.filter _).cons_cons a)

end Sorting

theorem inOrder_sublist {games more : List Game} (h : games.Sublist more) :
    (inOrder games).Sublist (inOrder more) :=
  mergeSort_sublist Game.before_trans Game.before_total h

section Groups

variable {κ : Type} [BEq κ] {items more : List (κ × Game)}

theorem pairwise_of_mem_groupGames {group : κ × List Game} (h : group ∈ groupGames items) :
    group.2.Pairwise fun a b => a.start ≤ b.start := by
  obtain ⟨⟨key, games⟩, -, rfl⟩ := List.mem_map.mp h
  exact pairwise_inOrder games

theorem valuesOf_sublist (h : items.Sublist more) (key : κ) :
    (valuesOf key items).Sublist (valuesOf key more) :=
  (h.filter _).map _

/-- Each group is part of the one of the same key among more items. -/
theorem groupGames_sublist [LawfulBEq κ] (h : items.Sublist more) {group : κ × List Game}
    (hgroup : group ∈ groupGames items) :
    ∃ games, (group.1, games) ∈ groupGames more ∧ group.2.Sublist games := by
  rw [groupGames_eq, List.mem_map] at hgroup
  obtain ⟨key, hkey, rfl⟩ := hgroup
  rw [(keys_grouped items).2] at hkey
  have hkey' : key ∈ (grouped more).map (·.1) :=
    ((keys_grouped more).2 key).mpr ((h.map _).subset hkey)
  refine ⟨inOrder (valuesOf key more), ?_, inOrder_sublist (valuesOf_sublist h key)⟩
  rw [groupGames_eq]
  exact List.mem_map_of_mem hkey'

end Groups

namespace Index

variable (index : Index) (teams venues fixtures : Option (List String))

/-- The ids of the fixtures whose assignments remain. -/
def remaining : List String := fixtures.getD index.fixtures.ids

theorem assignments_restrict : (index.restrict teams venues fixtures).assignments =
    index.assignments.filter fun a => (index.remaining fixtures).contains a.fixture := rfl

variable {index teams venues fixtures}

theorem mem_of_mem_restrict {a : Assignment}
    (h : a ∈ (index.restrict teams venues fixtures).assignments) :
    a ∈ index.assignments ∧ a.fixture ∈ index.remaining fixtures := by
  rw [assignments_restrict, List.mem_filter, List.contains_iff_mem] at h
  exact h

theorem lookup_keep {es : Entities} {ids : List String} {id : String} (h : id ∈ ids) :
    (keep es (some ids)).lookup id = es.lookup id := by
  induction es with
  | nil => rfl
  | cons e es ih =>
    obtain ⟨k, doc⟩ := e
    simp only [keep, List.filter_cons] at ih ⊢
    by_cases hid : id = k
    · subst hid
      simp [h]
    · have hb : (id == k) = false := by simpa using hid
      split
      · simp only [List.lookup_cons, hb]
        exact ih
      · simp only [List.lookup_cons, hb]
        exact ih

/-- The document of a fixture that remains is the one it had. -/
theorem fixture?_restrict {id : String} (h : id ∈ index.remaining fixtures) :
    (index.restrict teams venues fixtures).fixture? id = index.fixture? id := by
  cases fixtures with
  | none => rfl
  | some ids => exact lookup_keep h

theorem participants_restrict {id : String} (h : id ∈ index.remaining fixtures) :
    (index.restrict teams venues fixtures).participants id = index.participants id := by
  rw [participants, fixture?_restrict h, participants]

/-- A declared fixture that remains is declared still. -/
theorem mem_ids_restrict {id : String} (hdeclared : id ∈ index.fixtures.ids)
    (h : id ∈ index.remaining fixtures) :
    id ∈ (index.restrict teams venues fixtures).fixtures.ids := by
  cases fixtures with
  | none => exact hdeclared
  | some ids =>
    obtain ⟨e, he, rfl⟩ := List.mem_map.mp hdeclared
    refine List.mem_map_of_mem (List.mem_filter.mpr ⟨he, ?_⟩)
    exact List.contains_iff_mem.mpr h

theorem mem_union {xs ys : List String} {x : String} : x ∈ union xs ys ↔ x ∈ xs ∨ x ∈ ys := by
  unfold union
  by_cases h : x ∈ xs <;> simp [h]

theorem teamInScope_of_restrict {team : String}
    (h : (index.restrict teams venues fixtures).teamInScope team = true) :
    index.teamInScope team = true := by
  simp only [teamInScope, Bool.not_eq_true', List.contains_eq_mem, decide_eq_false_iff_not] at h ⊢
  exact fun hout => h (mem_union.mpr (.inl hout))

theorem venueInScope_of_restrict {venue : Option String}
    (h : (index.restrict teams venues fixtures).venueInScope venue = true) :
    index.venueInScope venue = true := by
  cases venue with
  | none => rfl
  | some v =>
    simp only [venueInScope, Bool.not_eq_true', List.contains_eq_mem,
      decide_eq_false_iff_not] at h ⊢
    exact fun hout => h (mem_union.mpr (.inl hout))

/-- A scope is the whole index or a restriction of it. -/
theorem scope_eq_ok {s : Selector} {scope : Index} (h : index.scope s = .ok scope) :
    scope = index ∨ ∃ teams venues fixtures, scope = index.restrict teams venues fixtures := by
  have hnormal : ∀ s, index.scopeNormal s = .ok scope →
      ∃ teams venues fixtures, scope = index.restrict teams venues fixtures := by
    intro s h
    obtain ⟨teamPart, -, h⟩ := bind_eq_ok.mp h
    obtain ⟨teams, -, h⟩ := bind_eq_ok.mp h
    obtain ⟨venuePart, -, h⟩ := bind_eq_ok.mp h
    obtain ⟨venues, -, h⟩ := bind_eq_ok.mp h
    obtain ⟨fixtures, -, h⟩ := bind_eq_ok.mp h
    exact ⟨teams, venues, some fixtures, (Except.ok.inj h).symm⟩
  have hkind : ∀ kind inner, index.scopeKind kind inner = .ok scope →
      ∃ teams venues fixtures, scope = index.restrict teams venues fixtures := by
    intro kind inner h
    obtain ⟨ids, -, h⟩ := bind_eq_ok.mp h
    cases kind with
    | team =>
      obtain ⟨fixtures, -, h⟩ := bind_eq_ok.mp h
      exact ⟨_, _, _, (Except.ok.inj h).symm⟩
    | venue => exact ⟨_, _, _, (Except.ok.inj h).symm⟩
    | fixture => exact ⟨_, _, _, (Except.ok.inj h).symm⟩
  cases s with
  | wildcard => exact .inl (Except.ok.inj h).symm
  | entityScope kind inner => exact .inr (hkind kind inner h)
  | allOf children => exact .inr (hnormal _ h)
  | anyOf children => exact .inr (hnormal _ h)
  | not child => exact .inr (hnormal _ h)
  | leaf criterion => exact .inr (hnormal _ h)

/-- An assignment in scope is one of the index, and its fixture is in scope when it is declared. -/
theorem mem_of_scope {s : Selector} {scope : Index} (h : index.scope s = .ok scope)
    {a : Assignment} (ha : a ∈ scope.assignments) :
    a ∈ index.assignments ∧
      (a.fixture ∈ index.fixtures.ids → a.fixture ∈ scope.fixtures.ids) := by
  rcases scope_eq_ok h with rfl | ⟨teams, venues, fixtures, rfl⟩
  · exact ⟨ha, fun hdeclared => hdeclared⟩
  · obtain ⟨hmem, hfixture⟩ := mem_of_mem_restrict ha
    exact ⟨hmem, fun hdeclared => mem_ids_restrict hdeclared hfixture⟩

end Index

theorem participantGames_restrict {index : Index} {teams venues fixtures : Option (List String)}
    {a : Assignment} (ha : a.fixture ∈ index.remaining fixtures) {games : List (String × Game)}
    (h : participantGames index a = .ok games) :
    ∃ kept, participantGames (index.restrict teams venues fixtures) a = .ok kept ∧
      kept.Sublist games := by
  unfold participantGames at h ⊢
  cases hspan : a.span? with
  | none =>
    rw [hspan] at h
    exact ⟨[], rfl, List.nil_sublist _⟩
  | some span =>
    rw [hspan] at h
    obtain ⟨participants, hparticipants, h⟩ := bind_eq_ok.mp h
    cases Except.ok.inj h
    rw [Index.participants_restrict ha, hparticipants]
    refine ⟨_, rfl, List.Sublist.map _ ?_⟩
    exact List.monotone_filter_right _ fun team => Index.teamInScope_of_restrict

/-- When the games of teams can be read, those of a restricted index can. Each team plays part of
the games that it played. -/
theorem teamGames_restrict {index : Index} {groups : List (String × List Game)}
    (h : teamGames index = .ok groups) (teams venues fixtures : Option (List String)) :
    ∃ kept, teamGames (index.restrict teams venues fixtures) = .ok kept ∧
      ∀ group ∈ kept, ∃ games, (group.1, games) ∈ groups ∧ group.2.Sublist games ∧
        games.Pairwise fun a b => a.start ≤ b.start := by
  obtain ⟨items, hitems, h⟩ := bind_eq_ok.mp h
  cases Except.ok.inj h
  obtain ⟨rest, hrest, hsub⟩ := mapM_filter_sublist
    (g := participantGames (index.restrict teams venues fixtures)) hitems fun a _ ha games hgames =>
      participantGames_restrict (List.contains_iff_mem.mp ha) hgames
  refine ⟨groupGames rest.flatten, ?_, fun group hgroup => ?_⟩
  · exact bind_eq_ok.mpr ⟨rest, hrest, rfl⟩
  · obtain ⟨games, hgames, hpart⟩ := groupGames_sublist hsub hgroup
    exact ⟨games, hgames, hpart, pairwise_of_mem_groupGames hgames⟩

end LeagueAudit
