import LeagueAudit.Proofs.Outcome
import LeagueAudit.Rule.Overlap

/-!
The sweep over games in order of start finds every overlap: games that start after the first one has
ended cannot meet it, and games of different keys are never compared.
-/
namespace LeagueAudit

namespace Game

theorem before_iff {a b : Game} :
    a.before b = true ↔ a.start < b.start ∨ a.start = b.start ∧ a.fixture ≤ b.fixture := by
  simp [before]

theorem before_trans (a b c : Game) (hab : a.before b = true) (hbc : b.before c = true) :
    a.before c = true := by
  rw [before_iff] at hab hbc ⊢
  rcases hab with hab | ⟨hab, hfab⟩ <;> rcases hbc with hbc | ⟨hbc, hfbc⟩
  · exact .inl (by omega)
  · exact .inl (by omega)
  · exact .inl (by omega)
  · exact .inr ⟨hab.trans hbc, String.le_trans hfab hfbc⟩

theorem before_total (a b : Game) : (a.before b || b.before a) = true := by
  rw [Bool.or_eq_true, before_iff, before_iff]
  rcases Int.lt_trichotomy a.start b.start with h | h | h
  · exact .inl (.inl h)
  · rcases String.le_total a.fixture b.fixture with hf | hf
    · exact .inl (.inr ⟨h, hf⟩)
    · exact .inr (.inr ⟨h.symm, hf⟩)
  · exact .inr (.inl h)

theorem start_le_of_before {a b : Game} (h : a.before b = true) : a.start ≤ b.start := by
  rw [before_iff] at h
  omega

end Game

theorem inOrder_perm (games : List Game) : (inOrder games).Perm games :=
  List.mergeSort_perm games Game.before

theorem pairwise_inOrder (games : List Game) :
    (inOrder games).Pairwise fun a b => a.start ≤ b.start :=
  (List.pairwise_mergeSort Game.before_trans Game.before_total games).imp
    Game.start_le_of_before

/-- In order of start, nothing behind the end of the first game can overlap it. -/
theorem overlapping_eq_filter {first : Game} {later : List Game}
    (sorted : later.Pairwise fun a b => a.start ≤ b.start) :
    overlapping first later = later.filter first.overlaps := by
  induction later with
  | nil => rfl
  | cons next rest ih =>
    obtain ⟨hnext, hrest⟩ := List.pairwise_cons.mp sorted
    rw [overlapping, List.takeWhile_cons]
    split
    · rw [List.filter_cons, List.filter_cons]
      rw [overlapping] at ih
      rw [ih hrest]
    · next hlate =>
      have hlate : first.finish ≤ next.start := by simpa using hlate
      symm
      rw [List.filter_nil, List.filter_eq_nil_iff]
      intro g hg
      have hstart : next.start ≤ g.start := by
        rcases List.mem_cons.mp hg with rfl | hg
        · exact Int.le_refl _
        · exact hnext g hg
      simp only [Game.overlaps, Bool.and_eq_true, decide_eq_true_eq]
      omega

/-- The sweep finds nothing only when no two games overlap. -/
theorem overlapPairs_eq_nil {games : List Game}
    (sorted : games.Pairwise fun a b => a.start ≤ b.start) :
    overlapPairs games = [] ↔ games.Pairwise fun a b => a.overlaps b = false := by
  induction games with
  | nil => simp [overlapPairs]
  | cons first later ih =>
    obtain ⟨-, hlater⟩ := List.pairwise_cons.mp sorted
    rw [overlapPairs, List.append_eq_nil_iff, List.map_eq_nil_iff, overlapping_eq_filter hlater,
      List.filter_eq_nil_iff, List.pairwise_cons, ih hlater]
    simp

variable {κ α : Type} [BEq κ] [LawfulBEq κ]

/-- The values that belong to a key, in order. -/
def valuesOf (key : κ) (items : List (κ × α)) : List α :=
  (items.filter fun p => p.1 == key).map (·.2)

theorem lookup_addToGroup (key other : κ) (value : α) (groups : List (κ × List α)) :
    (addToGroup key value groups).lookup other =
      if other == key then some ((groups.lookup key).getD [] ++ [value])
      else groups.lookup other := by
  induction groups with
  | nil =>
    rw [addToGroup, List.lookup_cons, List.lookup_nil, List.lookup_nil]
    cases other == key <;> rfl
  | cons group rest ih =>
    obtain ⟨k, vs⟩ := group
    rw [addToGroup]
    by_cases hk : k = key
    · subst hk
      simp only [beq_self_eq_true, if_true, List.lookup_cons]
      cases other == k <;> rfl
    · have hkb : (k == key) = false := by simpa using hk
      have hkb' : (key == k) = false := by simpa using Ne.symm hk
      rw [hkb, if_neg Bool.false_ne_true, List.lookup_cons, List.lookup_cons, List.lookup_cons, ih,
        hkb']
      by_cases ho : other = k
      · subst ho
        simp [hkb]
      · have hob : (other == k) = false := by simpa using ho
        simp [hob]

theorem lookup_grouped (key : κ) (items : List (κ × α)) :
    ((grouped items).lookup key).getD [] = valuesOf key items := by
  -- Values are added one by one, so the induction is about any groups that are there already.
  suffices hgen : ∀ groups : List (κ × List α),
      ((items.foldl (fun acc p => addToGroup p.1 p.2 acc) groups).lookup key).getD [] =
        (groups.lookup key).getD [] ++ valuesOf key items by
    simpa [grouped] using hgen []
  induction items with
  | nil => simp [valuesOf]
  | cons item rest ih =>
    intro groups
    obtain ⟨k, v⟩ := item
    rw [List.foldl_cons, ih, lookup_addToGroup]
    by_cases h : key = k
    · subst h
      simp [valuesOf]
    · have hb : (key == k) = false := by simpa using h
      have hb' : (k == key) = false := by simpa using Ne.symm h
      simp [valuesOf, hb, hb']

end LeagueAudit
