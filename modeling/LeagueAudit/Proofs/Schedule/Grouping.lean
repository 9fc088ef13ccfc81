import LeagueAudit.Proofs.Schedule.Overlap
import Mathlib.Algebra.BigOperators.Group.List.Basic
import Mathlib.Data.List.Perm.Basic

/-!
Grouping games in another order. Groups are formed in order of first occurrence, but which games a
group holds, and their order in it, does not depend on the order in which the games come.
-/
namespace LeagueAudit

variable {κ : Type}

/-- Games that are told apart by their fixtures. -/
def Told (games : List Game) : Prop := ∀ a ∈ games, ∀ b ∈ games, a.fixture = b.fixture → a = b

theorem Told.of_subset {games more : List Game} (h : Told more) (hsub : ∀ g ∈ games, g ∈ more) :
    Told games :=
  fun a ha b hb hfixture => h a (hsub a ha) b (hsub b hb) hfixture

/-- Start and fixture settle the order. -/
theorem inOrder_eq_of_perm {games games' : List Game} (h : games.Perm games')
    (htold : Told games) : inOrder games = inOrder games' := by
  have hsorted : ∀ games, (inOrder games).Pairwise fun a b => a.before b = true :=
    List.pairwise_mergeSort Game.before_trans Game.before_total
  have hperm : (inOrder games).Perm (inOrder games') :=
    ((inOrder_perm games).trans h).trans (inOrder_perm games').symm
  refine hperm.eq_of_pairwise ?_ (hsorted games) (hsorted games')
  intro a b ha hb hab hba
  have ha : a ∈ games := (inOrder_perm games).mem_iff.mp ha
  have hb : b ∈ games := h.mem_iff.mpr ((inOrder_perm games').mem_iff.mp hb)
  rw [Game.before_iff] at hab hba
  refine htold a ha b hb ?_
  rcases hab with hab | ⟨hstart, hab⟩ <;> rcases hba with hba | ⟨hstart', hba⟩
  · omega
  · omega
  · omega
  · exact String.le_antisymm hab hba

section Sums

variable [BEq κ] {α M : Type} [AddCommMonoid M]

theorem sum_addToGroup (f : α → M) (key : κ) (value : α)
    (groups : List (κ × List α)) :
    ((addToGroup key value groups).map fun group => (group.2.map f).sum).sum =
      (groups.map fun group => (group.2.map f).sum).sum + f value := by
  induction groups with
  | nil => simp [addToGroup]
  | cons group rest ih =>
    rw [addToGroup]
    split
    · simp [add_right_comm]
    · simp [ih, add_assoc]

/-- The sums of the groups add up to the sum of all values. -/
theorem sum_grouped (f : α → M) (items : List (κ × α)) :
    ((grouped items).map fun group => (group.2.map f).sum).sum =
      (items.map fun p => f p.2).sum := by
  suffices hgen : ∀ groups : List (κ × List α),
      ((items.foldl (fun acc p => addToGroup p.1 p.2 acc) groups).map
        fun group => (group.2.map f).sum).sum =
          (groups.map fun group => (group.2.map f).sum).sum + (items.map fun p => f p.2).sum by
    simpa [grouped] using hgen []
  induction items with
  | nil => simp
  | cons item rest ih =>
    intro groups
    rw [List.foldl_cons, ih, sum_addToGroup, List.map_cons, List.sum_cons, add_assoc]

end Sums

section Keys

variable [BEq κ] [LawfulBEq κ] {α : Type}

theorem keys_addToGroup (key : κ) (value : α) (groups : List (κ × List α)) :
    (addToGroup key value groups).map (·.1) =
      if key ∈ groups.map (·.1) then groups.map (·.1) else groups.map (·.1) ++ [key] := by
  induction groups with
  | nil => rfl
  | cons group rest ih =>
    obtain ⟨k, vs⟩ := group
    rw [addToGroup]
    by_cases hk : k = key
    · simp [hk]
    · have hkb : (k == key) = false := by simpa using hk
      rw [hkb, if_neg Bool.false_ne_true, List.map_cons, ih]
      simp only [List.map_cons, List.mem_cons, Ne.symm hk, false_or]
      split <;> rfl

theorem keys_grouped (items : List (κ × α)) :
    ((grouped items).map (·.1)).Nodup ∧
      ∀ key, key ∈ (grouped items).map (·.1) ↔ key ∈ items.map (·.1) := by
  -- The groups that are there already are generalised, as values are added one by one.
  suffices hgen : ∀ groups : List (κ × List α), (groups.map (·.1)).Nodup →
      ((items.foldl (fun acc p => addToGroup p.1 p.2 acc) groups).map (·.1)).Nodup ∧
        ∀ key, key ∈ (items.foldl (fun acc p => addToGroup p.1 p.2 acc) groups).map (·.1) ↔
          key ∈ groups.map (·.1) ∨ key ∈ items.map (·.1) by
    simpa [grouped] using hgen [] .nil
  induction items with
  | nil =>
    intro groups hgroups
    exact ⟨hgroups, fun key => by simp⟩
  | cons item rest ih =>
    intro groups hgroups
    obtain ⟨k, v⟩ := item
    have hkeys := keys_addToGroup k v groups
    have hadded : ((addToGroup k v groups).map (·.1)).Nodup := by
      rw [hkeys]
      split
      · exact hgroups
      · next hnew =>
        rw [List.nodup_append]
        refine ⟨hgroups, by simp, ?_⟩
        rintro a ha b hb rfl
        exact hnew (List.mem_singleton.mp hb ▸ ha)
    obtain ⟨hnodup, hmem⟩ := ih (addToGroup k v groups) hadded
    refine ⟨hnodup, fun key => ?_⟩
    rw [List.foldl_cons, hmem, hkeys, List.map_cons, List.mem_cons]
    split
    · next hold =>
      constructor
      · rintro (h | h)
        · exact .inl h
        · exact .inr (.inr h)
      · rintro (h | rfl | h)
        · exact .inl h
        · exact .inl hold
        · exact .inr h
    · rw [List.mem_append, List.mem_singleton, or_assoc]

theorem lookup_eq_of_mem {groups : List (κ × α)} (hkeys : (groups.map (·.1)).Nodup) {key : κ}
    {value : α} (h : (key, value) ∈ groups) : groups.lookup key = some value := by
  induction groups with
  | nil => simp at h
  | cons group rest ih =>
    obtain ⟨k, v⟩ := group
    rw [List.map_cons, List.nodup_cons] at hkeys
    rcases List.mem_cons.mp h with heq | h
    · cases heq
      exact List.lookup_cons_self
    · have hne : (key == k) = false := by
        rw [beq_eq_false_iff_ne]
        intro hkey
        exact hkeys.1 (hkey ▸ List.mem_map_of_mem (f := (·.1)) h)
      rw [List.lookup_cons, hne]
      exact ih hkeys.2 h

/-- The groups are the keys that occur, each with its values. -/
theorem grouped_eq (items : List (κ × α)) :
    grouped items = ((grouped items).map (·.1)).map fun key => (key, valuesOf key items) := by
  rw [List.map_map]
  conv_lhs => rw [← List.map_id (grouped items)]
  refine List.map_congr_left ?_
  rintro ⟨key, values⟩ hmem
  have hlookup := lookup_eq_of_mem (keys_grouped items).1 hmem
  have hvalues : values = valuesOf key items := by
    rw [← lookup_grouped, hlookup, Option.getD_some]
  rw [hvalues]
  rfl

end Keys

variable [BEq κ] [LawfulBEq κ]

theorem groupGames_eq (items : List (κ × Game)) :
    groupGames items =
      ((grouped items).map (·.1)).map fun key => (key, inOrder (valuesOf key items)) := by
  rw [groupGames, grouped_eq items, List.map_map]
  simp only [List.map_map, Function.comp_def]

theorem exists_of_mem_groupGames {items : List (κ × Game)} {group : κ × List Game}
    (h : group ∈ groupGames items) : ∃ game, (group.1, game) ∈ items := by
  obtain ⟨⟨key, games⟩, hmem, rfl⟩ := List.mem_map.mp h
  have hkey := ((keys_grouped items).2 key).mp (List.mem_map_of_mem (f := (·.1)) hmem)
  obtain ⟨⟨key, game⟩, hitem, rfl⟩ := List.mem_map.mp hkey
  exact ⟨game, hitem⟩

theorem mem_of_mem_groupGames {items : List (κ × Game)} {group : κ × List Game}
    (h : group ∈ groupGames items) {game : Game} (hgame : game ∈ group.2) :
    (group.1, game) ∈ items := by
  rw [groupGames_eq] at h
  obtain ⟨key, -, rfl⟩ := List.mem_map.mp h
  obtain ⟨⟨k, g⟩, hitem, rfl⟩ := List.mem_map.mp ((inOrder_perm _).mem_iff.mp hgame)
  obtain ⟨hmem, hkey⟩ := List.mem_filter.mp hitem
  obtain rfl : k = key := beq_iff_eq.mp hkey
  exact hmem

/-- The order in which games come decides only the order of the groups. -/
theorem groupGames_perm {items items' : List (κ × Game)} (h : items.Perm items')
    (htold : Told (items.map (·.2))) : (groupGames items).Perm (groupGames items') := by
  have hkeys : ((grouped items).map (·.1)).Perm ((grouped items').map (·.1)) := by
    rw [List.perm_ext_iff_of_nodup (keys_grouped items).1 (keys_grouped items').1]
    intro key
    rw [(keys_grouped items).2, (keys_grouped items').2]
    exact (h.map _).mem_iff
  have hgames : ∀ key, inOrder (valuesOf key items) = inOrder (valuesOf key items') := by
    intro key
    refine inOrder_eq_of_perm ((h.filter _).map _) (htold.of_subset fun g hg => ?_)
    obtain ⟨p, hp, rfl⟩ := List.mem_map.mp hg
    exact List.mem_map_of_mem (List.mem_filter.mp hp).1
  rw [groupGames_eq, groupGames_eq]
  simp only [hgames]
  exact hkeys.map _

end LeagueAudit
