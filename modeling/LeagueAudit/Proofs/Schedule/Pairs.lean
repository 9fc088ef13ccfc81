import LeagueAudit.Proofs.Schedule.Grouping

/-!
All pairs of a list. What is said about the pairs of a list does not depend on its order, and to
look at the pairs of every group is to look at the pairs of entries with the same key.
-/
namespace LeagueAudit

variable {α β γ κ : Type}

/-- The pairs of different places of a list, each once and the earlier place first. -/
def pairsOf : List α → List (α × α)
  | [] => []
  | first :: later => later.map (first, ·) ++ pairsOf later

/-- What is said about the pairs of a list, when it is the same whichever comes first. -/
theorem filterMap_pairsOf_perm {f : α × α → Option β} (hf : ∀ a b, f (a, b) = f (b, a))
    {xs ys : List α} (h : xs.Perm ys) :
    ((pairsOf xs).filterMap f).Perm ((pairsOf ys).filterMap f) := by
  induction h with
  | nil => exact .nil
  | @cons x xs ys h ih =>
    rw [pairsOf, pairsOf, List.filterMap_append, List.filterMap_append]
    exact ((h.map _).filterMap f).append ih
  | swap x y rest =>
    -- Both lists begin with the pair of the two, and say the same of it.
    simp only [pairsOf, List.map_cons, List.cons_append, List.filterMap_cons, hf y x,
      List.filterMap_append]
    have hswap : ((rest.map (y, ·)).filterMap f ++ (rest.map (x, ·)).filterMap f).Perm
        ((rest.map (x, ·)).filterMap f ++ (rest.map (y, ·)).filterMap f) := List.perm_append_comm
    have hrest := hswap.append_right ((pairsOf rest).filterMap f)
    rw [List.append_assoc, List.append_assoc] at hrest
    cases f (x, y) with
    | none => exact hrest
    | some b => exact hrest.cons b
  | trans _ _ ih ih' => exact ih.trans ih'

/-- The pairs of what is read from a list are read from its pairs. -/
theorem pairsOf_filterMap (f : α → Option β) (xs : List α) :
    pairsOf (xs.filterMap f) =
      (pairsOf xs).filterMap fun p => (f p.1).bind fun a => (f p.2).map (a, ·) := by
  induction xs with
  | nil => rfl
  | cons x xs ih =>
    rw [pairsOf, List.filterMap_append, ← ih, List.filterMap_cons, List.filterMap_map]
    cases hx : f x with
    | none => simp [hx]
    | some a =>
      simp only [pairsOf, Function.comp_def, hx, Option.bind_some, List.map_filterMap]

/-- What holds of every two items in order holds of every pair. -/
theorem forall_pairsOf_iff {R : α → α → Prop} {xs : List α} :
    (∀ p ∈ pairsOf xs, R p.1 p.2) ↔ xs.Pairwise R := by
  induction xs with
  | nil => simp [pairsOf]
  | cons x xs ih =>
    rw [pairsOf, List.forall_mem_append, ih, List.forall_mem_map, List.pairwise_cons]

section Keys

variable [DecidableEq κ]

/-- Of several keys, each at most once, one alone has something to say. -/
theorem flatMap_ite_eq {keys : List κ} (hkeys : keys.Nodup) (key : κ) (said : List β) :
    keys.flatMap (fun k => if k = key then said else []) = if key ∈ keys then said else [] := by
  induction keys with
  | nil => rfl
  | cons k keys ih =>
    obtain ⟨hnew, hkeys⟩ := List.nodup_cons.mp hkeys
    rw [List.flatMap_cons, ih hkeys]
    by_cases hk : k = key
    · subst hk
      simp [hnew]
    · simp [hk, Ne.symm hk]

theorem valuesOf_cons (key k : κ) (value : α) (items : List (κ × α)) :
    valuesOf key ((k, value) :: items) =
      if key = k then value :: valuesOf key items else valuesOf key items := by
  unfold valuesOf
  by_cases h : key = k
  · simp [h]
  · simp [h, Ne.symm h]

theorem pairwise_valuesOf {R : α → α → Prop} {items : List (κ × α)}
    (h : items.Pairwise fun p q => p.1 = q.1 → R p.2 q.2) (key : κ) :
    (valuesOf key items).Pairwise R := by
  rw [valuesOf, List.pairwise_map, List.pairwise_filter]
  refine h.imp fun hpq hp hq => hpq ?_
  rw [eq_of_beq hp, eq_of_beq hq]

/-- The pairs of each group are the pairs of entries with the same key. -/
theorem flatMap_pairsOf_perm (f : κ → α × α → Option β) {items : List (κ × α)} {keys : List κ}
    (hkeys : keys.Nodup) (hall : ∀ item ∈ items, item.1 ∈ keys) :
    (keys.flatMap fun key => (pairsOf (valuesOf key items)).filterMap (f key)).Perm
      ((pairsOf items).filterMap fun p =>
        if p.1.1 = p.2.1 then f p.1.1 (p.1.2, p.2.2) else none) := by
  induction items with
  | nil => simp [valuesOf, pairsOf]
  | cons item items ih =>
    obtain ⟨k, value⟩ := item
    obtain ⟨hk, hall⟩ := List.forall_mem_cons.mp hall
    -- The pairs of the first entry are those with the entries of its key; they stand apart.
    have hsplit : ∀ key, (pairsOf (valuesOf key ((k, value) :: items))).filterMap (f key) =
        (if key = k then ((valuesOf k items).map (value, ·)).filterMap (f k) else []) ++
          (pairsOf (valuesOf key items)).filterMap (f key) := by
      intro key
      rw [valuesOf_cons]
      by_cases h : key = k
      · rw [if_pos h, if_pos h, pairsOf, List.filterMap_append, h]
      · rw [if_neg h, if_neg h, List.nil_append]
    have hfirst : ((valuesOf k items).map (value, ·)).filterMap (f k) =
        (items.map ((k, value), ·)).filterMap fun p =>
          if p.1.1 = p.2.1 then f p.1.1 (p.1.2, p.2.2) else none := by
      unfold valuesOf
      rw [List.map_map, List.filterMap_map, List.filterMap_map, List.filterMap_filter]
      refine List.filterMap_congr fun p _ => ?_
      by_cases h : p.1 = k
      · simp [h]
      · simp [h, Ne.symm h]
    simp only [hsplit]
    rw [pairsOf, List.filterMap_append, ← hfirst]
    refine (List.flatMap_append_perm keys _ _).symm.trans ?_
    rw [flatMap_ite_eq hkeys, if_pos hk]
    exact (ih hall).append_left _

end Keys

/-- In order of start, the sweep finds the pairs that overlap. -/
theorem overlapPairs_eq_filter {games : List Game}
    (sorted : games.Pairwise fun a b => a.start ≤ b.start) :
    overlapPairs games = (pairsOf games).filter fun p => p.1.overlaps p.2 := by
  induction games with
  | nil => rfl
  | cons first later ih =>
    obtain ⟨-, hlater⟩ := List.pairwise_cons.mp sorted
    rw [overlapPairs, overlapping_eq_filter hlater, ih hlater, pairsOf, List.filter_append,
      List.filter_map]
    rfl

end LeagueAudit
