import LeagueAudit.Audit.Ranking
import LeagueAudit.Proofs.Number.Double
import Mathlib.Data.Prod.Lex
import Mathlib.Data.String.Basic

/-!
The order of standings. Values have places on one line, standings are compared by the places of
their parts in turn, and the label makes the order strict.
-/
namespace LeagueAudit

namespace Exact

/-- Where a value stands: minus infinity first, then the numbers, infinity, and what is
undefined. -/
def place : Exact → Nat ×ₗ Int
  | infinite true => toLex (0, 0)
  | finite steps => toLex (1, steps)
  | infinite false => toLex (2, 0)
  | undefined => toLex (3, 0)

theorem place_injective : Function.Injective place := by
  intro a b h
  rcases a with a | (_ | _) | _ <;> rcases b with b | (_ | _) | _ <;> simp_all [place]

theorem notAfter_iff {a b : Exact} : a.notAfter b = true ↔ a.place ≤ b.place := by
  rcases a with a | (_ | _) | _ <;> rcases b with b | (_ | _) | _ <;>
    simp [notAfter, place, Prod.Lex.toLex_le_toLex]

theorem order_eq_compare (a b : Exact) : a.order b = compare a.place b.place := by
  unfold order
  rcases lt_trichotomy a.place b.place with h | h | h
  · rw [if_pos (notAfter_iff.mpr h.le), if_neg (mt notAfter_iff.mp h.not_ge),
      compare_lt_iff_lt.mpr h]
  · rw [if_pos (notAfter_iff.mpr h.le), if_pos (notAfter_iff.mpr h.ge), compare_eq_iff_eq.mpr h]
  · rw [if_neg (mt notAfter_iff.mp h.not_ge), compare_gt_iff_gt.mpr h]

/-- One value is less than another; nothing is less than an undefined value. -/
def Less (a b : Exact) : Prop := a.compare? b = some .lt

theorem less_iff_place_lt {a b : Exact} (hb : b ≠ undefined) : a.Less b ↔ a.place < b.place := by
  rcases a with a | (_ | _) | _ <;> rcases b with b | (_ | _) | _ <;>
    simp_all [Less, compare?, place, Prod.Lex.toLex_lt_toLex, compare_lt_iff_lt]

theorem Less.ne_undefined {a b : Exact} (h : a.Less b) : b ≠ undefined := by
  rintro rfl
  cases a <;> cases h

theorem Less.place_lt {a b : Exact} (h : a.Less b) : a.place < b.place :=
  (less_iff_place_lt h.ne_undefined).mp h

end Exact

namespace Standing

/-- The parts of a standing in the order in which they decide. -/
def key (s : Standing) : Bool ×ₗ (Nat ×ₗ Int) ×ₗ (Nat ×ₗ Int) ×ₗ String :=
  toLex (!s.fit, toLex (s.hardViolations.place, toLex (s.totalPenalty.place, s.label)))

theorem order_eq_compare (s t : Standing) : s.order t = compare s.key t.key := by
  simp only [order, Exact.order_eq_compare, key, Prod.Lex.compare_def, compareLex, compareOn,
    ofLex_toLex]

theorem notAfter_iff {s t : Standing} : s.notAfter t = true ↔ s.key ≤ t.key := by
  rw [notAfter, order_eq_compare, Ordering.isLE_iff_ne_gt]
  exact compare_le_iff_le

theorem notAfter_trans (s t u : Standing) (hst : s.notAfter t = true) (htu : t.notAfter u = true) :
    s.notAfter u = true :=
  notAfter_iff.mpr ((notAfter_iff.mp hst).trans (notAfter_iff.mp htu))

theorem notAfter_total (s t : Standing) : (s.notAfter t || t.notAfter s) = true := by
  rw [Bool.or_eq_true, notAfter_iff, notAfter_iff]
  exact le_total _ _

/-- The numbers of a standing have values. -/
structure Defined (s : Standing) : Prop where
  hardViolations : s.hardViolations ≠ .undefined
  totalPenalty : s.totalPenalty ≠ .undefined

/-- One standing is better than another: the first part in which they differ decides. -/
inductive Beats (s t : Standing) : Prop where
  | fit (hs : s.fit = true) (ht : t.fit = false)
  | hardViolations (hfit : s.fit = t.fit) (hless : s.hardViolations.Less t.hardViolations)
  | totalPenalty (hfit : s.fit = t.fit) (hhard : s.hardViolations = t.hardViolations)
    (hless : s.totalPenalty.Less t.totalPenalty)
  | label (hfit : s.fit = t.fit) (hhard : s.hardViolations = t.hardViolations)
    (htotal : s.totalPenalty = t.totalPenalty) (hless : s.label < t.label)

theorem key_lt_iff {s t : Standing} :
    s.key < t.key ↔ (s.fit = true ∧ t.fit = false) ∨ s.fit = t.fit ∧
      (s.hardViolations.place < t.hardViolations.place ∨ s.hardViolations = t.hardViolations ∧
        (s.totalPenalty.place < t.totalPenalty.place ∨ s.totalPenalty = t.totalPenalty ∧
          s.label < t.label)) := by
  simp only [key, Prod.Lex.toLex_lt_toLex, Bool.lt_iff, Bool.not_eq_true', Bool.not_eq_false',
    Bool.not_inj_iff, Exact.place_injective.eq_iff]

theorem beats_iff {s t : Standing} (ht : t.Defined) : s.Beats t ↔ s.key < t.key := by
  rw [key_lt_iff]
  constructor
  · rintro (⟨hs, ht⟩ | ⟨hfit, h⟩ | ⟨hfit, hhard, h⟩ | ⟨hfit, hhard, htotal, h⟩)
    · exact .inl ⟨hs, ht⟩
    · exact .inr ⟨hfit, .inl h.place_lt⟩
    · exact .inr ⟨hfit, .inr ⟨hhard, .inl h.place_lt⟩⟩
    · exact .inr ⟨hfit, .inr ⟨hhard, .inr ⟨htotal, h⟩⟩⟩
  · rintro (⟨hs, ht⟩ | ⟨hfit, h | ⟨hhard, h | ⟨htotal, h⟩⟩⟩)
    · exact .fit hs ht
    · exact .hardViolations hfit ((Exact.less_iff_place_lt ht.hardViolations).mpr h)
    · exact .totalPenalty hfit hhard ((Exact.less_iff_place_lt ht.totalPenalty).mpr h)
    · exact .label hfit hhard htotal h

theorem key_injective : Function.Injective key := by
  intro s t h
  cases s
  cases t
  simpa [key, Exact.place_injective.eq_iff] using h

theorem Beats.place_le {s t : Standing} (h : s.Beats t) (ht : t.fit = true) :
    s.fit = true ∧ (s.hardViolations.place < t.hardViolations.place ∨
      s.hardViolations = t.hardViolations ∧ s.totalPenalty.place ≤ t.totalPenalty.place) := by
  rcases h with ⟨-, hf⟩ | ⟨hfit, h⟩ | ⟨hfit, hhard, h⟩ | ⟨hfit, hhard, htotal, -⟩
  · cases ht.symm.trans hf
  · exact ⟨hfit.trans ht, .inl h.place_lt⟩
  · exact ⟨hfit.trans ht, .inr ⟨hhard, h.place_lt.le⟩⟩
  · exact ⟨hfit.trans ht, .inr ⟨hhard, (congrArg Exact.place htotal).le⟩⟩

/-- A fit standing leads by its hard violations, or by its penalty when it has as many. -/
def Leads (t s : Standing) : Prop :=
  t.fit = true ∧ (t.hardViolations.Less s.hardViolations ∨
    t.hardViolations = s.hardViolations ∧ t.totalPenalty.Less s.totalPenalty)

theorem not_leads_self (s : Standing) : ¬s.Leads s := by
  rintro ⟨-, h | ⟨-, h⟩⟩
  · exact lt_irrefl _ h.place_lt
  · exact lt_irrefl _ h.place_lt

/-- What is beaten does not lead. -/
theorem Beats.not_leads {s t : Standing} (h : s.Beats t) : ¬t.Leads s := by
  rintro ⟨ht, hleads⟩
  obtain ⟨-, hless | ⟨hhard, hle⟩⟩ := h.place_le ht
  · rcases hleads with h | ⟨heq, -⟩
    · exact lt_asymm hless h.place_lt
    · exact absurd (congrArg Exact.place heq) hless.ne'
  · rcases hleads with h | ⟨-, h⟩
    · exact lt_irrefl _ (hhard ▸ h.place_lt)
    · exact absurd h.place_lt hle.not_gt

section Sorted

variable {α : Type} {rows others : List (Standing × α)}

/-- Rows in the order of their standings. -/
def sorted (rows : List (Standing × α)) : List (Standing × α) :=
  rows.mergeSort fun p q => p.1.notAfter q.1

theorem sorted_perm (rows : List (Standing × α)) : (sorted rows).Perm rows :=
  List.mergeSort_perm _ _

theorem sorted_map {β : Type} (f : α → β) (rows : List (Standing × α)) :
    sorted (rows.map fun p => (p.1, f p.2)) = (sorted rows).map fun p => (p.1, f p.2) :=
  (List.map_mergeSort (f := fun p : Standing × α => (p.1, f p.2)) fun _ _ _ _ => rfl).symm

theorem pairwise_sorted (hlabels : (rows.map (·.1.label)).Nodup) :
    (sorted rows).Pairwise fun p q => p.1.key < q.1.key := by
  have hle : (sorted rows).Pairwise fun p q => p.1.notAfter q.1 = true :=
    List.pairwise_mergeSort (fun p q r => notAfter_trans p.1 q.1 r.1)
      (fun p q => notAfter_total p.1 q.1) rows
  have hne : (sorted rows).Pairwise fun p q => p.1.label ≠ q.1.label :=
    List.pairwise_map.mp (((sorted_perm rows).map _).nodup_iff.mpr hlabels)
  refine (hle.and hne).imp fun {p q} h => lt_of_le_of_ne (notAfter_iff.mp h.1) ?_
  exact fun heq => h.2 (congrArg label (key_injective heq))

/-- However rows are given, those with distinct labels are sorted in one way. -/
theorem sorted_eq_of_perm (hlabels : (rows.map (·.1.label)).Nodup) (hperm : others.Perm rows) :
    sorted others = sorted rows := by
  have hothers : (others.map (·.1.label)).Nodup := (hperm.map _).nodup_iff.mpr hlabels
  refine List.Perm.eq_of_pairwise (fun p q _ _ hlt hgt => absurd hgt (lt_asymm hlt))
    (pairwise_sorted hothers) (pairwise_sorted hlabels) ?_
  exact ((sorted_perm others).trans hperm).trans (sorted_perm rows).symm

end Sorted

end Standing
end LeagueAudit
