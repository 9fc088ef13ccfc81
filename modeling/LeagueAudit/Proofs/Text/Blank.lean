import LeagueAudit.Text.Class
import Mathlib.Data.List.DropRight

/-!
Texts without the blanks around them.
-/
namespace LeagueAudit.Text

variable {cs : List Char}

/-- A text without blanks has none around it. -/
theorem stripped_eq_self (h : ∀ c ∈ cs, isBlank c = false) : stripped cs = cs := by
  have hfront : cs.dropWhile isBlank = cs := by
    rw [List.dropWhile_eq_self_iff]
    intro hlength
    simp [h _ (List.getElem_mem hlength)]
  have hback : cs.rdropWhile isBlank = cs := by
    rw [List.rdropWhile_eq_self_iff]
    intro hne
    simp [h _ (List.getLast_mem hne)]
  rw [stripped, hfront]
  exact hback

/-- Nothing is left of a text of blanks only. -/
theorem stripped_eq_nil_iff : stripped cs = [] ↔ ∀ c ∈ cs, isBlank c = true := by
  rw [← List.dropWhile_eq_nil_iff, stripped, List.reverse_eq_nil_iff, List.dropWhile_eq_nil_iff]
  constructor
  · intro h
    by_contra hne
    have hhead := List.head_dropWhile_not isBlank hne
    rw [h _ (List.mem_reverse.mpr (List.head_mem hne))] at hhead
    cases hhead
  · intro h c hc
    simp [h] at hc

theorem strip_eq_empty_iff {s : String} :
    (strip s).isEmpty = true ↔ ∀ c ∈ s.toList, isBlank c = true := by
  rw [← stripped_eq_nil_iff, String.isEmpty_iff, strip, String.ofList_eq_empty_iff]

theorem strip_eq_self {s : String} (h : ∀ c ∈ s.toList, isBlank c = false) : strip s = s := by
  rw [strip, stripped_eq_self h, String.ofList_toList]

end LeagueAudit.Text
