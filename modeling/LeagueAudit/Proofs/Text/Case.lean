import LeagueAudit.Text.Case
import Mathlib.Data.String.Basic

/-!
Lower case of texts with brackets. A bracket ends the words on both sides of it, so what stands
between brackets has the lower case that it has on its own.
-/
namespace LeagueAudit.Text

/-- A character that ends a word and has no case of its own. -/
structure EndsWords (c : Char) : Prop where
  ignorable : isAmong caseIgnorableRanges c = false
  cased : isAmong casedRanges c = false
  lower : ∀ before after, lowerChar before c after = [c]

theorem endsWords_openBracket : EndsWords '[' :=
  ⟨by decide +kernel, by decide +kernel, fun _ _ => rfl⟩

theorem endsWords_closeBracket : EndsWords ']' :=
  ⟨by decide +kernel, by decide +kernel, fun _ _ => rfl⟩

variable {c : Char}

theorem meetsCased_append (hc : EndsWords c) (chars rest : List Char) :
    meetsCased (chars ++ c :: rest) = meetsCased chars := by
  induction chars with
  | nil => simp [meetsCased, hc.ignorable, hc.cased]
  | cons d chars ih =>
    unfold meetsCased at ih ⊢
    rw [List.cons_append]
    by_cases hd : isAmong caseIgnorableRanges d = true
    · rwa [List.dropWhile_cons_of_pos hd, List.dropWhile_cons_of_pos hd]
    · rw [List.dropWhile_cons_of_neg hd, List.dropWhile_cons_of_neg hd]

theorem lowerChar_before (hc : EndsWords c) (before rest after : List Char) (d : Char) :
    lowerChar (before ++ c :: rest) d after = lowerChar before d after := by
  simp only [lowerChar, meetsCased_append hc]

theorem lowerChar_after (hc : EndsWords c) (before after rest : List Char) (d : Char) :
    lowerChar before d (after ++ c :: rest) = lowerChar before d after := by
  simp only [lowerChar, meetsCased_append hc]

theorem lowerFrom_before (hc : EndsWords c) (before rest chars : List Char) :
    lowerFrom (before ++ c :: rest) chars = lowerFrom before chars := by
  induction chars generalizing before with
  | nil => rfl
  | cons d chars ih =>
    rw [lowerFrom, lowerFrom, lowerChar_before hc]
    exact congrArg _ (ih (d :: before))

theorem lowerFrom_append (hc : EndsWords c) (before chars rest : List Char) :
    lowerFrom before (chars ++ c :: rest) =
      lowerFrom before chars ++ c :: lowerFrom (c :: (chars.reverse ++ before)) rest := by
  induction chars generalizing before with
  | nil => simp [lowerFrom, hc.lower]
  | cons d chars ih =>
    rw [List.cons_append, lowerFrom, lowerFrom, lowerChar_after hc, ih]
    simp

/-- The lower case of a text in brackets after a word. -/
theorem toList_lower_bracketed (word text : String) :
    (lower (word ++ "[" ++ text ++ "]")).toList =
      (lower word).toList ++ '[' :: (lower text).toList ++ [']'] := by
  have hchars : (word ++ "[" ++ text ++ "]").toList =
      word.toList ++ '[' :: (text.toList ++ [']']) := by simp
  have hinside : lowerFrom ('[' :: (word.toList.reverse ++ [])) (text.toList ++ [']']) =
      lowerFrom [] text.toList ++ [']'] := by
    have hbefore := lowerFrom_before endsWords_openBracket [] (word.toList.reverse ++ [])
      (text.toList ++ [']'])
    rw [List.nil_append] at hbefore
    rw [hbefore, lowerFrom_append endsWords_closeBracket]
    rfl
  simp only [lower, String.toList_ofList, hchars, lowerFrom_append endsWords_openBracket, hinside]
  simp

/-- A word without a character stands on one side of it. -/
theorem infix_append_cons_iff {α : Type} {a : α} {word xs ys : List α} (ha : a ∉ word) :
    word <:+: xs ++ a :: ys ↔ word <:+: xs ∨ word <:+: ys := by
  constructor
  · rintro ⟨before, after, h⟩
    rcases List.append_eq_append_iff.mp h with ⟨rest, hxs, -⟩ | ⟨rest, hrest, hys⟩
    · exact .inl ⟨before, rest, hxs.symm⟩
    cases rest with
    | nil => exact .inl ⟨before, [], by rw [hrest, List.append_nil, List.append_nil]⟩
    | cons b rest =>
      obtain ⟨rfl, rfl⟩ := List.cons.inj hys
      rcases List.append_eq_append_iff.mp hrest with ⟨part, -, hword⟩ | ⟨part, -, hpart⟩
      · exact absurd (hword ▸ by simp) ha
      · cases part with
        | nil =>
          rw [List.nil_append] at hpart
          exact absurd (hpart ▸ List.mem_cons_self) ha
        | cons d part =>
          obtain ⟨-, rfl⟩ := List.cons.inj hpart
          exact .inr ⟨part, after, rfl⟩
  · rintro (h | h)
    · exact h.trans (List.prefix_append xs _).isInfix
    · exact h.trans ((List.suffix_cons a ys).trans (List.suffix_append xs _)).isInfix

end LeagueAudit.Text
