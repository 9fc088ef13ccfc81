import LeagueAudit.Files.Path
import Mathlib.Data.String.Basic

/-!
Paths and their texts. A path that was read from a text is read again from its own text, so paths
with the same text are the same.
-/
namespace LeagueAudit.Path

/-- A step of a path: no empty text, no single dot and no slash in it. -/
structure IsStep (part : String) : Prop where
  ne_empty : part ≠ ""
  ne_dot : part ≠ "."
  no_slash : '/' ∉ part.toList

/-- A path as texts name them. -/
structure Proper (p : Path) : Prop where
  root : p.root ∈ ["", "/", "//"]
  steps : ∀ part ∈ p.parts, IsStep part

theorem not_mem_of_mem_splitOn {α : Type} [DecidableEq α] {a : α} {xs part : List α}
    (h : part ∈ xs.splitOn a) : a ∉ part := by
  induction xs generalizing part with
  | nil => simp_all
  | cons x rest ih =>
    rw [List.splitOn_cons_eq_if_modifyHead] at h
    split at h
    · rcases List.mem_cons.mp h with rfl | h
      · exact List.not_mem_nil
      · exact ih h
    · next hx =>
      cases hrest : rest.splitOn a with
      | nil => exact absurd hrest (List.splitOn_ne_nil a rest)
      | cons first others =>
        rw [hrest, List.modifyHead_cons] at h
        rcases List.mem_cons.mp h with rfl | h
        · have hfirst := ih (hrest ▸ List.mem_cons_self)
          exact List.not_mem_cons_of_ne_of_not_mem (fun heq => hx (by simp [heq])) hfirst
        · exact ih (hrest ▸ List.mem_cons_of_mem _ h)

theorem proper_ofText (text : String) : (ofText text).Proper where
  root := by
    unfold ofText rootOf
    split <;> simp
  steps := by
    intro part hpart
    simp only [ofText, partsOf, List.mem_filter, List.mem_map, Bool.and_eq_true,
      Bool.not_eq_true', bne_iff_ne] at hpart
    obtain ⟨⟨chars, hchars, rfl⟩, hempty, hdot⟩ := hpart
    refine ⟨?_, hdot, ?_⟩
    · simpa using hempty
    · simpa using not_mem_of_mem_splitOn hchars

/-- Steps with slashes between them name these steps. -/
theorem partsOf_intercalate {parts : List String} (hsteps : ∀ part ∈ parts, IsStep part) :
    partsOf (String.intercalate "/" parts) = parts := by
  have hkept : ∀ part ∈ parts, (!part.isEmpty && part != ".") = true := by
    intro part hpart
    simpa using ⟨(hsteps part hpart).ne_empty, (hsteps part hpart).ne_dot⟩
  cases parts with
  | nil => rfl
  | cons first rest =>
    have hslash : ∀ chars ∈ (first :: rest).map String.toList, '/' ∉ chars := by
      intro chars hchars
      obtain ⟨part, hpart, rfl⟩ := List.mem_map.mp hchars
      exact (hsteps part hpart).no_slash
    have hsplit := List.splitOn_intercalate '/' hslash (by simp)
    rw [partsOf, String.toList_intercalate, show "/".toList = ['/'] from rfl, hsplit, List.map_map,
      List.filter_eq_self.mpr]
    · simp [Function.comp_def]
    · simpa [Function.comp_def] using hkept

theorem partsOf_slash (text : String) : partsOf ("/" ++ text) = partsOf text := by
  have hchars : ("/" ++ text).toList = '/' :: text.toList := by simp
  rw [partsOf, hchars, List.splitOn_cons_eq_if_modifyHead, if_pos (by simp), List.map_cons,
    List.filter_cons_of_neg (by simp)]
  rfl

theorem partsOf_append {root : String} (hroot : root ∈ ["", "/", "//"]) (text : String) :
    partsOf (root ++ text) = partsOf text := by
  simp only [List.mem_cons, List.not_mem_nil, or_false] at hroot
  rcases hroot with rfl | rfl | rfl
  · rw [String.empty_append]
  · exact partsOf_slash text
  · have htwo : "//" ++ text = "/" ++ ("/" ++ text) := by rw [← String.append_assoc]; rfl
    rw [htwo, partsOf_slash, partsOf_slash]

theorem rootOf_append {root text : String} (hroot : root ∈ ["", "/", "//"])
    (htext : text.toList.head? ≠ some '/') : rootOf (root ++ text) = root := by
  have hnone : text.toList.takeWhile (· == '/') = [] := by
    cases hchars : text.toList with
    | nil => rfl
    | cons c rest =>
      rw [hchars, List.head?_cons] at htext
      exact List.takeWhile_cons_of_neg (by simpa using fun h => htext (congrArg some h))
  simp only [List.mem_cons, List.not_mem_nil, or_false] at hroot
  rcases hroot with rfl | rfl | rfl <;> simp [rootOf, hnone]

theorem head?_intercalate {parts : List String} (hsteps : ∀ part ∈ parts, IsStep part) :
    (String.intercalate "/" parts).toList.head? ≠ some '/' := by
  rw [String.toList_intercalate]
  cases parts with
  | nil => simp
  | cons first rest =>
    have hfirst := hsteps first List.mem_cons_self
    cases hchars : first.toList with
    | nil => exact absurd (String.toList_eq_nil_iff.mp hchars) hfirst.ne_empty
    | cons c chars =>
      have hc : c ≠ '/' := fun heq =>
        hfirst.no_slash (by rw [hchars, heq]; exact List.mem_cons_self)
      cases rest <;> simpa [hchars] using hc

/-- The text of a path names the path. -/
theorem ofText_text {p : Path} (h : p.Proper) : ofText p.text = p := by
  obtain ⟨root, parts⟩ := p
  obtain ⟨hroot, hsteps⟩ := h
  unfold text
  split
  · next hbare =>
    simp only [absolute, Bool.not_not, Bool.and_eq_true, String.isEmpty_iff,
      List.isEmpty_iff] at hbare
    obtain ⟨rfl, rfl⟩ := hbare
    decide
  · rw [ofText, rootOf_append hroot (head?_intercalate hsteps), partsOf_append hroot,
      partsOf_intercalate hsteps]

theorem text_inj {p q : Path} (hp : p.Proper) (hq : q.Proper) (h : p.text = q.text) : p = q := by
  rw [← ofText_text hp, h, ofText_text hq]

/-- A path whose text is the name of another one is this name alone. -/
theorem text_eq_name {p q : Path} (hp : p.Proper) (hq : q.Proper) (h : p.text = q.name) :
    p.text = p.name := by
  cases hlast : q.parts.getLast? with
  | none =>
    -- Every path has a text.
    have hempty : p.text = "" := by rw [h, name, hlast, Option.getD_none]
    have hp' := ofText_text hp
    rw [hempty] at hp'
    rw [← hp'] at hempty
    exact absurd hempty (by decide)
  | some part =>
    have hpart : IsStep part := hq.steps part (List.mem_of_getLast? hlast)
    have hsingle : Proper ⟨"", [part]⟩ := ⟨by simp, by simpa using hpart⟩
    have htext : text ⟨"", [part]⟩ = part := by simp [text, absolute]
    have hname : q.name = part := by rw [name, hlast, Option.getD_some]
    obtain rfl := text_inj hp hsingle (h.trans (hname.trans htext.symm))
    rw [htext]
    rfl

end LeagueAudit.Path
