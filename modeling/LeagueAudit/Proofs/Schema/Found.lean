import LeagueAudit.Proofs.Outcome
import LeagueAudit.Schema.Found

/-!
Searches for problems and the conditions that they decide. A search that comes to its end without a
fault, with no problem found exactly when a condition holds, decides this condition; searches put
together decide what their parts decide together.
-/
namespace LeagueAudit.Found

variable {found : Found} {P Q : Prop}

theorem all_andThen (found : Found) (next : Unit → Found) :
    (found.andThen next).all = found.all.bind fun ps => (next ()).all.map (ps ++ ·) := by
  induction found with
  | clear =>
    rw [andThen, all]
    cases (next ()).all <;> rfl
  | fault f => rfl
  | more p rest ih =>
    rw [andThen, all, ih, all]
    cases (rest ()).all with
    | error f => rfl
    | ok ps => cases (next ()).all <;> simp [Except.bind, Except.map]

theorem all_inside (step : Step) (found : Found) :
    (found.inside step).all = found.all.map (·.map (Problem.inside step)) := by
  induction found with
  | clear => rfl
  | fault f => rfl
  | more p rest ih =>
    rw [inside, all, ih, all]
    cases (rest ()).all <;> rfl

theorem each_map {α β : Type} (items : List α) (f : α → β) (search : β → Found) :
    each (items.map f) search = each items fun x => search (f x) := by
  induction items with
  | nil => rfl
  | cons x rest ih => rw [List.map_cons, each, each, ih]

/-- A search comes to its end, and finds nothing exactly when a condition holds. -/
def Decides (found : Found) (P : Prop) : Prop := ∃ ps, found.all = .ok ps ∧ (ps = [] ↔ P)

theorem decides_clear : clear.Decides True := ⟨[], rfl, by simp⟩

theorem decides_when (bad : Bool) (message : String) :
    (when bad message).Decides (bad = false) := by
  cases bad with
  | false => exact ⟨[], rfl, by simp⟩
  | true => exact ⟨[{ message }], rfl, by simp⟩

namespace Decides

theorem congr (h : found.Decides P) (hPQ : P ↔ Q) : found.Decides Q := by
  obtain ⟨ps, hall, hP⟩ := h
  exact ⟨ps, hall, hP.trans hPQ⟩

theorem andThen {next : Unit → Found} (h : found.Decides P) (hnext : (next ()).Decides Q) :
    (found.andThen next).Decides (P ∧ Q) := by
  obtain ⟨ps, hps, hP⟩ := h
  obtain ⟨qs, hqs, hQ⟩ := hnext
  refine ⟨ps ++ qs, ?_, ?_⟩
  · rw [all_andThen, hps, hqs]
    rfl
  · rw [List.append_eq_nil_iff, hP, hQ]

theorem ofExcept {α : Type} {e : Except Fault α} {x : α} {search : α → Found} (he : e = .ok x)
    (h : (search x).Decides P) : (Found.ofExcept e search).Decides P := by
  rw [he]
  exact h

theorem inside (step : Step) (h : found.Decides P) : (found.inside step).Decides P := by
  obtain ⟨ps, hps, hP⟩ := h
  refine ⟨ps.map (Problem.inside step), ?_, List.map_eq_nil_iff.trans hP⟩
  rw [all_inside, hps]
  rfl

/-- A search through all items decides a condition on every item. -/
theorem each {α : Type} {items : List α} {search : α → Found} {holds : α → Prop}
    (h : ∀ x ∈ items, (search x).Decides (holds x)) :
    (Found.each items search).Decides (∀ x ∈ items, holds x) := by
  induction items with
  | nil => exact decides_clear.congr (by simp)
  | cons x rest ih =>
    rw [List.forall_mem_cons] at h
    rw [Found.each, List.forall_mem_cons]
    exact h.1.andThen (ih h.2)

end Decides

variable {marked : Problem → Prop}

/-- If a search comes to its end, a marked problem is among those found exactly when a condition
holds. -/
def Shows (found : Found) (marked : Problem → Prop) (P : Prop) : Prop :=
  ∀ ps, found.all = .ok ps → ((∃ p ∈ ps, marked p) ↔ P)

theorem shows_clear : clear.Shows marked False := by
  intro ps hps
  cases Except.ok.inj hps
  simp

theorem shows_when (bad : Bool) (message : String) :
    (when bad message).Shows marked (bad = true ∧ marked { message }) := by
  intro ps hps
  cases bad <;> cases Except.ok.inj hps <;> simp

namespace Shows

theorem congr (h : found.Shows marked P) (hPQ : P ↔ Q) : found.Shows marked Q :=
  fun ps hps => (h ps hps).trans hPQ

theorem andThen {next : Unit → Found} (h : found.Shows marked P)
    (hnext : (next ()).Shows marked Q) : (found.andThen next).Shows marked (P ∨ Q) := by
  intro ps hps
  rw [all_andThen] at hps
  obtain ⟨first, hfirst, hps⟩ := bind_eq_ok.mp hps
  obtain ⟨rest, hrest, rfl⟩ := map_eq_ok.mp hps
  rw [← h first hfirst, ← hnext rest hrest]
  simp only [List.mem_append, or_and_right, exists_or]

theorem ofExcept {α : Type} {e : Except Fault α} {search : α → Found}
    (h : ∀ x, e = .ok x → (search x).Shows marked P) :
    (Found.ofExcept e search).Shows marked P := by
  cases e with
  | ok x => exact h x rfl
  | error f => exact fun ps hps => nomatch hps

theorem each {α : Type} {items : List α} {search : α → Found} {Q : α → Prop}
    (h : ∀ x ∈ items, (search x).Shows marked (Q x)) :
    (Found.each items search).Shows marked (∃ x ∈ items, Q x) := by
  induction items with
  | nil => exact shows_clear.congr (by simp)
  | cons x rest ih =>
    rw [List.forall_mem_cons] at h
    exact (h.1.andThen (ih h.2)).congr (by simp)

/-- No item shows a marked problem. -/
theorem each_none {α : Type} {items : List α} {search : α → Found}
    (h : ∀ x ∈ items, (search x).Shows marked False) :
    (Found.each items search).Shows marked False :=
  (each h).congr (by simp)

end Shows

/-- The problems of a part are those whose way starts with the step to it. -/
theorem Decides.shows_inside (h : found.Decides P) (step : Step) :
    (found.inside step).Shows (fun p => p.path.head? = some step) ¬P := by
  obtain ⟨qs, hqs, hP⟩ := h
  intro ps hps
  rw [all_inside, hqs] at hps
  obtain rfl := (Except.ok.inj hps).symm
  rw [← hP]
  cases qs <;> simp [Problem.inside]

theorem shows_inside_of_ne {step other : Step} (hne : other ≠ step) (found : Found) :
    (found.inside other).Shows (fun p => p.path.head? = some step) False := by
  intro ps hps
  rw [all_inside] at hps
  obtain ⟨qs, -, rfl⟩ := map_eq_ok.mp hps
  simp [Problem.inside, hne]

end LeagueAudit.Found
