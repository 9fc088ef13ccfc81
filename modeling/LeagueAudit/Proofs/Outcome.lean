import Mathlib.Data.List.Forall2

/-!
Computations that may fail. A computation that returned ran every one of its steps, so each step can
be taken out of it by name. Two runs agree when both fail or both return related values; which fault
comes first may differ between them.
-/
namespace LeagueAudit

variable {ε α β γ : Type}

/-- A sequence that returned ran its first step. -/
theorem bind_eq_ok {x : Except ε α} {f : α → Except ε β} {b : β} :
    (x >>= f) = .ok b ↔ ∃ a, x = .ok a ∧ f a = .ok b := by
  cases x with
  | error e => simp [bind, Except.bind]
  | ok a => simp [bind, Except.bind]

/-- A sequence fails with its first step, or behind it. -/
theorem bind_eq_error {x : Except ε α} {f : α → Except ε β} {e : ε} :
    (x >>= f) = .error e ↔ x = .error e ∨ ∃ a, x = .ok a ∧ f a = .error e := by
  cases x with
  | error d => simp [bind, Except.bind]
  | ok a => simp [bind, Except.bind]

/-- A computation that does not fail returns. -/
theorem exists_eq_ok {x : Except ε α} : (∃ a, x = .ok a) ↔ ∀ e, x ≠ .error e := by
  cases x <;> simp

/-- A last step that cannot fail makes no difference to whether a sequence returns. -/
theorem exists_bind_ok {x : Except ε α} {f : α → β} :
    (∃ b, (x >>= fun a => .ok (f a)) = .ok b) ↔ ∃ a, x = .ok a := by
  cases x <;> simp [bind, Except.bind]

theorem map_eq_ok {x : Except ε α} {f : α → β} {b : β} :
    x.map f = .ok b ↔ ∃ a, x = .ok a ∧ f a = b := by
  cases x with
  | error e => simp [Except.map]
  | ok a => simp [Except.map]

theorem mapError_eq_ok {δ : Type} {x : Except ε α} {f : ε → δ} {a : α} :
    x.mapError f = .ok a ↔ x = .ok a := by
  cases x <;> simp [Except.mapError]

/-- A list is run through in order, and every item has its own outcome. -/
theorem mapM_eq_ok {f : α → Except ε β} {xs : List α} {ys : List β} :
    xs.mapM f = .ok ys ↔ List.Forall₂ (fun x y => f x = .ok y) xs ys := by
  induction xs generalizing ys with
  | nil => cases ys <;> simp [pure, Except.pure]
  | cons x xs ih =>
    rw [List.mapM_cons, bind_eq_ok, List.forall₂_cons_left_iff]
    constructor
    · rintro ⟨y, hy, h⟩
      obtain ⟨rest, hrest, h⟩ := bind_eq_ok.mp h
      exact ⟨y, rest, hy, ih.mp hrest, (Except.ok.inj h).symm⟩
    · rintro ⟨y, rest, hy, hrest, rfl⟩
      exact ⟨y, hy, bind_eq_ok.mpr ⟨rest, ih.mpr hrest, rfl⟩⟩

/-- A list is run through exactly when none of its items fails. -/
theorem exists_mapM_eq_ok {f : α → Except ε β} {xs : List α} :
    (∃ ys, xs.mapM f = .ok ys) ↔ ∀ x ∈ xs, ∀ e, f x ≠ .error e := by
  induction xs with
  | nil => simp [pure, Except.pure]
  | cons x xs ih =>
    rw [List.forall_mem_cons, ← ih, List.mapM_cons]
    cases f x with
    | error e => simp [bind, Except.bind]
    | ok y =>
      cases xs.mapM f with
      | error e => simp [bind, Except.bind]
      | ok ys => simp [bind, Except.bind, pure, Except.pure]

/-- When it is known which items fail, and what the others give, the same is known of a list. -/
theorem mapM_eq_ok_iff {f : α → Except ε β} {g : α → β} {P : α → Prop}
    (h : ∀ x y, f x = .ok y ↔ P x ∧ y = g x) {xs : List α} {ys : List β} :
    xs.mapM f = .ok ys ↔ (∀ x ∈ xs, P x) ∧ ys = xs.map g := by
  rw [mapM_eq_ok]
  simp only [h]
  induction xs generalizing ys with
  | nil => simp
  | cons x xs ih =>
    rw [List.forall₂_cons_left_iff, List.forall_mem_cons, List.map_cons]
    constructor
    · rintro ⟨y, rest, ⟨hx, rfl⟩, hrest, rfl⟩
      obtain ⟨hxs, rfl⟩ := ih.mp hrest
      exact ⟨⟨hx, hxs⟩, rfl⟩
    · rintro ⟨⟨hx, hxs⟩, rfl⟩
      exact ⟨g x, xs.map g, ⟨hx, rfl⟩, ih.mpr ⟨hxs, rfl⟩, rfl⟩

theorem exists_right_of_forall₂ {R : α → β → Prop} {xs : List α} {ys : List β} {x : α}
    (h : List.Forall₂ R xs ys) (hx : x ∈ xs) : ∃ y ∈ ys, R x y := by
  induction h with
  | nil => simp at hx
  | cons hxy hrest ih =>
    rcases List.mem_cons.mp hx with rfl | hx
    · exact ⟨_, List.mem_cons_self, hxy⟩
    · obtain ⟨y, hy, hxy⟩ := ih hx
      exact ⟨y, List.mem_cons_of_mem _ hy, hxy⟩

theorem exists_left_of_forall₂ {R : α → β → Prop} {xs : List α} {ys : List β} {y : β}
    (h : List.Forall₂ R xs ys) (hy : y ∈ ys) : ∃ x ∈ xs, R x y := by
  have hflip : List.Forall₂ (fun y x => R x y) ys xs := h.flip
  exact exists_right_of_forall₂ hflip hy

theorem map_eq_map_of_forall₂ {f : α → γ} {g : β → γ} {xs : List α} {ys : List β}
    (h : List.Forall₂ (fun x y => f x = g y) xs ys) : xs.map f = ys.map g := by
  rw [← List.forall₂_eq_eq_eq, List.forall₂_map_left_iff, List.forall₂_map_right_iff]
  exact h

/-- Lists that are related to a list between them are related to each other. -/
theorem forall₂_comp {R : α → β → Prop} {S : β → γ → Prop} {xs : List α} {ys : List β}
    {zs : List γ} (hxs : List.Forall₂ R xs ys) (hzs : List.Forall₂ S ys zs) :
    List.Forall₂ (fun x z => ∃ y, R x y ∧ S y z) xs zs := by
  induction hxs generalizing zs with
  | nil =>
    cases hzs
    exact .nil
  | cons hxy hrest ih =>
    cases hzs with
    | cons hyz hzs => exact .cons ⟨_, hxy, hyz⟩ (ih hzs)

theorem exists_of_mapM_eq_ok {f : α → Except ε β} {xs : List α} {ys : List β} {x : α}
    (h : xs.mapM f = .ok ys) (hx : x ∈ xs) : ∃ y ∈ ys, f x = .ok y :=
  exists_right_of_forall₂ (mapM_eq_ok.mp h) hx

theorem exists_source_of_mapM_eq_ok {f : α → Except ε β} {xs : List α} {ys : List β} {y : β}
    (h : xs.mapM f = .ok ys) (hy : y ∈ ys) : ∃ x ∈ xs, f x = .ok y := by
  obtain ⟨x, hx, hxy⟩ := exists_left_of_forall₂ (mapM_eq_ok.mp h) hy
  exact ⟨x, hx, hxy⟩

/-- What stands in a place comes from the item in that place alone. -/
theorem getElem?_of_mapM_eq_ok {f : α → Except ε β} {xs : List α} {ys : List β}
    (h : xs.mapM f = .ok ys) (place : Nat) :
    ys[place]? = xs[place]?.bind fun x => (f x).toOption := by
  have hpairs := mapM_eq_ok.mp h
  induction hpairs generalizing place with
  | nil => rfl
  | cons hxy hrest ih =>
    cases place with
    | zero => simp [hxy, Except.toOption]
    | succ place => simpa using ih (mapM_eq_ok.mpr hrest) place

/-- What every item and its outcome agree on, the two lists agree on. -/
theorem map_eq_of_mapM_eq_ok {f : α → Except ε β} {g : α → γ} {h : β → γ} {xs : List α}
    {ys : List β} (hxs : xs.mapM f = .ok ys) (hagree : ∀ x ∈ xs, ∀ y, f x = .ok y → h y = g x) :
    ys.map h = xs.map g := by
  have hpairs := mapM_eq_ok.mp hxs
  induction hpairs with
  | nil => rfl
  | cons hxy hrest ih =>
    rw [List.map_cons, List.map_cons, hagree _ List.mem_cons_self _ hxy,
      ih (mapM_eq_ok.mpr hrest) fun x hx => hagree x (List.mem_cons_of_mem _ hx)]

/-- Lists of outcomes of the same items stand in a relation when the outcomes of each item do. -/
theorem forall₂_of_mapM_eq_ok {f : α → Except ε β} {g : α → Except ε γ} {R : β → γ → Prop}
    {xs : List α} {ys : List β} {zs : List γ} (hys : xs.mapM f = .ok ys)
    (hzs : xs.mapM g = .ok zs)
    (hrelated : ∀ x ∈ xs, ∀ y z, f x = .ok y → g x = .ok z → R y z) : List.Forall₂ R ys zs := by
  have hpairs := mapM_eq_ok.mp hys
  have hpairs' := mapM_eq_ok.mp hzs
  clear hys hzs
  induction hpairs generalizing zs with
  | nil =>
    cases hpairs'
    exact .nil
  | cons hxy hrest ih =>
    cases hpairs' with
    | cons hxz hrest' =>
      refine .cons (hrelated _ List.mem_cons_self _ _ hxy hxz) (ih ?_ hrest')
      intro x hx
      exact hrelated x (List.mem_cons_of_mem _ hx)

theorem mapM_map_eq_ok {f : β → Except ε γ} {g : α → β} {h : α → γ} {xs : List α}
    (hxs : ∀ x ∈ xs, f (g x) = .ok (h x)) : (xs.map g).mapM f = .ok (xs.map h) := by
  rw [mapM_eq_ok, List.forall₂_map_left_iff, List.forall₂_map_right_iff, List.forall₂_same]
  exact hxs

/-- Of the outcomes of a list, part is left when items are taken out and each of the others gives
part of what it gave. -/
theorem mapM_filter_sublist {f g : α → Except ε (List β)} {p : α → Bool}
    {xs : List α} {ys : List (List β)} (h : xs.mapM f = .ok ys)
    (hpart : ∀ x ∈ xs, p x = true → ∀ y, f x = .ok y → ∃ z, g x = .ok z ∧ z.Sublist y) :
    ∃ zs, (xs.filter p).mapM g = .ok zs ∧ zs.flatten.Sublist ys.flatten := by
  have hpairs := mapM_eq_ok.mp h
  clear h
  induction hpairs with
  | nil => exact ⟨[], rfl, .refl _⟩
  | @cons x y xs ys hxy hrest ih =>
    obtain ⟨zs, hzs, hsub⟩ := ih fun x hx => hpart x (List.mem_cons_of_mem _ hx)
    rw [List.flatten_cons]
    by_cases hx : p x = true
    · obtain ⟨z, hz, hzy⟩ := hpart x List.mem_cons_self hx y hxy
      refine ⟨z :: zs, ?_, hzy.append hsub⟩
      rw [List.filter_cons_of_pos hx, mapM_eq_ok]
      exact .cons hz (mapM_eq_ok.mp hzs)
    · refine ⟨zs, ?_, hsub.trans (List.sublist_append_right y _)⟩
      rwa [List.filter_cons_of_neg hx]

/-- A test that may fail says yes. -/
def saysYes (x : Except ε Bool) : Bool := x.toOption.getD false

@[simp]
theorem saysYes_ok (b : Bool) : saysYes (.ok b : Except ε Bool) = b := rfl

theorem filterAuxM_eq_ok {p : α → Except ε Bool} {xs acc ys : List α} :
    List.filterAuxM p xs acc = .ok ys ↔ (∀ x ∈ xs, ∃ b, p x = .ok b) ∧
      ys = (xs.filter fun x => saysYes (p x)).reverse ++ acc := by
  induction xs generalizing acc with
  | nil => simp [List.filterAuxM, pure, Except.pure, eq_comm]
  | cons x xs ih =>
    rw [List.filterAuxM, bind_eq_ok, List.forall_mem_cons]
    constructor
    · rintro ⟨b, hb, h⟩
      obtain ⟨hrest, rfl⟩ := ih.mp h
      exact ⟨⟨⟨b, hb⟩, hrest⟩, by cases b <;> simp [hb]⟩
    · rintro ⟨⟨⟨b, hb⟩, hrest⟩, rfl⟩
      exact ⟨b, hb, ih.mpr ⟨hrest, by cases b <;> simp [hb]⟩⟩

/-- A list is filtered when its test is decided for every item. -/
theorem filterM_eq_ok {p : α → Except ε Bool} {xs ys : List α} :
    xs.filterM p = .ok ys ↔
      (∀ x ∈ xs, ∃ b, p x = .ok b) ∧ ys = xs.filter fun x => saysYes (p x) := by
  rw [List.filterM, bind_eq_ok]
  constructor
  · rintro ⟨zs, hzs, h⟩
    obtain ⟨hdecided, rfl⟩ := filterAuxM_eq_ok.mp hzs
    cases Except.ok.inj h
    exact ⟨hdecided, by simp⟩
  · rintro ⟨hdecided, rfl⟩
    exact ⟨_, filterAuxM_eq_ok.mpr ⟨hdecided, rfl⟩, by simp [pure, Except.pure]⟩

theorem toOption_bind (x : Except ε α) (f : α → Except ε β) :
    (x >>= f).toOption = x.toOption.bind fun a => (f a).toOption := by
  cases x <;> rfl

theorem toOption_eq_some {x : Except ε α} {a : α} : x.toOption = some a ↔ x = .ok a := by
  cases x <;> simp [Except.toOption]

/-- What is read off an outcome shows that there is one. -/
theorem exists_ok_of_toOption_map {x : Except ε α} {f : α → β} {b : β}
    (h : x.toOption.map f = some b) : ∃ a, x = .ok a ∧ f a = b := by
  cases x with
  | error e => simp [Except.toOption] at h
  | ok a => exact ⟨a, rfl, Option.some.inj h⟩

/-! Two runs side by side. -/

section SideBySide

variable {δ : Type}

/-- Both runs fail, or both return and the values are related. -/
inductive Agree (R : α → β → Prop) : Except ε α → Except ε β → Prop where
  | ok {a : α} {b : β} (h : R a b) : Agree R (.ok a) (.ok b)
  | error (e f : ε) : Agree R (.error e) (.error f)

theorem agree_self (x : Except ε α) : Agree Eq x x := by
  cases x with
  | ok a => exact .ok rfl
  | error e => exact .error e e

namespace Agree

variable {R : α → β → Prop} {S : γ → δ → Prop} {x : Except ε α} {y : Except ε β}

theorem bind_of {f : α → Except ε γ} {g : β → Except ε δ} (h : Agree R x y)
    (hfg : ∀ a b, x = .ok a → y = .ok b → R a b → Agree S (f a) (g b)) :
    Agree S (x >>= f) (y >>= g) := by
  cases h with
  | ok h => exact hfg _ _ rfl rfl h
  | error e f => exact .error e f

theorem bind {f : α → Except ε γ} {g : β → Except ε δ} (h : Agree R x y)
    (hfg : ∀ a b, R a b → Agree S (f a) (g b)) : Agree S (x >>= f) (y >>= g) :=
  h.bind_of fun a b _ _ => hfg a b

/-- Runs that begin in the same way agree when they agree on what follows. -/
theorem bind_self {x : Except ε α} {f : α → Except ε γ} {g : α → Except ε δ}
    (h : ∀ a, Agree S (f a) (g a)) : Agree S (x >>= f) (x >>= g) := by
  refine (agree_self x).bind ?_
  rintro a _ rfl
  exact h a

theorem map {f : α → γ} {g : β → δ} (h : Agree R x y) (hfg : ∀ a b, R a b → S (f a) (g b)) :
    Agree S (x.map f) (y.map g) := by
  cases h with
  | ok h => exact .ok (hfg _ _ h)
  | error e f => exact .error e f

theorem related (h : Agree R x y) {a : α} {b : β} (ha : x = .ok a) (hb : y = .ok b) : R a b := by
  subst ha hb
  cases h with
  | ok h => exact h

end Agree

theorem agree_perm_trans {x y z : Except ε (List α)} (hxy : Agree List.Perm x y)
    (hyz : Agree List.Perm y z) : Agree List.Perm x z := by
  cases hxy with
  | ok h =>
    cases hyz with
    | ok h' => exact .ok (h.trans h')
  | error e f =>
    cases hyz with
    | error _ g => exact .error e g

/-- Lists in different orders are run through alike. -/
theorem agree_mapM_of_perm {xs ys : List α} (h : xs.Perm ys) (f : α → Except ε β) :
    Agree List.Perm (xs.mapM f) (ys.mapM f) := by
  induction h with
  | nil => exact .ok .nil
  | cons x _ ih =>
    rw [List.mapM_cons, List.mapM_cons]
    refine (agree_self (f x)).bind ?_
    rintro b _ rfl
    exact ih.bind fun bs cs hperm => .ok (hperm.cons b)
  | swap x y rest =>
    rw [List.mapM_cons, List.mapM_cons, List.mapM_cons, List.mapM_cons]
    cases f x with
    | error e => cases f y <;> exact .error _ _
    | ok b =>
      cases f y with
      | error e => exact .error _ _
      | ok c =>
        cases rest.mapM f with
        | error e => exact .error _ _
        | ok bs => exact .ok (.swap b c bs)
  | trans _ _ ih ih' => exact agree_perm_trans ih ih'

end SideBySide

end LeagueAudit
