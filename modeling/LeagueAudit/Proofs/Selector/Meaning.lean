import LeagueAudit.Proofs.Outcome
import LeagueAudit.Selector.Scope

/-!
What selectors say. Under truth values of its criteria a selector is a statement, and its normal
form is the same statement. The part of a selector that is left for one kind of entity is the
statement without the criteria that restrict nothing, wherever they stand.
-/
namespace LeagueAudit.Selector

mutual

/-- The truth of a selector about an entity of a kind. -/
def truth (kind : EntityKind) (holds : Leaf → Bool) : Selector → Bool
  | wildcard => true
  | allOf children => truthAll kind holds children
  | anyOf children => truthAny kind holds children
  | not child => !truth kind holds child
  | entityScope scope inner => if kind = scope then truth kind holds inner else true
  | leaf criterion => holds criterion

def truthAll (kind : EntityKind) (holds : Leaf → Bool) : List Selector → Bool
  | [] => true
  | s :: rest => truth kind holds s && truthAll kind holds rest

def truthAny (kind : EntityKind) (holds : Leaf → Bool) : List Selector → Bool
  | [] => false
  | s :: rest => truth kind holds s || truthAny kind holds rest

end

mutual

/-- What a selector, or with `negated` its negation, demands of an entity of a kind when criteria
that restrict nothing are met by themselves and by their negations. -/
def admits (kind : EntityKind) (restricts holds : Leaf → Bool) (negated : Bool) : Selector → Bool
  | wildcard => !negated
  | allOf children =>
    if negated then admitsAny kind restricts holds true children
    else admitsAll kind restricts holds false children
  | anyOf children =>
    if negated then admitsAll kind restricts holds true children
    else admitsAny kind restricts holds false children
  | not child => admits kind restricts holds (!negated) child
  | entityScope scope inner => scope ≠ kind || truth kind holds inner != negated
  | leaf criterion => !restricts criterion || holds criterion != negated

def admitsAll (kind : EntityKind) (restricts holds : Leaf → Bool) (negated : Bool) :
    List Selector → Bool
  | [] => true
  | s :: rest =>
    admits kind restricts holds negated s && admitsAll kind restricts holds negated rest

def admitsAny (kind : EntityKind) (restricts holds : Leaf → Bool) (negated : Bool) :
    List Selector → Bool
  | [] => false
  | s :: rest =>
    admits kind restricts holds negated s || admitsAny kind restricts holds negated rest

end

/-- A property of all selectors, from the children to the whole. -/
theorem induct {P : Selector → Prop} (onWildcard : P wildcard)
    (onAllOf : ∀ children, (∀ s ∈ children, P s) → P (allOf children))
    (onAnyOf : ∀ children, (∀ s ∈ children, P s) → P (anyOf children))
    (onNot : ∀ child, P child → P (not child))
    (onScope : ∀ scope inner, P inner → P (entityScope scope inner))
    (onLeaf : ∀ criterion, P (leaf criterion)) (s : Selector) : P s :=
  Selector.rec (motive_1 := P) (motive_2 := fun children => ∀ s ∈ children, P s) onWildcard onAllOf
    onAnyOf onNot onScope onLeaf (List.forall_mem_nil _)
    (fun _ _ hs hrest => List.forall_mem_cons.mpr ⟨hs, hrest⟩) s

variable {kind : EntityKind} {restricts holds : Leaf → Bool} {negated : Bool}

theorem truthAll_eq (children : List Selector) :
    truthAll kind holds children = children.all (truth kind holds) := by
  induction children with
  | nil => rfl
  | cons s rest ih => rw [truthAll, ih, List.all_cons]

theorem truthAny_eq (children : List Selector) :
    truthAny kind holds children = children.any (truth kind holds) := by
  induction children with
  | nil => rfl
  | cons s rest ih => rw [truthAny, ih, List.any_cons]

theorem admitsAll_eq (children : List Selector) :
    admitsAll kind restricts holds negated children =
      children.all (admits kind restricts holds negated) := by
  induction children with
  | nil => rfl
  | cons s rest ih => rw [admitsAll, ih, List.all_cons]

theorem admitsAny_eq (children : List Selector) :
    admitsAny kind restricts holds negated children =
      children.any (admits kind restricts holds negated) := by
  induction children with
  | nil => rfl
  | cons s rest ih => rw [admitsAny, ih, List.any_cons]

theorem normalAll_eq (children : List Selector) :
    normalAll negated children = children.map (normal negated) := by
  induction children with
  | nil => rfl
  | cons s rest ih => rw [normalAll, ih, List.map_cons]

theorem all_of_map_eq {α β : Type} {p : α → Bool} {q : β → Bool} {xs : List α} {ys : List β}
    (h : xs.map p = ys.map q) : xs.all p = ys.all q := by
  have hall := congrArg (·.all id) h
  simpa only [List.all_map, Function.id_comp] using hall

theorem any_of_map_eq {α β : Type} {p : α → Bool} {q : β → Bool} {xs : List α} {ys : List β}
    (h : xs.map p = ys.map q) : xs.any p = ys.any q := by
  have hany := congrArg (·.any id) h
  simpa only [List.any_map, Function.id_comp] using hany

theorem truthAll_normalAll {children : List Selector}
    (h : ∀ s ∈ children, truth kind holds (normal negated s) = (truth kind holds s != negated)) :
    truthAll kind holds (normalAll negated children) =
      children.all fun s => truth kind holds s != negated := by
  rw [truthAll_eq, normalAll_eq, List.all_map]
  exact all_of_map_eq (List.map_congr_left h)

theorem truthAny_normalAll {children : List Selector}
    (h : ∀ s ∈ children, truth kind holds (normal negated s) = (truth kind holds s != negated)) :
    truthAny kind holds (normalAll negated children) =
      children.any fun s => truth kind holds s != negated := by
  rw [truthAny_eq, normalAll_eq, List.any_map]
  exact any_of_map_eq (List.map_congr_left h)

/-- The normal form of a selector or of its negation says the same. -/
theorem truth_normal (s : Selector) (negated : Bool) :
    truth kind holds (normal negated s) = (truth kind holds s != negated) := by
  induction s using induct generalizing negated with
  | onWildcard => cases negated <;> rfl
  | onAllOf children ih =>
    cases negated with
    | false =>
      rw [normal, if_neg Bool.false_ne_true, truth, truth,
        truthAll_normalAll fun s hs => ih s hs false, truthAll_eq]
      simp only [Bool.bne_false]
    | true =>
      rw [normal, if_pos rfl, truth, truth, truthAll_eq,
        truthAny_normalAll fun s hs => ih s hs true]
      simp only [Bool.bne_true, List.not_all_eq_any_not]
  | onAnyOf children ih =>
    cases negated with
    | false =>
      rw [normal, if_neg Bool.false_ne_true, truth, truth,
        truthAny_normalAll fun s hs => ih s hs false, truthAny_eq]
      simp only [Bool.bne_false]
    | true =>
      rw [normal, if_pos rfl, truth, truth, truthAny_eq,
        truthAll_normalAll fun s hs => ih s hs true]
      simp only [Bool.bne_true, List.not_any_eq_all_not]
  | onNot child ih =>
    rw [normal, ih, truth]
    cases negated <;> simp
  | onScope scope inner ih =>
    cases negated with
    | false =>
      rw [normal, if_neg Bool.false_ne_true, truth, truth, ih]
      simp
    | true =>
      rw [normal, if_pos rfl, truth]
      simp
  | onLeaf criterion => cases negated <;> simp [normal, truth]

theorem all_or_any {α : Type} {p q : α → Bool} {xs : List α}
    (h : ∀ x ∈ xs, (p x || q x) = true) : (xs.all p || xs.any q) = true := by
  by_cases hall : xs.all p = true
  · rw [hall, Bool.true_or]
  · obtain ⟨x, hx, hfails⟩ : ∃ x ∈ xs, p x = false := by simpa using hall
    have hother : q x = true := by
      have hboth := h x hx
      rwa [hfails, Bool.false_or] at hboth
    rw [List.any_eq_true.mpr ⟨x, hx, hother⟩, Bool.or_true]

/-- An entity meets what a selector demands, or what its negation does. -/
theorem admits_or_admits_not (s : Selector) :
    (admits kind restricts holds false s || admits kind restricts holds true s) = true := by
  induction s using induct with
  | onWildcard => rfl
  | onAllOf children ih =>
    simp only [admits, admitsAll_eq, admitsAny_eq, Bool.false_eq_true, if_false, if_true]
    exact all_or_any ih
  | onAnyOf children ih =>
    simp only [admits, admitsAll_eq, admitsAny_eq, Bool.false_eq_true, if_false, if_true]
    rw [Bool.or_comm]
    apply all_or_any
    intro s hs
    rw [Bool.or_comm]
    exact ih s hs
  | onNot child ih => rw [admits, admits, Bool.or_comm, Bool.not_false, Bool.not_true, ih]
  | onScope scope inner ih =>
    rw [admits, admits]
    cases truth kind holds inner <;> simp
  | onLeaf criterion =>
    rw [admits, admits]
    cases holds criterion <;> simp

def holdsOf (z : Zone) (c : Candidate) (criterion : Leaf) : Bool := saysYes (criterion.holds z c)

/-- A selector that can be evaluated is evaluated to its truth. -/
theorem matchesOne_eq_ok {z : Zone} {c : Candidate} (s : Selector) {b : Bool}
    (h : matchesOne z c s = .ok b) : b = truth c.kind (holdsOf z c) s := by
  induction s using induct generalizing b with
  | onWildcard => exact (Except.ok.inj h).symm
  | onAllOf children ih =>
    rw [matchesOne] at h
    rw [truth]
    -- Behind a child that does not match, the others are not looked at and make no difference.
    induction children generalizing b with
    | nil => exact (Except.ok.inj h).symm
    | cons s rest ihrest =>
      rw [matchesAll] at h
      obtain ⟨first, hfirst, h⟩ := bind_eq_ok.mp h
      rw [truthAll, ← ih s List.mem_cons_self hfirst]
      cases first with
      | true => exact ihrest (fun s hs => ih s (List.mem_cons_of_mem _ hs)) h
      | false => exact (Except.ok.inj h).symm
  | onAnyOf children ih =>
    rw [matchesOne] at h
    rw [truth]
    induction children generalizing b with
    | nil => exact (Except.ok.inj h).symm
    | cons s rest ihrest =>
      rw [matchesAny] at h
      obtain ⟨first, hfirst, h⟩ := bind_eq_ok.mp h
      rw [truthAny, ← ih s List.mem_cons_self hfirst]
      cases first with
      | true => exact (Except.ok.inj h).symm
      | false => exact ihrest (fun s hs => ih s (List.mem_cons_of_mem _ hs)) h
  | onNot child ih =>
    obtain ⟨b', hb', h⟩ := bind_eq_ok.mp h
    rw [truth, ← ih hb', Except.ok.inj h]
  | onScope scope inner ih =>
    rw [matchesOne] at h
    rw [truth]
    split at h
    · next hkind => rw [if_pos hkind, ih h]
    · next hkind => rw [if_neg hkind, Except.ok.inj h]
  | onLeaf criterion =>
    rw [matchesOne] at h
    rw [truth, holdsOf, h, saysYes_ok]

/-- What is left of a selector demands something; nothing left demands nothing. -/
def demands (kind : EntityKind) (holds : Leaf → Bool) (part : Option Selector) : Bool :=
  part.elim true (truth kind holds)

theorem demands_conjunction (parts : List (Option Selector)) :
    demands kind holds (conjunction (parts.filterMap fun p => p)) =
      parts.all (demands kind holds) := by
  have hvalue : ∀ some : List Selector,
      demands kind holds (conjunction some) = some.all (truth kind holds) := by
    intro some
    match some with
    | [] => rfl
    | [one] => simp [conjunction, demands]
    | one :: two :: rest => simp [conjunction, demands, truth, truthAll_eq]
  rw [hvalue]
  induction parts with
  | nil => rfl
  | cons part rest ih =>
    cases part with
    | none => simpa [demands] using ih
    | some s => simp [demands, ih]

theorem demands_anyOf (parts : List (Option Selector)) :
    demands kind holds
        (if parts.any Option.isNone then none else some (anyOf (parts.filterMap fun p => p))) =
      parts.any (demands kind holds) := by
  split
  · next hnone =>
    obtain ⟨part, hpart, hnone⟩ := List.any_eq_true.mp hnone
    obtain rfl := Option.isNone_iff_eq_none.mp hnone
    exact (List.any_eq_true.mpr ⟨none, hpart, rfl⟩).symm
  · next hsome =>
    rw [demands, Option.elim_some, truth, truthAny_eq]
    induction parts with
    | nil => rfl
    | cons part rest ih =>
      rw [List.any_cons, Bool.or_eq_true, not_or] at hsome
      cases part with
      | none => exact absurd rfl hsome.1
      | some s => simp [demands, ih hsome.2]

theorem projectAll_eq (index : Index) (children : List Selector) :
    projectAll index kind children = children.mapM (project index kind) := by
  induction children with
  | nil => rfl
  | cons s rest ih =>
    rw [projectAll, List.mapM_cons, ih]
    rfl

/-- What can restrict entities of a kind. -/
def restrictsOf (index : Index) (kind : EntityKind) (criterion : Leaf) : Bool :=
  saysYes (criterion.restricts index kind)

theorem map_demands {index : Index} {children : List Selector} {parts : List (Option Selector)}
    (hparts : projectAll index kind (normalAll negated children) = .ok parts)
    (ih : ∀ s ∈ children, ∀ part, project index kind (normal negated s) = .ok part →
      demands kind holds part = admits kind (restrictsOf index kind) holds negated s) :
    parts.map (demands kind holds) =
      children.map (admits kind (restrictsOf index kind) holds negated) := by
  rw [projectAll_eq, normalAll_eq, List.mapM_map] at hparts
  exact map_eq_of_mapM_eq_ok hparts ih

/-- What the projection of a normal form leaves demands what the selector, or its negation, does. -/
theorem demands_project {index : Index} (s : Selector) {negated : Bool} {part : Option Selector}
    (h : project index kind (normal negated s) = .ok part) :
    demands kind holds part = admits kind (restrictsOf index kind) holds negated s := by
  induction s using induct generalizing negated part with
  | onWildcard => cases negated <;> cases Except.ok.inj h <;> rfl
  | onAllOf children ih =>
    cases negated with
    | false =>
      obtain ⟨parts, hparts, h⟩ := bind_eq_ok.mp h
      have hmap := map_demands hparts fun s hs part hpart => ih s hs hpart
      rw [← Except.ok.inj h, demands_conjunction, admits, if_neg Bool.false_ne_true, admitsAll_eq]
      exact all_of_map_eq hmap
    | true =>
      obtain ⟨parts, hparts, h⟩ := bind_eq_ok.mp h
      have hmap := map_demands hparts fun s hs part hpart => ih s hs hpart
      rw [← Except.ok.inj h, demands_anyOf, admits, if_pos rfl, admitsAny_eq]
      exact any_of_map_eq hmap
  | onAnyOf children ih =>
    cases negated with
    | false =>
      obtain ⟨parts, hparts, h⟩ := bind_eq_ok.mp h
      have hmap := map_demands hparts fun s hs part hpart => ih s hs hpart
      rw [← Except.ok.inj h, demands_anyOf, admits, if_neg Bool.false_ne_true, admitsAny_eq]
      exact any_of_map_eq hmap
    | true =>
      obtain ⟨parts, hparts, h⟩ := bind_eq_ok.mp h
      have hmap := map_demands hparts fun s hs part hpart => ih s hs hpart
      rw [← Except.ok.inj h, demands_conjunction, admits, if_pos rfl, admitsAll_eq]
      exact all_of_map_eq hmap
  | onNot child ih =>
    rw [normal] at h
    rw [admits]
    exact ih h
  | onScope scope inner =>
    cases negated with
    | false =>
      rw [normal, if_neg Bool.false_ne_true] at h
      rw [← Except.ok.inj h, admits]
      by_cases hscope : scope = kind
      · simp [demands, hscope, truth_normal]
      · simp [demands, hscope]
    | true =>
      rw [normal, if_pos rfl] at h
      obtain ⟨inside, hinside, h⟩ := bind_eq_ok.mp h
      rw [← Except.ok.inj h, ← Except.ok.inj hinside, admits]
      by_cases hscope : scope = kind
      · simp [demands, hscope, truth]
      · simp [demands, hscope]
  | onLeaf criterion =>
    cases negated with
    | false =>
      obtain ⟨restricts, hrestricts, h⟩ := bind_eq_ok.mp h
      rw [← Except.ok.inj h, admits, restrictsOf, hrestricts, saysYes_ok]
      cases restricts <;> simp [demands, truth]
    | true =>
      obtain ⟨inside, hinside, h⟩ := bind_eq_ok.mp h
      obtain ⟨restricts, hrestricts, hinside⟩ := bind_eq_ok.mp hinside
      rw [← Except.ok.inj h, ← Except.ok.inj hinside, admits, restrictsOf, hrestricts, saysYes_ok]
      cases restricts <;> simp [demands, truth]

end LeagueAudit.Selector
