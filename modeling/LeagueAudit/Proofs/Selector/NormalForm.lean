import LeagueAudit.Proofs.Selector.Meaning
import LeagueAudit.Proofs.Selector.Reading

/-!
Negation normal forms. Matching tries the criteria of a selector one by one until they decide, and
the normal form of a selector tries the same criteria in the same order; so both come to the same
answer, or fail at the same criterion. What was read from a document has negations directly above
criteria only, once it is in normal form.
-/
namespace LeagueAudit.Selector

variable {z : Zone} {c : Candidate} {negated : Bool}

section Answers

/-- Children are matched in order, as long as their answers are the one that decides nothing. -/
def goesOn (answer : Selector → Except Fault Bool) (neutral : Bool) :
    List Selector → Except Fault Bool
  | [] => .ok neutral
  | s :: rest => do if (← answer s) = neutral then goesOn answer neutral rest else .ok !neutral

theorem matchesAll_eq (children : List Selector) :
    matchesAll z c children = goesOn (matchesOne z c) true children := by
  induction children with
  | nil => rfl
  | cons s rest ih =>
    rw [matchesAll, goesOn, ih]
    rfl

theorem matchesAny_eq (children : List Selector) :
    matchesAny z c children = goesOn (matchesOne z c) false children := by
  induction children with
  | nil => rfl
  | cons s rest ih =>
    rw [matchesAny, goesOn, ih]
    congr 1
    funext b
    cases b <;> rfl

theorem map_bne_false (x : Except Fault Bool) : x.map (· != false) = x := by
  cases x with
  | error f => rfl
  | ok b => rw [Except.map, Bool.bne_false]

/-- Children that answer the opposite are matched as far, and decide the opposite. -/
theorem goesOn_normalAll (neutral : Bool) {children : List Selector}
    (h : ∀ s ∈ children,
      matchesOne z c (normal negated s) = (matchesOne z c s).map (· != negated)) :
    goesOn (matchesOne z c) (neutral != negated) (normalAll negated children) =
      (goesOn (matchesOne z c) neutral children).map (· != negated) := by
  induction children with
  | nil => rfl
  | cons s rest ih =>
    rw [normalAll, goesOn, goesOn, h s List.mem_cons_self,
      ih fun s hs => h s (List.mem_cons_of_mem _ hs)]
    cases matchesOne z c s with
    | error f => rfl
    | ok b => cases b <;> cases neutral <;> cases negated <;> rfl

/-- The normal form of a selector or of its negation is matched as the selector is, faults
included. -/
theorem matchesOne_normal (s : Selector) (negated : Bool) :
    matchesOne z c (normal negated s) = (matchesOne z c s).map (· != negated) := by
  induction s using induct generalizing negated with
  | onWildcard => cases negated <;> rfl
  | onAllOf children ih =>
    have hchildren := goesOn_normalAll true fun s hs => ih s hs negated
    rw [matchesOne, matchesAll_eq, ← hchildren]
    cases negated with
    | false => exact matchesAll_eq _
    | true => exact matchesAny_eq _
  | onAnyOf children ih =>
    have hchildren := goesOn_normalAll false fun s hs => ih s hs negated
    rw [matchesOne, matchesAny_eq, ← hchildren]
    cases negated with
    | false => exact matchesAny_eq _
    | true => exact matchesAll_eq _
  | onNot child ih =>
    rw [normal, ih, matchesOne]
    cases matchesOne z c child with
    | error f => rfl
    | ok b => cases b <;> cases negated <;> rfl
  | onScope kind inner ih =>
    cases negated with
    | false =>
      rw [map_bne_false]
      change matchesOne z c (entityScope kind (normal false inner)) = _
      rw [matchesOne, matchesOne, ih, map_bne_false]
    | true =>
      change matchesOne z c (not (entityScope kind inner)) = _
      rw [matchesOne]
      cases matchesOne z c (entityScope kind inner) with
      | error f => rfl
      | ok b => cases b <;> rfl
  | onLeaf criterion =>
    cases negated with
    | false => rw [map_bne_false]; rfl
    | true =>
      change matchesOne z c (not (leaf criterion)) = _
      rw [matchesOne]
      cases matchesOne z c (leaf criterion) with
      | error f => rfl
      | ok b => cases b <;> rfl

end Answers

section Trials

mutual

/-- The criteria that are tried when a candidate is matched, in order. -/
def tried (z : Zone) (c : Candidate) : Selector → List Leaf
  | wildcard => []
  | allOf children => triedWhile z c true children
  | anyOf children => triedWhile z c false children
  | not child => tried z c child
  | entityScope kind inner => if c.kind = kind then tried z c inner else []
  | leaf criterion => [criterion]

/-- The criteria that children try, as long as their answers are the one that decides nothing. -/
def triedWhile (z : Zone) (c : Candidate) (neutral : Bool) : List Selector → List Leaf
  | [] => []
  | s :: rest =>
    tried z c s ++
      match matchesOne z c s with
      | .ok b => if b = neutral then triedWhile z c neutral rest else []
      | .error _ => []

end

theorem goesOn_eq_error {neutral : Bool} {children : List Selector} {f : Fault}
    (h : goesOn (matchesOne z c) neutral children = .error f)
    (ih : ∀ s ∈ children, matchesOne z c s = .error f →
      ∃ criterion, (tried z c s).getLast? = some criterion ∧ criterion.holds z c = .error f) :
    ∃ criterion, (triedWhile z c neutral children).getLast? = some criterion ∧
      criterion.holds z c = .error f := by
  induction children with
  | nil => cases h
  | cons s rest ihrest =>
    rw [goesOn, bind_eq_error] at h
    rw [triedWhile]
    rcases h with h | ⟨b, hb, h⟩
    · rw [h]
      dsimp only
      rw [List.append_nil]
      exact ih s List.mem_cons_self h
    · rw [hb]
      dsimp only
      by_cases hopen : b = neutral
      · rw [if_pos hopen] at h ⊢
        obtain ⟨criterion, hlast, hfails⟩ :=
          ihrest h fun s hs => ih s (List.mem_cons_of_mem _ hs)
        refine ⟨criterion, ?_, hfails⟩
        rw [List.getLast?_append, hlast]
        rfl
      · rw [if_neg hopen] at h
        cases h

/-- A match that fails does so at the criterion that it tried last. -/
theorem exists_getLast?_tried {s : Selector} {f : Fault} (h : matchesOne z c s = .error f) :
    ∃ criterion, (tried z c s).getLast? = some criterion ∧ criterion.holds z c = .error f := by
  induction s using induct with
  | onWildcard => cases h
  | onAllOf children ih =>
    rw [matchesOne, matchesAll_eq] at h
    rw [tried]
    exact goesOn_eq_error h ih
  | onAnyOf children ih =>
    rw [matchesOne, matchesAny_eq] at h
    rw [tried]
    exact goesOn_eq_error h ih
  | onNot child ih =>
    rw [matchesOne, bind_eq_error] at h
    rw [tried]
    rcases h with h | ⟨b, -, h⟩
    · exact ih h
    · cases h
  | onScope kind inner ih =>
    rw [matchesOne] at h
    rw [tried]
    split at h
    · next hkind =>
      rw [if_pos hkind]
      exact ih h
    · cases h
  | onLeaf criterion => exact ⟨criterion, rfl, h⟩

theorem triedWhile_normalAll (neutral : Bool) {children : List Selector}
    (h : ∀ s ∈ children, tried z c (normal negated s) = tried z c s) :
    triedWhile z c (neutral != negated) (normalAll negated children) =
      triedWhile z c neutral children := by
  induction children with
  | nil => rfl
  | cons s rest ih =>
    rw [normalAll, triedWhile, triedWhile, h s List.mem_cons_self, matchesOne_normal,
      ih fun s hs => h s (List.mem_cons_of_mem _ hs)]
    congr 1
    cases matchesOne z c s with
    | error f => rfl
    | ok b => cases b <;> cases neutral <;> cases negated <;> rfl

/-- The normal form of a selector or of its negation tries the same criteria. -/
theorem tried_normal (s : Selector) (negated : Bool) :
    tried z c (normal negated s) = tried z c s := by
  induction s using induct generalizing negated with
  | onWildcard => cases negated <;> rfl
  | onAllOf children ih =>
    have hchildren := triedWhile_normalAll true fun s hs => ih s hs negated
    rw [tried, ← hchildren]
    cases negated <;> rfl
  | onAnyOf children ih =>
    have hchildren := triedWhile_normalAll false fun s hs => ih s hs negated
    rw [tried, ← hchildren]
    cases negated <;> rfl
  | onNot child ih => rw [normal, ih, tried]
  | onScope kind inner ih =>
    cases negated with
    | false =>
      change tried z c (entityScope kind (normal false inner)) = _
      rw [tried, tried, ih]
    | true => rfl
  | onLeaf criterion => cases negated <;> rfl

end Trials

section Shape

/-- A negation stands directly above a criterion only. -/
inductive IsNormal : Selector → Prop where
  | wildcard : IsNormal wildcard
  | allOf {children : List Selector} (h : ∀ s ∈ children, IsNormal s) : IsNormal (allOf children)
  | anyOf {children : List Selector} (h : ∀ s ∈ children, IsNormal s) : IsNormal (anyOf children)
  | entityScope (kind : EntityKind) {inner : Selector} (h : IsNormal inner) :
    IsNormal (entityScope kind inner)
  | leaf (criterion : Leaf) : IsNormal (leaf criterion)
  | notLeaf (criterion : Leaf) : IsNormal (not (.leaf criterion))

/-- No part of a selector is about one kind of entity alone. -/
inductive IsPlain : Selector → Prop where
  | wildcard : IsPlain wildcard
  | allOf {children : List Selector} (h : ∀ s ∈ children, IsPlain s) : IsPlain (allOf children)
  | anyOf {children : List Selector} (h : ∀ s ∈ children, IsPlain s) : IsPlain (anyOf children)
  | not {child : Selector} (h : IsPlain child) : IsPlain (not child)
  | leaf (criterion : Leaf) : IsPlain (leaf criterion)

theorem IsPlain.isNormal {s : Selector} (h : IsPlain s) (negated : Bool) :
    IsNormal (normal negated s) := by
  induction h generalizing negated with
  | wildcard =>
    cases negated with
    | false => exact .wildcard
    | true => exact .anyOf (List.forall_mem_nil _)
  | @allOf children _ ih =>
    have hchildren : ∀ s ∈ normalAll negated children, IsNormal s := by
      rw [normalAll_eq]
      exact List.forall_mem_map.mpr fun s hs => ih s hs negated
    cases negated with
    | false => exact .allOf hchildren
    | true => exact .anyOf hchildren
  | @anyOf children _ ih =>
    have hchildren : ∀ s ∈ normalAll negated children, IsNormal s := by
      rw [normalAll_eq]
      exact List.forall_mem_map.mpr fun s hs => ih s hs negated
    cases negated with
    | false => exact .anyOf hchildren
    | true => exact .allOf hchildren
  | not _ ih => exact ih !negated
  | leaf criterion =>
    cases negated with
    | false => exact .leaf criterion
    | true => exact .notLeaf criterion

/-- A selector in normal form is its own normal form. -/
theorem IsNormal.toNormalForm_eq {s : Selector} (h : IsNormal s) : s.toNormalForm = s := by
  unfold toNormalForm
  have hall : ∀ {children : List Selector}, (∀ s ∈ children, normal false s = s) →
      normalAll false children = children := by
    intro children hchildren
    rw [normalAll_eq, List.map_congr_left hchildren, List.map_id']
  induction h with
  | wildcard => rfl
  | allOf _ ih => exact congrArg Selector.allOf (hall ih)
  | anyOf _ ih => exact congrArg Selector.anyOf (hall ih)
  | entityScope kind _ ih => exact congrArg (Selector.entityScope kind) ih
  | leaf criterion => rfl
  | notLeaf criterion => rfl

/-- What a document reads as below the top level is plain. -/
structure ReadsPlain (value : Json) : Prop where
  node : ∀ path s, readNode path value = .ok s → IsPlain s
  items : ∀ path children, readItems path value = .ok children → ∀ s ∈ children, IsPlain s

theorem isPlain_together {parts : List Selector} (h : ∀ s ∈ parts, IsPlain s) :
    IsPlain (together parts) := by
  match parts with
  | [] => exact .wildcard
  | [one] => exact h one List.mem_cons_self
  | one :: two :: rest => exact .allOf h

theorem ReadsPlain.part {value : Json} (h : ReadsPlain value) {path key : String} {s : Selector}
    (hs : readPart path key value = .ok s) : IsPlain s := by
  unfold readPart at hs
  split at hs
  · obtain ⟨children, hchildren, hs⟩ := bind_eq_ok.mp hs
    exact Except.ok.inj hs ▸ .allOf (h.items _ _ hchildren)
  · split at hs
    · obtain ⟨children, hchildren, hs⟩ := bind_eq_ok.mp hs
      exact Except.ok.inj hs ▸ .anyOf (h.items _ _ hchildren)
    · split at hs
      · obtain ⟨child, hchild, hs⟩ := bind_eq_ok.mp hs
        exact Except.ok.inj hs ▸ .not (h.node _ _ hchild)
      · obtain ⟨criterion, -, hs⟩ := bind_eq_ok.mp hs
        exact Except.ok.inj hs ▸ .leaf criterion

theorem readsPlain_of_scalar {value : Json} (harr : value.isArray = false)
    (hobj : value.isObject = false) : ReadsPlain value := by
  constructor
  · intro path s hs
    cases value with
    | str text =>
      rw [readNode] at hs
      split at hs
      · exact Except.ok.inj hs ▸ .wildcard
      · cases hs
    | obj members => cases hobj
    | _ => simp [readNode] at hs
  · intro path children hchildren
    cases value with
    | arr items => cases harr
    | _ => simp [readItems] at hchildren

theorem readsPlain (value : Json) : ReadsPlain value := by
  induction value using Json.induct with
  | onScalar value harr hobj => exact readsPlain_of_scalar harr hobj
  | onArr items ih =>
    constructor
    · intro path s hs
      simp [readNode] at hs
    · intro path children hchildren s hs
      rw [readItems] at hchildren
      obtain ⟨doc, hdoc, path, hread⟩ :=
        exists_right_of_forall₂ (readChildren_eq_ok hchildren).flip hs
      exact (ih doc hdoc).node path s hread
  | onObj members ih =>
    constructor
    · intro path s hs
      obtain ⟨parts, ⟨-, -, hparts⟩, rfl⟩ := readNode_obj_eq_ok.mp hs
      refine isPlain_together fun part hpart => ?_
      obtain ⟨key, -, hread⟩ := exists_source_of_mapM_eq_ok hparts hpart
      refine ReadsPlain.part ?_ hread
      rw [Json.field_obj]
      cases hvalue : members.lookup key with
      | none => exact readsPlain_of_scalar rfl rfl
      | some value => exact ih (key, value) (Json.mem_of_lookup hvalue)
    · intro path children hchildren
      simp [readItems] at hchildren

/-- A selector for one kind of entity restricts it by criteria that must all hold. -/
theorem exists_entityScope_of_readKindScope {doc : Json} {s : Selector}
    (h : readKindScope doc = .ok s) :
    ∃ kind inner, s = entityScope kind inner ∧ IsNormal inner := by
  have hcriterion : ∀ {key : String} {leaves : List Selector},
      (if (doc.field key).truthy then
        do .ok [leaf (← readLeaf key s!"selector.{key}" (doc.field key))]
      else .ok []) = Except.ok (ε := SelectorFault) leaves → ∀ s ∈ leaves, IsNormal s := by
    intro key leaves hleaves
    split at hleaves
    · obtain ⟨criterion, -, hleaves⟩ := bind_eq_ok.mp hleaves
      cases Except.ok.inj hleaves
      exact List.forall_mem_singleton.mpr (.leaf criterion)
    · cases Except.ok.inj hleaves
      exact List.forall_mem_nil _
  unfold readKindScope at h
  split at h
  · cases h
  · next kind _ =>
    dsimp only at h
    split at h
    · cases h
    · obtain ⟨ids, hids, h⟩ := bind_eq_ok.mp h
      obtain ⟨tags, htags, h⟩ := bind_eq_ok.mp h
      refine ⟨kind, _, (Except.ok.inj h).symm, ?_⟩
      split
      · exact .wildcard
      · exact .allOf (List.forall_mem_append.mpr ⟨hcriterion hids, hcriterion htags⟩)

/-- What was read has negations directly above criteria only, once it is in normal form. -/
theorem isNormal_toNormalForm {doc : Json} {s : Selector} (h : read doc = .ok s) :
    IsNormal s.toNormalForm := by
  unfold read at h
  split at h
  · exact Except.ok.inj h ▸ .wildcard
  · split at h
    · cases h
    · split at h
      · obtain ⟨kind, inner, rfl, hinner⟩ := exists_entityScope_of_readKindScope h
        have hsame : normal false inner = inner := hinner.toNormalForm_eq
        change IsNormal (entityScope kind (normal false inner))
        rw [hsame]
        exact .entityScope kind hinner
      · exact ((readsPlain doc).node _ _ h).isNormal false

end Shape

/-- A normal form of a selector: it is matched as the selector is, with the same trials, the last of
which is the one that failed if the match did; its negations stand directly above criteria; and it
is its own normal form. -/
structure IsNormalFormOf (normalForm s : Selector) : Prop where
  answers : ∀ z c, normalForm.matchesOne z c = s.matchesOne z c
  trials : ∀ z c, normalForm.tried z c = s.tried z c
  failure : ∀ z c f, s.matchesOne z c = .error f → ∃ criterion,
    (s.tried z c).getLast? = some criterion ∧ criterion.holds z c = .error f
  normal : IsNormal normalForm
  settled : normalForm.toNormalForm = normalForm

/-- What was read from a document is matched as its normal form is, faults included. -/
theorem isNormalFormOf_toNormalForm {doc : Json} {s : Selector} (h : read doc = .ok s) :
    s.toNormalForm.IsNormalFormOf s where
  answers z c := by rw [toNormalForm, matchesOne_normal, map_bne_false]
  trials z c := tried_normal s false
  failure z c f := exists_getLast?_tried
  normal := isNormal_toNormalForm h
  settled := (isNormal_toNormalForm h).toNormalForm_eq

/-- Young teams in the first division only. -/
def youthInFirstDivision : Json :=
  .obj [("not", .obj [("allOf", .arr [.obj [("tags", .arr [.str "youth"])],
    .obj [("not", .obj [("division", .str "D1")])], .str "*"])])]

theorem isNormalFormOf_toNormalForm_youth :
    ∃ s, read youthInFirstDivision = .ok s ∧
      s.toNormalForm =
        anyOf [not (leaf (.tags ["youth"])), leaf (.among .division [.str "D1"]), anyOf []] ∧
      s.toNormalForm.IsNormalFormOf s := by
  have hread : read youthInFirstDivision = .ok (not (allOf [leaf (.tags ["youth"]),
      not (leaf (.among .division [.str "D1"])), wildcard])) := rfl
  exact ⟨_, hread, rfl, isNormalFormOf_toNormalForm hread⟩

end LeagueAudit.Selector
