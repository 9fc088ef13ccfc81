import LeagueAudit.Proofs.Json.Members
import LeagueAudit.Proofs.Outcome
import LeagueAudit.Selector.Parser

/-!
What documents read as. Where a selector stands in a document only shows in the messages about it,
so a selector that is part of another one reads as it does alone.
-/
namespace LeagueAudit.Selector

section Leaves

variable (path path' : String) (value : Json)

theorem toOption_readTexts :
    (readTexts path value).toOption = (readTexts path' value).toOption := by
  unfold readTexts
  dsimp only
  split <;> rfl

theorem toOption_readAttribute (field : Attribute) :
    (readAttribute path field value).toOption = (readAttribute path' field value).toOption := by
  unfold readAttribute
  dsimp only
  split <;> rfl

theorem toOption_readLimit :
    (readLimit path value).toOption = (readLimit path' value).toOption := by
  unfold readLimit
  split <;> rfl

theorem toOption_readMeasure (field : Measure) :
    (readMeasure path field value).toOption = (readMeasure path' field value).toOption := by
  unfold readMeasure
  split
  · split
    · rfl
    · simp only [toOption_bind, toOption_readLimit (path ++ ".min") (path' ++ ".min"),
        toOption_readLimit (path ++ ".max") (path' ++ ".max")]
  all_goals rfl

theorem toOption_readDateBound :
    (readDateBound path value).toOption = (readDateBound path' value).toOption := by
  unfold readDateBound
  split
  · rfl
  · split <;> rfl

theorem toOption_readDateRange :
    (readDateRange path value).toOption = (readDateRange path' value).toOption := by
  unfold readDateRange
  split
  · rfl
  · simp only [toOption_bind, toOption_readDateBound (path ++ ".start") (path' ++ ".start"),
      toOption_readDateBound (path ++ ".end") (path' ++ ".end")]

theorem toOption_readDays : (readDays path value).toOption = (readDays path' value).toOption := by
  unfold readDays
  rw [toOption_bind, toOption_bind, toOption_readTexts path path']
  congr 1
  funext texts
  dsimp only
  split <;> rfl

theorem toOption_readRole : (readRole path value).toOption = (readRole path' value).toOption := by
  unfold readRole
  split
  · rfl
  · split <;> rfl

theorem toOption_readLeaf (key : String) :
    (readLeaf key path value).toOption = (readLeaf key path' value).toOption := by
  unfold readLeaf
  split
  · simp only [toOption_bind, toOption_readTexts path path']
  · exact toOption_readAttribute path path' value _
  · exact toOption_readAttribute path path' value _
  · exact toOption_readAttribute path path' value _
  · exact toOption_readAttribute path path' value _
  · exact toOption_readMeasure path path' value _
  · exact toOption_readMeasure path path' value _
  · exact toOption_readDays path path' value
  · exact toOption_readDateRange path path' value
  · exact toOption_readRole path path' value
  · simp only [toOption_bind, toOption_readTexts path path']

end Leaves

def readPart (path key : String) (value : Json) : Except SelectorFault Selector :=
  if key == "allOf" then do .ok (allOf (← readItems s!"{path}.allOf" value))
  else if key == "anyOf" then do .ok (anyOf (← readItems s!"{path}.anyOf" value))
  else if key == "not" then do .ok (not (← readNode s!"{path}.not" value))
  else do .ok (leaf (← readLeaf key s!"{path}.{key}" value))

theorem lookup_readBranches (path key : String) (members : List (String × Json)) :
    (readBranches path members).lookup key = (members.lookup key).map (readPart path key) := by
  induction members with
  | nil => rfl
  | cons member rest ih =>
    obtain ⟨name, value⟩ := member
    rw [readBranches, Json.lookup_cons_eq, Json.lookup_cons_eq, ih]
    split
    · next h =>
      subst h
      rfl
    · rfl

def knownKeys : List String := SelectorFault.booleanKeys ++ SelectorFault.leafKeys

/-- A member takes part unless it is a criterion that is null. -/
def takesPart (key : String) (value : Json) : Bool :=
  SelectorFault.booleanKeys.contains key || !value.isNull

/-- The keys of the members that take part, in the order in which parts are joined. -/
def joinedKeys (members : List (String × Json)) : List String :=
  knownKeys.filter fun key => (members.lookup key).any (takesPart key)

/-- The parts of an object are what its members read as. -/
structure ReadsParts (path : String) (members : List (String × Json)) (parts : List Selector) :
    Prop where
  untyped : (members.lookup "entityType").isSome = false
  known : ∀ key ∈ members.map (·.1), key ∈ knownKeys
  parts : (joinedKeys members).mapM (fun key => readPart path key ((Json.obj members).field key)) =
    .ok parts

theorem partsInOrder_eq (path : String) (members : List (String × Json)) :
    partsInOrder members (readBranches path members) =
      (joinedKeys members).mapM fun key => readPart path key ((Json.obj members).field key) := by
  have hkeys : partsInOrder members (readBranches path members) =
      ((joinedKeys members).filterMap fun key =>
        (readBranches path members).lookup key).mapM id := by
    unfold partsInOrder joinedKeys
    dsimp only
    congr 3
    funext key
    cases members.lookup key <;> rfl
  have hpart : ∀ key ∈ joinedKeys members, (readBranches path members).lookup key =
      some (readPart path key ((Json.obj members).field key)) := by
    intro key hkey
    have htakes := (List.mem_filter.mp hkey).2
    cases hvalue : members.lookup key with
    | none => simp [hvalue] at htakes
    | some value => rw [lookup_readBranches, hvalue, Json.field_obj, hvalue]; rfl
  rw [hkeys, List.filterMap_congr hpart, List.filterMap_eq_map', List.mapM_map]
  rfl

theorem readNode_obj_eq_ok {path : String} {members : List (String × Json)} {s : Selector} :
    readNode path (.obj members) = .ok s ↔
      ∃ parts, ReadsParts path members parts ∧ s = together parts := by
  have hunknown : ((members.map (·.1)).filter fun k =>
      !(SelectorFault.booleanKeys ++ SelectorFault.leafKeys).contains k).isEmpty = true ↔
      ∀ key ∈ members.map (·.1), key ∈ knownKeys := by
    rw [List.isEmpty_iff, List.filter_eq_nil_iff]
    simp [knownKeys, or_iff_not_imp_left]
  rw [readNode]
  dsimp only
  rw [partsInOrder_eq]
  constructor
  · intro h
    split at h
    · cases h
    · next huntyped =>
      split at h
      · next hknown =>
        obtain ⟨parts, hparts, h⟩ := bind_eq_ok.mp h
        exact ⟨parts, ⟨Bool.eq_false_iff.mpr huntyped, hunknown.mp hknown, hparts⟩,
          (Except.ok.inj h).symm⟩
      · cases h
  · rintro ⟨parts, ⟨huntyped, hknown, hparts⟩, rfl⟩
    rw [if_neg (Bool.eq_false_iff.mp huntyped), if_pos (hunknown.mpr hknown)]
    exact bind_eq_ok.mpr ⟨parts, hparts, rfl⟩

/-- A place in a document does not bear on what is read there. -/
structure Placeless (value : Json) : Prop where
  node : ∀ path path' s, readNode path value = .ok s → readNode path' value = .ok s
  items : ∀ path path' children, readItems path value = .ok children →
    readItems path' value = .ok children

theorem Placeless.part {value : Json} (h : Placeless value) {path path' key : String}
    {s : Selector} (hs : readPart path key value = .ok s) : readPart path' key value = .ok s := by
  unfold readPart at hs ⊢
  split at hs
  · next hkey =>
    obtain ⟨children, hchildren, hs⟩ := bind_eq_ok.mp hs
    rw [if_pos hkey]
    exact bind_eq_ok.mpr ⟨children, h.items _ _ _ hchildren, hs⟩
  · next hall =>
    rw [if_neg hall]
    split at hs
    · next hkey =>
      obtain ⟨children, hchildren, hs⟩ := bind_eq_ok.mp hs
      rw [if_pos hkey]
      exact bind_eq_ok.mpr ⟨children, h.items _ _ _ hchildren, hs⟩
    · next hany =>
      rw [if_neg hany]
      split at hs
      · next hkey =>
        obtain ⟨child, hchild, hs⟩ := bind_eq_ok.mp hs
        rw [if_pos hkey]
        exact bind_eq_ok.mpr ⟨child, h.node _ _ _ hchild, hs⟩
      · next hnot =>
        rw [if_neg hnot]
        rw [← toOption_eq_some, toOption_bind] at hs ⊢
        rwa [toOption_readLeaf _ s!"{path}.{key}"]

theorem placeless_of_scalar {value : Json} (harr : value.isArray = false)
    (hobj : value.isObject = false) : Placeless value := by
  constructor
  · intro path path' s hs
    cases value with
    | str text =>
      rw [readNode] at hs ⊢
      split at hs
      · next hstar => rwa [if_pos hstar]
      · cases hs
    | obj members => cases hobj
    | _ => simp [readNode] at hs
  · intro path path' children hchildren
    cases value with
    | arr items => cases harr
    | _ => simp [readItems] at hchildren

theorem readChildren_of_placeless {items : List Json} (h : ∀ j ∈ items, Placeless j)
    {path path' : String} {position position' : Nat} {children : List Selector}
    (hread : readChildren path position items = .ok children) :
    readChildren path' position' items = .ok children := by
  induction items generalizing position position' children with
  | nil =>
    rw [readChildren] at hread ⊢
    exact hread
  | cons value rest ih =>
    rw [readChildren] at hread ⊢
    obtain ⟨child, hchild, hread⟩ := bind_eq_ok.mp hread
    obtain ⟨more, hmore, hread⟩ := bind_eq_ok.mp hread
    obtain ⟨hvalue, hrest⟩ := List.forall_mem_cons.mp h
    exact bind_eq_ok.mpr ⟨child, hvalue.node _ _ _ hchild,
      bind_eq_ok.mpr ⟨more, ih hrest hmore, hread⟩⟩

theorem placeless (value : Json) : Placeless value := by
  -- The place changes from a document to its parts, since messages name it.
  induction value using Json.induct with
  | onScalar value harr hobj => exact placeless_of_scalar harr hobj
  | onArr items ih =>
    constructor
    · intro path path' s hs
      simp [readNode] at hs
    · intro path path' children hchildren
      rw [readItems] at hchildren ⊢
      exact readChildren_of_placeless ih hchildren
  | onObj members ih =>
    constructor
    · intro path path' s hs
      obtain ⟨parts, ⟨huntyped, hknown, hparts⟩, rfl⟩ := readNode_obj_eq_ok.mp hs
      have hfield : ∀ key, Placeless ((Json.obj members).field key) := by
        intro key
        rw [Json.field_obj]
        cases hvalue : members.lookup key with
        | none => exact placeless_of_scalar rfl rfl
        | some value => exact ih (key, value) (Json.mem_of_lookup hvalue)
      refine readNode_obj_eq_ok.mpr ⟨parts, ⟨huntyped, hknown, ?_⟩, rfl⟩
      rw [mapM_eq_ok] at hparts ⊢
      exact hparts.imp fun key part hpart => (hfield key).part hpart
    · intro path path' children hchildren
      simp [readItems] at hchildren

/-- A document reads as a selector that may be part of another one. -/
def ReadsAsPart (doc : Json) (s : Selector) : Prop := ∃ path, readNode path doc = .ok s

/-- What can be part of a selector reads the same alone. -/
theorem ReadsAsPart.read {doc : Json} {s : Selector} (h : ReadsAsPart doc s) :
    read doc = .ok s := by
  obtain ⟨path, h⟩ := h
  cases doc with
  | str text =>
    rw [readNode] at h
    split at h
    · next hstar =>
      have htext : (Json.str text).isText "*" = true := hstar
      unfold Selector.read
      rw [htext, Bool.or_true, if_pos rfl, h]
    · cases h
  | obj members =>
    obtain ⟨parts, ⟨huntyped, -, -⟩, -⟩ := readNode_obj_eq_ok.mp h
    have hhas : (Json.obj members).has "entityType" = false := huntyped
    unfold Selector.read
    rw [hhas]
    exact (placeless (.obj members)).node _ _ _ h
  | _ => simp [readNode] at h

theorem ne_entityScope_of_readPart {path key : String} {value : Json} {s : Selector}
    (h : readPart path key value = .ok s) (kind : EntityKind) (inner : Selector) :
    s ≠ entityScope kind inner := by
  unfold readPart at h
  split at h
  · obtain ⟨_, -, h⟩ := bind_eq_ok.mp h
    exact Except.ok.inj h ▸ Selector.noConfusion
  · split at h
    · obtain ⟨_, -, h⟩ := bind_eq_ok.mp h
      exact Except.ok.inj h ▸ Selector.noConfusion
    · split at h
      · obtain ⟨_, -, h⟩ := bind_eq_ok.mp h
        exact Except.ok.inj h ▸ Selector.noConfusion
      · obtain ⟨_, -, h⟩ := bind_eq_ok.mp h
        exact Except.ok.inj h ▸ Selector.noConfusion

/-- Below the top level no selector is about one kind of entity. -/
theorem ReadsAsPart.ne_entityScope {doc : Json} {s : Selector} (h : ReadsAsPart doc s)
    (kind : EntityKind) (inner : Selector) : s ≠ entityScope kind inner := by
  obtain ⟨path, h⟩ := h
  cases doc with
  | str text =>
    rw [readNode] at h
    split at h
    · exact Except.ok.inj h ▸ Selector.noConfusion
    · cases h
  | obj members =>
    obtain ⟨parts, ⟨-, -, hparts⟩, rfl⟩ := readNode_obj_eq_ok.mp h
    match parts with
    | [] => exact Selector.noConfusion
    | [one] =>
      obtain ⟨key, -, hone⟩ := exists_source_of_mapM_eq_ok hparts List.mem_cons_self
      exact ne_entityScope_of_readPart hone kind inner
    | one :: two :: rest => exact Selector.noConfusion
  | _ => simp [readNode] at h

/-- A member that takes part in what an object reads as. -/
structure Joins (members : List (String × Json)) (key : String) (value : Json) : Prop where
  known : key ∈ knownKeys
  member : members.lookup key = some value
  takes : takesPart key value = true

theorem mem_joinedKeys {members : List (String × Json)} {key : String} :
    key ∈ joinedKeys members ↔ Joins members key ((Json.obj members).field key) := by
  unfold joinedKeys
  rw [List.mem_filter, Json.field_obj]
  constructor
  · rintro ⟨hknown, htakes⟩
    cases hvalue : members.lookup key with
    | none => simp [hvalue] at htakes
    | some value => exact ⟨hknown, hvalue, by simpa [hvalue] using htakes⟩
  · rintro ⟨hknown, hmember, htakes⟩
    exact ⟨hknown, by rw [hmember]; exact htakes⟩

/-- The ways to judge selectors under which a conjunction holds when all its parts do. -/
structure Conjunctive (judge : Selector → Bool) : Prop where
  wildcard : judge wildcard = true
  allOf : ∀ children, judge (allOf children) = children.all judge

variable {judge : Selector → Bool}

theorem Conjunctive.together (hjudge : Conjunctive judge) (parts : List Selector) :
    judge (together parts) = parts.all judge := by
  match parts with
  | [] => exact hjudge.wildcard
  | [one] => simp [Selector.together]
  | one :: two :: rest => exact hjudge.allOf _

/-- An object holds when every member that takes part does. -/
theorem Conjunctive.object (hjudge : Conjunctive judge) {path : String}
    {members : List (String × Json)} {s : Selector} (h : readNode path (.obj members) = .ok s) :
    judge s = true ↔ ∀ key value part, Joins members key value →
      readPart path key value = .ok part → judge part = true := by
  obtain ⟨parts, ⟨-, -, hparts⟩, rfl⟩ := readNode_obj_eq_ok.mp h
  rw [hjudge.together, List.all_eq_true]
  constructor
  · intro hall key value part hjoins hpart
    have hvalue : (Json.obj members).field key = value := by
      rw [Json.field_obj, hjoins.member, Option.getD_some]
    have hkey : key ∈ joinedKeys members := mem_joinedKeys.mpr (hvalue ▸ hjoins)
    obtain ⟨part', hmem, hpart'⟩ := exists_of_mapM_eq_ok hparts hkey
    rw [hvalue] at hpart'
    cases hpart.symm.trans hpart'
    exact hall part hmem
  · intro hall part hmem
    obtain ⟨key, hkey, hpart⟩ := exists_source_of_mapM_eq_ok hparts hmem
    exact hall key _ part (mem_joinedKeys.mp hkey) hpart

/-- An object with several members holds when the objects with one of them each do. -/
theorem Conjunctive.singles (hjudge : Conjunctive judge) {path : String}
    {members criteria : List (String × Json)} {s : Selector} {singles : List Selector}
    (hdistinct : (members.map (·.1)).Nodup) (hcriteria : criteria.Perm members)
    (hs : readNode path (.obj members) = .ok s)
    (hsingles : List.Forall₂ (fun member single => ReadsAsPart (.obj [member]) single)
      criteria singles) :
    judge s = singles.all judge := by
  rw [Bool.eq_iff_iff, hjudge.object hs, List.all_eq_true]
  constructor
  · intro hall single hsingle
    obtain ⟨⟨key, value⟩, hmember, path', hread⟩ :=
      exists_right_of_forall₂ hsingles.flip hsingle
    rw [hjudge.object hread]
    rintro key' value' part ⟨hknown, hlookup, htakes⟩ hpart
    obtain ⟨rfl, rfl⟩ : key' = key ∧ value' = value := by
      rw [Json.lookup_cons_eq] at hlookup
      split at hlookup
      · next hkey => exact ⟨hkey, (Option.some.inj hlookup).symm⟩
      · cases hlookup
    have hlookup : members.lookup key' = some value' :=
      (Json.mem_iff_lookup hdistinct).mp (hcriteria.mem_iff.mp hmember)
    exact hall key' value' part ⟨hknown, hlookup, htakes⟩ ((placeless value').part hpart)
  · rintro hall key value part ⟨hknown, hlookup, htakes⟩ hpart
    have hmember : (key, value) ∈ criteria := hcriteria.mem_iff.mpr (Json.mem_of_lookup hlookup)
    obtain ⟨single, hsingle, path', hread⟩ := exists_right_of_forall₂ hsingles hmember
    have hjoins : Joins [(key, value)] key value := ⟨hknown, List.lookup_cons_self, htakes⟩
    exact (hjudge.object hread).mp (hall single hsingle) key value part hjoins
      ((placeless value).part hpart)

/-- An object that only combines selectors reads as its one part. -/
theorem readPart_of_read {key : String} {value : Json} {s : Selector}
    (hkey : key ∈ SelectorFault.booleanKeys) (h : read (.obj [(key, value)]) = .ok s) :
    readPart "selector" key value = .ok s := by
  have hjoined : joinedKeys [(key, value)] = [key] := by
    simp only [SelectorFault.booleanKeys, List.mem_cons, List.not_mem_nil, or_false] at hkey
    rcases hkey with rfl | rfl | rfl <;> rfl
  have huntyped : (Json.obj [(key, value)]).has "entityType" = false := by
    simp only [SelectorFault.booleanKeys, List.mem_cons, List.not_mem_nil, or_false] at hkey
    rcases hkey with rfl | rfl | rfl <;> rfl
  unfold read at h
  rw [huntyped] at h
  obtain ⟨parts, ⟨-, -, hparts⟩, rfl⟩ := readNode_obj_eq_ok.mp h
  rw [hjoined, mapM_eq_ok, List.forall₂_cons_left_iff] at hparts
  obtain ⟨part, rest, hpart, hrest, rfl⟩ := hparts
  cases hrest
  rwa [Json.field_obj, List.lookup_cons_self, Option.getD_some] at hpart

theorem readChildren_eq_ok {path : String} {position : Nat} {docs : List Json}
    {children : List Selector} (h : readChildren path position docs = .ok children) :
    List.Forall₂ ReadsAsPart docs children := by
  induction docs generalizing position children with
  | nil =>
    rw [readChildren] at h
    cases h
    exact .nil
  | cons doc rest ih =>
    rw [readChildren] at h
    obtain ⟨child, hchild, h⟩ := bind_eq_ok.mp h
    obtain ⟨more, hmore, h⟩ := bind_eq_ok.mp h
    cases h
    exact .cons ⟨_, hchild⟩ (ih hmore)

theorem read_allOf {docs : List Json} {s : Selector}
    (h : read (.obj [("allOf", .arr docs)]) = .ok s) :
    ∃ children, s = allOf children ∧ List.Forall₂ ReadsAsPart docs children := by
  obtain ⟨children, hchildren, h⟩ := bind_eq_ok.mp (readPart_of_read (by decide) h)
  rw [readItems] at hchildren
  exact ⟨children, (Except.ok.inj h).symm, readChildren_eq_ok hchildren⟩

theorem read_anyOf {docs : List Json} {s : Selector}
    (h : read (.obj [("anyOf", .arr docs)]) = .ok s) :
    ∃ children, s = anyOf children ∧ List.Forall₂ ReadsAsPart docs children := by
  obtain ⟨children, hchildren, h⟩ := bind_eq_ok.mp (readPart_of_read (by decide) h)
  rw [readItems] at hchildren
  exact ⟨children, (Except.ok.inj h).symm, readChildren_eq_ok hchildren⟩

theorem read_not {doc : Json} {s : Selector} (h : read (.obj [("not", doc)]) = .ok s) :
    ∃ child, s = not child ∧ ReadsAsPart doc child := by
  obtain ⟨child, hchild, h⟩ := bind_eq_ok.mp (readPart_of_read (by decide) h)
  exact ⟨child, (Except.ok.inj h).symm, _, hchild⟩

end LeagueAudit.Selector
