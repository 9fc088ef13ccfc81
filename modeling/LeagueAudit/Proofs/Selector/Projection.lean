import LeagueAudit.Proofs.Selector.NormalForm
import LeagueAudit.Schedule.Build

/-!
What is left of a selector for the teams or the venues. Criteria that do not bear on the kind are
dropped wherever they stand, which keeps an entity exactly when the selector holds of it with those
criteria met, and their negations too; so an entity of which the selector can hold is never lost.
-/
namespace LeagueAudit

namespace Index

def KnowsTag (index : Index) (kind : EntityKind) (tag : String) : Prop :=
  ∃ id doc tags, (id, doc) ∈ index.entities kind ∧ tagsOf doc = .ok tags ∧ tag ∈ tags

def TagsReadable (index : Index) : Prop :=
  ∀ kind, ∀ entity ∈ index.entities kind, ∃ tags, tagsOf entity.2 = .ok tags

variable {index : Index} {kind : EntityKind} {tags : List String}

theorem mem_knownTags (h : index.knownTags kind = .ok tags) (tag : String) :
    tag ∈ tags ↔ index.KnowsTag kind tag := by
  obtain ⟨lists, hlists, h⟩ := bind_eq_ok.mp h
  cases Except.ok.inj h
  rw [List.mem_flatten]
  constructor
  · rintro ⟨own, hown, htag⟩
    obtain ⟨⟨id, doc⟩, hmem, hread⟩ := exists_source_of_mapM_eq_ok hlists hown
    exact ⟨id, doc, own, hmem, hread, htag⟩
  · rintro ⟨id, doc, own, hmem, hread, htag⟩
    obtain ⟨read, hread', hown⟩ := exists_of_mapM_eq_ok hlists hmem
    cases hread.symm.trans hown
    exact ⟨own, hread', htag⟩

theorem exists_knownTags : (∃ tags, index.knownTags kind = .ok tags) ↔
    ∀ entity ∈ index.entities kind, ∃ tags, tagsOf entity.2 = .ok tags := by
  unfold knownTags
  rw [exists_bind_ok, exists_mapM_eq_ok]
  simp only [exists_eq_ok]

theorem exists_tagsOfKind : (∃ tags, index.tagsOfKind kind = .ok tags) ↔ index.TagsReadable := by
  have hall : index.TagsReadable ↔ ∀ kind, ∃ tags, index.knownTags kind = .ok tags := by
    simp only [TagsReadable, exists_knownTags]
  rw [hall]
  unfold tagsOfKind
  constructor
  · rintro ⟨tags, h⟩ other
    obtain ⟨teams, hteams, h⟩ := bind_eq_ok.mp h
    obtain ⟨venues, hvenues, h⟩ := bind_eq_ok.mp h
    obtain ⟨fixtures, hfixtures, h⟩ := bind_eq_ok.mp h
    cases other
    · exact ⟨teams, hteams⟩
    · exact ⟨venues, hvenues⟩
    · exact ⟨fixtures, hfixtures⟩
  · intro h
    obtain ⟨teams, hteams⟩ := h .team
    obtain ⟨venues, hvenues⟩ := h .venue
    obtain ⟨fixtures, hfixtures⟩ := h .fixture
    simp [hteams, hvenues, hfixtures, bind, Except.bind]

theorem mem_tagsOfKind (h : index.tagsOfKind kind = .ok tags) (tag : String) :
    tag ∈ tags ↔ index.KnowsTag kind tag := by
  obtain ⟨teams, hteams, h⟩ := bind_eq_ok.mp h
  obtain ⟨venues, hvenues, h⟩ := bind_eq_ok.mp h
  obtain ⟨fixtures, hfixtures, h⟩ := bind_eq_ok.mp h
  cases Except.ok.inj h
  cases kind
  · exact mem_knownTags hteams tag
  · exact mem_knownTags hvenues tag
  · exact mem_knownTags hfixtures tag

end Index

namespace Leaf

/-- A criterion bears on the entities of a kind in an index. Ids and tags have to name something
that the kind knows. -/
def BearsIn (index : Index) (kind : EntityKind) : Leaf → Prop
  | ids values => ∃ id ∈ values, id ∈ (index.entities kind).ids
  | tags values => ∃ tag ∈ values, index.KnowsTag kind tag
  | other => kind ∈ other.kinds

variable {index : Index} {kind : EntityKind} {criterion : Leaf}

theorem bearsOn_of_bearsIn (h : criterion.BearsIn index kind) : criterion.bearsOn kind = true := by
  cases criterion with
  | ids | tags => cases kind <;> rfl
  | _ => exact List.contains_iff_mem.mpr h

theorem restricts_eq_ok (hkind : kind ≠ .fixture) {b : Bool}
    (h : criterion.restricts index kind = .ok b) : b = true ↔ criterion.BearsIn index kind := by
  cases criterion with
  | ids values =>
    cases Except.ok.inj h
    simp [BearsIn, hkind]
  | tags values =>
    unfold restricts at h
    dsimp only at h
    rw [if_neg hkind] at h
    obtain ⟨known, hknown, h⟩ := bind_eq_ok.mp h
    cases Except.ok.inj h
    simp [BearsIn, Index.mem_tagsOfKind hknown]
  | _ =>
    cases Except.ok.inj h
    exact List.contains_iff_mem

theorem exists_restricts (hkind : kind ≠ .fixture) :
    (∃ b, criterion.restricts index kind = .ok b) ↔
      ((∃ values, criterion = tags values) → index.TagsReadable) := by
  cases criterion with
  | tags values => simp [restricts, hkind, exists_bind_ok, Index.exists_tagsOfKind]
  | _ => simp [restricts]

/-- Where the criterion bears on a declared entity it can be tested. -/
theorem exists_test (z : Zone) (hkind : kind ≠ .fixture)
    (h : criterion.restricts index kind = .ok true) {id : String} {doc : Json}
    (hmem : (id, doc) ∈ index.entities kind) :
    ∃ b, criterion.test z { kind, entity := doc } = .ok b := by
  have hbears := (restricts_eq_ok hkind h).mp rfl
  cases criterion with
  | tags values =>
    have hreadable := (exists_restricts hkind).mp ⟨true, h⟩ ⟨values, rfl⟩
    obtain ⟨own, hown⟩ := hreadable kind _ hmem
    simp [test, Candidate.tags, hkind, hown, bind, Except.bind, pure, Except.pure]
  | dateRange | dayOfWeek | role => exact absurd (List.mem_singleton.mp hbears) hkind
  | _ => exact ⟨_, rfl⟩

end Leaf

namespace Selector

mutual

/-- The criteria of a selector. -/
def criteria : Selector → List Leaf
  | wildcard => []
  | allOf children => criteriaAll children
  | anyOf children => criteriaAll children
  | not child => criteria child
  | entityScope _ inner => criteria inner
  | leaf criterion => [criterion]

def criteriaAll : List Selector → List Leaf
  | [] => []
  | s :: rest => criteria s ++ criteriaAll rest

end

/-- A selector in normal form is true when the criteria and the negated criteria in it have certain
truth values. -/
inductive TrueUnder (literal : Bool → Leaf → Prop) : Selector → Prop where
  | wildcard : TrueUnder literal wildcard
  | allOf {children : List Selector} (h : ∀ s ∈ children, TrueUnder literal s) :
    TrueUnder literal (allOf children)
  | anyOf {children : List Selector} {s : Selector} (hs : s ∈ children) (h : TrueUnder literal s) :
    TrueUnder literal (anyOf children)
  | leaf {criterion : Leaf} (h : literal false criterion) : TrueUnder literal (leaf criterion)
  | notLeaf {criterion : Leaf} (h : literal true criterion) :
    TrueUnder literal (not (.leaf criterion))

/-- A criterion or its negation, tested where it bears on an entity and met where it does not. -/
def loosely (index : Index) (kind : EntityKind) (doc : Json) (negated : Bool) (criterion : Leaf) :
    Prop :=
  criterion.BearsIn index kind →
    criterion.test index.zone { kind, entity := doc } = .ok !negated

/-- A criterion or its negation, tested where it bears on an entity and with a given truth value
where it does not. -/
def assuming (value : Leaf → Bool) (index : Index) (kind : EntityKind) (doc : Json) (negated : Bool)
    (criterion : Leaf) : Prop :=
  loosely index kind doc negated criterion ∧
    (¬criterion.BearsIn index kind → value criterion = !negated)

/-- Whether what is left of a selector lets an entity pass. -/
def passes (z : Zone) (c : Candidate) : Option Selector → Except Fault Bool
  | none => .ok true
  | some part => part.matchesOne z c

variable {index : Index} {kind : EntityKind} {s part : Selector} {z : Zone} {c : Candidate}

theorem criteriaAll_eq (children : List Selector) :
    criteriaAll children = children.flatMap criteria := by
  induction children with
  | nil => rfl
  | cons s rest ih => rw [criteriaAll, ih, List.flatMap_cons]

theorem mem_criteriaAll {children : List Selector} {criterion : Leaf} :
    criterion ∈ criteriaAll children ↔ ∃ s ∈ children, criterion ∈ s.criteria := by
  rw [criteriaAll_eq, List.mem_flatMap]

section Truth

variable {literal other : Bool → Leaf → Prop}

theorem trueUnder_allOf {children : List Selector} :
    TrueUnder literal (allOf children) ↔ ∀ s ∈ children, TrueUnder literal s := by
  constructor
  · intro h
    cases h with | allOf h => exact h
  · exact .allOf

theorem trueUnder_anyOf {children : List Selector} :
    TrueUnder literal (anyOf children) ↔ ∃ s ∈ children, TrueUnder literal s := by
  constructor
  · intro h
    cases h with | anyOf hs h => exact ⟨_, hs, h⟩
  · rintro ⟨s, hs, h⟩
    exact .anyOf hs h

/-- No negation stands above anything else, so more true literals make no less true. -/
theorem TrueUnder.mono (hs : TrueUnder literal s)
    (h : ∀ criterion ∈ s.criteria, ∀ negated,
      literal negated criterion → other negated criterion) : TrueUnder other s := by
  induction hs with
  | wildcard => exact .wildcard
  | allOf _ ih =>
    refine .allOf fun s hs => ih s hs fun criterion hcriterion => ?_
    exact h criterion (mem_criteriaAll.mpr ⟨s, hs, hcriterion⟩)
  | anyOf hs _ ih =>
    refine .anyOf hs (ih fun criterion hcriterion => ?_)
    exact h criterion (mem_criteriaAll.mpr ⟨_, hs, hcriterion⟩)
  | leaf hliteral => exact .leaf (h _ (List.mem_singleton_self _) _ hliteral)
  | notLeaf hliteral => exact .notLeaf (h _ (List.mem_singleton_self _) _ hliteral)

theorem trueUnder_congr (h : ∀ criterion ∈ s.criteria, ∀ negated,
    literal negated criterion ↔ other negated criterion) :
    TrueUnder literal s ↔ TrueUnder other s :=
  ⟨fun hs => hs.mono fun criterion hcriterion negated => (h criterion hcriterion negated).mp,
    fun hs => hs.mono fun criterion hcriterion negated => (h criterion hcriterion negated).mpr⟩

theorem admits_iff_trueUnder {restricts holds : Leaf → Bool} (hnormal : IsNormal s)
    (hplain : IsPlain s) : admits kind restricts holds false s = true ↔
      TrueUnder (fun negated criterion => restricts criterion = true → holds criterion = !negated)
        s := by
  induction hnormal with
  | wildcard => exact iff_of_true rfl .wildcard
  | allOf _ ih =>
    cases hplain with
    | allOf hplain =>
      rw [trueUnder_allOf, admits, if_neg Bool.false_ne_true, admitsAll_eq, List.all_eq_true]
      exact forall₂_congr fun s hs => ih s hs (hplain s hs)
  | anyOf _ ih =>
    cases hplain with
    | anyOf hplain =>
      rw [trueUnder_anyOf, admits, if_neg Bool.false_ne_true, admitsAny_eq, List.any_eq_true]
      exact exists_congr fun s => and_congr_right fun hs => ih s hs (hplain s hs)
  | entityScope => cases hplain
  | leaf criterion =>
    have hleaf : TrueUnder (fun negated criterion => restricts criterion = true →
        holds criterion = !negated) (.leaf criterion) ↔
          (restricts criterion = true → holds criterion = true) := by
      refine ⟨fun hunder => ?_, fun h => .leaf (by simpa using h)⟩
      cases hunder with
      | leaf h => exact h
    rw [hleaf, admits]
    cases restricts criterion <;> simp
  | notLeaf criterion =>
    have hleaf : TrueUnder (fun negated criterion => restricts criterion = true →
        holds criterion = !negated) (not (.leaf criterion)) ↔
          (restricts criterion = true → holds criterion = false) := by
      refine ⟨fun hunder => ?_, fun h => .notLeaf (by simpa using h)⟩
      cases hunder with
      | notLeaf h => exact h
    rw [hleaf, admits, admits]
    cases restricts criterion <;> simp

end Truth

section Match

theorem goesOn_eq_ok {answer : Selector → Except Fault Bool} {value : Selector → Bool}
    (neutral : Bool) {children : List Selector} (h : ∀ s ∈ children, answer s = .ok (value s)) :
    goesOn answer neutral children =
      .ok (if neutral then children.all value else children.any value) := by
  induction children with
  | nil => cases neutral <;> rfl
  | cons s rest ih =>
    rw [goesOn, h s List.mem_cons_self, ih fun s hs => h s (List.mem_cons_of_mem _ hs),
      List.all_cons, List.any_cons]
    cases value s <;> cases neutral <;> rfl

/-- A selector whose criteria can all be evaluated is matched, and by its truth. -/
theorem matchesOne_eq_truth (s : Selector)
    (h : ∀ criterion ∈ s.criteria, ∃ b, criterion.holds z c = .ok b) :
    matchesOne z c s = .ok (truth c.kind (holdsOf z c) s) := by
  have hchildren : ∀ {children : List Selector} {s : Selector}, s ∈ children →
      (∀ criterion ∈ criteriaAll children, ∃ b, criterion.holds z c = .ok b) →
      ∀ criterion ∈ s.criteria, ∃ b, criterion.holds z c = .ok b :=
    fun hs h criterion hcriterion => h criterion (mem_criteriaAll.mpr ⟨_, hs, hcriterion⟩)
  induction s using induct with
  | onWildcard => rfl
  | onAllOf children ih =>
    rw [matchesOne, matchesAll_eq, truth, truthAll_eq]
    exact goesOn_eq_ok true fun s hs => ih s hs (hchildren hs h)
  | onAnyOf children ih =>
    rw [matchesOne, matchesAny_eq, truth, truthAny_eq]
    exact goesOn_eq_ok false fun s hs => ih s hs (hchildren hs h)
  | onNot child ih =>
    rw [matchesOne, ih h, truth]
    rfl
  | onScope scope inner ih =>
    rw [matchesOne, ih h, truth]
    split <;> rfl
  | onLeaf criterion =>
    obtain ⟨b, hb⟩ := h criterion (List.mem_singleton_self _)
    rw [matchesOne, truth, holdsOf, hb, saysYes_ok]

end Match

section Parts

theorem mem_criteria_conjunction {parts : List Selector} (h : conjunction parts = some part)
    {criterion : Leaf} (hcriterion : criterion ∈ part.criteria) :
    ∃ s ∈ parts, criterion ∈ s.criteria := by
  match parts, h with
  | [_], rfl => exact ⟨part, List.mem_singleton_self _, hcriterion⟩
  | _ :: _ :: _, rfl => exact mem_criteriaAll.mp hcriterion

/-- Only criteria that restrict a kind are left for it. -/
theorem restricts_of_project (hs : IsPlain s) (h : s.project index kind = .ok (some part)) :
    ∀ criterion ∈ part.criteria, criterion.restricts index kind = .ok true := by
  have hchildren : ∀ {children : List Selector} {parts : List (Option Selector)},
      (∀ s ∈ children, ∀ {part}, s.project index kind = .ok (some part) →
        ∀ criterion ∈ part.criteria, criterion.restricts index kind = .ok true) →
      projectAll index kind children = .ok parts →
      ∀ part ∈ parts.filterMap fun p => p, ∀ criterion ∈ part.criteria,
        criterion.restricts index kind = .ok true := by
    intro children parts ih hparts part hpart
    rw [projectAll_eq] at hparts
    obtain ⟨_, hleft, rfl⟩ := List.mem_filterMap.mp hpart
    obtain ⟨s, hs, hproject⟩ := exists_source_of_mapM_eq_ok hparts hleft
    exact ih s hs hproject
  induction hs generalizing part with
  | wildcard => cases h
  | allOf _ ih =>
    obtain ⟨parts, hparts, h⟩ := bind_eq_ok.mp h
    intro criterion hcriterion
    obtain ⟨s, hs, hcriterion⟩ := mem_criteria_conjunction (Except.ok.inj h) hcriterion
    exact hchildren ih hparts s hs criterion hcriterion
  | anyOf _ ih =>
    obtain ⟨parts, hparts, h⟩ := bind_eq_ok.mp h
    have h := Except.ok.inj h
    split at h
    · cases h
    · cases h
      intro criterion hcriterion
      obtain ⟨s, hs, hcriterion⟩ := mem_criteriaAll.mp hcriterion
      exact hchildren ih hparts s hs criterion hcriterion
  | not _ ih =>
    obtain ⟨inside, hinside, h⟩ := bind_eq_ok.mp h
    cases inside with
    | none => cases h
    | some child =>
      cases h
      intro criterion hcriterion
      exact ih hinside criterion hcriterion
  | leaf criterion =>
    obtain ⟨restricts, hrestricts, h⟩ := bind_eq_ok.mp h
    cases restricts with
    | false => cases h
    | true =>
      cases h
      simpa [criteria] using hrestricts

/-- A selector is projected exactly when all of its criteria can be judged. -/
theorem exists_project (hs : IsPlain s) : (∃ part, s.project index kind = .ok part) ↔
    ∀ criterion ∈ s.criteria, ∃ b, criterion.restricts index kind = .ok b := by
  have hchildren : ∀ {children : List Selector},
      (∀ s ∈ children, (∃ part, s.project index kind = .ok part) ↔
        ∀ criterion ∈ s.criteria, ∃ b, criterion.restricts index kind = .ok b) →
      ((∃ parts, projectAll index kind children = .ok parts) ↔
        ∀ criterion ∈ criteriaAll children, ∃ b, criterion.restricts index kind = .ok b) := by
    intro children ih
    rw [projectAll_eq, exists_mapM_eq_ok]
    simp only [← exists_eq_ok, mem_criteriaAll]
    constructor
    · rintro h criterion ⟨s, hs, hcriterion⟩
      exact (ih s hs).mp (h s hs) criterion hcriterion
    · exact fun h s hs => (ih s hs).mpr fun criterion hcriterion => h criterion ⟨s, hs, hcriterion⟩
  induction hs with
  | wildcard => simp [project, criteria]
  | allOf _ ih =>
    simp only [project, exists_bind_ok, criteria]
    exact hchildren ih
  | anyOf _ ih =>
    simp only [project, exists_bind_ok, criteria]
    exact hchildren ih
  | not _ ih =>
    simp only [project, exists_bind_ok, criteria]
    exact ih
  | leaf criterion => simp [project, exists_bind_ok, criteria]

theorem IsPlain.normal (h : IsPlain s) (negated : Bool) : IsPlain (normal negated s) := by
  induction h generalizing negated with
  | wildcard =>
    cases negated with
    | false => exact .wildcard
    | true => exact .anyOf (List.forall_mem_nil _)
  | @allOf children _ ih =>
    have hchildren : ∀ s ∈ normalAll negated children, IsPlain s := by
      rw [normalAll_eq]
      exact List.forall_mem_map.mpr fun s hs => ih s hs negated
    cases negated with
    | false => exact .allOf hchildren
    | true => exact .anyOf hchildren
  | @anyOf children _ ih =>
    have hchildren : ∀ s ∈ normalAll negated children, IsPlain s := by
      rw [normalAll_eq]
      exact List.forall_mem_map.mpr fun s hs => ih s hs negated
    cases negated with
    | false => exact .anyOf hchildren
    | true => exact .allOf hchildren
  | not _ ih => exact ih !negated
  | leaf criterion =>
    cases negated with
    | false => exact .leaf criterion
    | true => exact .not (.leaf criterion)

/-- What a document without a kind of its own reads as is plain. -/
theorem isPlain_of_read {doc : Json} (h : read doc = .ok s)
    (hscope : ∀ scope inner, s ≠ entityScope scope inner) : IsPlain s := by
  unfold read at h
  split at h
  · exact Except.ok.inj h ▸ .wildcard
  · split at h
    · cases h
    · split at h
      · obtain ⟨scope, inner, rfl, -⟩ := exists_entityScope_of_readKindScope h
        exact absurd rfl (hscope scope inner)
      · exact (readsPlain doc).node _ _ h

end Parts

/-- What is left of a selector for a kind. It is there unless tags are asked for that cannot be
read, and it lets an entity pass exactly when the selector holds with all criteria met that do not
bear on the kind. Whatever those say, an entity of which the selector holds passes. -/
structure ProjectsTightly (index : Index) (kind : EntityKind) (s : Selector) : Prop where
  returns : (∃ part, s.project index kind = .ok part) ↔
    ((∃ values, .tags values ∈ s.criteria) → index.TagsReadable)
  exact : ∀ part, s.project index kind = .ok part → ∀ id doc, (id, doc) ∈ index.entities kind →
    ∃ kept, passes index.zone { kind, entity := doc } part = .ok kept ∧
      (kept = true ↔ s.TrueUnder (loosely index kind doc))
  sound : ∀ part, s.project index kind = .ok part → ∀ id doc, (id, doc) ∈ index.entities kind →
    ∀ value, s.TrueUnder (assuming value index kind doc) →
      passes index.zone { kind, entity := doc } part = .ok true

theorem passes_eq_demands (hkind : kind ≠ .fixture) (hs : IsPlain s) {left : Option Selector}
    (h : s.project index kind = .ok left) {id : String} {doc : Json}
    (hmem : (id, doc) ∈ index.entities kind) : passes index.zone { kind, entity := doc } left =
      .ok (demands kind (holdsOf index.zone { kind, entity := doc }) left) := by
  cases left with
  | none => rfl
  | some part =>
    -- All criteria that are left bear on the kind, so none of them fails.
    refine matchesOne_eq_truth part fun criterion hcriterion => ?_
    have hrestricts := restricts_of_project hs h criterion hcriterion
    unfold Leaf.holds
    rw [if_pos (Leaf.bearsOn_of_bearsIn ((Leaf.restricts_eq_ok hkind hrestricts).mp rfl))]
    exact Leaf.exists_test _ hkind hrestricts hmem

/-- The truth that decides is that of the tests. -/
theorem loosely_iff (hkind : kind ≠ .fixture) {criterion : Leaf} {b : Bool}
    (h : criterion.restricts index kind = .ok b) {id : String} {doc : Json}
    (hmem : (id, doc) ∈ index.entities kind) (negated : Bool) :
    (restrictsOf index kind criterion = true →
      holdsOf index.zone { kind, entity := doc } criterion = !negated) ↔
        loosely index kind doc negated criterion := by
  unfold loosely restrictsOf
  rw [h, saysYes_ok, Leaf.restricts_eq_ok hkind h]
  refine forall_congr' fun hbears => ?_
  have hrestricts : b = true := (Leaf.restricts_eq_ok hkind h).mpr hbears
  obtain ⟨holds, hholds⟩ := Leaf.exists_test index.zone hkind (hrestricts ▸ h) hmem
  unfold holdsOf Leaf.holds
  rw [if_pos (Leaf.bearsOn_of_bearsIn hbears), hholds, saysYes_ok, Except.ok.injEq]

/-- Projecting the normal form of what was read is sound and as tight as the criteria allow. -/
theorem projectsTightly_of_read {doc : Json} (h : read doc = .ok s)
    (hscope : ∀ scope inner, s ≠ entityScope scope inner) (index : Index)
    (hkind : kind ≠ .fixture) : ProjectsTightly index kind s.toNormalForm := by
  have hplain : IsPlain s.toNormalForm := (isPlain_of_read h hscope).normal false
  have hnormal := isNormal_toNormalForm h
  have hexact : ∀ part, s.toNormalForm.project index kind = .ok part →
      ∀ id doc, (id, doc) ∈ index.entities kind →
        ∃ kept, passes index.zone { kind, entity := doc } part = .ok kept ∧
          (kept = true ↔ s.toNormalForm.TrueUnder (loosely index kind doc)) := by
    intro part hpart id doc hmem
    refine ⟨_, passes_eq_demands hkind hplain hpart hmem, ?_⟩
    have hjudged := (exists_project hplain).mp ⟨part, hpart⟩
    -- What is left demands what the selector admits, which is in normal form already.
    have hdemands : demands kind (holdsOf index.zone { kind, entity := doc }) part =
        admits kind (restrictsOf index kind) (holdsOf index.zone { kind, entity := doc }) false
          s.toNormalForm := by
      apply demands_project
      rwa [← toNormalForm, hnormal.toNormalForm_eq]
    rw [hdemands, admits_iff_trueUnder hnormal hplain]
    apply trueUnder_congr
    intro criterion hcriterion negated
    obtain ⟨b, hb⟩ := hjudged criterion hcriterion
    exact loosely_iff hkind hb hmem negated
  refine ⟨?returns, hexact, ?sound⟩
  case returns =>
    rw [exists_project hplain]
    simp only [Leaf.exists_restricts hkind]
    constructor
    · rintro hall ⟨values, hvalues⟩
      exact hall _ hvalues ⟨values, rfl⟩
    · rintro hreadable criterion hcriterion ⟨values, rfl⟩
      exact hreadable ⟨values, hcriterion⟩
  case sound =>
    intro part hpart id doc hmem value htrue
    obtain ⟨kept, hkept, hiff⟩ := hexact part hpart id doc hmem
    rw [hkept, hiff.mpr (htrue.mono fun criterion _ negated hliteral => hliteral.1)]

/-- A team of young players and one of adults. -/
def twoAges : Json :=
  .obj [("teams", .arr [.obj [("id", .str "A"), ("tags", .arr [.str "youth"])],
    .obj [("id", .str "B"), ("division", .str "D2")]])]

/-- Adults, at home or in the first division. -/
def adultsAtHome : Json :=
  .obj [("allOf", .arr [.obj [("not", .obj [("tags", .arr [.str "youth"])])],
    .obj [("anyOf", .arr [.obj [("role", .str "home")], .obj [("division", .str "D1")]])]])]

theorem projectsTightly_of_read_adultsAtHome :
    ∃ index s part, Index.build (.whole 90) "UTC" twoAges (.obj []) = .ok index ∧
      read adultsAtHome = .ok s ∧ s.toNormalForm.project index .team = .ok part ∧
      (index.teams.map fun (id, doc) =>
        (id, (passes index.zone { kind := .team, entity := doc } part).toOption)) =
          [("A", some false), ("B", some true)] ∧
      ProjectsTightly index .team s.toNormalForm := by
  have hread : read adultsAtHome = .ok (allOf [not (leaf (.tags ["youth"])),
    anyOf [leaf (.role .home), leaf (.among .division [.str "D1"])]]) := rfl
  obtain ⟨index, hindex, hview⟩ := exists_ok_of_toOption_map
    (x := Index.build (.whole 90) "UTC" twoAges (.obj [])) (f := fun index =>
      (read adultsAtHome).toOption.bind fun s =>
        (s.toNormalForm.project index .team).toOption.map fun part => index.teams.map
          fun (id, doc) => (id, (passes index.zone { kind := .team, entity := doc } part).toOption))
    (b := some [("A", some false), ("B", some true)]) (by decide +kernel)
  rw [hread] at hview
  obtain ⟨part, hpart, hkept⟩ := exists_ok_of_toOption_map hview
  exact ⟨index, _, part, hindex, hread, hpart, hkept,
    projectsTightly_of_read hread (fun _ _ => Selector.noConfusion) index EntityKind.noConfusion⟩

end Selector
end LeagueAudit
