import LeagueAudit.Proofs.Schedule.Build
import LeagueAudit.Proofs.Selector.Scope

/-!
The algebra of scopes. Combining selectors combines what their scopes keep: `allOf` intersects,
`anyOf` unites, the criteria of one object intersect, and what a scope drops the scope of the
negation keeps. Fixtures are seen by one participant at a time, so for them `allOf` may keep less
than every part does.
-/
namespace LeagueAudit.Index

open Selector

/-- No two entities of a kind have one id. -/
def Distinct (index : Index) : Prop := ∀ kind, (index.entities kind).ids.Nodup

/-- A selector document limits an index to a part of it. -/
def ScopesTo (index : Index) (doc : Json) (part : Index) : Prop :=
  ∃ s, Selector.read doc = .ok s ∧ index.scope s = .ok part

/-- A part of an index keeps an entity. -/
def Keeps (part : Index) (kind : EntityKind) (id : String) : Prop := id ∈ (part.entities kind).ids

/-- What the scopes of combined selectors keep. -/
structure BooleanScopes (index : Index) : Prop where
  allOf : ∀ docs parts whole, List.Forall₂ index.ScopesTo docs parts →
    index.ScopesTo (.obj [("allOf", .arr docs)]) whole →
    ∀ kind, kind ≠ .fixture → ∀ id ∈ (index.entities kind).ids,
      (whole.Keeps kind id ↔ ∀ part ∈ parts, part.Keeps kind id)
  allOf_fixtures : ∀ docs parts whole, List.Forall₂ index.ScopesTo docs parts →
    index.ScopesTo (.obj [("allOf", .arr docs)]) whole →
    ∀ id, whole.Keeps .fixture id → ∀ part ∈ parts, part.Keeps .fixture id
  anyOf : ∀ docs parts whole, List.Forall₂ index.ScopesTo docs parts →
    index.ScopesTo (.obj [("anyOf", .arr docs)]) whole →
    ∀ kind id, whole.Keeps kind id ↔ ∃ part ∈ parts, part.Keeps kind id
  object : ∀ (members criteria : List (String × Json)) one all, (members.map (·.1)).Nodup →
    criteria.Perm members → (Json.obj members).has "entityType" = false →
    index.ScopesTo (.obj members) one →
    index.ScopesTo (.obj [("allOf", .arr (criteria.map fun member => .obj [member]))]) all →
    ∀ kind id, one.Keeps kind id ↔ all.Keeps kind id
  excluded : ∀ doc part rest, index.ScopesTo doc part → index.ScopesTo (.obj [("not", doc)]) rest →
    ∀ kind, ∀ id ∈ (index.entities kind).ids, part.Keeps kind id ∨ rest.Keeps kind id

variable {index part : Index} {s : Selector} {kind : EntityKind} {id : String} {doc : Json}

theorem distinct_of_build {default : Minutes} {fallback : String} {league result : Json}
    (h : build default fallback league result = .ok index) : index.Distinct := by
  unfold build at h
  obtain ⟨⟨zone, known⟩, -, h⟩ := bind_eq_ok.mp h
  obtain ⟨minutes, -, h⟩ := bind_eq_ok.mp h
  obtain ⟨found, -, h⟩ := bind_eq_ok.mp h
  obtain ⟨whole, -, h⟩ := bind_eq_ok.mp h
  cases Except.ok.inj h
  have hnone : (Entities.ids []).Nodup := .nil
  intro kind
  cases kind with
  | team => exact nodup_collect _ _ hnone _
  | venue => exact nodup_collect _ _ hnone _
  | fixture => exact nodup_collect _ _ hnone _

theorem keeps_iff (hdistinct : index.Distinct) (hmem : (id, doc) ∈ index.entities kind)
    (hscope : ∀ kind inner, s ≠ entityScope kind inner) (h : index.scope s = .ok part) :
    part.Keeps kind id ↔ index.Suits s kind id doc := by
  unfold Keeps
  rw [mem_scope hscope h]
  constructor
  · rintro ⟨doc', hmem', hsuits⟩
    have hlookup := (Json.mem_iff_lookup (hdistinct kind)).mp hmem
    cases hlookup.symm.trans ((Json.mem_iff_lookup (hdistinct kind)).mp hmem')
    exact hsuits
  · exact fun hsuits => ⟨doc, hmem, hsuits⟩

theorem exists_mem_of_keeps (hscope : ∀ kind inner, s ≠ entityScope kind inner)
    (h : index.scope s = .ok part) (hkeeps : part.Keeps kind id) :
    ∃ doc, (id, doc) ∈ index.entities kind := by
  obtain ⟨doc, hmem, -⟩ := (mem_scope hscope h kind id).mp hkeeps
  exact ⟨doc, hmem⟩

theorem ScopesTo.scope_eq (h : index.ScopesTo doc part) (hs : ReadsAsPart doc s) :
    index.scope s = .ok part := by
  obtain ⟨s', hs', hscope⟩ := h
  cases hs.read.symm.trans hs'
  exact hscope

theorem scopes_of_parts {docs : List Json} {parts : List Index} {children : List Selector}
    (hparts : List.Forall₂ index.ScopesTo docs parts)
    (hchildren : List.Forall₂ ReadsAsPart docs children) :
    List.Forall₂ (fun s part => (∀ kind inner, s ≠ entityScope kind inner) ∧
      index.scope s = .ok part) children parts := by
  induction hparts generalizing children with
  | nil =>
    cases hchildren
    exact .nil
  | cons hpart hrest ih =>
    cases hchildren with
    | cons hchild hmore => exact .cons ⟨hchild.ne_entityScope, hpart.scope_eq hchild⟩ (ih hmore)

theorem forall_keeps_iff (hdistinct : index.Distinct) (hmem : (id, doc) ∈ index.entities kind)
    {children : List Selector} {parts : List Index}
    (h : List.Forall₂ (fun s part => (∀ kind inner, s ≠ entityScope kind inner) ∧
      index.scope s = .ok part) children parts) :
    (∀ part ∈ parts, part.Keeps kind id) ↔ ∀ s ∈ children, index.Suits s kind id doc := by
  induction h with
  | nil => simp
  | cons hfirst _ ih =>
    rw [List.forall_mem_cons, List.forall_mem_cons, ih, keeps_iff hdistinct hmem hfirst.1 hfirst.2]

theorem exists_keeps_iff (hdistinct : index.Distinct) (hmem : (id, doc) ∈ index.entities kind)
    {children : List Selector} {parts : List Index}
    (h : List.Forall₂ (fun s part => (∀ kind inner, s ≠ entityScope kind inner) ∧
      index.scope s = .ok part) children parts) :
    (∃ part ∈ parts, part.Keeps kind id) ↔ ∃ s ∈ children, index.Suits s kind id doc := by
  induction h with
  | nil => simp
  | cons hfirst _ ih =>
    rw [List.exists_mem_cons_iff, List.exists_mem_cons_iff, ih,
      keeps_iff hdistinct hmem hfirst.1 hfirst.2]

/-- Combined selectors scope an index as the Boolean algebra of their parts does. -/
theorem booleanScopes (hdistinct : index.Distinct) : index.BooleanScopes where
  allOf := by
    rintro docs parts whole hparts ⟨s, hread, hwhole⟩ kind hkind id hid
    obtain ⟨children, rfl, hchildren⟩ := read_allOf hread
    obtain ⟨doc, hmem⟩ := mem_ids.mp hid
    rw [keeps_iff hdistinct hmem (fun _ _ => Selector.noConfusion) hwhole,
      forall_keeps_iff hdistinct hmem (scopes_of_parts hparts hchildren)]
    exact suits_allOf hkind children
  allOf_fixtures := by
    rintro docs parts whole hparts ⟨s, hread, hwhole⟩ id hkeeps
    obtain ⟨children, rfl, hchildren⟩ := read_allOf hread
    have hscope : ∀ kind inner, allOf children ≠ entityScope kind inner :=
      fun _ _ => Selector.noConfusion
    obtain ⟨doc, hmem⟩ := exists_mem_of_keeps hscope hwhole hkeeps
    rw [forall_keeps_iff hdistinct hmem (scopes_of_parts hparts hchildren)]
    exact suits_of_suits_allOf ((keeps_iff hdistinct hmem hscope hwhole).mp hkeeps)
  anyOf := by
    rintro docs parts whole hparts ⟨s, hread, hwhole⟩ kind id
    obtain ⟨children, rfl, hchildren⟩ := read_anyOf hread
    have hscope : ∀ kind inner, anyOf children ≠ entityScope kind inner :=
      fun _ _ => Selector.noConfusion
    have hscopes := scopes_of_parts hparts hchildren
    have hiff : ∀ doc, (id, doc) ∈ index.entities kind →
        (whole.Keeps kind id ↔ ∃ part ∈ parts, part.Keeps kind id) := by
      intro doc hmem
      rw [keeps_iff hdistinct hmem hscope hwhole, exists_keeps_iff hdistinct hmem hscopes]
      exact suits_anyOf children
    constructor
    · intro hkeeps
      obtain ⟨doc, hmem⟩ := exists_mem_of_keeps hscope hwhole hkeeps
      exact (hiff doc hmem).mp hkeeps
    · rintro ⟨part, hpart, hkeeps⟩
      obtain ⟨child, -, hchild, hpartScope⟩ := exists_right_of_forall₂ hscopes.flip hpart
      obtain ⟨doc, hmem⟩ := exists_mem_of_keeps hchild hpartScope hkeeps
      exact (hiff doc hmem).mpr ⟨part, hpart, hkeeps⟩
  object := by
    rintro members criteria one all hkeys hcriteria huntyped ⟨s, hread, hone⟩ ⟨t, hreads, hall⟩
      kind id
    obtain ⟨singles, rfl, hsingles⟩ := read_allOf hreads
    have hpart : ReadsAsPart (.obj members) s := by
      unfold Selector.read at hread
      rw [huntyped] at hread
      exact ⟨_, hread⟩
    obtain ⟨path, hnode⟩ := hpart
    have hsame : ∀ doc, index.Suits s kind id doc ↔
        index.Suits (Selector.allOf singles) kind id doc :=
      fun doc => suits_object hkeys hcriteria hnode (List.forall₂_map_left_iff.mp hsingles)
    unfold Keeps
    rw [mem_scope (ReadsAsPart.ne_entityScope ⟨path, hnode⟩) hone,
      mem_scope (fun _ _ => Selector.noConfusion) hall]
    exact exists_congr fun doc => and_congr_right fun _ => hsame doc
  excluded := by
    rintro doc part rest hpart ⟨s, hread, hrest⟩ kind id hid
    obtain ⟨child, rfl, hchild⟩ := read_not hread
    obtain ⟨entity, hmem⟩ := mem_ids.mp hid
    rw [keeps_iff hdistinct hmem hchild.ne_entityScope (hpart.scope_eq hchild),
      keeps_iff hdistinct hmem (fun _ _ => Selector.noConfusion) hrest]
    exact suits_or_suits_not index child kind id entity

/-- An instance with a team in each of two divisions. -/
def twoDivisions : Json :=
  .obj [("teams", .arr [.obj [("id", .str "A"), ("division", .str "D1")],
      .obj [("id", .str "B"), ("division", .str "D2")]]),
    ("fixtures", .arr [.obj [("id", .str "F"), ("participants", .arr [.str "A", .str "B"])]])]

def firstDivision : Json := .obj [("division", .str "D1")]

theorem exists_scopesTo {ids : List String} (h : ((Selector.read doc).toOption.bind fun s =>
    (index.scope s).toOption.map fun part => part.teams.ids) = some ids) :
    ∃ part, index.ScopesTo doc part ∧ part.teams.ids = ids := by
  obtain ⟨s, hs, h⟩ := Option.bind_eq_some_iff.mp h
  obtain ⟨part, hpart, hids⟩ := exists_ok_of_toOption_map h
  exact ⟨part, ⟨s, toOption_eq_some.mp hs, hpart⟩, hids⟩

theorem booleanScopes_twoDivisions :
    ∃ index part rest, build (.whole 90) "UTC" twoDivisions (.obj []) = .ok index ∧
      index.ScopesTo firstDivision part ∧ index.ScopesTo (.obj [("not", firstDivision)]) rest ∧
      part.teams.ids = ["A"] ∧ rest.teams.ids = ["B"] ∧ index.Distinct ∧ index.BooleanScopes := by
  obtain ⟨index, hindex, hview⟩ := exists_ok_of_toOption_map
    (x := build (.whole 90) "UTC" twoDivisions (.obj []))
    (f := fun index => [firstDivision, .obj [("not", firstDivision)]].map fun doc =>
      (Selector.read doc).toOption.bind fun s =>
        (index.scope s).toOption.map fun part => part.teams.ids)
    (b := [some ["A"], some ["B"]]) (by decide +kernel)
  obtain ⟨hfirst, hsecond⟩ := List.cons.inj hview
  obtain ⟨part, hpart, hteams⟩ := exists_scopesTo hfirst
  obtain ⟨rest, hrest, hothers⟩ := exists_scopesTo (List.cons.inj hsecond).1
  have hdistinct := distinct_of_build hindex
  exact ⟨index, part, rest, hindex, hpart, hrest, hteams, hothers, hdistinct,
    booleanScopes hdistinct⟩

end LeagueAudit.Index
