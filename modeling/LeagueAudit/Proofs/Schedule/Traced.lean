import LeagueAudit.Proofs.Schedule.Assembly

/-!
What becomes of the entities of an instance. One without an id is reported by an issue that names
its place; of those with an id the first of each id is kept. So an entity leaves no trace exactly
when another one with its id, and with other content, stands before it.
-/
namespace LeagueAudit.Index

/-- The entities of a kind that an instance lists. -/
def declared (league : Json) : EntityKind → List Json
  | .team => entityList league "teams"
  | .venue => entityList league "venues"
  | .fixture => (league.field "fixtures").items

/-- The id of an entity, as text. -/
def idOf (item : Json) : String := (item.field "id").text

/-- The issue about an entity without an id. -/
def noIdIssue (kind : EntityKind) (place : Nat) : Issue :=
  ⟨.malformedEntity, s!"{kind.name} #{place} has no id", none⟩

/-- The entities of a list that have no id are reported, each with its place. -/
def noIdIssues (kind : EntityKind) (position : Nat) (items : List Json) : List Issue :=
  ((items.zipIdx position).filter fun p => !hasId p.1).map fun p => noIdIssue kind p.2

theorem snd_collect (kind : EntityKind) (position : Nat) (found : Entities) (items : List Json) :
    (collect kind position found items).2 = noIdIssues kind position items := by
  induction items generalizing position found with
  | nil => rfl
  | cons item rest ih =>
    rw [collect, noIdIssues, List.zipIdx_cons, List.filter_cons]
    cases hid : hasId item with
    | true => simp [ih, noIdIssues]
    | false => simp [ih, noIdIssues, noIdIssue]

/-- The place is told by the digits of its number. -/
theorem toString_place_inj {place place' : Nat} (h : toString place = toString place') :
    place = place' := by
  have hdigits : Nat.toDigits 10 place = Nat.toDigits 10 place' := by
    simpa [Nat.toString_eq_ofList_toDigits] using congrArg String.toList h
  rw [← Nat.ofDigitChars_ten_toDigits (n := place), hdigits, Nat.ofDigitChars_ten_toDigits]

/-- An issue tells the kind and the place of the entity that it is about. -/
theorem noIdIssue_inj {kind kind' : EntityKind} {place place' : Nat}
    (h : noIdIssue kind place = noIdIssue kind' place') :
    kind = kind' ∧ place = place' := by
  have hmessage : kind.name ++ " #" ++ toString place ++ " has no id" =
      kind'.name ++ " #" ++ toString place' ++ " has no id" := congrArg Issue.message h
  have hchars := congrArg String.toList hmessage
  simp only [String.toList_append, List.append_assoc] at hchars
  -- The names of the kinds begin with different letters.
  have hkind : kind = kind' := by
    cases kind <;> cases kind' <;> first | rfl | simp [EntityKind.name] at hchars
  subst hkind
  have hplace := List.append_cancel_right
    (List.append_cancel_left (List.append_cancel_left hchars))
  exact ⟨rfl, toString_place_inj (String.toList_inj.mp hplace)⟩

/-- The entity in a place has no id. -/
theorem mem_noIdIssues {kind kind' : EntityKind} {place : Nat} {items : List Json} :
    noIdIssue kind place ∈ noIdIssues kind' 0 items ↔
      kind = kind' ∧ ∃ item, items[place]? = some item ∧ hasId item = false := by
  simp only [noIdIssues, List.mem_map, List.mem_filter, List.mem_zipIdx_iff_getElem?]
  constructor
  · rintro ⟨⟨item, other⟩, ⟨hitem, hid⟩, hissue⟩
    obtain ⟨rfl, rfl⟩ := noIdIssue_inj hissue
    exact ⟨rfl, item, hitem, by simpa using hid⟩
  · rintro ⟨rfl, item, hitem, hid⟩
    exact ⟨(item, place), ⟨hitem, by simp [hid]⟩, rfl⟩

variable {default : Minutes} {fallback : String} {league result : Json} {index : Index}

/-- What an index holds of the entities of its instance. -/
structure Collects (league : Json) (index : Index) : Prop where
  lookup : ∀ kind id, (index.entities kind).lookup id = (declared league kind).find? (declares id)
  issue : ∀ kind place, noIdIssue kind place ∈ index.issues ↔
    ∃ item, (declared league kind)[place]? = some item ∧ hasId item = false

/-- What is wrong with an entry of the assignments is not wrong with an entity. -/
theorem ne_malformedEntity_of_mem_entryFlaws {z : Zone} {doc : Option Json} {entry : Json}
    {flaw : IssueKind × Option String} (h : flaw ∈ entryFlaws z doc entry) :
    flaw.1 ≠ .malformedEntity := by
  by_cases hnames : namesFixture entry = true
  · obtain ⟨-, ⟨hkind, -⟩ | ⟨hkind, -⟩ | ⟨hkind, -⟩⟩ := (mem_entryFlaws hnames).mp h
    all_goals simp [hkind]
  · rw [entryFlaws, if_neg hnames, List.mem_singleton] at h
    simp [h]

theorem ne_malformedEntity_of_annotateAll {z : Zone} {minutes : Minutes} {fixtures : Entities}
    {position : Nat} {entries : List Json} {found : List Assignment × List Issue}
    (h : annotateAll z minutes fixtures position entries = .ok found) {issue : Issue}
    (hissue : issue ∈ found.2) : issue.kind ≠ .malformedEntity := by
  have hflaw := List.mem_map_of_mem (f := subject) hissue
  rw [map_subject_annotateAll h, List.mem_flatMap] at hflaw
  obtain ⟨entry, -, hflaw⟩ := hflaw
  exact ne_malformedEntity_of_mem_entryFlaws hflaw

theorem collects_of_build (h : build default fallback league result = .ok index) :
    Collects league index := by
  unfold build at h
  obtain ⟨⟨zone, known⟩, -, h⟩ := bind_eq_ok.mp h
  obtain ⟨minutes, -, h⟩ := bind_eq_ok.mp h
  obtain ⟨found, hfound, h⟩ := bind_eq_ok.mp h
  obtain ⟨whole, -, h⟩ := bind_eq_ok.mp h
  cases Except.ok.inj h
  refine ⟨?lookup, ?issue⟩
  case lookup =>
    intro kind id
    cases kind <;> exact lookup_collect _ _ _ _ _
  case issue =>
    intro kind place
    have hzone : noIdIssue kind place ∉ (if known then [] else
        [⟨.unknownTimezone, s!"Unknown timezone '{(declaredZone league).text}', using {zone.name}",
          none⟩] : List Issue) := by
      cases known <;> simp [noIdIssue]
    have hentries : noIdIssue kind place ∉ found.2 := fun hmem =>
      ne_malformedEntity_of_annotateAll hfound hmem rfl
    dsimp only
    simp only [List.mem_append, snd_collect, mem_noIdIssues, hzone, hentries]
    cases kind <;> simp [declared]

/-- The index holds an entity under its id, exactly as the instance lists it. -/
def Stores (index : Index) (kind : EntityKind) (item : Json) : Prop :=
  hasId item = true ∧ (index.entities kind).lookup (idOf item) = some item

/-- An entity in a place is kept or reported. -/
def Traces (index : Index) (kind : EntityKind) (place : Nat) (item : Json) : Prop :=
  index.Stores kind item ∨ noIdIssue kind place ∈ index.issues

/-- No entity of an instance is lost without a trace. -/
def TracesAll (league : Json) (index : Index) : Prop :=
  ∀ kind place item, (declared league kind)[place]? = some item → index.Traces kind place item

/-- Entities of a list that share an id are the same. -/
def SameById (items : List Json) : Prop :=
  ∀ a ∈ items, ∀ b ∈ items, hasId a = true → hasId b = true → idOf a = idOf b → a = b

theorem declares_iff {id : String} {item : Json} :
    declares id item = true ↔ hasId item = true ∧ idOf item = id := by
  rw [declares, Bool.and_eq_true, beq_iff_eq, idOf]

/-- An entity is traced when it has no id, or when it is the first one of its id. -/
theorem Collects.traces_iff (h : Collects league index) {kind : EntityKind} {place : Nat}
    {item : Json} (hitem : (declared league kind)[place]? = some item) :
    index.Traces kind place item ↔
      (hasId item = true → (declared league kind).find? (declares (idOf item)) = some item) := by
  rw [Traces, Stores, h.lookup, h.issue]
  simp only [hitem, Option.some.injEq, exists_eq_left']
  cases hasId item <;> simp

theorem find?_declares_eq_self_iff {items : List Json} :
    (∀ item ∈ items, hasId item = true → items.find? (declares (idOf item)) = some item) ↔
      SameById items := by
  constructor
  · intro h a ha b hb hida hidb hsame
    have hfirst := h a ha hida
    rw [hsame, h b hb hidb] at hfirst
    exact (Option.some.inj hfirst).symm
  · intro h item hitem hid
    have hself : declares (idOf item) item = true := declares_iff.mpr ⟨hid, rfl⟩
    obtain ⟨first, hfirst⟩ := Option.isSome_iff_exists.mp
      (List.find?_isSome.mpr ⟨item, hitem, hself⟩)
    obtain ⟨hidfirst, hsame⟩ := declares_iff.mp (List.find?_some hfirst)
    rw [hfirst, h first (List.mem_of_find?_eq_some hfirst) item hitem hidfirst hid hsame]

/-- An entity that stands behind another one of its id, and differs from it, is lost: it is neither
kept nor reported. Otherwise nothing is lost. -/
theorem tracesAll_iff_sameById (h : build default fallback league result = .ok index) :
    (TracesAll league index ↔ ∀ kind, SameById (declared league kind)) ∧
      ∀ kind place item, (declared league kind)[place]? = some item →
        (¬index.Traces kind place item ↔ hasId item = true ∧
          ∃ first, (declared league kind).find? (declares (idOf item)) = some first ∧
            first ≠ item ∧ index.Stores kind first) := by
  have hcollects := collects_of_build h
  refine ⟨?all, ?lost⟩
  case all =>
    refine forall_congr' fun kind => ?_
    rw [← find?_declares_eq_self_iff]
    constructor
    · intro htraces item hitem
      obtain ⟨place, hplace⟩ := List.mem_iff_getElem?.mp hitem
      exact (hcollects.traces_iff hplace).mp (htraces place item hplace)
    · intro hfirst place item hplace
      exact (hcollects.traces_iff hplace).mpr (hfirst item (List.mem_of_getElem? hplace))
  case lost =>
    intro kind place item hplace
    rw [hcollects.traces_iff hplace, Classical.not_imp]
    refine and_congr_right fun hid => ?_
    have hself : declares (idOf item) item = true := declares_iff.mpr ⟨hid, rfl⟩
    obtain ⟨first, hfirst⟩ := Option.isSome_iff_exists.mp
      (List.find?_isSome.mpr ⟨item, List.mem_of_getElem? hplace, hself⟩)
    obtain ⟨hidfirst, hsame⟩ := declares_iff.mp (List.find?_some hfirst)
    have hkept : index.Stores kind first := ⟨hidfirst, by rw [hcollects.lookup, hsame, hfirst]⟩
    rw [hfirst]
    constructor
    · intro hne
      exact ⟨first, rfl, fun heq => hne (congrArg some heq), hkept⟩
    · rintro ⟨other, hother, hne, -⟩ heq
      exact hne (Option.some.inj (hother.symm.trans heq))

/-- A league that lists a fixture twice, and a team without an id behind another one. -/
def listedTwice : Json :=
  .obj [("entities", .obj [("teams", .arr [.obj [("id", .str "A")], .obj [("name", .str "B")]])]),
    ("fixtures", .arr [.obj [("id", .str "F")], .obj [("id", .str "F")]])]

theorem tracesAll_listedTwice :
    ∃ index, build (.whole 90) "UTC" listedTwice .null = .ok index ∧
      index.issues.map (·.message) = ["team #1 has no id"] ∧ TracesAll listedTwice index := by
  obtain ⟨index, hindex, hissues⟩ := exists_ok_of_toOption_map
    (x := build (.whole 90) "UTC" listedTwice .null)
    (f := fun index => index.issues.map (·.message)) (b := ["team #1 has no id"])
    (by decide +kernel)
  have hsame : ∀ kind, SameById (declared listedTwice kind) := by
    intro kind a ha b hb hida hidb _
    cases kind with
    | team =>
      have hteam : ∀ item ∈ declared listedTwice .team, hasId item = true →
          item = .obj [("id", .str "A")] := by
        intro item hitem hid
        rcases List.mem_pair.mp hitem with rfl | rfl
        · rfl
        · exact absurd hid (by decide)
      rw [hteam a ha hida, hteam b hb hidb]
    | venue => cases ha
    | fixture =>
      have hfixture : ∀ item ∈ declared listedTwice .fixture, item = .obj [("id", .str "F")] :=
        fun item hitem => (List.mem_pair.mp hitem).elim id id
      rw [hfixture a ha, hfixture b hb]
  exact ⟨index, hindex, hissues, (tracesAll_iff_sameById hindex).1.mpr hsame⟩

/-- A league that uses the id of a fixture twice, once as a number and once as a text. -/
def repeatedFixture : Json :=
  .obj [("fixtures", .arr [
    .obj [("id", .int 7), ("participants", .arr [.str "A", .str "B"])],
    .obj [("id", .str "7"), ("participants", .arr [.str "C", .str "D"])]])]

/-- A fixture can be lost without an issue. -/
theorem not_tracesAll_repeatedFixture :
    ∃ index, build (.whole 90) "UTC" repeatedFixture .null = .ok index ∧ index.issues = [] ∧
      ¬TracesAll repeatedFixture index := by
  obtain ⟨index, hindex, hissues⟩ := exists_ok_of_toOption_map
    (x := build (.whole 90) "UTC" repeatedFixture .null) (f := Index.issues) (b := [])
    (by decide +kernel)
  refine ⟨index, hindex, hissues, fun hall => ?_⟩
  have hsecond : (declared repeatedFixture .fixture)[1]? =
      some (.obj [("id", .str "7"), ("participants", .arr [.str "C", .str "D"])]) := rfl
  have hfirst : (declared repeatedFixture .fixture).find? (declares "7") =
      some (.obj [("id", .int 7), ("participants", .arr [.str "A", .str "B"])]) := rfl
  have hkept := ((collects_of_build hindex).traces_iff hsecond).mp (hall .fixture 1 _ hsecond) rfl
  cases hkept.symm.trans hfirst

end LeagueAudit.Index
