import LeagueAudit.Proofs.Evaluation.Isolation
import LeagueAudit.Proofs.Score.Workable
import LeagueAudit.Proofs.Time.Spelling

/-!
Under which names constraints and reported lines are compared. A constraint goes by its id without
the blanks around it, a line by its id as it stands. So the two meet under every id that has no such
blanks, and under no other.
-/
namespace LeagueAudit

/-- A whole number is written without blanks. -/
theorem Json.isBlank_of_mem_text_int {n : Int} {c : Char} (h : c ∈ (Json.int n).text.toList) :
    Text.isBlank c = false := by
  have hdigits : ∀ {m : Nat}, c ∈ (toString m).toList → Text.isBlank c = false := by
    intro m hc
    rw [Nat.toString_eq_ofList_toDigits, String.toList_ofList] at hc
    refine Iso.isBlank_of_isDateChar ?_
    rw [Iso.isDateChar, Nat.isDigit_of_mem_toDigits (by decide) (by decide) hc]
    rfl
  cases n with
  | ofNat m => exact hdigits h
  | negSucc m =>
    have htext : (Json.int (Int.negSucc m)).text = "-" ++ toString (m + 1) := rfl
    rw [htext, String.toList_append] at h
    rcases List.mem_append.mp h with hsign | hc
    · rw [List.mem_singleton.mp hsign]
      decide
    · exact hdigits hc

theorem Json.text_int_ne_empty (n : Int) : (Json.int n).text ≠ "" := by
  cases n with
  | ofNat m =>
    have htext : (Json.int (Int.ofNat m)).text = String.ofList (Nat.toDigits 10 m) :=
      Nat.toString_eq_ofList_toDigits
    rw [htext, Ne, String.ofList_eq_empty_iff]
    exact Nat.toDigits_ne_nil
  | negSucc m =>
    have htext : (Json.int (Int.negSucc m)).text = "-" ++ toString (m + 1) := rfl
    simp [htext]

namespace Constraint

/-- A value that names a constraint: a text that is not blank, or a whole number. -/
inductive Names : Json → Prop where
  | text {s : String} (h : ∃ c ∈ s.toList, Text.isBlank c = false) : Names (.str s)
  | number (n : Int) : Names (.int n)

variable {v doc : Json} {c : Constraint}

theorem read_eq {tags : List String} (htags : readTags (doc.field "tags") = .ok tags) :
    read doc = .ok
      { id := nameOf (doc.field "id")
        ruleId := nameOf ((ruleNames.findSome? doc.find?).getD .null)
        soft := isSoft (doc.field "type")
        selector := doc.field "selector", params := doc.field "params"
        penalty := doc.field "penalty", priority := doc.field "priority", tags } := by
  unfold read
  rw [htags]
  rfl

theorem strip_text_int (n : Int) : Text.strip (Json.int n).text = (Json.int n).text :=
  Text.strip_eq_self fun _ hc => Json.isBlank_of_mem_text_int hc

theorem Names.exists_not_blank (h : Names v) : ∃ c ∈ v.text.toList, Text.isBlank c = false := by
  cases h with
  | text h => exact h
  | number n =>
    obtain ⟨c, hc⟩ := List.exists_mem_of_ne_nil _
      (mt String.toList_eq_nil_iff.mp (Json.text_int_ne_empty n))
    exact ⟨c, hc, Json.isBlank_of_mem_text_int hc⟩

theorem Names.notNull? (h : Names v) : v.notNull? = some v := by
  cases h <;> rfl

theorem Names.strip_not_empty (h : Names v) : (Text.strip v.text).isEmpty = false := by
  obtain ⟨c, hc, hblank⟩ := h.exists_not_blank
  refine Bool.eq_false_iff.mpr fun hempty => ?_
  rw [Text.strip_eq_empty_iff.mp hempty c hc] at hblank
  cases hblank

theorem Names.text_not_empty (h : Names v) : v.text.isEmpty = false := by
  obtain ⟨c, hc, -⟩ := h.exists_not_blank
  refine Bool.eq_false_iff.mpr fun hempty => ?_
  rw [String.isEmpty_iff.mp hempty] at hc
  cases hc

/-- A constraint that has an id goes by it without the blanks around it. -/
theorem label_of_read (hread : read doc = .ok c) (h : Names (doc.field "id")) :
    c.label = Text.strip (doc.field "id").text := by
  obtain ⟨tags, htags, -⟩ := bind_eq_ok.mp hread
  rw [read_eq htags] at hread
  have hname : nameOf (doc.field "id") = some (Text.strip (doc.field "id").text) := by
    rw [nameOf, h.notNull?, Option.map_some, Option.filter_some, h.strip_not_empty]
    rfl
  rw [← Except.ok.inj hread, label, labelOf, hname, Option.filter_some, h.strip_not_empty]
  rfl

end Constraint

namespace Reconciliation

variable {r : Reconciliation} {engine : Engine} {index : Index} {docs : List Json}

/-- A reconciliation records an entry of a check about a name. -/
def Flags (r : Reconciliation) (check name : String) : Prop :=
  ∃ e ∈ r.errors ++ r.warnings, e.check = check ∧
    e.entities = .obj [("constraintId", .str name)]

theorem flags_missing_iff (h : engine.evaluateAll index docs = .ok r.evaluations) (name : String) :
    r.Flags "MissingScoreEntry" name ↔ .missing name ∈ r.differences := by
  have hentries := exists_entry_iff "MissingScoreEntry" h (by decide) (by decide)
    fun entities => entities = .obj [("constraintId", .str name)]
  rw [Flags, hentries]
  constructor
  · rintro (⟨d, hd, hcheck, habout⟩ | ⟨id, -, hcheck, -⟩)
    · cases d with
      | missing other =>
        simp only [Difference.entry, Difference.constraint?] at habout
        simp at habout
        exact habout ▸ hd
      | total | line => simp [Difference.check] at hcheck
    · simp [unknownEntry] at hcheck
  · intro hd
    exact .inl ⟨_, hd, rfl, rfl⟩

theorem flags_unknown_iff (h : engine.evaluateAll index docs = .ok r.evaluations) (name : String) :
    r.Flags "UnknownScoreEntry" name ↔ name ∈ r.unknown := by
  have hentries := exists_entry_iff "UnknownScoreEntry" h (by decide) (by decide)
    fun entities => entities = .obj [("constraintId", .str name)]
  rw [Flags, hentries]
  constructor
  · rintro (⟨d, hd, hcheck, habout⟩ | ⟨id, hid, -, habout⟩)
    · cases d <;> simp [Difference.check] at hcheck
    · simp [unknownEntry] at habout
      exact habout ▸ hid
  · intro hid
    exact .inr ⟨name, hid, rfl, rfl⟩

end Reconciliation

namespace ReportedLedger

/-- The scores report a line that goes by a name. -/
def HasLine (scores : Json) (name : String) : Prop :=
  ∃ doc ∈ lineDocs scores, (ReportedLine.taken doc).name? = some name

theorem isSome_lookup_taken {scores : Json} {name : String} :
    ((taken scores).lookup name).isSome ↔ HasLine scores name := by
  rw [taken, lookup_firstOfEach, Json.isSome_lookup_iff]
  simp only [ReportedLine.named, List.mem_map, List.mem_filterMap]
  constructor
  · rintro ⟨_, ⟨_, ⟨doc, hdoc, rfl⟩, hname⟩, rfl⟩
    obtain ⟨id, hid, rfl⟩ := Option.map_eq_some_iff.mp hname
    exact ⟨doc, hdoc, hid⟩
  · rintro ⟨doc, hdoc, hname⟩
    exact ⟨(name, ReportedLine.taken doc), ⟨_, ⟨doc, hdoc, rfl⟩, by rw [hname]; rfl⟩, rfl⟩

end ReportedLedger

namespace ReportedLine

/-- A line that has an id goes by it as it stands. -/
theorem name?_taken {doc v : Json} (hid : doc.find? "constraintId" = some v)
    (h : Constraint.Names v) : (taken doc).name? = some v.text := by
  have hnamed : (constraintNames.findSome? doc.find?).getD .null = v := by
    rw [constraintNames, List.findSome?_cons, hid]
    rfl
  rw [name?, taken, hnamed, h.notNull?, Option.map_some, Option.filter_some, h.text_not_empty]
  rfl

end ReportedLine

namespace Scorekeeper

open Exact Reconciliation Constraint ReportedLine
open ReportedLedger (HasLine isSome_lookup_taken lineDocs)

variable {k : Scorekeeper} {engine : Engine} {league result : Json} {index : Index}
  {r : Reconciliation} {ev : Evaluation} {v : Json} {evaluations : List Evaluation}
  {ledger : ReportedLedger}

/-- The constraints that are missing are the checked soft ones without a line of their name. -/
theorem missing_mem_differences_iff (h : Reconciles k result evaluations ledger r) (name : String) :
    .missing name ∈ r.differences ↔
      ledger.lookup name = none ∧ ∃ ev ∈ linesOf evaluations, ev.constraint.label = name := by
  obtain ⟨total, others, htotal, hothers, hdifferences⟩ := h.compared
  rw [hdifferences]
  constructor
  · intro hmem
    rcases List.mem_append.mp hmem with hmem | hmem
    · have hcheck := check_of_compareTotal htotal hmem
      simp [Difference.check] at hcheck
    obtain ⟨differences, hdifferences, hmem⟩ := List.mem_flatten.mp hmem
    obtain ⟨ev, hev, hline⟩ := exists_source_of_mapM_eq_ok hothers hdifferences
    rcases compareLine_eq_ok hline with ⟨hnone, rfl⟩ | ⟨-, rfl | ⟨numbers, rfl⟩⟩
    · cases List.mem_singleton.mp hmem
      exact ⟨hnone, ev, hev, rfl⟩
    · cases hmem
    · cases List.mem_singleton.mp hmem
  · rintro ⟨hnone, ev, hev, rfl⟩
    obtain ⟨differences, hmem, hline⟩ := exists_of_mapM_eq_ok hothers hev
    rcases compareLine_eq_ok hline with ⟨-, rfl⟩ | ⟨hsome, -⟩
    · exact List.mem_append_right _ (List.mem_flatten.mpr ⟨_, hmem, List.mem_singleton_self _⟩)
    · rw [hnone] at hsome
      cases hsome

/-- An instance declares a checked soft constraint under an id. -/
structure Declares (league : Json) (r : Reconciliation) (ev : Evaluation) (v : Json) : Prop where
  declared : ∃ (place : Nat) (doc : Json), (league.field "constraints").items[place]? = some doc ∧
    r.evaluations[place]? = some ev ∧ doc.field "id" = v
  soft : ev.constraint.soft = true
  checked : ev.checked = true

/-- A result reports a line under an id. -/
def Reports (result v : Json) : Prop :=
  ∃ doc ∈ lineDocs (result.field "scores"), doc.find? "constraintId" = some v

/-- A constraint is compared with a reported line: neither is said to lack its counterpart. -/
def Compares (r : Reconciliation) (ev : Evaluation) (v : Json) : Prop :=
  ¬r.Flags "MissingScoreEntry" ev.constraint.label ∧ ¬r.Flags "UnknownScoreEntry" v.text

/-- Wherever a constraint and a reported line have an id, they are compared. -/
def Meets (v : Json) : Prop :=
  ∀ (k : Scorekeeper) (engine : Engine) (default : Minutes) (fallback : String)
    (league result : Json) (index : Index) (r : Reconciliation) (ev : Evaluation),
    Index.build default fallback league result = .ok index →
    k.reconcile engine league result index = .ok r → Declares league r ev v → Reports result v →
    Compares r ev v

theorem Reports.hasLine (h : Reports result v) (hv : Names v) :
    HasLine (result.field "scores") v.text := by
  obtain ⟨doc, hdoc, hid⟩ := h
  exact ⟨doc, hdoc, name?_taken hid hv⟩

theorem Declares.mem_linesOf (h : Declares league r ev v) : ev ∈ linesOf r.evaluations := by
  obtain ⟨place, doc, -, hev, -⟩ := h.declared
  exact List.mem_filter.mpr ⟨List.mem_of_getElem? hev, by rw [h.soft, h.checked]; rfl⟩

/-- A checked constraint goes by its id without the blanks around it. -/
theorem Declares.label (h : Declares league r ev v)
    (hevaluations : engine.evaluateAll index (league.field "constraints").items =
      .ok r.evaluations) (hv : Names v) : ev.constraint.label = Text.strip v.text := by
  obtain ⟨place, doc, hdoc, hev, rfl⟩ := h.declared
  rw [getElem?_of_mapM_eq_ok hevaluations place, hdoc, Option.bind_some] at hev
  have heval := toOption_eq_some.mp hev
  obtain ⟨c, ruleId, rule, scope, model, returned, warnings, hread, -, -, habsorb⟩ :=
    (Engine.evaluateAmong_eq_ok heval).of_checked h.checked
  obtain ⟨reading, amount, penalty, -, rfl⟩ := Engine.absorb_eq_ok habsorb
  exact label_of_read hread hv

/-- Which entries a reconciliation records about its lines: a checked soft constraint is missing
when no reported line goes by its name, and a reported line is unknown when no constraint does. -/
theorem flags_iff (h : k.reconcile engine league result index = .ok r) :
    engine.evaluateAll index (league.field "constraints").items = .ok r.evaluations ∧
      (∀ ev ∈ linesOf r.evaluations, (r.Flags "MissingScoreEntry" ev.constraint.label ↔
        ¬HasLine (result.field "scores") ev.constraint.label)) ∧
      ∀ name, HasLine (result.field "scores") name → (r.Flags "UnknownScoreEntry" name ↔
        ∀ ev ∈ r.evaluations, ev.constraint.label ≠ name) := by
  obtain ⟨evaluations, hevaluations, hr⟩ := bind_eq_ok.mp h
  obtain ⟨ledger, hr⟩ := reconcileWith_eq_ok hr
  cases hr.same
  obtain ⟨-, rfl⟩ := ReportedLedger.read_eq_ok_iff.mp hr.read
  refine ⟨hevaluations, fun ev hev => ?missing, fun name hname => ?unknown⟩
  case missing =>
    rw [flags_missing_iff hevaluations, missing_mem_differences_iff hr, ← isSome_lookup_taken,
      Option.not_isSome_iff_eq_none]
    exact and_iff_left ⟨ev, hev, rfl⟩
  case unknown =>
    have hkey := Json.isSome_lookup_iff.mp (isSome_lookup_taken.mpr hname)
    rw [flags_unknown_iff hevaluations, hr.unknown, unknownLines, List.mem_filter]
    simp [hkey]

theorem meets_of_strip_eq (hv : Names v) (h : Text.strip v.text = v.text) : Meets v := by
  intro k engine default fallback league result index r ev _ hr hdeclares hreports
  obtain ⟨hevaluations, hmissing, hunknown⟩ := flags_iff hr
  have hlabel := (hdeclares.label hevaluations hv).trans h
  have hname := hreports.hasLine hv
  refine ⟨?_, ?_⟩
  · rw [hmissing ev hdeclares.mem_linesOf, hlabel]
    exact not_not.mpr hname
  · rw [hunknown _ hname]
    exact fun hall => hall ev (List.mem_of_mem_filter hdeclares.mem_linesOf) hlabel

/-- A league with one soft constraint under an id. -/
def namedLeague (id : String) : Json := .obj [("constraints", .arr [evenly id])]

/-- A result that reports one line under an id. -/
def namedResult (id : String) : Json :=
  .obj [("scores", .obj [("byConstraint", .arr [.obj [("constraintId", .str id)]])])]

/-- A soft constraint on the balance of home and away games, as it is read. -/
def evenConstraint (id : Option String) : Constraint where
  id := id
  ruleId := some "home_away_balance"
  soft := true
  selector := .null
  params := .null
  penalty := (evenly "").field "penalty"
  priority := .null
  tags := []

theorem read_evenly (id : String) :
    Constraint.read (evenly id) = .ok (evenConstraint (nameOf (.str id))) := by
  have hfind : (ruleNames.findSome? (evenly id).find?).getD .null = .str "home_away_balance" := by
    rw [ruleNames, List.findSome?_cons]
    rfl
  have hrule : nameOf (.str "home_away_balance") = some "home_away_balance" := by decide +kernel
  have htype : (evenly id).field "type" = .str "soft" := rfl
  have hsoft : isSoft (.str "soft") = true := by decide +kernel
  have htags : readTags ((evenly id).field "tags") = .ok [] := rfl
  rw [read_eq htags, hfind, hrule, htype, hsoft]
  rfl

/-- Where nothing is played, the constraint is met. -/
theorem exists_evaluateRead_even {index : Index} (hassignments : index.assignments = [])
    (hteams : index.teams = []) (id : Option String) :
    ∃ ev, Engine.evaluateRead { catalog := .default } (evenConstraint id) index = .ok ev ∧
      ev.constraint = evenConstraint id ∧ ev.checked = true ∧ ev.count = 0 ∧
      AddsUp [ev.penalty] := by
  obtain ⟨model, hmodel, hprice⟩ := exists_ok_of_toOption_map
    (x := PenaltyModel.read ((evenly "").field "penalty"))
    (f := fun model => (sumFloats [model.priceOf 0.0]).toOption.isSome) (b := true)
    (by decide +kernel)
  obtain ⟨sum, hsum⟩ := Option.isSome_iff_exists.mp hprice
  have hpriced : Engine.modelOf (evenConstraint id) [] = .ok (some model) := by
    unfold Engine.modelOf evenConstraint
    rw [hmodel]
    rfl
  have hruns : Engine.Runs { catalog := .default } (evenConstraint id) index "home_away_balance"
      Rule.homeAwayBalance index (some model) :=
    ⟨rfl, ⟨rfl, rfl, .wildcard, rfl, rfl⟩, hpriced⟩
  have hrun : (Engine.runOf (evenConstraint id) Rule.homeAwayBalance index).result =
      .ok (.outcome (Rule.balanceOutcome 0.0 [])) := by
    simp only [Engine.runOf, Rule.homeAwayBalance, Rule.allSides, hassignments, hteams,
      Rule.unbalanced]
    rfl
  rw [Engine.evaluateRead_of_runs hruns, hrun]
  exact ⟨_, rfl, rfl, rfl, rfl, exists_sumFloats_iff.mp ⟨sum, toOption_eq_some.mp hsum⟩⟩

theorem not_reader_lt_zero : ¬reader.tolerance < 0.0 :=
  not_lt_zero (t := stepsOf 1e-6) (by decide +kernel) (by decide +kernel)

/-- Any id can be that of a checked soft constraint and of a reported line. -/
theorem exists_reconcile_named (id : String) :
    ∃ index r ev, Index.build (.whole 90) "UTC" (namedLeague id) (namedResult id) = .ok index ∧
      reader.reconcile { catalog := .default } (namedLeague id) (namedResult id) index = .ok r ∧
      r.evaluations = [ev] ∧ Declares (namedLeague id) r ev (.str id) := by
  obtain ⟨index, hindex, hview⟩ := exists_ok_of_toOption_map
    (x := Index.build (.whole 90) "UTC" (namedLeague id) (namedResult id))
    (f := fun index => (index.assignments.isEmpty, index.teams.isEmpty)) (b := (true, true)) rfl
  simp only [Prod.mk.injEq, List.isEmpty_iff] at hview
  obtain ⟨ev, hev, hconstraint, hchecked, hcount, hpenalty⟩ :=
    exists_evaluateRead_even hview.1 hview.2 (nameOf (.str id))
  have hsoft : ev.constraint.soft = true := by rw [hconstraint]; rfl
  have hevaluations : Engine.evaluateAll { catalog := .default } index
      ((namedLeague id).field "constraints").items = .ok [ev] := by
    have hone : Engine.evaluate { catalog := .default } index (evenly id) = .ok ev := by
      rw [Engine.evaluate, read_evenly]
      exact hev
    have hamong : Engine.evaluateAmong { catalog := .default } index [evenly id] (evenly id) =
        .ok ev := by
      rw [Engine.evaluateAmong, hone]
    have hdocs : ((namedLeague id).field "constraints").items = [evenly id] := rfl
    rw [hdocs, Engine.evaluateAll, List.mapM_cons, hamong]
    rfl
  have hlines : linesOf [ev] = [ev] := by simp [linesOf, hsoft, hchecked]
  have hworkable : reader.Workable (namedResult id) [ev] := by
    have htotal : ((namedResult id).field "scores").field "totalPenalty" = .null := rfl
    refine ⟨by rwa [hlines], ?lines, ?total, ?reported, ?counts, nofun⟩
    case lines =>
      intro doc hdoc
      obtain rfl : doc = .obj [("constraintId", .str id)] := List.mem_singleton.mp hdoc
      exact ⟨nofun, nofun⟩
    case total =>
      rw [htotal]
      exact nofun
    case reported =>
      rw [htotal]
      exact nofun
    case counts =>
      intro other hother _
      rw [hlines, List.mem_singleton] at hother
      rw [hother, hcount, beyondDoubles_int, intFloat?_eq_none_iff]
      decide +kernel
  obtain ⟨r, hr⟩ := (exists_reconcileWith_iff_workable not_reader_lt_zero).mpr hworkable
  obtain ⟨ledger, hledger⟩ := reconcileWith_eq_ok hr
  refine ⟨index, r, ev, hindex, (reconcile_eq hevaluations).trans hr, hledger.same, ?_⟩
  exact ⟨⟨0, evenly id, rfl, by rw [hledger.same]; rfl, rfl⟩, hsoft, hchecked⟩

/-- A constraint and a line with one id are always compared exactly when the id has no blanks around
it, which a number never has. In any case a constraint is missing when no line goes by its id
without the blanks, and a line is unknown when no constraint goes by its id as it stands. -/
theorem meets_iff_strip_eq (hv : Names v) :
    (Meets v ↔ Text.strip v.text = v.text) ∧
      ∀ (k : Scorekeeper) (engine : Engine) (league result : Json) (index : Index)
        (r : Reconciliation) (ev : Evaluation), k.reconcile engine league result index = .ok r →
        Declares league r ev v →
        (r.Flags "MissingScoreEntry" ev.constraint.label ↔
          ¬HasLine (result.field "scores") (Text.strip v.text)) ∧
        (Reports result v → (r.Flags "UnknownScoreEntry" v.text ↔
          ∀ other ∈ r.evaluations, other.constraint.label ≠ v.text)) := by
  refine ⟨⟨?meets, meets_of_strip_eq hv⟩, ?flags⟩
  case meets =>
    intro hmeets
    cases hv with
    | number n => exact strip_text_int n
    | @text id hchar =>
      -- The only line of the result is one that goes by the id as it stands.
      obtain ⟨index, r, ev, hindex, hr, -, hdeclares⟩ := exists_reconcile_named id
      have hreports : Reports (namedResult id) (.str id) :=
        ⟨_, List.mem_singleton_self _, rfl⟩
      obtain ⟨hevaluations, hmissing, -⟩ := flags_iff hr
      have hcompares := (hmeets _ _ _ _ _ _ _ _ _ hindex hr hdeclares hreports).1
      rw [hmissing ev hdeclares.mem_linesOf, hdeclares.label hevaluations (.text hchar),
        not_not] at hcompares
      obtain ⟨doc, hdoc, hname⟩ := hcompares
      obtain rfl : doc = .obj [("constraintId", .str id)] := List.mem_singleton.mp hdoc
      rw [name?_taken rfl (.text hchar)] at hname
      exact (Option.some.inj hname).symm
  case flags =>
    intro k engine league result index r ev hr hdeclares
    obtain ⟨hevaluations, hmissing, hunknown⟩ := flags_iff hr
    refine ⟨?_, fun hreports => hunknown _ (hreports.hasLine hv)⟩
    rw [← hdeclares.label hevaluations hv]
    exact hmissing ev hdeclares.mem_linesOf

theorem meets_iff_strip_eq_plain :
    ∃ index r ev, Index.build (.whole 90) "UTC" (namedLeague "S1") (namedResult "S1") = .ok index ∧
      reader.reconcile { catalog := .default } (namedLeague "S1") (namedResult "S1") index =
        .ok r ∧ Declares (namedLeague "S1") r ev (.str "S1") ∧
      Reports (namedResult "S1") (.str "S1") ∧ Compares r ev (.str "S1") := by
  obtain ⟨index, r, ev, hindex, hr, -, hdeclares⟩ := exists_reconcile_named "S1"
  have hreports : Reports (namedResult "S1") (.str "S1") := ⟨_, List.mem_singleton_self _, rfl⟩
  have hnames : Names (.str "S1") := .text ⟨'S', by decide +kernel, by decide +kernel⟩
  have hmeets := (meets_iff_strip_eq hnames).1.mpr (by decide +kernel)
  exact ⟨index, r, ev, hindex, hr, hdeclares, hreports,
    hmeets _ _ _ _ _ _ _ _ _ hindex hr hdeclares hreports⟩

/-- A constraint and a line with the same id, which begins with a blank, are not compared. -/
theorem not_compares_padded :
    ∃ index r ev, Index.build (.whole 90) "UTC" (namedLeague " S1") (namedResult " S1") =
        .ok index ∧
      reader.reconcile { catalog := .default } (namedLeague " S1") (namedResult " S1") index =
        .ok r ∧ Names (.str " S1") ∧ Declares (namedLeague " S1") r ev (.str " S1") ∧
      Reports (namedResult " S1") (.str " S1") ∧ r.Flags "MissingScoreEntry" "S1" ∧
      r.Flags "UnknownScoreEntry" " S1" ∧ ¬Compares r ev (.str " S1") := by
  obtain ⟨index, r, ev, hindex, hr, hone, hdeclares⟩ := exists_reconcile_named " S1"
  have hreports : Reports (namedResult " S1") (.str " S1") := ⟨_, List.mem_singleton_self _, rfl⟩
  have hnames : Names (.str " S1") := .text ⟨'S', by decide +kernel, by decide +kernel⟩
  obtain ⟨hevaluations, hmissing, hunknown⟩ := flags_iff hr
  have hlabel : ev.constraint.label = "S1" :=
    (hdeclares.label hevaluations hnames).trans (by decide +kernel)
  have hflags : r.Flags "UnknownScoreEntry" " S1" := by
    rw [hunknown " S1" (hreports.hasLine hnames), hone]
    intro other hother
    rw [List.mem_singleton.mp hother, hlabel]
    decide
  refine ⟨index, r, ev, hindex, hr, hnames, hdeclares, hreports, ?missing, hflags,
    fun hcompares => hcompares.2 hflags⟩
  case missing =>
    rw [← hlabel, hmissing ev hdeclares.mem_linesOf, hlabel]
    rintro ⟨doc, hdoc, hname⟩
    obtain rfl : doc = .obj [("constraintId", .str " S1")] := List.mem_singleton.mp hdoc
    rw [name?_taken rfl hnames] at hname
    exact absurd hname (by decide)

end Scorekeeper
end LeagueAudit
