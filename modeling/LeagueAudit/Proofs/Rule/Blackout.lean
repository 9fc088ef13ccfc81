import LeagueAudit.Proofs.Rule.Relaxing
import LeagueAudit.Proofs.Time.LocalDay

/-!
What blackout windows forbid. Each declared window adds its own violations, at most one for an
assignment, and a window of dates adds one when the clocks of the league show one of the dates
during the game.
-/
namespace LeagueAudit.Rule

/-- What one declared window has to say about an assignment. -/
def foundIn (z : Zone) (a : Assignment) (item : Json) : List Violation :=
  match readWindow? z item with
  | .ok (some w) => if w.hits a then [blackoutViolation a w] else []
  | _ => []

theorem readWindows_of_readable {z : Zone} {items : List Json}
    (h : ∀ item ∈ items, ∃ w, readWindow? z item = .ok w) :
    ∃ windows, (readWindows z items).2 = .ok windows ∧ ∀ a : Assignment,
      (windows.filter fun w => w.hits a).map (blackoutViolation a) =
        items.flatMap (foundIn z a) := by
  induction items with
  | nil => exact ⟨[], rfl, fun _ => rfl⟩
  | cons item rest ih =>
    obtain ⟨⟨found, hfound⟩, hrest⟩ := List.forall_mem_cons.mp h
    obtain ⟨windows, hwindows, hviolations⟩ := ih hrest
    unfold readWindows
    rw [hfound]
    cases found with
    | none =>
      refine ⟨windows, hwindows, fun a => ?_⟩
      rw [List.flatMap_cons, foundIn, hfound, hviolations]
      rfl
    | some w =>
      refine ⟨w :: windows, ?_, fun a => ?_⟩
      · dsimp only
        rw [hwindows]
        rfl
      · rw [List.flatMap_cons, foundIn, hfound, ← hviolations, List.filter_cons]
        dsimp only
        split
        · rfl
        · rfl

/-- A run over windows that can be read puts together what each of them has to say. -/
theorem violations_of_readable {params : Json} {index : Index} {items : List Json}
    (hdeclared : declaredWindows ⟨params, index⟩ = .ok items)
    (hread : ∀ item ∈ items, ∃ w, readWindow? index.zone item = .ok w) :
    ∃ o : Outcome, (blackoutDates.run ⟨params, index⟩).result = .ok (.outcome o) ∧
      o.violations = index.assignments.flatMap fun a => items.flatMap (foundIn index.zone a) := by
  obtain ⟨windows, hwindows, hviolations⟩ := readWindows_of_readable hread
  refine ⟨blackoutOutcome index windows, ?_, ?_⟩
  · rw [blackoutDates_run]
    exact bind_eq_ok.mpr ⟨items, hdeclared, bind_eq_ok.mpr ⟨windows, hwindows, rfl⟩⟩
  · simp only [← hviolations]
    unfold blackoutOutcome
    split
    · next hempty =>
      rw [List.isEmpty_iff.mp hempty]
      simp
    · rfl

section Dates

variable {z : Zone}

/-- The window of a range of dates. -/
def dateWindow (z : Zone) (range : DateRange) : Blackout where
  label := (declaredWindow range.toJson).label
  start := z.dayStart range.first.toDays
  finish := z.dayStart (range.last.toDays + 1)
  venue := none

theorem declaredWindow_dates (range : DateRange) : declaredWindow range.toJson =
    ⟨.str range.first.text, .str range.last.text, none, (declaredWindow range.toJson).label⟩ := by
  have hfilled : ∀ {d : Date}, d.valid = true → (Json.str d.text).truthy = true := by
    intro d hd
    have hten := Date.length_text hd
    rw [Json.truthy, Bool.not_eq_true', Bool.eq_false_iff]
    intro hempty
    rw [String.isEmpty_iff.mp hempty] at hten
    cases hten
  have hobject : range.toJson.isObject = true := rfl
  have hstart : range.toJson.field "start" = .str range.first.text := rfl
  have hend : range.toJson.field "end" = .str range.last.text := rfl
  have hvenue : range.toJson.field "venueId" = .null := rfl
  unfold declaredWindow
  simp [hobject, hstart, hend, hvenue, Json.orElse, hfilled range.first_valid,
    hfilled range.last_valid, Json.notNull?, Json.isNull]

theorem readWindow?_dates (h : z.SparesMidnights) (range : DateRange) :
    readWindow? z range.toJson = .ok (some (dateWindow z range)) := by
  have hordered := h.dayStart_lt range
  unfold readWindow?
  rw [declaredWindow_dates]
  dsimp only
  rw [h.readBound_first, h.readBound_last]
  simp only [bind, Except.bind]
  rw [if_neg (by omega)]
  rfl

/-- A window of dates has one violation for an assignment during which clocks show one of the dates,
and none for another one. -/
theorem foundIn_dates (h : z.SparesMidnights) {a : Assignment} {start finish : Int}
    (hspan : a.span? = some (start, finish)) (hlt : start < finish) (hstart : ShowsClocks z start)
    (range : DateRange) :
    ((∃ t, start ≤ t ∧ t < finish ∧ z.ShowsDateIn range t) →
      foundIn z a range.toJson = [blackoutViolation a (dateWindow z range)]) ∧
    ((∀ t, start ≤ t → t < finish → ¬z.ShowsDateIn range t) → foundIn z a range.toJson = []) := by
  have hhits : (dateWindow z range).hits a = true ↔
      ∃ t, start ≤ t ∧ t < finish ∧ z.ShowsDateIn range t := by
    rw [h.exists_showsDateIn hstart hlt, Blackout.hits, hspan]
    simp only [Bool.and_eq_true, decide_eq_true_eq]
    simp [dateWindow]
  unfold foundIn
  rw [readWindow?_dates h]
  dsimp only
  constructor
  · intro hmeets
    rw [if_pos (hhits.mpr hmeets)]
  · intro hmisses
    refine if_neg fun hhit => ?_
    obtain ⟨t, hle, hbefore, hshows⟩ := hhits.mp hhit
    exact hmisses t hle hbefore hshows

end Dates

end LeagueAudit.Rule
