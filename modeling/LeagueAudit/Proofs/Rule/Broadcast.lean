import LeagueAudit.Proofs.Schedule.Derived
import LeagueAudit.Proofs.Time.ClockText
import LeagueAudit.Rule.Broadcast

/-!
Broadcast windows and the clocks of the league. The rule reports the assignments without a start
and those that start in none of the windows, and windows that are malformed hold nothing. Only
digits that are no decimal digits are not passed over: with one such time in the list the rule
fails.
-/
namespace LeagueAudit

/-- A text that has the form of a time, but not its digits. -/
def IsOddTime (j : Json) : Prop := ∃ s, j = .str s ∧ HasOddDigits s

theorem minutesOfDay_eq_error {j : Json} : (∃ f, minutesOfDay j = .error f) ↔ IsOddTime j := by
  cases j with
  | str s => simp [minutesOfDay, IsOddTime, minutesOfDayText_eq_error]
  | _ => simp [minutesOfDay, IsOddTime]

theorem minutesOfDay_eq_some {j : Json} {minute : Nat} :
    minutesOfDay j = .ok (some minute) ↔ ∃ s, j = .str s ∧ IsTimeOfDay s minute := by
  cases j with
  | str s => simp [minutesOfDay, minutesOfDayText_eq_some]
  | _ => simp [minutesOfDay]

theorem exists_minutesOfDay {j : Json} : (∃ found, minutesOfDay j = .ok found) ↔ ¬IsOddTime j := by
  rw [exists_eq_ok, ← minutesOfDay_eq_error, not_exists]

namespace Rule

/-- A document declares a window: a day, and two times of day. -/
structure Declares (item : Json) (w : BroadcastSlot) : Prop where
  hasDay : (item.field "day").truthy = true
  day : w.day = Text.lower (item.field "day").sealedText
  start : ∃ s, item.field "start" = .str s ∧ IsTimeOfDay s w.start
  finish : ∃ s, item.field "end" = .str s ∧ IsTimeOfDay s w.finish

/-- None of the two times of a window is written in odd digits. -/
def PlainTimes (item : Json) : Prop :=
  ¬IsOddTime (item.field "start") ∧ ¬IsOddTime (item.field "end")

theorem field_of_not_isObject {item : Json} (h : item.isObject = false) (key : String) :
    item.field key = .null := by
  cases item with
  | obj members => cases h
  | _ => rfl

theorem exists_readSlot? {item : Json} :
    (∃ found, readSlot? item = .ok found) ↔ PlainTimes item := by
  unfold readSlot? PlainTimes
  rw [← exists_minutesOfDay, ← exists_minutesOfDay]
  cases hobject : item.isObject with
  | false => simp [field_of_not_isObject hobject, minutesOfDay]
  | true =>
    cases hstart : minutesOfDay (item.field "start") with
    | error f => simp [bind, Except.bind]
    | ok start =>
      cases hfinish : minutesOfDay (item.field "end") with
      | error f => simp [bind, Except.bind]
      | ok finish => cases start <;> cases finish <;> simp [bind, Except.bind]

theorem readSlot?_eq_some {item : Json} {w : BroadcastSlot} :
    readSlot? item = .ok (some w) ↔ Declares item w := by
  constructor
  · intro h
    unfold readSlot? at h
    split at h
    · cases Except.ok.inj h
    · obtain ⟨start, hstart, h⟩ := bind_eq_ok.mp h
      obtain ⟨finish, hfinish, h⟩ := bind_eq_ok.mp h
      split at h
      · split at h
        · next hday =>
          cases Option.some.inj (Except.ok.inj h)
          exact ⟨hday, rfl, minutesOfDay_eq_some.mp hstart, minutesOfDay_eq_some.mp hfinish⟩
        · cases Except.ok.inj h
      · cases Except.ok.inj h
  · rintro ⟨hday, hname, hstart, hfinish⟩
    have hobject : item.isObject = true := by
      by_contra hno
      rw [field_of_not_isObject (Bool.eq_false_iff.mpr hno)] at hday
      cases hday
    rw [← minutesOfDay_eq_some] at hstart hfinish
    unfold readSlot?
    simp [hobject, hstart, hfinish, hday, bind, Except.bind, ← hname]

/-- The clocks of a zone show a time in a window. -/
def ShowsSlot (z : Zone) (ms : Int) (w : BroadcastSlot) : Prop :=
  w.day = Text.lower (weekdayName (z.dayAt (ms.fdiv 1000))) ∧
    w.start ≤ z.minuteAt (ms.fdiv 1000) ∧ z.minuteAt (ms.fdiv 1000) ≤ w.finish

/-- An assignment has no start, or starts in none of the declared windows. -/
def IsOutside (z : Zone) (items : List Json) (a : Assignment) : Prop :=
  ∀ ms, a.start = some ms → ∀ item ∈ items, ∀ w, Declares item w → ¬ShowsSlot z ms w

/-- The report on an assignment outside all windows, with the time that its place shows. -/
def outsideReport (a : Assignment) : Violation :=
  let time := match a.parts with
    | none => "an unknown time"
    | some parts => s!"{parts.weekday} {parts.hhmm}"
  ⟨s!"Fixture '{a.fixture}' at {time} is outside allowed broadcast windows", [a.fixture]⟩

open Classical in
/-- The assignments outside all windows. -/
noncomputable def outside (index : Index) (items : List Json) : List Assignment :=
  index.assignments.filter fun a => decide (IsOutside index.zone items a)

/-- The windows are those that a list declares. -/
def AreDeclared (items : List Json) (slots : List BroadcastSlot) : Prop :=
  ∀ w, w ∈ slots ↔ ∃ item ∈ items, Declares item w

theorem areDeclared_of_mapM {items : List Json} {found : List (Option BroadcastSlot)}
    (h : items.mapM readSlot? = .ok found) : AreDeclared items (found.filterMap fun s => s) := by
  intro w
  rw [List.mem_filterMap]
  constructor
  · rintro ⟨_, hmem, rfl⟩
    obtain ⟨item, hitem, hread⟩ := exists_source_of_mapM_eq_ok h hmem
    exact ⟨item, hitem, readSlot?_eq_some.mp hread⟩
  · rintro ⟨item, hitem, hdeclares⟩
    obtain ⟨s, hs, hread⟩ := exists_of_mapM_eq_ok h hitem
    rw [readSlot?_eq_some.mpr hdeclares] at hread
    exact ⟨s, hs, (Except.ok.inj hread).symm⟩

open Classical in
theorem slotViolation?_eq {z : Zone} {a : Assignment} {items : List Json}
    {slots : List BroadcastSlot} (h : AreDeclared items slots) (ha : a.OnClocks z) :
    slotViolation? slots a =
      .ok (if IsOutside z items a then some (outsideReport a) else none) := by
  unfold slotViolation? outsideSlots? outsideReport
  cases hstart : a.start with
  | none =>
    have hout : IsOutside z items a := fun ms hms => by rw [hstart] at hms; cases hms
    rw [ha.unknown hstart, if_pos hout]
    rfl
  | some ms =>
    obtain ⟨parts, hlocal, hparts⟩ := ha.shown ms hstart
    obtain ⟨hday, hminute⟩ := clock_of_localParts hlocal
    have hin : (slots.any fun w => w.holds (Text.lower parts.weekday) (z.minuteAt (ms.fdiv 1000)))
        = true ↔ ∃ w, (∃ item ∈ items, Declares item w) ∧ ShowsSlot z ms w := by
      simp only [List.any_eq_true, h _, BroadcastSlot.holds, Bool.and_eq_true, beq_iff_eq,
        decide_eq_true_eq, hday, and_assoc, ShowsSlot]
    rw [hparts]
    dsimp only
    rw [minutesOfDayText_eq_some.mpr hminute]
    by_cases hout : IsOutside z items a
    · have hnone : ¬∃ w, (∃ item ∈ items, Declares item w) ∧ ShowsSlot z ms w := by
        rintro ⟨w, ⟨item, hitem, hdeclares⟩, hshows⟩
        exact hout ms hstart item hitem w hdeclares hshows
      rw [if_pos hout]
      simp [bind, Except.bind, hin.not.mpr hnone]
    · have hsome : ∃ w, (∃ item ∈ items, Declares item w) ∧ ShowsSlot z ms w := by
        by_contra hnone
        refine hout fun s hs item hitem w hdeclares hshows =>
          hnone ⟨w, ⟨item, hitem, hdeclares⟩, ?_⟩
        rwa [Option.some.inj (hstart.symm.trans hs)]
      rw [if_neg hout]
      simp [bind, Except.bind, hin.mpr hsome]

theorem exists_readSlots {items : List Json} :
    (∃ found, items.mapM readSlot? = .ok found) ↔ ∀ item ∈ items, PlainTimes item := by
  rw [exists_mapM_eq_ok]
  simp only [← exists_readSlot?, exists_eq_ok]

theorem exists_slotViolations {index : Index} (hindex : index.Derived) {items : List Json}
    {slots : List BroadcastSlot} (h : AreDeclared items slots) :
    ∃ found, index.assignments.mapM (slotViolation? slots) = .ok found ∧
      found.filterMap (fun v => v) = (outside index items).map outsideReport := by
  classical
  have hall := mapM_map_eq_ok (f := slotViolation? slots) (g := fun a => a) fun a ha =>
    slotViolation?_eq h (hindex.onClocks a ha)
  rw [List.map_id'] at hall
  refine ⟨_, hall, ?_⟩
  rw [List.filterMap_map, outside, ← List.filterMap_eq_map, List.filterMap_filter]
  simp

variable {index : Index} {params : Json} {items : List Json} {returned : Returned}

theorem broadcastWindow_eq_ok (hindex : index.Derived)
    (hitems : params.field "allowed_windows" = .arr items) (hsome : items ≠ []) :
    (broadcastWindow.run ⟨params, index⟩).result = .ok returned ↔
      (∀ item ∈ items, PlainTimes item) ∧
        returned = .outcome (slotOutcome ((outside index items).map outsideReport)) := by
  have hdeclared : declaredSlots ⟨params, index⟩ = .ok items := by
    simp [declaredSlots, RuleContext.param?, hitems, Json.notNull?, Json.isNull, Json.listedOrNone,
      Json.truthy, Json.listed, hsome]
  have hany : ¬items.isEmpty = true := fun h => hsome (List.isEmpty_iff.mp h)
  unfold broadcastWindow RuleRun.silent
  dsimp only
  rw [← exists_readSlots, map_eq_ok, hdeclared]
  dsimp only [bind, Except.bind]
  rw [if_neg hany]
  constructor
  · rintro ⟨o, ho, rfl⟩
    obtain ⟨slots, hslots, ho⟩ := bind_eq_ok.mp ho
    obtain ⟨found, hfound, heq⟩ := exists_slotViolations hindex (areDeclared_of_mapM hslots)
    obtain ⟨violations, hviolations, ho⟩ := bind_eq_ok.mp ho
    cases Except.ok.inj (hfound.symm.trans hviolations)
    cases Except.ok.inj ho
    exact ⟨⟨slots, hslots⟩, by rw [heq]⟩
  · rintro ⟨⟨slots, hslots⟩, rfl⟩
    obtain ⟨found, hfound, heq⟩ := exists_slotViolations hindex (areDeclared_of_mapM hslots)
    refine ⟨_, bind_eq_ok.mpr ⟨slots, hslots, bind_eq_ok.mpr ⟨found, hfound, rfl⟩⟩, ?_⟩
    rw [heq]

/-- The rule reports all assignments outside the windows of a list, and says how many they are. -/
structure CountsOutside (index : Index) (items : List Json) (o : Outcome) : Prop where
  violations : o.violations = (outside index items).map outsideReport
  count : o.count = some (outside index items).length
  amount : o.amount = (outside index items).length.toFloat

/-- The rule reports what is outside all windows of a list, and fails exactly when one of the times
in the list has the form of a time but not its digits. -/
theorem broadcastWindow_reports (hindex : index.Derived)
    (hitems : params.field "allowed_windows" = .arr items) (hsome : items ≠ []) :
    ((∃ returned, (broadcastWindow.run ⟨params, index⟩).result = .ok returned) ↔
        ∀ item ∈ items, PlainTimes item) ∧
      ∀ returned, (broadcastWindow.run ⟨params, index⟩).result = .ok returned →
        ∃ o, returned = .outcome o ∧ CountsOutside index items o := by
  simp only [broadcastWindow_eq_ok hindex hitems hsome]
  constructor
  · exact ⟨fun ⟨_, hplain, _⟩ => hplain, fun hplain => ⟨_, hplain, rfl⟩⟩
  · rintro _ ⟨-, rfl⟩
    exact ⟨_, rfl, rfl, by simp [slotOutcome], by simp [slotOutcome]⟩

def saturdayLeague : Json :=
  .obj [("fixtures", .arr (["F", "G"].map fun fixture =>
    .obj [("id", .str fixture), ("participants", .arr [.str "A", .str "B"])]))]

/-- Games one minute apart. -/
def saturdayGames : Json :=
  .obj [("assignments", .arr ([("F", "10:00"), ("G", "10:01")].map fun (fixture, time) =>
    .obj [("fixtureId", .str fixture), ("startTime", .str s!"2025-03-01T{time}:00Z")]))]

def slotJson (day start finish : String) : Json :=
  .obj [("day", .str day), ("start", .str start), ("end", .str finish)]

def slotParams (items : List Json) : Json := .obj [("allowed_windows", .arr items)]

/-- A morning that ends as the first game starts, and two items that hold nothing. -/
def morningSlots : List Json :=
  [slotJson "SATURDAY" "09:00" "10:00", slotJson "Saturday" "noon" "18:00", .str "Saturday"]

/-- A window in superscript digits, before one that holds both games. -/
def superscriptSlots : List Json :=
  [slotJson "Saturday" "²³:00" "18:00", slotJson "Saturday" "09:00" "18:00"]

/-- What a run counts. -/
def countOf? (run : RuleRun) : Option Nat :=
  match run.result with
  | .ok (.outcome o) => o.count
  | _ => none

theorem broadcastWindow_reports_morning :
    ∃ index o, Index.build (.whole 90) "UTC" saturdayLeague saturdayGames = .ok index ∧
      (broadcastWindow.run ⟨slotParams morningSlots, index⟩).result = .ok (.outcome o) ∧
      CountsOutside index morningSlots o ∧ o.count = some 1 := by
  obtain ⟨index, hindex, hcount⟩ := exists_ok_of_toOption_map
    (x := Index.build (.whole 90) "UTC" saturdayLeague saturdayGames)
    (f := fun index => countOf? (broadcastWindow.run ⟨slotParams morningSlots, index⟩))
    (b := some 1) (by decide +kernel)
  unfold countOf? at hcount
  split at hcount
  · next o ho =>
    obtain ⟨-, hcounts⟩ := broadcastWindow_reports (.built hindex)
      (show (slotParams morningSlots).field "allowed_windows" = .arr morningSlots from rfl)
      (List.cons_ne_nil _ _)
    obtain ⟨o', heq, ho'⟩ := hcounts _ ho
    cases heq
    exact ⟨index, o, hindex, ho, ho', hcount⟩
  · cases hcount

/-- With a time in superscript digits nothing is reported, although both games are in a window. -/
theorem not_broadcastWindow_reports_superscript :
    ∃ index, Index.build (.whole 90) "UTC" saturdayLeague saturdayGames = .ok index ∧
      outside index superscriptSlots = [] ∧
      ∀ returned, (broadcastWindow.run ⟨slotParams superscriptSlots, index⟩).result ≠
        .ok returned := by
  have hlower : Text.lower "Saturday" = "saturday" := by decide +kernel
  obtain ⟨index, hindex, hview⟩ := exists_ok_of_toOption_map
    (x := Index.build (.whole 90) "UTC" saturdayLeague saturdayGames)
    (f := fun index => (index.assignments.all fun a => a.start.any fun ms =>
        weekdayName (index.zone.dayAt (ms.fdiv 1000)) == "Saturday" &&
          540 ≤ index.zone.minuteAt (ms.fdiv 1000) && index.zone.minuteAt (ms.fdiv 1000) ≤ 1080,
      (broadcastWindow.run ⟨slotParams superscriptSlots, index⟩).result.toOption.isNone))
    (b := (true, true)) (by decide +kernel)
  obtain ⟨hinside, hfails⟩ := Prod.mk.inj hview
  refine ⟨index, hindex, ?_, fun returned hreturned => ?_⟩
  · obtain ⟨slot, hread, hslot⟩ := exists_ok_of_toOption_map (f := fun s => s)
      (x := readSlot? (slotJson "Saturday" "09:00" "18:00"))
      (b := some ⟨"saturday", 540, 1080⟩) (by decide +kernel)
    rw [hslot, readSlot?_eq_some] at hread
    classical
    refine List.filter_eq_nil_iff.mpr fun a ha hout => ?_
    have hstart := List.all_eq_true.mp hinside a ha
    obtain ⟨ms, hms, hclock⟩ := (Option.any_eq_true _ _).mp hstart
    simp only [Bool.and_eq_true, beq_iff_eq, decide_eq_true_eq] at hclock
    obtain ⟨⟨hday, hfrom⟩, hto⟩ := hclock
    have hitem : slotJson "Saturday" "09:00" "18:00" ∈ superscriptSlots :=
      List.mem_of_getElem? (i := 1) rfl
    refine of_decide_eq_true hout ms hms _ hitem _ hread ⟨?_, hfrom, hto⟩
    rw [hday, hlower]
  · rw [hreturned] at hfails
    cases hfails

end Rule
end LeagueAudit
