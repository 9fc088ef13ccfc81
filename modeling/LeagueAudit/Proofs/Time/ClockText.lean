import LeagueAudit.Proofs.Outcome
import LeagueAudit.Proofs.Time.Midnight
import LeagueAudit.Proofs.Time.Spelling

/-!
Times of day as texts. What stands between blanks is read as two digits, a colon and two digits;
when one of the digits is no decimal digit, such as a superscript, there is no number to read.
-/
namespace LeagueAudit

/-- Apart from blanks around it, the text is two digits, a colon and two digits, of any kind. -/
structure HasClockForm (s : String) (h h' m m' : Char) : Prop where
  chars : Text.stripped s.toList = [h, h', ':', m, m']
  digit : ∀ c ∈ [h, h', m, m'], Text.isDigit c = true

/-- The number of two decimal digits. -/
def twoDigits? (c c' : Char) : Option Nat := do
  let tens ← Text.decimalValue? c
  let ones ← Text.decimalValue? c'
  some (tens * 10 + ones)

/-- The text is a time of day, so many minutes after midnight: hours up to 24 and minutes up to 59
in decimal digits of any script, two of each. -/
def IsTimeOfDay (s : String) (minute : Nat) : Prop :=
  ∃ h h' m m' hours minutes, HasClockForm s h h' m m' ∧
    twoDigits? h h' = some hours ∧ twoDigits? m m' = some minutes ∧
    hours ≤ 24 ∧ minutes ≤ 59 ∧ minute = hours * 60 + minutes

/-- The text has the form of a time, but one of the digits is no decimal digit. -/
def HasOddDigits (s : String) : Prop :=
  ∃ h h' m m', HasClockForm s h h' m m' ∧ (twoDigits? h h' = none ∨ twoDigits? m m' = none)

theorem clockNumber_pair (c c' : Char) : clockNumber [c, c'] =
    match twoDigits? c c' with
    | some n => .ok n
    | none => .error (.badDigits (String.ofList [c, c'])) := by
  have hread : readPlainInt? [c, c'] = twoDigits? c c' := by
    unfold readPlainInt? twoDigits?
    cases hc : Text.decimalValue? c <;> cases hc' : Text.decimalValue? c' <;> simp [hc, hc']
  rw [← hread]
  rfl

theorem clockField?_eq_some {cs ds : List Char} : clockField? cs = some ds ↔
    ds = cs ∧ ∃ c c', cs = [c, c'] ∧ Text.isDigit c = true ∧ Text.isDigit c' = true := by
  unfold clockField?
  constructor
  · intro h
    split at h
    · next hfield =>
      obtain ⟨hlength, hdigits⟩ := Bool.and_eq_true_iff.mp hfield
      obtain ⟨c, c', rfl⟩ := List.length_eq_two.mp (of_decide_eq_true hlength)
      simp only [List.all_cons, List.all_nil, Bool.and_true, Bool.and_eq_true] at hdigits
      exact ⟨(Option.some.inj h).symm, c, c', rfl, hdigits⟩
    · cases h
  · rintro ⟨rfl, c, c', rfl, hc, hc'⟩
    simp [hc, hc']

theorem splitOnP_colon {cs h m : List Char} (hsplit : cs.splitOnP (· == ':') = [h, m]) :
    cs = h ++ ':' :: m := by
  have hjoin := @List.intercalate_splitOn _ cs _ _ ':'
  rw [List.splitOn_eq_splitOnP, hsplit] at hjoin
  rw [← hjoin]
  simp [List.intercalate]

theorem HasClockForm.minutesOfDayText_eq {s : String} {h h' m m' : Char}
    (hform : HasClockForm s h h' m m') :
    minutesOfDayText s = (clockNumber [h, h'] >>= fun hh => clockNumber [m, m'] >>= fun mm =>
      .ok (if hh > 24 || mm > 59 then none else some (hh * 60 + mm))) := by
  have hcolon : ∀ c, Text.isDigit c = true → (c == ':') = false := by
    intro c hc
    refine Bool.eq_false_iff.mpr fun heq => ?_
    rw [beq_iff_eq.mp heq] at hc
    exact absurd hc (by decide)
  obtain ⟨hchars, hdigit⟩ := hform
  simp only [List.forall_mem_cons, List.not_mem_nil, false_implies, implies_true,
    and_true] at hdigit
  obtain ⟨hh, hh', hm, hm'⟩ := hdigit
  have hsplit : [h, h', ':', m, m'].splitOnP (· == ':') = [[h, h'], [m, m']] := by
    simp [List.splitOnP_cons_eq_if_modifyHead, hcolon _ hh, hcolon _ hh', hcolon _ hm, hcolon _ hm']
  have hfield : ∀ c c', Text.isDigit c = true → Text.isDigit c' = true →
      clockField? [c, c'] = some [c, c'] := fun c c' hc hc' =>
    clockField?_eq_some.mpr ⟨rfl, c, c', rfl, hc, hc'⟩
  unfold minutesOfDayText
  rw [hchars, hsplit]
  dsimp only
  rw [hfield _ _ hh hh', hfield _ _ hm hm']

/-- What has no form of a time is no time. -/
theorem minutesOfDayText_of_formless {s : String} (h : ∀ a b c d, ¬HasClockForm s a b c d) :
    minutesOfDayText s = .ok none := by
  unfold minutesOfDayText
  split
  · next hours minutes hsplit =>
    split
    · next hfield hfield' =>
      obtain ⟨-, c, c', rfl, hc, hc'⟩ := clockField?_eq_some.mp hfield
      obtain ⟨-, d, d', rfl, hd, hd'⟩ := clockField?_eq_some.mp hfield'
      refine absurd ⟨splitOnP_colon hsplit, ?_⟩ (h c c' d d')
      simp [hc, hc', hd, hd']
    · rfl
  · rfl

/-- What is read from a text in the form of a time. -/
theorem HasClockForm.minutesOfDayText_cases {s : String} {h h' m m' : Char}
    (hform : HasClockForm s h h' m m') :
    (∃ hours minutes, twoDigits? h h' = some hours ∧ twoDigits? m m' = some minutes ∧
      minutesOfDayText s =
        .ok (if hours > 24 || minutes > 59 then none else some (hours * 60 + minutes))) ∨
    ((twoDigits? h h' = none ∨ twoDigits? m m' = none) ∧
      ∃ fault, minutesOfDayText s = .error fault) := by
  rw [hform.minutesOfDayText_eq, clockNumber_pair, clockNumber_pair]
  cases hhours : twoDigits? h h' with
  | none => exact .inr ⟨.inl rfl, _, rfl⟩
  | some hours =>
    cases hminutes : twoDigits? m m' with
    | none => exact .inr ⟨.inr rfl, _, rfl⟩
    | some minutes => exact .inl ⟨hours, minutes, rfl, rfl, rfl⟩

/-- Reading a text fails exactly on odd digits. -/
theorem minutesOfDayText_eq_error {s : String} :
    (∃ fault, minutesOfDayText s = .error fault) ↔ HasOddDigits s := by
  constructor
  · rintro ⟨fault, hfault⟩
    by_contra hodd
    by_cases hform : ∃ a b c d, HasClockForm s a b c d
    · obtain ⟨a, b, c, d, hform⟩ := hform
      rcases hform.minutesOfDayText_cases with ⟨hours, minutes, -, -, hok⟩ | ⟨hnone, -⟩
      · rw [hok] at hfault
        cases hfault
      · exact hodd ⟨a, b, c, d, hform, hnone⟩
    · rw [minutesOfDayText_of_formless fun a b c d h => hform ⟨a, b, c, d, h⟩] at hfault
      cases hfault
  · rintro ⟨a, b, c, d, hform, hnone⟩
    rcases hform.minutesOfDayText_cases with ⟨hours, minutes, hhours, hminutes, -⟩ | ⟨-, hfault⟩
    · rw [hhours, hminutes] at hnone
      rcases hnone with hnone | hnone <;> cases hnone
    · exact hfault

/-- What is read from a text is its time of day. -/
theorem minutesOfDayText_eq_some {s : String} {minute : Nat} :
    minutesOfDayText s = .ok (some minute) ↔ IsTimeOfDay s minute := by
  constructor
  · intro h
    by_cases hform : ∃ a b c d, HasClockForm s a b c d
    · obtain ⟨a, b, c, d, hform⟩ := hform
      rcases hform.minutesOfDayText_cases with ⟨hours, minutes, hhours, hminutes, hok⟩ | ⟨-, f, hf⟩
      · rw [hok] at h
        split at h
        · cases h
        · next hbounds =>
          simp only [Bool.or_eq_true, decide_eq_true_eq, not_or, Nat.not_lt] at hbounds
          exact ⟨a, b, c, d, hours, minutes, hform, hhours, hminutes, hbounds.1, hbounds.2,
            (Option.some.inj (Except.ok.inj h)).symm⟩
      · rw [hf] at h
        cases h
    · rw [minutesOfDayText_of_formless fun a b c d h => hform ⟨a, b, c, d, h⟩] at h
      cases h
  · rintro ⟨a, b, c, d, hours, minutes, hform, hhours, hminutes, hle, hle', rfl⟩
    rw [hform.minutesOfDayText_eq, clockNumber_pair, clockNumber_pair, hhours, hminutes]
    have hbounds : (decide (hours > 24) || decide (minutes > 59)) = false := by
      simp [hle, hle']
    simp [bind, Except.bind, hbounds]

section Local

theorem decimalValue?_of_isDigit {c : Char} (h : c.isDigit = true) :
    Text.decimalValue? c = some (c.toNat - '0'.toNat) := by
  simp only [Char.isDigit, Bool.and_eq_true, decide_eq_true_eq] at h
  have hlow : 48 ≤ c.toNat := h.1
  have hhigh : c.toNat ≤ 57 := h.2
  have hranges : Text.decimalRanges = (48, 57) :: Text.decimalRanges.tail := rfl
  rw [Text.decimalValue?, hranges, List.find?_cons_of_pos (by simp [hlow, hhigh])]
  exact congrArg some (Nat.mod_eq_of_lt (show c.toNat - 48 < 10 by omega))

/-- A number below one hundred is filled up to two decimal digits. -/
theorem exists_padded {n : Nat} (hn : n < 100) : ∃ c c', (padded 2 n).toList = [c, c'] ∧
    c.isDigit = true ∧ c'.isDigit = true ∧ twoDigits? c c' = some n := by
  obtain ⟨c, c', hchars⟩ := List.length_eq_two.mp (Iso.length_padded (by decide) hn)
  have hdigit : ∀ d ∈ [c, c'], d.isDigit = true := fun d hd =>
    Iso.isDigit_of_mem_padded (hchars ▸ hd)
  have hc := hdigit c List.mem_cons_self
  have hc' := hdigit c' (List.mem_cons_of_mem _ List.mem_cons_self)
  have hscan := Iso.scanDigits_padded (show 0 < 2 by decide) hn []
  rw [hchars] at hscan
  have hvalue := Iso.scanDigits_append hdigit []
  rw [List.append_nil] at hscan hvalue
  obtain ⟨hn', -⟩ := Prod.mk.inj (Option.some.inj (hscan.symm.trans hvalue))
  refine ⟨c, c', hchars, hc, hc', ?_⟩
  rw [twoDigits?, decimalValue?_of_isDigit hc, decimalValue?_of_isDigit hc', hn',
    Nat.ofDigitChars_eq_foldl]
  simp [Nat.mul_comm]

theorem isDigit_of_ascii {c : Char} (h : c.isDigit = true) : Text.isDigit c = true := by
  rw [Text.isDigit, h, Bool.true_or]

theorem isTimeOfDay_padded {minute : Nat} (h : minute < 1440) :
    IsTimeOfDay s!"{padded 2 (minute / 60)}:{padded 2 (minute % 60)}" minute := by
  obtain ⟨c, c', hhours, hc, hc', hhour⟩ := exists_padded (show minute / 60 < 100 by omega)
  obtain ⟨d, d', hminutes, hd, hd', hminute⟩ := exists_padded (show minute % 60 < 100 by omega)
  have hchars : (s!"{padded 2 (minute / 60)}:{padded 2 (minute % 60)}").toList =
      [c, c', ':', d, d'] := by
    simp only [String.toList_append, toString, hhours, hminutes]
    rfl
  have hblank : ∀ x ∈ [c, c', ':', d, d'], Text.isBlank x = false := by
    have hdigit : ∀ x : Char, x.isDigit = true → Text.isBlank x = false := fun x hx =>
      Iso.isBlank_of_isDateChar (by rw [Iso.isDateChar, hx]; rfl)
    have hcolon : Text.isBlank ':' = false := by decide
    simp [hdigit _ hc, hdigit _ hc', hdigit _ hd, hdigit _ hd', hcolon]
  refine ⟨c, c', d, d', minute / 60, minute % 60, ⟨?_, ?_⟩, hhour, hminute, by omega, by omega,
    (Nat.div_add_mod' minute 60).symm⟩
  · rw [hchars, Text.stripped_eq_self hblank]
  · simp [isDigit_of_ascii hc, isDigit_of_ascii hc', isDigit_of_ascii hd, isDigit_of_ascii hd']

/-- The minutes after midnight that the clocks of a zone show at a second of universal time. -/
def Zone.minuteAt (z : Zone) (second : Int) : Nat :=
  ((second + z.offsetOfUniversal second - z.dayAt second * secondsPerDay) / 60).toNat

/-- What the clocks of a zone show, read back from the texts. -/
theorem clock_of_localParts {z : Zone} {ms : Int} {parts : LocalParts}
    (h : localParts z ms = .ok parts) :
    parts.weekday = weekdayName (z.dayAt (ms.fdiv 1000)) ∧
      IsTimeOfDay parts.hhmm (z.minuteAt (ms.fdiv 1000)) := by
  have hminute : z.minuteAt (ms.fdiv 1000) < 1440 := by
    unfold Zone.minuteAt Zone.dayAt
    generalize ms.fdiv 1000 + z.offsetOfUniversal (ms.fdiv 1000) = second
    rw [secondsPerDay_eq, Int.fdiv_eq_ediv_of_nonneg _ (by decide)]
    omega
  unfold localParts at h
  dsimp only at h
  split at h
  · cases h
  · split at h
    · cases h
    · cases Except.ok.inj h
      exact ⟨rfl, isTimeOfDay_padded hminute⟩

end Local

end LeagueAudit
