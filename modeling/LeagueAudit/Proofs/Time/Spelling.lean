import LeagueAudit.Proofs.Text.Blank
import LeagueAudit.Proofs.Time.Calendar
import LeagueAudit.Time.Instant
import Mathlib.Algebra.Group.Nat.Defs
import Mathlib.Data.List.Basic

/-!
How dates are spelled. A date that is written with hyphens is read back, and a text that is a date
and nothing else has no other characters than digits, hyphens and the mark of weeks.
-/
namespace LeagueAudit

namespace Iso

theorem scanDigits_append {ds : List Char} (h : ∀ c ∈ ds, c.isDigit = true) (rest : List Char) :
    scanDigits ds.length (ds ++ rest) = some (Nat.ofDigitChars 10 ds 0, rest) := by
  have hall : ds.all Char.isDigit = true := List.all_eq_true.mpr h
  rw [scanDigits, List.take_left, List.drop_left, hall, Nat.ofDigitChars_eq_foldl]
  simp only [decide_true, Bool.and_self, if_true, Nat.mul_comm]

/-- A run of as many digits. -/
structure Digits (count : Nat) (ds : List Char) : Prop where
  length : ds.length = count
  digit : ∀ c ∈ ds, c.isDigit = true

theorem scanDigits_eq_some {count n : Nat} {cs rest : List Char}
    (h : scanDigits count cs = some (n, rest)) : ∃ ds, Digits count ds ∧ cs = ds ++ rest := by
  unfold scanDigits at h
  dsimp only at h
  split at h
  · next hdigits =>
    obtain ⟨hlength, hall⟩ := (Bool.and_eq_true _ _).mp hdigits
    obtain ⟨-, rfl⟩ := Prod.mk.inj (Option.some.inj h)
    exact ⟨cs.take count, ⟨of_decide_eq_true hlength, List.all_eq_true.mp hall⟩,
      (List.take_append_drop count cs).symm⟩
  · cases h

section Padded

variable {count n : Nat}

theorem toList_padded (count n : Nat) : (padded count n).toList =
    List.replicate (count - (Nat.toDigits 10 n).length) '0' ++ Nat.toDigits 10 n :=
  String.toList_ofList

theorem isDigit_of_mem_padded {c : Char} (h : c ∈ (padded count n).toList) : c.isDigit = true := by
  rw [toList_padded] at h
  rcases List.mem_append.mp h with h | h
  · rw [List.eq_of_mem_replicate h]
    rfl
  · exact Nat.isDigit_of_mem_toDigits (by decide) (by decide) h

/-- A number that is filled up with zeros has as many digits as asked for. -/
theorem length_padded (hcount : 0 < count) (hn : n < 10 ^ count) :
    (padded count n).toList.length = count := by
  have hlength : (Nat.toDigits 10 n).length ≤ count :=
    (Nat.length_toDigits_le_iff (by decide) hcount).mpr hn
  rw [toList_padded, List.length_append, List.length_replicate]
  omega

theorem scanDigits_padded (hcount : 0 < count) (hn : n < 10 ^ count) (rest : List Char) :
    scanDigits count ((padded count n).toList ++ rest) = some (n, rest) := by
  have hvalue : Nat.ofDigitChars 10 (padded count n).toList 0 = n := by
    rw [toList_padded, Nat.ofDigitChars_append, Nat.ofDigitChars_replicate_zero, Nat.mul_zero,
      Nat.ofDigitChars_ten_toDigits]
  have hscan := scanDigits_append
    (fun c (hc : c ∈ (padded count n).toList) => isDigit_of_mem_padded hc) rest
  rwa [length_padded hcount hn, hvalue] at hscan

end Padded

/-- The characters that dates are spelled with. -/
def isDateChar (c : Char) : Bool := c.isDigit || c == '-' || c == 'W'

theorem isBlank_of_isDateChar {c : Char} (h : isDateChar c = true) : Text.isBlank c = false := by
  have hcodes : ∀ n : Fin 128, 33 ≤ n.val →
      (Text.blankRanges.any fun range => range.1 ≤ n.val && n.val ≤ range.2) = false := by decide
  have hcode : 33 ≤ c.toNat ∧ c.toNat < 128 := by
    simp only [isDateChar, Char.isDigit, Bool.or_eq_true, Bool.and_eq_true, decide_eq_true_eq,
      beq_iff_eq] at h
    rcases h with (⟨hlow, hhigh⟩ | rfl) | rfl
    · have hlow' : 48 ≤ c.toNat := hlow
      have hhigh' : c.toNat ≤ 57 := hhigh
      omega
    · decide
    · decide
  exact hcodes ⟨c.toNat, hcode.2⟩ hcode.1

/-- What stands between the fields of a date. -/
def hyphen (hyphens : Bool) : List Char := if hyphens then ['-'] else []

theorem scanHyphen_eq_some {hyphens : Bool} {cs rest : List Char}
    (h : scanHyphen hyphens cs = some rest) : cs = hyphen hyphens ++ rest := by
  unfold scanHyphen at h
  split at h
  · next hyphened =>
    subst hyphened
    split at h
    · rw [← Option.some.inj h]
      rfl
    · cases h
  · next hplain =>
    rw [Bool.eq_false_iff.mpr hplain, Option.some.inj h]
    rfl

theorem hyphen_append_drop (cs : List Char) :
    cs = hyphen (cs.head? == some '-') ++
      (if cs.head? == some '-' then cs.drop 1 else cs) := by
  cases hhyphens : (cs.head? == some '-') with
  | true =>
    obtain ⟨rest, rfl⟩ := List.head?_eq_some_iff.mp (eq_of_beq hhyphens)
    rfl
  | false => rfl

/-- The spellings of dates: a calendar date, a day of a week, or a week for its Monday, each of them
with or without hyphens. -/
inductive Spelling : List Char → Prop where
  | calendar {year month day : List Char} (hyphens : Bool) (hyear : Digits 4 year)
    (hmonth : Digits 2 month) (hday : Digits 2 day) :
    Spelling (year ++ (hyphen hyphens ++ (month ++ (hyphen hyphens ++ day))))
  | weekDay {year week day : List Char} (hyphens : Bool) (hyear : Digits 4 year)
    (hweek : Digits 2 week) (hday : Digits 1 day) :
    Spelling (year ++ (hyphen hyphens ++ 'W' :: (week ++ (hyphen hyphens ++ day))))
  | week {year week : List Char} (hyphens : Bool) (hyear : Digits 4 year)
    (hweek : Digits 2 week) : Spelling (year ++ (hyphen hyphens ++ 'W' :: week))

theorem spelling_of_readDate? {cs : List Char} {d : Date} (h : readDate? cs = some d) :
    Spelling cs := by
  have hend : ∀ {rest : List Char} {date : Option Date},
      (if rest.isEmpty then date else none) = some d → rest = [] := by
    intro rest date h
    split at h
    · next hempty => exact List.isEmpty_iff.mp hempty
    · cases h
  unfold readDate? at h
  obtain ⟨⟨year, rest⟩, hyear, h⟩ := Option.bind_eq_some_iff.mp h
  obtain ⟨yearDigits, hyearDigits, hcs⟩ := scanDigits_eq_some hyear
  dsimp only at h
  rw [hcs, hyphen_append_drop rest]
  generalize (rest.head? == some '-') = hyphens at h ⊢
  split at h
  · next behind heq =>
    obtain ⟨⟨week, later⟩, hweek, h⟩ := Option.bind_eq_some_iff.mp h
    obtain ⟨weekDigits, hweekDigits, hbehind⟩ := scanDigits_eq_some hweek
    dsimp only at h
    rw [heq, hbehind]
    split at h
    · rw [List.append_nil]
      exact .week hyphens hyearDigits hweekDigits
    · obtain ⟨unhyphened, hhyphen, h⟩ := Option.bind_eq_some_iff.mp h
      obtain ⟨⟨day, last⟩, hday, h⟩ := Option.bind_eq_some_iff.mp h
      obtain ⟨dayDigits, hdayDigits, hunhyphened⟩ := scanDigits_eq_some hday
      have hlast : last = [] := hend h
      rw [scanHyphen_eq_some hhyphen, hunhyphened, hlast, List.append_nil]
      exact .weekDay hyphens hyearDigits hweekDigits hdayDigits
  · obtain ⟨⟨month, later⟩, hmonth, h⟩ := Option.bind_eq_some_iff.mp h
    obtain ⟨monthDigits, hmonthDigits, hlater⟩ := scanDigits_eq_some hmonth
    obtain ⟨unhyphened, hhyphen, h⟩ := Option.bind_eq_some_iff.mp h
    obtain ⟨⟨day, last⟩, hday, h⟩ := Option.bind_eq_some_iff.mp h
    obtain ⟨dayDigits, hdayDigits, hunhyphened⟩ := scanDigits_eq_some hday
    have hhyphened : later = hyphen hyphens ++ unhyphened := scanHyphen_eq_some hhyphen
    have hlast : last = [] := hend h
    rw [hlater, hhyphened, hunhyphened, hlast, List.append_nil]
    exact .calendar hyphens hyearDigits hmonthDigits hdayDigits

theorem Digits.chars {count : Nat} {ds : List Char} (h : Digits count ds) :
    ∀ c ∈ ds, isDateChar c = true := fun c hc => by
  simp [isDateChar, h.digit c hc]

theorem hyphen_chars (hyphens : Bool) : ∀ c ∈ hyphen hyphens, isDateChar c = true := by
  intro c hc
  cases hyphens with
  | true =>
    rw [List.mem_singleton.mp hc]
    rfl
  | false => cases hc

theorem Spelling.chars {cs : List Char} (h : Spelling cs) : ∀ c ∈ cs, isDateChar c = true := by
  cases h with
  | calendar hyphens hyear hmonth hday =>
    simp only [List.forall_mem_append]
    exact ⟨hyear.chars, hyphen_chars hyphens, hmonth.chars, hyphen_chars hyphens, hday.chars⟩
  | weekDay hyphens hyear hweek hday =>
    simp only [List.forall_mem_append, List.forall_mem_cons]
    exact ⟨hyear.chars, hyphen_chars hyphens, rfl, hweek.chars, hyphen_chars hyphens, hday.chars⟩
  | week hyphens hyear hweek =>
    simp only [List.forall_mem_append, List.forall_mem_cons]
    exact ⟨hyear.chars, hyphen_chars hyphens, rfl, hweek.chars⟩

/-- Only a date with hyphens and a day is ten characters long. -/
theorem Spelling.length_mem {cs : List Char} (h : Spelling cs) :
    cs.length = 7 ∨ cs.length = 8 ∨ cs.length = 10 := by
  have hlength : ∀ hyphens, (hyphen hyphens).length = if hyphens then 1 else 0 := by decide
  cases h with
  | calendar hyphens hyear hmonth hday =>
    simp only [List.length_append, hyear.length, hmonth.length, hday.length, hlength]
    cases hyphens <;> decide
  | weekDay hyphens hyear hweek hday =>
    simp only [List.length_append, List.length_cons, hyear.length, hweek.length, hday.length,
      hlength]
    cases hyphens <;> decide
  | week hyphens hyear hweek =>
    simp only [List.length_append, List.length_cons, hyear.length, hweek.length, hlength]
    cases hyphens <;> decide

/-- A text is a date, and nothing stands behind it. -/
structure IsDay (cs : List Char) (d : Date) : Prop where
  read : read? cs = some ⟨d, .midnight, none⟩
  alone : ∃ length, dateLength? cs = some length ∧ cs.length ≤ length

theorem isDay_iff {cs : List Char} {d : Date} : IsDay cs d ↔ 7 ≤ cs.length ∧
    (∃ length, dateLength? cs = some length ∧ cs.length ≤ length) ∧ readDate? cs = some d ∧
      d.valid = true := by
  have hread : ∀ {length : Nat}, dateLength? cs = some length → cs.length ≤ length →
      (read? cs = some ⟨d, .midnight, none⟩ ↔
        7 ≤ cs.length ∧ readDate? cs = some d ∧ d.valid = true) := by
    intro length hlength hle
    unfold read?
    rw [hlength]
    by_cases hshort : cs.length < 7
    · simp [hshort, Nat.not_le.mpr hshort]
    · simp only [hshort, if_false, Option.bind_eq_bind, Option.bind_some,
        List.take_of_length_le hle, List.drop_of_length_le hle]
      cases readDate? cs with
      | none => simp
      | some date =>
        by_cases hvalid : date.valid = true
        · simp [hvalid, Nat.not_lt.mp hshort]
          rintro rfl
          exact hvalid
        · simp [hvalid]
          rintro - rfl
          exact Bool.eq_false_iff.mpr hvalid
  constructor
  · rintro ⟨hcs, length, hlength, hle⟩
    obtain ⟨hseven, hdate, hvalid⟩ := (hread hlength hle).mp hcs
    exact ⟨hseven, ⟨length, hlength, hle⟩, hdate, hvalid⟩
  · rintro ⟨hseven, ⟨length, hlength, hle⟩, hdate, hvalid⟩
    exact ⟨(hread hlength hle).mpr ⟨hseven, hdate, hvalid⟩, length, hlength, hle⟩

namespace IsDay

variable {cs : List Char} {d : Date}

theorem valid (h : IsDay cs d) : d.valid = true := (isDay_iff.mp h).2.2.2

theorem spelling (h : IsDay cs d) : Spelling cs := spelling_of_readDate? (isDay_iff.mp h).2.2.1

/-- No mark of a time stands in a date. -/
theorem not_mem_T (h : IsDay cs d) : 'T' ∉ cs := fun hmem => by
  have hchar := h.spelling.chars 'T' hmem
  revert hchar
  decide

/-- A date has no blanks around it. -/
theorem stripped_eq (h : IsDay cs d) : Text.stripped cs = cs :=
  Text.stripped_eq_self fun c hc => isBlank_of_isDateChar (h.spelling.chars c hc)

end IsDay

end Iso

namespace Date

theorem toList_text (d : Date) : d.text.toList =
    (padded 4 d.year.toNat).toList ++ '-' :: ((padded 2 d.month).toList ++
      '-' :: (padded 2 d.day).toList) := by
  simp only [text, String.toList_append, List.append_assoc]
  rfl

/-- The digits of a valid date fill their places. -/
theorem lt_of_valid {d : Date} (h : d.valid = true) :
    d.year.toNat < 10 ^ 4 ∧ d.month < 10 ^ 2 ∧ d.day < 10 ^ 2 := by
  obtain ⟨⟨hlow, hhigh⟩, hin⟩ := valid_iff.mp h
  have hmonth := hin.month_le
  have hday := hin.day_le
  have hdays := (daysInMonth_mem d.year d.month).2
  omega

theorem length_text {d : Date} (h : d.valid = true) : d.text.toList.length = 10 := by
  obtain ⟨hyear, hmonth, hday⟩ := lt_of_valid h
  rw [toList_text, List.length_append, List.length_cons, List.length_append, List.length_cons,
    Iso.length_padded (by decide) hyear, Iso.length_padded (by decide) hmonth,
    Iso.length_padded (by decide) hday]

/-- The digits of a date, one by one. -/
theorem exists_digits {d : Date} (h : d.valid = true) : ∃ a b rest, a ≠ 'W' ∧
      d.text.toList = (padded 4 d.year.toNat).toList ++ '-' :: a :: b :: '-' :: rest ∧
      Iso.scanDigits 2 (a :: b :: '-' :: rest) = some (d.month, '-' :: rest) ∧
      Iso.scanDigits 2 rest = some (d.day, []) := by
  obtain ⟨-, hmonth, hday⟩ := lt_of_valid h
  have hscan := Iso.scanDigits_padded (by decide) hmonth ('-' :: (padded 2 d.day).toList)
  have hscan' := Iso.scanDigits_padded (by decide) hday []
  rw [List.append_nil] at hscan'
  obtain ⟨a, b, hab⟩ := List.length_eq_two.mp (Iso.length_padded (by decide) hmonth)
  have hmem : a ∈ (padded 2 d.month).toList := by
    rw [hab]
    exact List.mem_cons_self
  have hdigit := Iso.isDigit_of_mem_padded hmem
  refine ⟨a, b, (padded 2 d.day).toList, ?_, ?_, ?_, hscan'⟩
  · rintro rfl
    revert hdigit
    decide
  · rw [toList_text, hab]
    rfl
  · rwa [hab] at hscan

theorem isDay_text {d : Date} (h : d.valid = true) : Iso.IsDay d.text.toList d := by
  obtain ⟨hyear, -, -⟩ := lt_of_valid h
  obtain ⟨a, b, rest, hnoWeek, htext, hmonth, hday⟩ := exists_digits h
  have hlength := length_text h
  have hfour := Iso.length_padded (by decide) hyear
  have hread : Iso.readDate? d.text.toList = some d := by
    have hlow := (valid_iff.mp h).1.1
    have hpositive : (d.year.toNat : Int) = d.year := Int.toNat_of_nonneg (by omega)
    unfold Iso.readDate?
    rw [htext, Iso.scanDigits_padded (by decide) hyear]
    simp only [Option.bind_eq_bind, Option.bind_some, List.head?_cons, beq_self_eq_true, if_true,
      List.drop_succ_cons, List.drop_zero]
    split
    · next heq => exact absurd (List.cons.inj heq).1 hnoWeek
    · simp only [hmonth, hday, Iso.scanHyphen, Option.bind_some, if_true, List.isEmpty_nil]
      rw [hpositive]
  have hcover : Iso.dateLength? d.text.toList = some 10 := by
    unfold Iso.dateLength?
    rw [if_neg (by omega), htext, List.drop_left' hfour]
    split
    · next heq => exact absurd (List.cons.inj (List.cons.inj heq).2).1 hnoWeek
    · rfl
    · next heq => exact absurd (List.cons.inj heq).1 (by decide)
    · next hother _ => exact (hother _ rfl).elim
  exact Iso.isDay_iff.mpr ⟨by omega, ⟨10, hcover, by omega⟩, hread, h⟩

end Date
end LeagueAudit
