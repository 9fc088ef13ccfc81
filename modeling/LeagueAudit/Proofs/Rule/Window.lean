import LeagueAudit.Proofs.Number.Whole
import LeagueAudit.Proofs.Rule.Teams

/-!
Games in a rolling window. Windows open with a game and are reported when they reach further than
those before; what is reported are the largest stretches of games that are too many and fit in one
window, and nothing when no window, wherever it opens, has too many games.
-/
namespace LeagueAudit

/-- A game starts in the window that opens at an instant. -/
def Game.StartsIn (opening width : ℚ) (g : Game) : Prop :=
  opening ≤ g.start ∧ g.start < opening + width

instance (opening width : ℚ) (g : Game) : Decidable (g.StartsIn opening width) :=
  inferInstanceAs (Decidable (_ ∧ _))

/-- Games that stand in a row, from the one at `first` up to the one before `past`. -/
structure Stretch where
  first : Nat
  past : Nat
  deriving DecidableEq, Repr

namespace Stretch

def games (r : Stretch) (all : List Game) : List Game := (all.drop r.first).take (r.past - r.first)

/-- The games of a stretch start within one window. -/
structure Fits (width : ℚ) (all : List Game) (r : Stretch) : Prop where
  nonempty : r.first < r.past
  inside : r.past ≤ all.length
  window : ∃ opening : ℚ, ∀ g ∈ r.games all, g.StartsIn opening width

/-- The stretch fits in one window and has too many games for it. -/
structure Crowded (width : ℚ) (limit : Nat) (all : List Game) (r : Stretch) : Prop where
  fits : r.Fits width all
  excess : limit < r.past - r.first

/-- A crowded stretch that is no part of another one. -/
structure Largest (width : ℚ) (limit : Nat) (all : List Game) (r : Stretch) : Prop where
  crowded : r.Crowded width limit all
  eq_of_part : ∀ other : Stretch, other.Crowded width limit all →
    other.first ≤ r.first → r.past ≤ other.past → other = r

end Stretch

namespace Rule

open Exact

/-- A game starts before the window closes that opens with the first one. -/
def within (width : ℚ) (first game : Game) : Bool := decide ((game.start : ℚ) < first.start + width)

/-- What a window finds that slides over games in order. -/
structure Slides (width : ℚ) (limit : Nat) (games : List Game) (found : List (List Game)) :
    Prop where
  quiet : found = [] ↔ ∀ opening : ℚ, games.countP (·.StartsIn opening width) ≤ limit
  largest : ∃ runs : List Stretch, found = runs.map (·.games games) ∧
    runs.Pairwise (fun r s => r.first < s.first) ∧ ∀ r, r ∈ runs ↔ r.Largest width limit games

theorem within_of_le {width : ℚ} (first a b : Game) (hle : a.start ≤ b.start)
    (h : within width first b = true) : within width first a = true := by
  rw [within, decide_eq_true_iff] at h ⊢
  exact lt_of_le_of_lt (Int.cast_le.mpr hle) h

/-- How far the window reaches that opens with a game at a place. -/
def reach (width : ℚ) (place : Nat) (first : Game) (later : List Game) : Nat :=
  place + (windowOf (within width) first later).length

/-- A window is reported when it has too many games and reaches further than those before. -/
theorem bursts_cons (width : ℚ) (limit place covered : Nat) (first : Game) (later : List Game) :
    bursts (within width) limit place covered (first :: later) =
      if limit < (windowOf (within width) first later).length ∧
          covered < reach width place first later then
        windowOf (within width) first later ::
          bursts (within width) limit (place + 1) (reach width place first later) later
      else bursts (within width) limit (place + 1) covered later := by
  rw [bursts]
  refine if_congr ?_ rfl rfl
  rw [Bool.and_eq_true, decide_eq_true_iff, decide_eq_true_iff]
  rfl

theorem le_length_takeWhile {p : Game → Bool} {n : Nat} {games : List Game} :
    n ≤ (games.takeWhile p).length ↔ n ≤ games.length ∧ ∀ g ∈ games.take n, p g = true := by
  induction games generalizing n with
  | nil => simp
  | cons g games ih =>
    cases n with
    | zero => simp
    | succ n =>
      rw [List.takeWhile_cons, List.take_succ_cons, List.forall_mem_cons]
      split
      · next hg => simp [ih, hg]
      · next hg => simp [hg]

section Stretches

variable {width : ℚ} {limit place covered : Nat} {all later : List Game} {first : Game}

theorem mem_games {r : Stretch} {g : Game} :
    g ∈ r.games all ↔ ∃ k, r.first ≤ k ∧ k < r.past ∧ all[k]? = some g := by
  rw [Stretch.games, List.mem_iff_getElem?]
  constructor
  · rintro ⟨k, hk⟩
    rw [List.getElem?_take] at hk
    split at hk
    · next hlt =>
      rw [List.getElem?_drop] at hk
      exact ⟨r.first + k, by omega, by omega, hk⟩
    · cases hk
  · rintro ⟨k, hfirst, hpast, hk⟩
    refine ⟨k - r.first, ?_⟩
    rw [List.getElem?_take, if_pos (by omega), List.getElem?_drop, Nat.add_sub_cancel' hfirst, hk]

/-- A part of what fits in a window fits in it, too. -/
theorem fits_of_part {r part : Stretch} (h : r.Fits width all) (hfirst : r.first ≤ part.first)
    (hpast : part.past ≤ r.past) (hnonempty : part.first < part.past) : part.Fits width all where
  nonempty := hnonempty
  inside := Nat.le_trans hpast h.inside
  window := by
    obtain ⟨opening, hopening⟩ := h.window
    refine ⟨opening, fun g hg => hopening g ?_⟩
    obtain ⟨k, hk, hk', hg⟩ := mem_games.mp hg
    exact mem_games.mpr ⟨k, by omega, by omega, hg⟩

theorem lt_length_of_drop (hdrop : all.drop place = first :: later) : place < all.length := by
  by_contra hle
  rw [List.drop_eq_nil_of_le (Nat.le_of_not_lt hle)] at hdrop
  cases hdrop

/-- The stretches from a place on that fit in one window are those that fit in the window that opens
with the game at this place. -/
theorem fits_iff (sorted : all.Pairwise fun a b => a.start ≤ b.start)
    (hdrop : all.drop place = first :: later) (past : Nat) :
    Stretch.Fits width all ⟨place, past⟩ ↔ place < past ∧ past ≤ reach width place first later := by
  have hlength : all.length = place + (first :: later).length := by
    rw [← hdrop, List.length_drop]
    have hplace := lt_length_of_drop hdrop
    omega
  have hreach : past ≤ reach width place first later ↔ past - place ≤ (first :: later).length ∧
      ∀ g ∈ (first :: later).take (past - place), within width first g = true := by
    rw [← le_length_takeWhile, reach, windowOf]
    omega
  have hfirst : ∀ g ∈ first :: later, first.start ≤ g.start := by
    have hsuffix := sorted.drop (i := place)
    rw [hdrop] at hsuffix
    exact List.forall_mem_cons.mpr ⟨Int.le_refl _, (List.pairwise_cons.mp hsuffix).1⟩
  have hgames : Stretch.games ⟨place, past⟩ all = (first :: later).take (past - place) := by
    rw [Stretch.games, hdrop]
  rw [hreach]
  constructor
  · rintro ⟨hnonempty, hinside, opening, hopening⟩
    dsimp only at hnonempty hinside
    rw [hgames] at hopening
    refine ⟨hnonempty, by omega, fun g hg => ?_⟩
    have hhead : first ∈ (first :: later).take (past - place) := by
      obtain ⟨n, hn⟩ := Nat.exists_eq_succ_of_ne_zero (Nat.sub_ne_zero_of_lt hnonempty)
      rw [hn]
      exact List.mem_cons_self
    rw [within, decide_eq_true_iff]
    linarith [(hopening _ hhead).1, (hopening g hg).2]
  · rintro ⟨hnonempty, hle, hwithin⟩
    refine ⟨hnonempty, by dsimp only; omega, first.start, fun g hg => ?_⟩
    rw [hgames] at hg
    exact ⟨Int.cast_le.mpr (hfirst g (List.mem_of_mem_take hg)), of_decide_eq_true (hwithin g hg)⟩

/-- The largest stretch from a place on is what its window holds, unless an earlier window reaches
as far. -/
theorem largest_iff (sorted : all.Pairwise fun a b => a.start ≤ b.start)
    (hdrop : all.drop place = first :: later) (past : Nat) :
    Stretch.Largest width limit all ⟨place, past⟩ ↔ past = reach width place first later ∧
      limit < past - place ∧ ¬∃ k < place, Stretch.Fits width all ⟨k, past⟩ := by
  have hfits : ∀ past, Stretch.Fits width all ⟨place, past⟩ ↔
      place < past ∧ past ≤ reach width place first later := fits_iff sorted hdrop
  constructor
  · rintro ⟨⟨hpast, hover⟩, heq⟩
    obtain ⟨hnonempty, hpast⟩ := (hfits past).mp hpast
    dsimp only at hover
    refine ⟨?_, hover, ?_⟩
    · have hwindow : Stretch.Crowded width limit all ⟨place, reach width place first later⟩ :=
        ⟨(hfits _).mpr ⟨by omega, Nat.le_refl _⟩, by dsimp only; omega⟩
      exact (congrArg Stretch.past (heq _ hwindow (Nat.le_refl _) hpast)).symm
    · rintro ⟨k, hk, hearlier⟩
      have hcrowded : Stretch.Crowded width limit all ⟨k, past⟩ :=
        ⟨hearlier, by dsimp only; omega⟩
      have hsame := congrArg Stretch.first (heq _ hcrowded (Nat.le_of_lt hk) (Nat.le_refl _))
      dsimp only at hsame
      omega
  · rintro ⟨hpast, hover, hearlier⟩
    refine ⟨⟨(hfits past).mpr ⟨by omega, by omega⟩, hover⟩, ?_⟩
    rintro ⟨k, past'⟩ ⟨hother, -⟩ hfirst hlast
    dsimp only at hfirst hlast
    -- What the other one has from this place on fits in this window, so it ends at the same place.
    have hpart : Stretch.Fits width all ⟨place, past'⟩ :=
      fits_of_part hother hfirst (Nat.le_refl _) (by dsimp only; omega)
    have hreach := (hfits past').mp hpart
    obtain rfl : past' = past := by omega
    rcases Nat.lt_or_eq_of_le hfirst with hlt | rfl
    · exact absurd ⟨k, hlt, hother⟩ hearlier
    · rfl

theorem games_window (hdrop : all.drop place = first :: later) :
    Stretch.games ⟨place, reach width place first later⟩ all =
      windowOf (within width) first later := by
  rw [Stretch.games, hdrop, reach, Nat.add_sub_cancel_left, windowOf]
  exact (List.prefix_iff_eq_take.mp (List.takeWhile_prefix _)).symm

/-- A largest stretch from a place on is what the window holds that opens there, or starts later. -/
theorem largest_from_iff (sorted : all.Pairwise fun a b => a.start ≤ b.start)
    (hdrop : all.drop place = first :: later) (r : Stretch) :
    r.Largest width limit all ∧ place ≤ r.first ↔
      (r = ⟨place, reach width place first later⟩ ∧ r.Largest width limit all) ∨
        r.Largest width limit all ∧ place + 1 ≤ r.first := by
  obtain ⟨k, past⟩ := r
  constructor
  · rintro ⟨hlargest, hplace⟩
    rcases Nat.lt_or_eq_of_le hplace with hlt | heq
    · exact .inr ⟨hlargest, hlt⟩
    · cases (heq : place = k)
      obtain ⟨hpast, -⟩ := (largest_iff sorted hdrop past).mp hlargest
      exact .inl ⟨by rw [hpast], hlargest⟩
  · rintro (⟨heq, hlargest⟩ | ⟨hlargest, hplace⟩)
    · cases heq
      exact ⟨hlargest, Nat.le_refl _⟩
    · exact ⟨hlargest, Nat.le_of_succ_le hplace⟩

/-- What is reported so far reaches the end of a stretch that is too long to be missed exactly when
an earlier window does. -/
def Covers (width : ℚ) (limit : Nat) (all : List Game) (place covered : Nat) : Prop :=
  ∀ past, limit < past - place → (past ≤ covered ↔ ∃ k < place, Stretch.Fits width all ⟨k, past⟩)

theorem covers_zero : Covers width limit all 0 0 := by
  intro past hpast
  constructor
  · omega
  · rintro ⟨k, hk, -⟩
    omega

theorem covers_succ (sorted : all.Pairwise fun a b => a.start ≤ b.start)
    (hdrop : all.drop place = first :: later) (h : Covers width limit all place covered)
    {covered' : Nat} (hnext : ∀ past, limit < past - place →
      (past ≤ covered' ↔ past ≤ covered ∨ past ≤ reach width place first later)) :
    Covers width limit all (place + 1) covered' := by
  intro past hpast
  rw [hnext past (by omega), h past (by omega), Nat.exists_lt_succ_right, fits_iff sorted hdrop]
  exact or_congr_right (iff_and_self.mpr fun _ => by omega)

/-- A window is reported when it is a largest stretch. -/
theorem largest_iff_reported (sorted : all.Pairwise fun a b => a.start ≤ b.start)
    (hdrop : all.drop place = first :: later) (h : Covers width limit all place covered)
    (past : Nat) :
    Stretch.Largest width limit all ⟨place, past⟩ ↔ past = reach width place first later ∧
      limit < (windowOf (within width) first later).length ∧
        covered < reach width place first later := by
  rw [largest_iff sorted hdrop]
  refine and_congr_right fun hpast => ?_
  subst hpast
  have hlength : reach width place first later - place =
      (windowOf (within width) first later).length := Nat.add_sub_cancel_left _ _
  rw [hlength]
  refine and_congr_right fun hover => ?_
  rw [← h _ (by omega), Nat.not_le]

/-- From every place on, the largest stretches are reported, each once and in order. -/
theorem exists_runs (sorted : all.Pairwise fun a b => a.start ≤ b.start) {games : List Game}
    (hdrop : all.drop place = games) (h : Covers width limit all place covered) :
    ∃ runs : List Stretch,
      bursts (within width) limit place covered games = runs.map (·.games all) ∧
        runs.Pairwise (fun r s => r.first < s.first) ∧
        ∀ r, r ∈ runs ↔ r.Largest width limit all ∧ place ≤ r.first := by
  induction games generalizing place covered with
  | nil =>
    refine ⟨[], rfl, .nil, fun r => ⟨nofun, ?_⟩⟩
    rintro ⟨hlargest, hplace⟩
    have hlength := List.drop_eq_nil_iff.mp hdrop
    have hinside := hlargest.crowded.fits.inside
    have hnonempty := hlargest.crowded.fits.nonempty
    omega
  | cons first later ih =>
    have hreported := largest_iff_reported sorted hdrop h
    have hlater : all.drop (place + 1) = later := by
      rw [← List.tail_drop, hdrop, List.tail_cons]
    have hhere := (hreported (reach width place first later)).trans (and_iff_right rfl)
    rw [bursts_cons]
    split
    · next hover =>
      have hcovers : Covers width limit all (place + 1) (reach width place first later) :=
        covers_succ sorted hdrop h (by omega)
      obtain ⟨runs, heq, hincreasing, hruns⟩ := ih hlater hcovers
      refine ⟨⟨place, reach width place first later⟩ :: runs, ?_, ?_, fun r => ?_⟩
      · rw [heq, List.map_cons, games_window hdrop]
      · exact List.pairwise_cons.mpr ⟨fun r hr => ((hruns r).mp hr).2, hincreasing⟩
      · rw [largest_from_iff sorted hdrop, List.mem_cons, hruns]
        refine or_congr_left (iff_self_and.mpr ?_)
        rintro rfl
        exact hhere.mpr hover
    · next hunder =>
      have hcovers : Covers width limit all (place + 1) covered :=
        covers_succ sorted hdrop h (by unfold reach at hunder ⊢; omega)
      obtain ⟨runs, heq, hincreasing, hruns⟩ := ih hlater hcovers
      refine ⟨runs, heq, hincreasing, fun r => ?_⟩
      rw [hruns, largest_from_iff sorted hdrop, or_iff_right]
      rintro ⟨rfl, hlargest⟩
      exact hunder (hhere.mp hlargest)

end Stretches

section Counting

variable {width : ℚ} {limit : Nat} {games : List Game}

/-- As long as no window was reported, none is when no window of this width, wherever it opens, has
too many games. -/
theorem bursts_eq_nil_iff (sorted : games.Pairwise fun a b => a.start ≤ b.start)
    {place covered : Nat} (hcovered : covered ≤ place) :
    bursts (within width) limit place covered games = [] ↔
      ∀ opening : ℚ, games.countP (·.StartsIn opening width) ≤ limit := by
  induction games generalizing place with
  | nil => simp [bursts]
  | cons first later ih =>
    have hfirst := (List.pairwise_cons.mp sorted).1
    have hwindow : (windowOf (within width) first later).length =
        (first :: later).countP (within width first) := by
      rw [windowOf_eq_filter within_of_le sorted, List.countP_eq_length_filter]
    rw [bursts_cons_eq_nil hcovered, ih sorted.of_cons (Nat.le_succ_of_le hcovered), hwindow]
    constructor
    · rintro ⟨hhere, hlater⟩ opening
      by_cases hopening : opening ≤ first.start
      · refine Nat.le_trans (List.countP_mono_left fun g _ hg => ?_) hhere
        rw [within, decide_eq_true_iff]
        linarith [(of_decide_eq_true hg).2]
      · rw [List.countP_cons_of_neg fun hin => hopening (of_decide_eq_true hin).1]
        exact hlater opening
    · intro hall
      refine ⟨Nat.le_trans (List.countP_mono_left fun g hg hin => ?_) (hall first.start),
        fun opening => Nat.le_trans ((List.sublist_cons_self _ _).countP_le) (hall opening)⟩
      refine decide_eq_true ⟨?_, of_decide_eq_true hin⟩
      rcases List.mem_cons.mp hg with rfl | hg
      · exact le_refl _
      · exact Int.cast_le.mpr (hfirst g hg)

theorem slides_bursts (sorted : games.Pairwise fun a b => a.start ≤ b.start) :
    Slides width limit games (bursts (within width) limit 0 0 games) where
  quiet := bursts_eq_nil_iff sorted (Nat.le_refl 0)
  largest := by
    obtain ⟨runs, heq, hincreasing, hruns⟩ := exists_runs sorted List.drop_zero covers_zero
    exact ⟨runs, heq, hincreasing, fun r => (hruns r).trans (and_iff_left (Nat.zero_le _))⟩

theorem windowOf_congr {p q : Game → Game → Bool} {first : Game} {later : List Game}
    (h : ∀ g ∈ first :: later, p first g = q first g) :
    windowOf p first later = windowOf q first later := by
  unfold windowOf
  generalize first :: later = games at h
  induction games with
  | nil => rfl
  | cons next rest ih =>
    obtain ⟨hnext, hrest⟩ := List.forall_mem_cons.mp h
    rw [List.takeWhile_cons, List.takeWhile_cons, hnext, ih hrest]

theorem bursts_congr {p q : Game → Game → Bool} (h : ∀ a ∈ games, ∀ b ∈ games, p a b = q a b)
    {place covered : Nat} :
    bursts p limit place covered games = bursts q limit place covered games := by
  induction games generalizing place covered with
  | nil => rfl
  | cons first later ih =>
    have hlater : ∀ a ∈ later, ∀ b ∈ later, p a b = q a b := fun a ha b hb =>
      h a (List.mem_cons_of_mem _ ha) b (List.mem_cons_of_mem _ hb)
    rw [bursts, bursts, windowOf_congr (h first List.mem_cons_self)]
    simp only [ih hlater]

/-- Windows of days that open with these games close at the instant that the sum of doubles stands
for. -/
def ExactWindows (windowDays : Float) (days : ℚ) (games : List Game) : Prop :=
  ∀ first ∈ games, StandsFor (Float.ofInt first.start + windowDays * msPerDay.toFloat)
    (first.start + days * msPerDay)

/-- Windows of whole days are exact at instants that are not too far away. -/
theorem exactWindows_of_whole {windowDays : Float} {days : Int}
    (hdays : ofFloat windowDays = ofInt days) (hwidth : (days * msPerDay).natAbs < 2 ^ 53)
    (hgames : ∀ g ∈ games, g.start.natAbs < 2 ^ 53 ∧
      (g.start + days * msPerDay).natAbs < 2 ^ 53) : ExactWindows windowDays days games := by
  intro g hg
  obtain ⟨hopens, hcloses⟩ := hgames g hg
  have hunit : ofFloat msPerDay.toFloat = ofInt msPerDay := by decide +kernel
  have hdouble := ofFloat_mul_whole hdays hunit hwidth
  exact_mod_cast standsFor_of_ofInt (ofFloat_add_whole (ofFloat_ofInt hopens) hdouble hcloses)

theorem bursts_eq_of_exactWindows {windowDays : Float} {days : ℚ}
    (h : ExactWindows windowDays days games) :
    bursts (startsWithin windowDays) limit 0 0 games =
      bursts (within (days * msPerDay)) limit 0 0 games := by
  refine bursts_congr fun first hfirst g _ => ?_
  rw [Bool.eq_iff_iff, startsWithin, intLtFloat_iff (h first hfirst), within, decide_eq_true_iff]

end Counting

section Reports

variable {index : Index} {params : Json} {limit : Nat} {windowDays : Float}

/-- Of each team is reported what a window finds that slides over its games, and of nobody else is
anything reported. -/
structure SlidesOverTeams (index : Index) (limit : Nat) (windowDays : Float) (o : Outcome) :
    Prop where
  ofTeams : ∀ v ∈ o.violations, ∃ team, index.teamInScope team = true ∧ v.isAbout team = true
  slides : ∀ team (days : ℚ), ExactWindows windowDays days (index.gamesOf team) →
    ∃ found, Slides (days * msPerDay) limit (index.gamesOf team) found ∧
      o.violations.filter (·.isAbout team) = found.map (burstViolation limit windowDays team)

theorem run_maxGamesInWindow
    (hlimit : (do truncateToInt (← RuleContext.number ⟨params, index⟩ "max_games" 0.0)) =
      .ok (limit : Int)) (hone : 1 ≤ limit)
    (hwindow : RuleContext.number ⟨params, index⟩ "window_days" 7.0 = .ok windowDays)
    (hpos : 0.0 < windowDays) :
    maxGamesInWindow.run ⟨params, index⟩ =
      .silent (do .ok { violations := ← burstViolations limit windowDays index }) := by
  obtain ⟨games, hgames, hlimit⟩ := bind_eq_ok.mp hlimit
  have henforced : ¬(decide ((limit : Int) ≤ 0) || decide (windowDays ≤ 0.0)) = true := by
    rw [Bool.or_eq_true, decide_eq_true_iff, decide_eq_true_iff]
    exact not_or.mpr ⟨by omega, not_le_of_zero_lt hpos⟩
  unfold maxGamesInWindow
  dsimp only
  rw [hgames]
  dsimp only [bind, Except.bind]
  rw [hlimit, hwindow]
  exact congrArg RuleRun.silent (if_neg henforced)

theorem burstViolations_eq_ok {violations : List Violation} :
    burstViolations limit windowDays index = .ok violations ↔ index.ListsTeams ∧
      violations = teamReports index (bursts (startsWithin windowDays) limit 0 0)
        (burstViolation limit windowDays) :=
  teamSearch_eq_ok (bursts (startsWithin windowDays) limit 0 0) (burstViolation limit windowDays)

/-- The rule about games in a window reports what a window finds that slides over the games of each
team. -/
theorem slidesOverTeams
    (hlimit : (do truncateToInt (← RuleContext.number ⟨params, index⟩ "max_games" 0.0)) =
      .ok (limit : Int)) (hone : 1 ≤ limit)
    (hwindow : RuleContext.number ⟨params, index⟩ "window_days" 7.0 = .ok windowDays)
    (hpos : 0.0 < windowDays) :
    ((∃ returned, (maxGamesInWindow.run ⟨params, index⟩).result = .ok returned) ↔
        index.ListsTeams) ∧
      ∀ returned, (maxGamesInWindow.run ⟨params, index⟩).result = .ok returned →
        ∃ o, returned = .outcome o ∧ SlidesOverTeams index limit windowDays o := by
  rw [run_maxGamesInWindow hlimit hone hwindow hpos]
  refine ⟨exists_result_iff fun _ => burstViolations_eq_ok, fun returned h => ?_⟩
  obtain ⟨violations, hviolations, rfl⟩ := RuleRun.result_listed_eq_ok.mp h
  obtain ⟨-, rfl⟩ := burstViolations_eq_ok.mp hviolations
  have hfirst : ∀ team games,
      (burstViolation limit windowDays team games).entities.head? = some team := fun _ _ => rfl
  refine ⟨_, rfl, fun v hv => exists_isAbout_of_mem hfirst hv, fun team days hexact => ?_⟩
  refine ⟨_, slides_bursts (pairwise_inOrder _), ?_⟩
  rw [filter_isAbout_teamReports rfl hfirst, bursts_eq_of_exactWindows hexact]

def threeGames : Json :=
  .obj [("fixtures", .arr [
    .obj [("id", .str "F"), ("participants", .arr [.str "A", .str "B"])],
    .obj [("id", .str "G"), ("participants", .arr [.str "A", .str "C"])],
    .obj [("id", .str "H"), ("participants", .arr [.str "A", .str "D"])]])]

/-- The last game starts when the week closes that opens with the first one. -/
def weekLater : Json :=
  .obj [("assignments", .arr [
    .obj [("fixtureId", .str "F"), ("startTime", .str "2025-03-01T10:00:00Z")],
    .obj [("fixtureId", .str "G"), ("startTime", .str "2025-03-04T10:00:00Z")],
    .obj [("fixtureId", .str "H"), ("startTime", .str "2025-03-08T10:00:00Z")]])]

def oneGameAWeek : Json := .obj [("max_games", .int 1), ("window_days", .int 7)]

theorem slidesOverTeams_weekLater :
    ∃ index windowDays o, Index.build (.whole 90) "UTC" threeGames weekLater = .ok index ∧
      (do truncateToInt (← RuleContext.number ⟨oneGameAWeek, index⟩ "max_games" 0.0)) =
        .ok ((1 : Nat) : Int) ∧
      RuleContext.number ⟨oneGameAWeek, index⟩ "window_days" 7.0 = .ok windowDays ∧
      0.0 < windowDays ∧
      (index.gamesOf "A").map (·.start) = [1740823200000, 1741082400000, 1741428000000] ∧
      ExactWindows windowDays 7 (index.gamesOf "A") ∧
      (maxGamesInWindow.run ⟨oneGameAWeek, index⟩).result = .ok (.outcome o) ∧
      SlidesOverTeams index 1 windowDays o ∧ o.violations.filter (·.isAbout "A") ≠ [] := by
  obtain ⟨index, hindex, hview⟩ := exists_ok_of_toOption_map
    (x := Index.build (.whole 90) "UTC" threeGames weekLater)
    (f := fun index => (index.appearances, decide index.ListsTeams))
    (b := ([("A", ⟨1740823200000, 1740828600000, "F"⟩), ("B", ⟨1740823200000, 1740828600000, "F"⟩),
      ("A", ⟨1741082400000, 1741087800000, "G"⟩), ("C", ⟨1741082400000, 1741087800000, "G"⟩),
      ("A", ⟨1741428000000, 1741433400000, "H"⟩), ("D", ⟨1741428000000, 1741433400000, "H"⟩)],
      true)) (by decide +kernel)
  obtain ⟨hgames, hlists⟩ := Prod.mk.inj hview
  have hlimit : (do truncateToInt (← RuleContext.number ⟨oneGameAWeek, index⟩ "max_games" 0.0)) =
      .ok ((1 : Nat) : Int) := by
    obtain ⟨n, hn, rfl⟩ := exists_ok_of_toOption_map
      (x := truncateToInt (Float.ofInt 1)) (f := fun n => n) (b := ((1 : Nat) : Int))
      (by decide +kernel)
    exact bind_eq_ok.mpr ⟨_, rfl, hn⟩
  have hread : RuleContext.number ⟨oneGameAWeek, index⟩ "window_days" 7.0 = .ok (Float.ofInt 7) :=
    rfl
  have hpos : (0.0 : Float) < Float.ofInt 7 := by decide +kernel
  have hteam : index.gamesOf "A" = [⟨1740823200000, 1740828600000, "F"⟩,
      ⟨1741082400000, 1741087800000, "G"⟩, ⟨1741428000000, 1741433400000, "H"⟩] := by
    rw [Index.gamesOf_eq_valuesOf (by rw [hgames]; decide), hgames]
    rfl
  have hexact : ExactWindows (Float.ofInt 7) 7 (index.gamesOf "A") := by
    refine exactWindows_of_whole (ofFloat_ofInt (by decide)) (by decide) ?_
    rw [hteam]
    decide
  obtain ⟨hreturns, hslides⟩ := slidesOverTeams hlimit (Nat.le_refl 1) hread hpos
  obtain ⟨returned, hreturned⟩ := hreturns.mpr (of_decide_eq_true hlists)
  obtain ⟨o, rfl, ho⟩ := hslides returned hreturned
  refine ⟨index, _, o, hindex, hlimit, hread, hpos, ?_, hexact, hreturned, ho, fun hquiet => ?_⟩
  · rw [hteam]
    rfl
  · obtain ⟨found, hfound, hreports⟩ := ho.slides "A" 7 hexact
    rw [hreports, List.map_eq_nil_iff, hfound.quiet, hteam] at hquiet
    exact absurd (hquiet 1740823200000) (by decide +kernel)

end Reports

end Rule
end LeagueAudit
