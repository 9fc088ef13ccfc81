import LeagueAudit.Proofs.Outcome
import LeagueAudit.Time.Instant

/-!
The limits of zones and clocks. Documents may name any zone, but some names lead to a folder of
zones or to no possible file; and clocks show an instant in the years of four digits only, in
universal time and in the zone.
-/
namespace LeagueAudit

/-- A name of no zone that leads to a folder of zones, or to a file name that is too long. -/
def leadsAstray (name : String) : Bool :=
  let steps := name.splitOn "/"
  let folder := String.intercalate "/" steps.dropLast
  let last := steps.getLastD ""
  (findZone? name).isNone && isPlainZoneName name && (zoneFolders.contains name ||
    (folder.isEmpty || zoneFolders.contains folder) && !last.contains '\x00' &&
      Path.isLongStep last)

/-- The zone that a document declares, or the fallback when it is unknown. -/
def zoneOr (fallback : Zone) (declared : Json) : Zone :=
  if declared.truthy then (findZone? declared.text).getD fallback else fallback

/-- A document declares a known zone, or none. -/
def knowsZone (declared : Json) : Bool :=
  !declared.truthy || (findZone? declared.text).isSome

theorem zoneFault_of_leadsAstray {name : String} (h : leadsAstray name = true) :
    zoneFault name = .zoneFolder name ∨ zoneFault name = .longName name := by
  unfold leadsAstray at h
  unfold zoneFault
  grind

theorem zoneFault_of_not_leadsAstray {name : String} (hname : findZone? name = none)
    (h : leadsAstray name = false) :
    zoneFault name = .badZoneName name ∨ zoneFault name = .unknownZone name := by
  unfold leadsAstray at h
  unfold zoneFault
  grind

/-- A zone is found, or the fallback taken, unless the declared name leads astray. -/
theorem resolveZone_eq_ok {fallback : String} {z : Zone} (hfallback : namedZone fallback = .ok z)
    {declared : Json} {found : Zone × Bool} :
    resolveZone fallback declared = .ok found ↔
      ¬(declared.truthy = true ∧ leadsAstray declared.text = true) ∧
        found = (zoneOr z declared, knowsZone declared) := by
  unfold resolveZone zoneOr knowsZone
  cases hdeclared : declared.truthy with
  | false => simp [hfallback, eq_comm (b := found)]
  | true =>
    cases hzone : findZone? declared.text with
    | some known => simp [namedZone, hzone, leadsAstray, eq_comm (b := found)]
    | none =>
      have hnamed : namedZone declared.text = .error (zoneFault declared.text) := by
        rw [namedZone, hzone]
      cases hastray : leadsAstray declared.text with
      | true =>
        rcases zoneFault_of_leadsAstray hastray with hfault | hfault <;>
          simp [hnamed, hfault]
      | false =>
        rcases zoneFault_of_not_leadsAstray hzone hastray with hfault | hfault <;>
          simp [hnamed, hfault, hfallback, Except.map, eq_comm (b := found)]

/-- A day of the years one to 9999. -/
def inCalendar (day : Int) : Bool := firstDay ≤ day && day ≤ lastDay

theorem inCalendar_iff {day : Int} : inCalendar day = true ↔ firstDay ≤ day ∧ day ≤ lastDay := by
  simp only [inCalendar, Bool.and_eq_true, decide_eq_true_eq]

/-- The clocks of universal time and of a zone can show an instant. -/
structure ShowsClocks (z : Zone) (ms : Int) : Prop where
  universal : inCalendar ((ms.fdiv 1000).fdiv secondsPerDay) = true
  there :
    inCalendar ((ms.fdiv 1000 + z.offsetOfUniversal (ms.fdiv 1000)).fdiv secondsPerDay) = true

theorem exists_localParts {z : Zone} {ms : Int} :
    (∃ parts, localParts z ms = .ok parts) ↔ ShowsClocks z ms := by
  constructor
  · rintro ⟨parts, h⟩
    unfold localParts at h
    dsimp only at h
    split at h
    · cases h
    · next huniversal =>
      split at h
      · cases h
      · next hthere =>
        exact ⟨by simpa [inCalendar] using huniversal, by simpa [inCalendar] using hthere⟩
  · rintro ⟨huniversal, hthere⟩
    unfold inCalendar at huniversal hthere
    simp only [localParts, huniversal, hthere, Bool.not_true, Bool.false_eq_true, if_false]
    exact ⟨_, rfl⟩

end LeagueAudit
