import LeagueAudit.Metrics
import LeagueAudit.Proofs.Audit.Stages
import LeagueAudit.Proofs.Penalty.Points

/-!
The table of evaluated constraints. Texts, doubles and empty cells always make a column; whole
numbers make one as long as none is beyond the doubles before a number is met that no kind of word
holds together with the others. How a column adds up depends on all of its cells: as far as words of
sixty-four bits go, or exactly when no kind of word holds all of them.
-/
namespace LeagueAudit

/-- A word of a kind holds a number; other cells hold any. -/
def CellKind.Holds : CellKind → Int → Prop
  | .signed, n => -Column.signBit ≤ n ∧ n < Column.signBit
  | .unsigned, n => 0 ≤ n ∧ n < Column.wordSize
  | _, _ => True

instance (kind : CellKind) : DecidablePred kind.Holds := fun _ =>
  match kind with
  | .signed => inferInstanceAs (Decidable (_ ∧ _))
  | .unsigned => inferInstanceAs (Decidable (_ ∧ _))
  | .double | .truth | .text | .mixed => inferInstanceAs (Decidable True)

namespace Column

/-- A sum as a column of a kind has room for it. -/
def wordSum : CellKind → Int → Int
  | .signed, sum => sum.bmod wordSize.toNat
  | .unsigned, sum => sum % wordSize
  | _, sum => sum

/-- A sum is kept exactly when a word holds it, whatever the running sums were. -/
theorem wordSum_eq_iff {kind : CellKind} {sum : Int} : wordSum kind sum = sum ↔ kind.Holds sum := by
  cases kind with
  | signed =>
    have hsize : wordSize.toNat = 18446744073709551616 := rfl
    constructor
    · intro h
      have hlow := Int.le_bmod (x := sum) (m := wordSize.toNat) (by decide)
      have hhigh := Int.bmod_lt (x := sum) (m := wordSize.toNat) (by decide)
      rw [wordSum] at h
      rw [h, hsize] at hlow hhigh
      simp only [CellKind.Holds, signBit]
      omega
    · rintro ⟨hlow, hhigh⟩
      simp only [signBit] at hlow hhigh
      exact Int.bmod_eq_of_le (by rw [hsize]; omega) (by rw [hsize]; omega)
  | unsigned =>
    simp only [wordSum, CellKind.Holds, wordSize]
    omega
  | _ => simp [wordSum, CellKind.Holds]

section Whole

/-- Words of one kind hold all the numbers. -/
def FitWords (ns : List Int) : Prop :=
  (∀ n ∈ ns, CellKind.signed.Holds n) ∨ ∀ n ∈ ns, CellKind.unsigned.Holds n

instance (ns : List Int) : Decidable (FitWords ns) := inferInstanceAs (Decidable (_ ∨ _))

/-- The kind of a column of whole numbers. -/
def kindOf (ns : List Int) : CellKind :=
  if ns = [] ∨ ¬FitWords ns then .mixed
  else if ns.any (signBit ≤ ·) then .unsigned
  else .signed

/-- Every number is within the doubles that comes before the numbers stop to fit words. -/
def Listable (seen ns : List Int) : Prop :=
  ∀ before n after, ns = before ++ n :: after → FitWords (seen ++ before) → ¬BeyondDoubles (.int n)

/-- What was met in a column of whole numbers. -/
def censusOf (ns : List Int) : Census :=
  { whole := !ns.isEmpty, large := ns.any (signBit ≤ ·), negative := ns.any (· < 0) }

variable {seen rest : List Int} {n : Int}

theorem FitWords.of_append {more : List Int} (h : FitWords (seen ++ more)) : FitWords seen :=
  h.imp (fun h m hm => h m (List.mem_append_left _ hm)) fun h m hm =>
    h m (List.mem_append_left _ hm)

theorem addWhole_censusOf (seen : List Int) (n : Int) :
    (censusOf seen).addWhole n = censusOf (seen ++ [n]) := by
  simp [Census.addWhole, censusOf]

/-- A number is too much exactly when words of one kind held those before it and do not hold it with
them. -/
theorem exceeds_censusOf (h : FitWords seen) :
    (censusOf (seen ++ [n])).exceeds n = true ↔ ¬FitWords (seen ++ [n]) := by
  have hexceeds : (censusOf (seen ++ [n])).exceeds n = true ↔
      ((∃ m ∈ seen ++ [n], signBit ≤ m) ∧ ∃ m ∈ seen ++ [n], m < 0) ∨
        wordSize ≤ n ∨ n < -signBit := by
    simp only [Census.exceeds, censusOf, Bool.not_false, Bool.true_and, Bool.or_eq_true,
      Bool.and_eq_true, List.any_eq_true, decide_eq_true_eq, or_assoc, ge_iff_le]
  rw [hexceeds]
  constructor
  · rintro hmuch (hfit | hfit)
    all_goals
      have hn := hfit n (by simp)
      simp only [CellKind.Holds, signBit, wordSize] at hn hmuch
      rcases hmuch with ⟨⟨l, hl, hlarge⟩, m, hm, hneg⟩ | hmuch
    · have := hfit l hl
      simp only [CellKind.Holds, signBit] at this
      omega
    · omega
    · have := hfit m hm
      simp only [CellKind.Holds] at this
      omega
    · omega
  · intro hnot
    by_contra hless
    simp only [not_or, not_and, not_exists, not_lt] at hless
    obtain ⟨hopposed, hhigh, hlow⟩ := hless
    by_cases hlarge : ∃ l ∈ seen ++ [n], signBit ≤ l
    · refine hnot (.inr fun m hm => ⟨hopposed hlarge m hm, ?_⟩)
      rcases List.mem_append.mp hm with hm | hm
      · rcases h with hfit | hfit
        · exact lt_trans (hfit m hm).2 (by decide)
        · exact (hfit m hm).2
      · rw [List.mem_singleton.mp hm]
        omega
    · refine hnot (.inl fun m hm => ⟨?_, not_le.mp fun hle => hlarge ⟨m, hm, hle⟩⟩)
      rcases List.mem_append.mp hm with hm | hm
      · rcases h with hfit | hfit
        · exact (hfit m hm).1
        · exact le_trans (by decide) (hfit m hm).1
      · rwa [List.mem_singleton.mp hm]

theorem kind_censusOf (h : FitWords seen) : (censusOf seen).kind = kindOf seen := by
  unfold Census.kind kindOf
  by_cases hseen : seen = [] <;> simp [censusOf, hseen, h]

theorem listable_cons_iff (h : FitWords seen) :
    Listable seen (n :: rest) ↔ ¬BeyondDoubles (.int n) ∧ Listable (seen ++ [n]) rest := by
  constructor
  · intro hlist
    refine ⟨hlist [] n rest rfl (by rwa [List.append_nil]), ?_⟩
    rintro before m after rfl hfit
    refine hlist (n :: before) m after rfl ?_
    rwa [List.append_assoc] at hfit
  · rintro ⟨hn, hrest⟩ before m after heq hfit
    cases before with
    | nil =>
      obtain ⟨rfl, -⟩ := List.cons.inj heq
      exact hn
    | cons first before =>
      obtain ⟨rfl, hrest'⟩ := List.cons.inj heq
      exact hrest before m after hrest' (by rwa [List.append_assoc])

/-- The numbers met so far fit words of one kind, until one ends the search. -/
theorem kindFrom_whole_eq_ok_iff (all : List Json) (h : FitWords seen) {kind : CellKind} :
    kindFrom all (censusOf seen) (rest.map .int) = .ok kind ↔
      Listable seen rest ∧ kind = kindOf (seen ++ rest) := by
  induction rest generalizing seen with
  | nil =>
    have hnone : Listable seen [] := fun before n after heq => by simp at heq
    rw [List.map_nil, kindFrom, kind_censusOf h, List.append_nil, Except.ok.injEq]
    exact ⟨fun hkind => ⟨hnone, hkind.symm⟩, fun hkind => hkind.2.symm⟩
  | cons n rest ih =>
    have happend : seen ++ n :: rest = seen ++ [n] ++ rest := by simp
    rw [List.map_cons, kindFrom, bind_eq_ok, listable_cons_iff h, addWhole_censusOf,
      ← exists_intToFloat_iff, happend]
    simp only [← exists_and_right, and_assoc]
    refine exists_congr fun x => and_congr_right fun _ => ?_
    by_cases hfit : FitWords (seen ++ [n])
    · rw [if_neg (by rwa [exceeds_censusOf h, not_not])]
      exact ih hfit
    · have hlist : Listable (seen ++ [n]) rest := fun before m after _ hmore =>
        absurd hmore.of_append hfit
      have hmixed : kindOf (seen ++ [n] ++ rest) = .mixed :=
        if_pos (.inr fun hmore => hfit hmore.of_append)
      rw [if_pos ((exceeds_censusOf h).mpr hfit), hmixed, Except.ok.injEq, eq_comm]
      exact (and_iff_right hlist).symm

end Whole

/-- A column holds its cells as its kind has them. -/
theorem ofCells_map {α : Type} {xs : List α} {f g : α → Json} {kind : CellKind}
    (hkind : kindFrom (xs.map f) {} (xs.map f) = .ok kind)
    (hcells : ∀ x ∈ xs, cellAs kind (f x) = .ok (g x)) :
    ofCells (xs.map f) = .ok ⟨kind, xs.map g⟩ :=
  bind_eq_ok.mpr ⟨kind, hkind, bind_eq_ok.mpr ⟨_, mapM_map_eq_ok hcells, rfl⟩⟩

theorem ofCells_whole_eq_ok_iff {ns : List Int} {column : Column} :
    ofCells (ns.map .int) = .ok column ↔
      Listable [] ns ∧ column = ⟨kindOf ns, ns.map .int⟩ := by
  have hkind : ∀ kind, kindFrom (ns.map .int) {} (ns.map .int) = .ok kind ↔
      Listable [] ns ∧ kind = kindOf ns :=
    fun _ => kindFrom_whole_eq_ok_iff _ (show FitWords [] from .inl nofun)
  have hcells : ∀ n ∈ ns, cellAs (kindOf ns) (.int n) = .ok (.int n) := by
    intro n _
    unfold kindOf
    split
    · rfl
    · split <;> rfl
  constructor
  · intro h
    obtain ⟨kind, hk, -⟩ := bind_eq_ok.mp h
    obtain ⟨hlist, rfl⟩ := (hkind kind).mp hk
    rw [ofCells_map hk hcells] at h
    exact ⟨hlist, (Except.ok.inj h).symm⟩
  · rintro ⟨hlist, rfl⟩
    exact ofCells_map ((hkind _).mpr ⟨hlist, rfl⟩) hcells

/-- A text, or nothing. -/
def textOr (gap : Json) (text : Option String) : Json := (text.map Json.str).getD gap

theorem kindFrom_texts {all : List Json} (hall : all.all isTextOrMissing = true) (b : Bool)
    (texts : List (Option String)) :
    kindFrom all { null := b } (texts.map (textOr .null)) =
      .ok (if texts.any Option.isSome then .text else .mixed) := by
  induction texts generalizing b with
  | nil => cases b <;> rfl
  | cons text rest ih =>
    cases text with
    | none => exact ih true
    | some s =>
      rw [List.map_cons]
      change (Except.ok (if all.all isTextOrMissing then CellKind.text else CellKind.mixed) :
        Except Fault CellKind) = _
      rw [if_pos hall]
      rfl

theorem isMissing_missing : isMissing missing = true := by decide +kernel

/-- A column of texts keeps them, and its other cells are missing. -/
theorem exists_ofCells_texts (texts : List (Option String)) :
    ∃ kind gap, isMissing gap = true ∧
      ofCells (texts.map (textOr .null)) = .ok ⟨kind, texts.map (textOr gap)⟩ := by
  have hall : (texts.map (textOr .null)).all isTextOrMissing = true := by
    rw [List.all_map, List.all_eq_true]
    rintro (_ | s) - <;> rfl
  have hkind := kindFrom_texts hall false texts
  split at hkind
  · exact ⟨.text, missing, isMissing_missing, ofCells_map hkind (by rintro (_ | s) - <;> rfl)⟩
  · exact ⟨.mixed, .null, rfl, ofCells_map hkind fun _ _ => rfl⟩

theorem exists_ofCells_doubles (xs : List Float) :
    ∃ kind, ofCells (xs.map .float) = .ok ⟨kind, xs.map .float⟩ := by
  have hkind : ∀ all (rest : List Float) met,
      ∃ kind, kindFrom all met (rest.map .float) = .ok kind := by
    intro all rest
    induction rest with
    | nil => exact fun met => ⟨met.kind, rfl⟩
    | cons x rest ih =>
      intro met
      rw [List.map_cons, kindFrom]
      split
      · exact ih _
      · exact ih _
  obtain ⟨kind, hkind⟩ := hkind (xs.map .float) xs {}
  exact ⟨kind, ofCells_map hkind fun x _ => by cases kind <;> rfl⟩

end Column

namespace Table

variable {names : List String} {rows : List (List (String × Json))} {t : Table} {name : String}

/-- The cells under a name. -/
def cellsUnder (rows : List (List (String × Json))) (name : String) : List Json :=
  rows.map fun row => (row.lookup name).getD Column.missing

theorem ofJson_rows (names : List String) (rows : List (List (String × Json))) :
    ofJson names (.arr (rows.map .obj)) = (names.map (cellsUnder rows)).mapM Column.ofCells >>=
      fun columns => .ok (names.zip columns) := by
  cases rows with
  | nil => rfl
  | cons first rest =>
    have hread : (Json.obj first :: rest.map Json.obj).mapM recordOf = .ok (first :: rest) := by
      have h : ((first :: rest).map Json.obj).mapM recordOf = .ok ((first :: rest).map id) :=
        mapM_map_eq_ok fun _ _ => rfl
      rwa [List.map_id] at h
    have hcells : cellsOf names (.arr (.obj first :: rest.map .obj)) =
        .ok (names.map (cellsUnder (first :: rest))) := by
      rw [cellsOf, hread]
      rfl
    have hrows : (Json.arr ((first :: rest).map Json.obj)).truthy = true := rfl
    rw [ofJson, if_pos hrows, List.map_cons, hcells]
    rfl

theorem exists_lookup_zip {ε α β : Type} {names : List String} {columns : List β}
    {f : String → α} {g : α → Except ε β} (h : (names.map f).mapM g = .ok columns) {name : String}
    (hname : name ∈ names) :
    ∃ column, (names.zip columns).lookup name = some column ∧ g (f name) = .ok column := by
  rw [mapM_eq_ok, List.forall₂_map_left_iff] at h
  induction h with
  | nil => simp at hname
  | cons hcolumn _ ih =>
    rw [List.zip_cons_cons, Json.lookup_cons_eq]
    split
    · next heq => exact ⟨_, rfl, heq ▸ hcolumn⟩
    · next hne => exact ih ((List.mem_cons.mp hname).resolve_left hne)

/-- A table has a column under each of its names. -/
theorem ofCells_cellsUnder (h : ofJson names (.arr (rows.map .obj)) = .ok t)
    (hname : name ∈ names) : Column.ofCells (cellsUnder rows name) = .ok (t.column name) := by
  rw [ofJson_rows] at h
  obtain ⟨columns, hcolumns, h⟩ := bind_eq_ok.mp h
  obtain ⟨column, hlookup, hcolumn⟩ := exists_lookup_zip hcolumns hname
  rw [hcolumn, ← Except.ok.inj h, Table.column, hlookup, Option.getD_some]

/-- A table is made when all its columns are. -/
theorem exists_ofJson_iff : (∃ t, ofJson names (.arr (rows.map .obj)) = .ok t) ↔
    ∀ name ∈ names, ∃ column, Column.ofCells (cellsUnder rows name) = .ok column := by
  rw [ofJson_rows, exists_bind_ok, exists_mapM_eq_ok, List.forall_mem_map]
  simp only [exists_eq_ok]

end Table

namespace Metrics

open Column ResultAudit

/-- The details of a report that figures are taken from. -/
structure Details (report : Report) (r : Reconciliation) : Prop where
  total : report.detail "totalPenalty" = .float r.totalPenalty
  hardViolations : report.detail "hardViolations" = .arr r.hardViolations
  rows : report.detail "constraints" = .arr (r.evaluations.map constraintRow)

/-- The counts of evaluated constraints, one below the other. -/
def countsOf (evaluations : List Evaluation) : List Int := evaluations.map (·.count)

/-- The columns of the table of evaluated constraints. -/
structure Tabulates (evaluations : List Evaluation) (t : Table) : Prop where
  labels : (t.column "constraintId").cells = evaluations.map fun ev => .str ev.constraint.label
  rules : ∃ gap, isMissing gap = true ∧
    (t.column "ruleId").cells = evaluations.map fun ev => textOr gap ev.constraint.ruleId
  severities : (t.column "type").cells = evaluations.map fun ev => .str ev.constraint.severity
  counts : t.column "violations" =
    ⟨kindOf (countsOf evaluations), evaluations.map fun ev => .int ev.count⟩
  penalties : (t.column "penalty").cells = evaluations.map fun ev => .float ev.penalty
  times : ∀ cell ∈ (t.column "durationMs").cells, isMissing cell = true

variable {report : Report} {r : Reconciliation} {evaluations : List Evaluation} {t : Table}

/-- The members of the row of an evaluation. -/
def rowOf (ev : Evaluation) : List (String × Json) := (constraintRow ev).members

theorem tableOf_eq (h : Details report r) :
    tableOf report = Table.ofJson columnNames (.arr ((r.evaluations.map rowOf).map .obj)) := by
  rw [tableOf, h.rows, List.map_map]
  rfl

theorem cellsUnder_texts {name : String} (text : Evaluation → Option String)
    (h : ∀ ev, (rowOf ev).lookup name = some (textOr .null (text ev)))
    (evaluations : List Evaluation) :
    Table.cellsUnder (evaluations.map rowOf) name = (evaluations.map text).map (textOr .null) := by
  simp [Table.cellsUnder, h]

/-- The columns of texts, with the text of each evaluation. -/
def textColumns : List (String × (Evaluation → Option String)) :=
  [("constraintId", fun ev => some ev.constraint.label), ("ruleId", (·.constraint.ruleId)),
    ("type", fun ev => some ev.constraint.severity), ("status", fun ev => some ev.status.name),
    ("durationMs", fun _ => none)]

theorem lookup_rowOf_texts {name : String} {text : Evaluation → Option String}
    (h : (name, text) ∈ textColumns) (ev : Evaluation) :
    (rowOf ev).lookup name = some (textOr .null (text ev)) := by
  simp only [textColumns, List.mem_cons, List.not_mem_nil, or_false, Prod.mk.injEq] at h
  rcases h with ⟨rfl, rfl⟩ | ⟨rfl, rfl⟩ | ⟨rfl, rfl⟩ | ⟨rfl, rfl⟩ | ⟨rfl, rfl⟩ <;>
    simp [rowOf, constraintRow, Json.members, Json.lookup_cons_eq, textOr]

theorem cellsUnder_counts (evaluations : List Evaluation) :
    Table.cellsUnder (evaluations.map rowOf) "violations" = (countsOf evaluations).map .int := by
  simp [Table.cellsUnder, rowOf, constraintRow, Json.members, Json.lookup_cons_eq, countsOf]

theorem cellsUnder_penalties (evaluations : List Evaluation) :
    Table.cellsUnder (evaluations.map rowOf) "penalty" =
      (evaluations.map (·.penalty)).map .float := by
  simp [Table.cellsUnder, rowOf, constraintRow, Json.members, Json.lookup_cons_eq]

/-- The table can be made unless a count stands in the way. -/
theorem exists_tableOf_iff (h : Details report r) :
    (∃ t, tableOf report = .ok t) ↔ Listable [] (countsOf r.evaluations) := by
  have hcounts : (∃ column, ofCells (Table.cellsUnder (r.evaluations.map rowOf) "violations") =
      .ok column) ↔ Listable [] (countsOf r.evaluations) := by
    simp only [cellsUnder_counts, ofCells_whole_eq_ok_iff]
    exact ⟨fun ⟨_, hlist, _⟩ => hlist, fun hlist => ⟨_, hlist, rfl⟩⟩
  rw [tableOf_eq h, Table.exists_ofJson_iff, ← hcounts]
  refine ⟨fun hall => hall _ (by simp [columnNames]), fun hcounts name hname => ?_⟩
  have htext : ∀ text, (name, text) ∈ textColumns →
      ∃ column, ofCells (Table.cellsUnder (r.evaluations.map rowOf) name) = .ok column := by
    intro text hmem
    obtain ⟨_, _, -, hcells⟩ := exists_ofCells_texts (r.evaluations.map text)
    exact ⟨_, cellsUnder_texts text (lookup_rowOf_texts hmem) _ ▸ hcells⟩
  simp only [columnNames, List.mem_cons, List.not_mem_nil, or_false] at hname
  rcases hname with rfl | rfl | rfl | rfl | rfl | rfl | rfl
  · exact htext (fun ev => some ev.constraint.label) (by simp [textColumns])
  · exact htext (·.constraint.ruleId) (by simp [textColumns])
  · exact htext (fun ev => some ev.constraint.severity) (by simp [textColumns])
  · exact htext (fun ev => some ev.status.name) (by simp [textColumns])
  · exact hcounts
  · obtain ⟨_, hcells⟩ := exists_ofCells_doubles (r.evaluations.map (·.penalty))
    exact ⟨_, cellsUnder_penalties _ ▸ hcells⟩
  · exact htext (fun _ => none) (by simp [textColumns])

theorem tabulates_of_tableOf (h : Details report r) (ht : tableOf report = .ok t) :
    Tabulates r.evaluations t := by
  rw [tableOf_eq h] at ht
  have htext : ∀ name text, (name, text) ∈ textColumns → name ∈ columnNames →
      ∃ gap, isMissing gap = true ∧
        (t.column name).cells = r.evaluations.map fun ev => textOr gap (text ev) := by
    intro name text hmem hname
    obtain ⟨kind, gap, hgap, hcells⟩ := exists_ofCells_texts (r.evaluations.map text)
    have hcolumn := Table.ofCells_cellsUnder ht hname
    rw [cellsUnder_texts text (lookup_rowOf_texts hmem), hcells] at hcolumn
    exact ⟨gap, hgap, by rw [← Except.ok.inj hcolumn, List.map_map]; rfl⟩
  have hlabels := htext "constraintId" (fun ev => some ev.constraint.label) (by simp [textColumns])
    (by simp [columnNames])
  have hrules := htext "ruleId" (·.constraint.ruleId) (by simp [textColumns])
    (by simp [columnNames])
  have hseverities := htext "type" (fun ev => some ev.constraint.severity)
    (by simp [textColumns]) (by simp [columnNames])
  have htimes := htext "durationMs" (fun _ => none) (by simp [textColumns])
    (by simp [columnNames])
  have hcolumn : ∀ name ∈ columnNames,
      ofCells (Table.cellsUnder (r.evaluations.map rowOf) name) = .ok (t.column name) :=
    fun _ => Table.ofCells_cellsUnder ht
  have hcounts := hcolumn "violations" (by simp [columnNames])
  have hpenalties := hcolumn "penalty" (by simp [columnNames])
  obtain ⟨kind, hdoubles⟩ := exists_ofCells_doubles (r.evaluations.map (·.penalty))
  rw [cellsUnder_counts, ofCells_whole_eq_ok_iff] at hcounts
  rw [cellsUnder_penalties, hdoubles] at hpenalties
  refine ⟨?_, hrules, ?_, ?_, ?_, ?_⟩
  · obtain ⟨gap, -, hcells⟩ := hlabels
    exact hcells
  · obtain ⟨gap, -, hcells⟩ := hseverities
    exact hcells
  · rw [hcounts.2, countsOf, List.map_map]
    rfl
  · rw [← Except.ok.inj hpenalties, List.map_map]
    rfl
  · obtain ⟨gap, hgap, hcells⟩ := htimes
    intro cell hcell
    rw [hcells] at hcell
    obtain ⟨_, -, rfl⟩ := List.mem_map.mp hcell
    exact hgap

end Metrics
end LeagueAudit
