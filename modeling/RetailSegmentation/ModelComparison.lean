import Mathlib.Data.Prod.Lex
import RetailSegmentation.SegmentMigration

/-! Two segmentation runs side by side (`web/services/model_comparison.py`): what each gave the customers either of
them scored, compared label by label. -/

namespace RetailSegmentation.ModelComparison

open Grouping
open SegmentMigration (Raised orderedLabels)

def unassigned : String := "Unassigned"

inductive Agreement where
  | agree | disagree | onlyInFirst | onlyInSecond
  deriving DecidableEq, Repr

/-- How many customers each run put under one label. -/
structure LabelPopulation (F : Type) where
  label : Option String
  first : ℕ
  second : ℕ
  shareFirst : Option F
  shareSecond : Option F
  deriving DecidableEq, Repr

structure CustomerComparison (K : Type) where
  customerId : K
  name : String
  first : Option String
  second : Option String
  status : Agreement
  deriving DecidableEq, Repr

structure Comparison (K F : Type) where
  firstRunId : ℤ
  secondRunId : ℤ
  populations : List (LabelPopulation F)
  firstTotal : ℕ
  secondTotal : ℕ
  columnLabels : List String
  cells : Dict String (Dict String ℕ)
  customers : List (CustomerComparison K)
  compared : ℕ
  agree : ℕ
  disagree : ℕ
  onlyFirst : ℕ
  onlySecond : ℕ
  agreementRate : Option F
  deriving DecidableEq, Repr

/-- A run's rows: each customer, their name and the label they were given. -/
abbrev Rows (K : Type) := List (K × String × Option String)

/-- A run's rows by customer. -/
abbrev Indexed (K : Type) := Dict K (String × Option String)

section Compare

variable {K F : Type} [DecidableEq K] (str : K → String) (quotient : ℕ → ℕ → F) (ordinals : Dict String ℤ)

/-- One row goes into the index, which refuses a label outside the vocabulary and a customer it has already. -/
def indexRow (indexed : Indexed K) (row : K × String × Option String) : Except Raised (Indexed K) := do
  match row.2.2 with
  | some label =>
    if label ∉ ordinals.keys then throw (.valueError s!"Label '{label}' is not in the vocabulary.")
  | none => pure ()
  if row.1 ∈ indexed.keys then throw (.valueError s!"Customer {str row.1} appears twice in one run.")
  return indexed.put row.1 row.2

def index (rows : Rows K) : Except Raised (Indexed K) := rows.foldlM (indexRow str ordinals) []

def share (count total : ℕ) : Option F := if total = 0 then none else some (quotient count total)

def population (first second : Indexed K) (label : Option String) : LabelPopulation F :=
  let inFirst := (first.filter fun e => e.2.2 = label).length
  let inSecond := (second.filter fun e => e.2.2 = label).length
  ⟨label, inFirst, inSecond, share quotient inFirst first.length, share quotient inSecond second.length⟩

/-- `label or UNASSIGNED`. -/
def orUnassigned (label : Option String) : String :=
  let code := label.getD ""
  if code = "" then unassigned else code

/-- What the loop over the customers has counted and listed. -/
structure Tally (K : Type) where
  cells : Dict String (Dict String ℕ)
  customers : List (CustomerComparison K)
  agree : ℕ
  disagree : ℕ
  onlyFirst : ℕ
  onlySecond : ℕ

/-- One customer of either run. -/
def compareCustomer (first second : Indexed K) (tally : Tally K) (customerId : K) : Except String (Tally K) :=
  match first.lookup customerId, second.lookup customerId with
  | some (name, labelFirst), some (_, labelSecond) => do
    let cells ← adjust tally.cells (orUnassigned labelFirst) (orUnassigned labelSecond) (· + 1)
    if labelFirst = labelSecond then
      return { tally with
        cells
        agree := tally.agree + 1
        customers := tally.customers ++ [⟨customerId, name, labelFirst, labelSecond, .agree⟩] }
    else
      return { tally with
        cells
        disagree := tally.disagree + 1
        customers := tally.customers ++ [⟨customerId, name, labelFirst, labelSecond, .disagree⟩] }
  | some (name, labelFirst), none =>
    return { tally with
      onlyFirst := tally.onlyFirst + 1
      customers := tally.customers ++ [⟨customerId, name, labelFirst, none, .onlyInFirst⟩] }
  | none, some (name, labelSecond) =>
    return { tally with
      onlySecond := tally.onlySecond + 1
      customers := tally.customers ++ [⟨customerId, name, none, labelSecond, .onlyInSecond⟩] }
  | none, none => throw (str customerId)

/-- `set(first) | set(second)`. Its order does not show in the comparison: the customers are sorted. -/
def eitherRun (first second : Indexed K) : List K := (first.keys ++ second.keys).dedup

def columnLabels : List String := orderedLabels ordinals ++ [unassigned]

def compareRuns (firstRows secondRows : Rows K) (firstRunId secondRunId : ℤ) : Except Raised (Comparison K F) := do
  let first ← index str ordinals firstRows
  let second ← index str ordinals secondRows
  let columns := columnLabels ordinals
  let start : Tally K := ⟨grid columns columns fun _ _ => 0, [], 0, 0, 0, 0⟩
  match (eitherRun first second).foldlM (compareCustomer str first second) start with
  | .error key => throw (.keyError key)
  | .ok tally => return {
      firstRunId
      secondRunId
      populations := ((orderedLabels ordinals).map some ++ [none]).map (population quotient first second)
      firstTotal := first.length
      secondTotal := second.length
      columnLabels := columns
      cells := tally.cells
      customers := sortBy (fun c => toLex (c.name, str c.customerId)) tally.customers
      compared := tally.agree + tally.disagree
      agree := tally.agree
      disagree := tally.disagree
      onlyFirst := tally.onlyFirst
      onlySecond := tally.onlySecond
      agreementRate := share quotient tally.agree (tally.agree + tally.disagree) }

end Compare

/-! ### What is counted -/

section Counted

variable {K : Type} [DecidableEq K] {str : K → String} {ordinals : Dict String ℤ} {first second : Indexed K}

/-- The cell a customer is counted in, where both runs scored them. -/
def cellOf (first second : Indexed K) (c : K) : Option (String × String) :=
  (first.lookup c).bind fun l => (second.lookup c).map fun l' => (orUnassigned l.2, orUnassigned l'.2)

def statusOf (first second : Indexed K) (c : K) : Option Agreement :=
  match first.lookup c, second.lookup c with
  | some l, some l' => some (if l.2 = l'.2 then .agree else .disagree)
  | some _, none => some .onlyInFirst
  | none, some _ => some .onlyInSecond
  | none, none => none

/-- What the loop has counted of some customers, beside what it had before. -/
structure Counted (first second : Indexed K) (columns : List String) (g : String → String → ℕ) (cs : List K)
    (tally tally' : Tally K) : Prop where
  cells : tally'.cells = grid columns columns fun row column =>
    g row column + cs.countP fun c => cellOf first second c = some (row, column)
  agree : tally'.agree = tally.agree + cs.countP fun c => statusOf first second c = some .agree
  disagree : tally'.disagree = tally.disagree + cs.countP fun c => statusOf first second c = some .disagree
  onlyFirst : tally'.onlyFirst = tally.onlyFirst + cs.countP fun c => statusOf first second c = some .onlyInFirst
  onlySecond : tally'.onlySecond = tally.onlySecond + cs.countP fun c =>
    statusOf first second c = some .onlyInSecond

theorem adjust_count {columns : List String} (hcolumns : columns.Nodup) {row column : String}
    (hrow : row ∈ columns)
    (hcolumn : column ∈ columns) (g : String → String → ℕ) : adjust (grid columns columns g) row column (· + 1) =
      .ok (grid columns columns fun r c => g r c + if (row, column) = (r, c) then 1 else 0) := by
  rw [adjust_grid hcolumns hcolumns hrow hcolumn]
  congr 2
  funext r c
  rw [update_update]
  split_ifs with h
  · obtain ⟨rfl, rfl⟩ := Prod.mk.inj h
    rfl
  · rfl

theorem compareCustomer_ok {columns : List String} (hcolumns : columns.Nodup) {tally : Tally K}
    {g : String → String → ℕ} (htally : tally.cells = grid columns columns g) {c : K}
    (hknown : c ∈ first.keys ∨ c ∈ second.keys)
    (hcell : ∀ row column, cellOf first second c = some (row, column) → row ∈ columns ∧ column ∈ columns) :
    ∃ tally', compareCustomer str first second tally c = .ok tally' ∧
      Counted first second columns g [c] tally tally' := by
  unfold compareCustomer
  cases hfirst : first.lookup c with
  | none =>
      cases hsecond : second.lookup c with
      | none =>
          have hmissing : ∀ d : Indexed K, d.lookup c = none → c ∉ d.keys := fun d hd hmem => by
            obtain ⟨v, hv⟩ := exists_lookup hmem
            rw [hd] at hv
            cases hv
          exact absurd hknown (not_or.mpr ⟨hmissing _ hfirst, hmissing _ hsecond⟩)
      | some l' =>
          exact ⟨_, rfl, by simp [cellOf, hfirst, htally], by simp [statusOf, hfirst, hsecond],
            by simp [statusOf, hfirst, hsecond], by simp [statusOf, hfirst, hsecond],
            by simp [statusOf, hfirst, hsecond]⟩
  | some l =>
      cases hsecond : second.lookup c with
      | none =>
          exact ⟨_, rfl, by simp [cellOf, hfirst, hsecond, htally], by simp [statusOf, hfirst, hsecond],
            by simp [statusOf, hfirst, hsecond], by simp [statusOf, hfirst, hsecond],
            by simp [statusOf, hfirst, hsecond]⟩
      | some l' =>
          obtain ⟨hrow, hcolumn⟩ := hcell (orUnassigned l.2) (orUnassigned l'.2) (by simp [cellOf, hfirst, hsecond])
          have hcells : adjust tally.cells (orUnassigned l.2) (orUnassigned l'.2) (· + 1) =
              .ok (grid columns columns fun row column =>
                g row column + [c].countP fun c => cellOf first second c = some (row, column)) := by
            rw [htally, adjust_count hcolumns hrow hcolumn]
            simp [cellOf, hfirst, hsecond, List.countP_cons]
          by_cases hsame : l.2 = l'.2
          · simp only [hcells, if_pos hsame, bind, Except.bind]
            exact ⟨_, rfl, rfl, by simp [statusOf, hfirst, hsecond, hsame], by simp [statusOf, hfirst, hsecond, hsame],
              by simp [statusOf, hfirst, hsecond, hsame], by simp [statusOf, hfirst, hsecond, hsame]⟩
          · simp only [hcells, if_neg hsame, bind, Except.bind]
            exact ⟨_, rfl, rfl, by simp [statusOf, hfirst, hsecond, hsame], by simp [statusOf, hfirst, hsecond, hsame],
              by simp [statusOf, hfirst, hsecond, hsame], by simp [statusOf, hfirst, hsecond, hsame]⟩

theorem compareCustomers_ok {columns : List String} (hcolumns : columns.Nodup) {cs : List K}
    (hknown : ∀ c ∈ cs, c ∈ first.keys ∨ c ∈ second.keys)
    (hcell : ∀ c ∈ cs, ∀ row column, cellOf first second c = some (row, column) → row ∈ columns ∧ column ∈ columns)
    {tally : Tally K} {g : String → String → ℕ} (htally : tally.cells = grid columns columns g) :
    ∃ tally', cs.foldlM (compareCustomer str first second) tally = .ok tally' ∧
      Counted first second columns g cs tally tally' := by
  induction cs generalizing tally g with
  | nil => exact ⟨tally, rfl, htally, rfl, rfl, rfl, rfl⟩
  | cons c cs ih =>
      obtain ⟨hc, hcs⟩ := List.forall_mem_cons.mp hknown
      obtain ⟨hcellc, hcellcs⟩ := List.forall_mem_cons.mp hcell
      obtain ⟨tally₁, hone, hcounted⟩ := @compareCustomer_ok K _ str first second columns hcolumns tally g htally c hc hcellc
      obtain ⟨tally₂, hrest, hcounteds⟩ := ih hcs hcellcs hcounted.cells
      have hsum : ∀ p : K → Bool, cs.countP p + [c].countP p = (c :: cs).countP p := fun p => by
        rw [List.countP_cons, List.countP_cons, List.countP_nil, Nat.zero_add]
      refine ⟨tally₂, ?_, ?_, ?_, ?_, ?_, ?_⟩
      · rw [List.foldlM_cons, hone]
        exact hrest
      · rw [hcounteds.cells]
        congr 1
        funext row column
        rw [← hsum, Nat.add_assoc, Nat.add_comm (List.countP _ cs)]
      · rw [hcounteds.agree, hcounted.agree, ← hsum, Nat.add_assoc, Nat.add_comm (List.countP _ cs)]
      · rw [hcounteds.disagree, hcounted.disagree, ← hsum, Nat.add_assoc, Nat.add_comm (List.countP _ cs)]
      · rw [hcounteds.onlyFirst, hcounted.onlyFirst, ← hsum, Nat.add_assoc, Nat.add_comm (List.countP _ cs)]
      · rw [hcounteds.onlySecond, hcounted.onlySecond, ← hsum, Nat.add_assoc, Nat.add_comm (List.countP _ cs)]

/-- A run's rows are their own index, where no customer is there twice and every label is in the vocabulary. -/
theorem index_ok {rows : Rows K} (hids : (rows.map Prod.fst).Nodup)
    (hlabels : ∀ row ∈ rows, ∀ label, row.2.2 = some label → label ∈ ordinals.keys) :
    index str ordinals rows = .ok rows := by
  have hstep : ∀ (before : Indexed K) (row : K × String × Option String), row.1 ∉ before.keys →
      (∀ label, row.2.2 = some label → label ∈ ordinals.keys) →
      indexRow str ordinals before row = .ok (before ++ [row]) := fun before row hnew hknown => by
    have hput : before.put row.1 row.2 = before ++ [row] := change_new hnew
    unfold indexRow
    cases hlabel : row.2.2 with
    | none =>
        simp only [if_neg hnew, hput, bind, Except.bind]
        rfl
    | some label =>
        simp only [if_neg (not_not.mpr (hknown label hlabel)), if_neg hnew, hput, bind, Except.bind]
        rfl
  have hrun : ∀ (before : Indexed K) (rows : Rows K), (before ++ rows).keys.Nodup →
      (∀ row ∈ rows, ∀ label, row.2.2 = some label → label ∈ ordinals.keys) →
      rows.foldlM (indexRow str ordinals) before = .ok (before ++ rows) := fun before rows => by
    induction rows generalizing before with
    | nil => exact fun _ _ => congrArg Except.ok (List.append_nil before).symm
    | cons row rows ih =>
        intro hkeys hknown
        obtain ⟨hrow, hrows⟩ := List.forall_mem_cons.mp hknown
        have hnew : row.1 ∉ before.keys := fun hmem => by
          unfold Dict.keys at hkeys
          rw [List.map_append, List.nodup_append] at hkeys
          exact hkeys.2.2 row.1 hmem row.1 List.mem_cons_self rfl
        rw [List.foldlM_cons, hstep before row hnew hrow]
        refine (ih (before ++ [row]) (by rwa [List.append_assoc]) hrows).trans ?_
        rw [List.append_assoc]
        rfl
  exact hrun [] rows hids hlabels

end Counted

/-! ### The comparison -/

section Compared

variable {K F : Type} [DecidableEq K] {str : K → String} {quotient : ℕ → ℕ → F} {ordinals : Dict String ℤ}
  {firstRows secondRows : Rows K} {firstRunId secondRunId : ℤ}

theorem mem_columnLabels {x : String} : x ∈ columnLabels ordinals ↔ x ∈ ordinals.keys ∨ x = unassigned := by
  unfold columnLabels
  rw [List.mem_append, SegmentMigration.orderedLabels_perm.mem_iff, List.mem_singleton]

theorem nodup_columnLabels (hordinals : ordinals.keys.Nodup) (hunassigned : unassigned ∉ ordinals.keys) :
    (columnLabels ordinals).Nodup := by
  refine List.nodup_append.mpr ⟨SegmentMigration.orderedLabels_perm.nodup_iff.mpr hordinals,
    List.nodup_singleton _, fun x hx y hy => ?_⟩
  obtain rfl := List.mem_singleton.mp hy
  exact fun h => hunassigned (h ▸ SegmentMigration.orderedLabels_perm.mem_iff.mp hx)

theorem orUnassigned_mem {label : Option String} (hlabel : ∀ code, label = some code → code ∈ ordinals.keys) :
    orUnassigned label ∈ columnLabels ordinals := by
  rw [mem_columnLabels]
  unfold orUnassigned
  cases label with
  | none => exact .inr rfl
  | some code =>
      by_cases hempty : code = ""
      · exact .inr (if_pos hempty)
      · exact .inl (by simpa [hempty] using hlabel code rfl)

/-- What a comparison has counted of the customers of either run. -/
structure Compares (ordinals : Dict String ℤ) (firstRows secondRows : Rows K)
    (comparison : Comparison K F) : Prop where
  cells : ∀ row ∈ columnLabels ordinals, ∀ column ∈ columnLabels ordinals,
    (comparison.cells.at row []).at column 0 =
      (eitherRun firstRows secondRows).countP fun c => cellOf firstRows secondRows c = some (row, column)
  agree : comparison.agree = (eitherRun firstRows secondRows).countP fun c =>
    statusOf firstRows secondRows c = some .agree
  onlyFirst : comparison.onlyFirst = (eitherRun firstRows secondRows).countP fun c =>
    statusOf firstRows secondRows c = some .onlyInFirst
  onlySecond : comparison.onlySecond = (eitherRun firstRows secondRows).countP fun c =>
    statusOf firstRows secondRows c = some .onlyInSecond

theorem compareRuns_ok (hordinals : ordinals.keys.Nodup) (hunassigned : unassigned ∉ ordinals.keys)
    (hfirst : (firstRows.map Prod.fst).Nodup) (hsecond : (secondRows.map Prod.fst).Nodup)
    (hfirstLabels : ∀ row ∈ firstRows, ∀ label, row.2.2 = some label → label ∈ ordinals.keys)
    (hsecondLabels : ∀ row ∈ secondRows, ∀ label, row.2.2 = some label → label ∈ ordinals.keys) :
    ∃ comparison, compareRuns str quotient ordinals firstRows secondRows firstRunId secondRunId = .ok comparison ∧
      Compares ordinals firstRows secondRows comparison := by
  have hcolumns := nodup_columnLabels hordinals hunassigned
  have hknown : ∀ c ∈ eitherRun firstRows secondRows, c ∈ Dict.keys firstRows ∨ c ∈ Dict.keys secondRows :=
    fun c hc => List.mem_append.mp (List.mem_dedup.mp hc)
  have hcell : ∀ c ∈ eitherRun firstRows secondRows, ∀ row column,
      cellOf firstRows secondRows c = some (row, column) →
      row ∈ columnLabels ordinals ∧ column ∈ columnLabels ordinals := fun c _ row column hc => by
    obtain ⟨l, hl, hrest⟩ := Option.bind_eq_some_iff.mp hc
    obtain ⟨l', hl', heq⟩ := Option.map_eq_some_iff.mp hrest
    obtain ⟨rfl, rfl⟩ := Prod.mk.inj heq
    exact ⟨orUnassigned_mem fun code => hfirstLabels _ (mem_of_lookup hl) code,
      orUnassigned_mem fun code => hsecondLabels _ (mem_of_lookup hl') code⟩
  obtain ⟨tally, htally, hcounted⟩ := @compareCustomers_ok K _ str firstRows secondRows _ hcolumns _ hknown hcell
    ⟨grid (columnLabels ordinals) (columnLabels ordinals) fun _ _ => 0, [], 0, 0, 0, 0⟩ (fun _ _ => 0) rfl
  unfold compareRuns
  simp only [index_ok hfirst hfirstLabels, index_ok hsecond hsecondLabels, htally, bind, Except.bind]
  refine ⟨_, rfl, fun row hrow column hcolumn => ?_, ?_, ?_, ?_⟩
  · change (tally.cells.at row []).at column 0 = _
    rw [hcounted.cells, at_grid hcolumns hcolumns hrow hcolumn, Nat.zero_add]
  · exact hcounted.agree.trans (Nat.zero_add _)
  · exact hcounted.onlyFirst.trans (Nat.zero_add _)
  · exact hcounted.onlySecond.trans (Nat.zero_add _)

end Compared
end RetailSegmentation.ModelComparison
