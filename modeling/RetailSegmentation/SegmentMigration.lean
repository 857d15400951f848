import Mathlib.Data.String.Basic
import RetailSegmentation.GroupedRows

/-! Segment migration between two runs (`web/services/segment_migration.py`): how every customer of either run
is classified, and the matrix that counts them by their earlier and their later label. -/

namespace RetailSegmentation.SegmentMigration

open Grouping

inductive MigrationCategory where
  | unchanged | moved | newlyAssigned | newlyUnassigned | absentFromEarlier | absentFromLater
  deriving DecidableEq, Repr

inductive Direction where
  | improved | declined
  deriving DecidableEq, Repr

structure CustomerMigration (K : Type) where
  customerId : K
  labelBefore : Option String
  labelAfter : Option String
  category : MigrationCategory
  direction : Option Direction
  deriving DecidableEq, Repr

inductive Raised where
  | valueError (message : String)
  | keyError (key : String)
  deriving DecidableEq, Repr

/-- `ordinals[label]`, whose absence fails loudly. -/
def rankOf (ordinals : Dict String ℤ) (label : String) : Except Raised ℤ :=
  match ordinals.item label with
  | .ok rank => return rank
  | .error missing => throw (.valueError s!"Label '{missing}' is not in the vocabulary.")

/-- The classification of two labels and two presence flags. -/
def classify (labelBefore labelAfter : Option String) (inRunA inRunB : Bool) (ordinals : Dict String ℤ) :
    Except Raised (MigrationCategory × Option Direction) := do
  if !inRunA then return (.absentFromEarlier, none)
  if !inRunB then return (.absentFromLater, none)
  match labelBefore, labelAfter with
  | none, none => return (.unchanged, none)
  | none, some _ => return (.newlyAssigned, none)
  | some _, none => return (.newlyUnassigned, none)
  | some before, some after =>
    if before = after then return (.unchanged, none)
    let beforeRank ← rankOf ordinals before
    let afterRank ← rankOf ordinals after
    return (.moved, some (if afterRank < beforeRank then .improved else .declined))

section Classify

variable {K : Type} [DecidableEq K] (str : K → String) (labelsA labelsB : Dict K (Option String))
  (ordinals : Dict String ℤ)

def classifyCustomer (customerId : K) : Except Raised (CustomerMigration K) := do
  let (category, direction) ← classify (labelsA.at customerId none) (labelsB.at customerId none)
    (customerId ∈ labelsA.keys) (customerId ∈ labelsB.keys) ordinals
  return ⟨customerId, labelsA.at customerId none, labelsB.at customerId none, category, direction⟩

/-- `set(labels_a) | set(labels_b)`. -/
def allCustomers : List K := (labelsA.keys ++ labelsB.keys).dedup

/-- Classify every customer of the earlier run (`labelsA`) or of the later one. -/
def classifyMigration : Except Raised (List (CustomerMigration K)) :=
  (sortBy str (allCustomers labelsA labelsB)).mapM (classifyCustomer labelsA labelsB ordinals)

end Classify

/-! ### The matrix -/

def unassigned : String := "Unassigned"

def notInEarlier : String := "Not in earlier run"

def notInLater : String := "Not in later run"

structure MigrationMatrix (K : Type) where
  rowLabels : List String
  columnLabels : List String
  cells : Dict String (Dict String ℕ)
  rowTotals : Dict String ℕ
  columnTotals : Dict String ℕ
  cellMigrations : Dict String (Dict String (List (CustomerMigration K)))
  deriving DecidableEq, Repr

section Matrix

variable {K : Type}

def rowLabel (migration : CustomerMigration K) : String :=
  if migration.category = .absentFromEarlier then notInEarlier else migration.labelBefore.getD unassigned

def columnLabel (migration : CustomerMigration K) : String :=
  if migration.category = .absentFromLater then notInLater else migration.labelAfter.getD unassigned

def migrationCellLabels (migration : CustomerMigration K) : String × String :=
  (rowLabel migration, columnLabel migration)

/-- The labels, best first. -/
def orderedLabels (ordinals : Dict String ℤ) : List String := (sortBy Prod.snd ordinals).map Prod.fst

def sideLabels (ordinals : Dict String ℤ) (absent : String) : List String :=
  orderedLabels ordinals ++ [unassigned, absent]

/-- The counts, and the members behind them. -/
abbrev Cells (K : Type) := Dict String (Dict String ℕ) × Dict String (Dict String (List (CustomerMigration K)))

def countMigration (table : Cells K) (migration : CustomerMigration K) : Except String (Cells K) := do
  let (row, column) := migrationCellLabels migration
  let cells ← adjust table.1 row column (· + 1)
  let members ← adjust table.2 row column (· ++ [migration])
  return (cells, members)

def buildMigrationMatrix (migrations : List (CustomerMigration K)) (ordinals : Dict String ℤ) :
    Except Raised (MigrationMatrix K) :=
  let rowLabels := sideLabels ordinals notInEarlier
  let columnLabels := sideLabels ordinals notInLater
  let start : Cells K := (grid rowLabels columnLabels fun _ _ => 0, grid rowLabels columnLabels fun _ _ => [])
  match migrations.foldlM countMigration start with
  | .error key => throw (.keyError key)
  | .ok (cells, cellMigrations) => return {
      rowLabels
      columnLabels
      cells
      rowTotals := .of rowLabels fun row => ((cells.at row []).map Prod.snd).sum
      columnTotals := .of columnLabels fun column => (rowLabels.map fun row => (cells.at row []).at column 0).sum
      cellMigrations }

end Matrix

/-! ### What each customer is classified as -/

section Classified

variable {K : Type} [DecidableEq K] {str : K → String} {labelsA labelsB : Dict K (Option String)}
  {ordinals : Dict String ℤ}

theorem rankOf_known {label : String} (h : label ∈ ordinals.keys) :
    rankOf ordinals label = .ok (ordinals.at label 0) := by
  obtain ⟨rank, hrank⟩ := exists_lookup h
  unfold rankOf Dict.item Dict.at
  rw [hrank]
  rfl

/-- What is true of a customer's classification. -/
structure Classified (labelsA labelsB : Dict K (Option String)) (ordinals : Dict String ℤ)
    (migration : CustomerMigration K) : Prop where
  before : migration.labelBefore = labelsA.at migration.customerId none
  after : migration.labelAfter = labelsB.at migration.customerId none
  earlier : migration.category = .absentFromEarlier ↔ migration.customerId ∉ labelsA.keys
  later : migration.category = .absentFromLater ↔ migration.customerId ∉ labelsB.keys
  moved : migration.category = .moved → ∃ before after, migration.labelBefore = some before ∧
    migration.labelAfter = some after ∧ before ≠ after ∧
      (migration.direction = some .improved ↔ ordinals.at after 0 < ordinals.at before 0)

/-- Every label of a run is in the vocabulary. -/
def Labelled (labels : Dict K (Option String)) (ordinals : Dict String ℤ) : Prop :=
  ∀ e ∈ labels, ∀ label, e.2 = some label → label ∈ ordinals.keys

theorem Labelled.at (h : Labelled labelsA ordinals) {c : K} {label : String}
    (hlabel : labelsA.at c none = some label) : label ∈ ordinals.keys := by
  by_cases hc : c ∈ labelsA.keys
  · obtain ⟨v, hv⟩ := exists_lookup hc
    unfold Dict.at at hlabel
    rw [hv] at hlabel
    exact h _ (mem_of_lookup hv) label hlabel
  · unfold Dict.at at hlabel
    rw [lookup_eq_none hc] at hlabel
    cases hlabel

/-- What is true of a category and a direction, whatever the customer. -/
structure Decided (ordinals : Dict String ℤ) (before after : Option String) (inRunA inRunB : Bool)
    (category : MigrationCategory) (direction : Option Direction) : Prop where
  earlier : category = .absentFromEarlier ↔ inRunA = false
  later : category = .absentFromLater ↔ inRunA = true ∧ inRunB = false
  moved : category = .moved → ∃ x y, before = some x ∧ after = some y ∧ x ≠ y ∧
    (direction = some .improved ↔ ordinals.at y 0 < ordinals.at x 0)

omit [DecidableEq K] in
theorem classify_moved {x y : String} (hx : x ∈ ordinals.keys) (hy : y ∈ ordinals.keys) (hne : x ≠ y) :
    classify (some x) (some y) true true ordinals =
      .ok (.moved, some (if ordinals.at y 0 < ordinals.at x 0 then .improved else .declined)) := by
  unfold classify
  simp only [if_neg hne, rankOf_known hx, rankOf_known hy]
  rfl

theorem classify_ok {before after : Option String} (hbefore : ∀ x, before = some x → x ∈ ordinals.keys)
    (hafter : ∀ y, after = some y → y ∈ ordinals.keys) (inRunA inRunB : Bool) : ∃ category direction,
      classify before after inRunA inRunB ordinals = .ok (category, direction) ∧
        Decided ordinals before after inRunA inRunB category direction := by
  cases inRunA with
  | false => exact ⟨_, _, rfl, ⟨by simp, by simp, fun h => by cases h⟩⟩
  | true =>
      cases inRunB with
      | false => exact ⟨_, _, rfl, ⟨by simp, by simp, fun h => by cases h⟩⟩
      | true =>
          cases before with
          | none => cases after <;> exact ⟨_, _, rfl, ⟨by simp, by simp, fun h => by cases h⟩⟩
          | some x =>
              cases after with
              | none => exact ⟨_, _, rfl, ⟨by simp, by simp, fun h => by cases h⟩⟩
              | some y =>
                  by_cases hxy : x = y
                  · refine ⟨.unchanged, none, ?_, ⟨by simp, by simp, fun h => by cases h⟩⟩
                    unfold classify
                    simp only [if_pos hxy]
                    rfl
                  · refine ⟨_, _, classify_moved (hbefore x rfl) (hafter y rfl) hxy,
                      ⟨by simp, by simp, fun _ => ?_⟩⟩
                    refine ⟨x, y, rfl, rfl, hxy, ?_⟩
                    split_ifs with hlt
                    · exact ⟨fun _ => hlt, fun _ => rfl⟩
                    · exact ⟨fun h => (by cases h), fun h => absurd h hlt⟩

theorem classifyCustomer_ok (hA : Labelled labelsA ordinals) (hB : Labelled labelsB ordinals) {c : K}
    (hc : c ∈ labelsA.keys ∨ c ∈ labelsB.keys) : ∃ migration,
      classifyCustomer labelsA labelsB ordinals c = .ok migration ∧ migration.customerId = c ∧
        Classified labelsA labelsB ordinals migration := by
  obtain ⟨category, direction, hok, hdecided⟩ := classify_ok (fun x => hA.at) (fun y => hB.at)
    (decide (c ∈ labelsA.keys)) (decide (c ∈ labelsB.keys))
  refine ⟨⟨c, labelsA.at c none, labelsB.at c none, category, direction⟩, ?_, rfl,
    ⟨rfl, rfl, ?_, ?_, hdecided.moved⟩⟩
  · unfold classifyCustomer
    rw [hok]
    rfl
  · rw [hdecided.earlier, decide_eq_false_iff_not]
  · rw [hdecided.later, decide_eq_true_eq, decide_eq_false_iff_not]
    exact and_iff_right_of_imp fun hnot => hc.resolve_right hnot

theorem mem_allCustomers {c : K} : c ∈ allCustomers labelsA labelsB ↔ c ∈ labelsA.keys ∨ c ∈ labelsB.keys := by
  unfold allCustomers
  rw [List.mem_dedup, List.mem_append]

theorem classifyMigration_ok (hA : Labelled labelsA ordinals) (hB : Labelled labelsB ordinals) : ∃ migrations,
    classifyMigration str labelsA labelsB ordinals = .ok migrations ∧
      migrations.map CustomerMigration.customerId = sortBy str (allCustomers labelsA labelsB) ∧
      ∀ migration ∈ migrations, Classified labelsA labelsB ordinals migration :=
  mapM_fits fun _ hc => classifyCustomer_ok hA hB (mem_allCustomers.mp ((perm_sortBy str _).mem_iff.mp hc))

end Classified

/-! ### What the matrix counts -/

section Counted

variable {K : Type} {rows columns : List String} (hrows : rows.Nodup) (hcolumns : columns.Nodup)

include hrows hcolumns

theorem countMigration_grid {migration : CustomerMigration K} (hrow : rowLabel migration ∈ rows)
    (hcolumn : columnLabel migration ∈ columns) (g : String → String → ℕ)
    (g' : String → String → List (CustomerMigration K)) :
    countMigration (grid rows columns g, grid rows columns g') migration =
      .ok (grid rows columns fun r c => g r c + if (rowLabel migration, columnLabel migration) = (r, c) then 1 else 0,
        grid rows columns fun r c =>
          g' r c ++ if (rowLabel migration, columnLabel migration) = (r, c) then [migration] else []) := by
  unfold countMigration migrationCellLabels
  simp only [adjust_grid hrows hcolumns hrow hcolumn, bind, Except.bind]
  congr 3
  · funext r c
    rw [update_update]
    split_ifs with h
    · obtain ⟨rfl, rfl⟩ := Prod.mk.inj h
      rfl
    · rfl
  · funext r c
    rw [update_update]
    split_ifs with h
    · obtain ⟨rfl, rfl⟩ := Prod.mk.inj h
      rfl
    · exact (List.append_nil _).symm

theorem countMigrations {migrations : List (CustomerMigration K)}
    (h : ∀ migration ∈ migrations, rowLabel migration ∈ rows ∧ columnLabel migration ∈ columns)
    (g : String → String → ℕ) (g' : String → String → List (CustomerMigration K)) :
    migrations.foldlM countMigration (grid rows columns g, grid rows columns g') =
      .ok (grid rows columns fun r c => g r c + (migrations.filter fun m => (rowLabel m, columnLabel m) = (r, c)).length,
        grid rows columns fun r c => g' r c ++ migrations.filter fun m =>
          (rowLabel m, columnLabel m) = (r, c)) := by
  induction migrations generalizing g g' with
  | nil => simp only [List.filter_nil, List.length_nil, Nat.add_zero, List.append_nil]; rfl
  | cons migration migrations ih =>
      obtain ⟨⟨hrow, hcolumn⟩, hrest⟩ := List.forall_mem_cons.mp h
      have hfilter : ∀ r c, (migration :: migrations).filter (fun m => (rowLabel m, columnLabel m) = (r, c)) =
          (if (rowLabel migration, columnLabel migration) = (r, c) then [migration] else []) ++
            migrations.filter fun m => (rowLabel m, columnLabel m) = (r, c) := by
        intro r c
        rw [List.filter_cons]
        simp only [decide_eq_true_eq]
        split_ifs <;> rfl
      rw [List.foldlM_cons, countMigration_grid hrows hcolumns hrow hcolumn]
      refine (ih hrest _ _).trans ?_
      congr 3
      · funext r c
        rw [hfilter, List.length_append, Nat.add_assoc]
        congr 2
        split_ifs <;> rfl
      · funext r c
        rw [hfilter, List.append_assoc]

omit hrows in
theorem sum_row {migrations : List (CustomerMigration K)} (h : ∀ m ∈ migrations, columnLabel m ∈ columns)
    (r : String) :
    (columns.map fun c => (migrations.filter fun m => (rowLabel m, columnLabel m) = (r, c)).length).sum =
      (migrations.filter fun m => rowLabel m = r).length := by
  rw [← sum_filter_key hcolumns fun m hm => h m (List.mem_of_mem_filter hm)]
  refine congrArg List.sum (List.map_congr_left fun c _ => congrArg List.length ?_)
  rw [List.filter_filter]
  refine List.filter_congr fun m _ => ?_
  simp only [Prod.mk.injEq, Bool.decide_and, Bool.and_comm]

omit hcolumns in
theorem sum_column {migrations : List (CustomerMigration K)} (h : ∀ m ∈ migrations, rowLabel m ∈ rows)
    (c : String) :
    (rows.map fun r => (migrations.filter fun m => (rowLabel m, columnLabel m) = (r, c)).length).sum =
      (migrations.filter fun m => columnLabel m = c).length := by
  rw [← sum_filter_key hrows fun m hm => h m (List.mem_of_mem_filter hm)]
  refine congrArg List.sum (List.map_congr_left fun r _ => congrArg List.length ?_)
  rw [List.filter_filter]
  exact List.filter_congr fun m _ => by simp only [Prod.mk.injEq, Bool.decide_and]

end Counted

/-! ### The margins -/

section Margins

variable {K : Type} [DecidableEq K] {ordinals : Dict String ℤ} {migrations : List (CustomerMigration K)}

/-- The customers a run gave a label, or left unassigned. -/
def given (labels : Dict K (Option String)) (label : Option String) : ℕ :=
  (labels.filter fun e => e.2 = label).length

theorem named_iff {labels : Dict K (Option String)} (hkeys : labels.keys.Nodup)
    (hlabels : Labelled labels ordinals)
    {absent : String} (hunassigned : unassigned ∉ ordinals.keys) (habsent : absent ∉ ordinals.keys)
    (hne : absent ≠ unassigned) {label : Option String} (hlabel : ∀ l,
      label = some l → l ∈ ordinals.keys) (c : K) :
    (if c ∈ labels.keys then (labels.at c none).getD unassigned else absent) = label.getD unassigned ↔
      (c, label) ∈ labels := by
  rw [← lookup_eq_some hkeys]
  by_cases hc : c ∈ labels.keys
  · obtain ⟨v, hv⟩ := exists_lookup hc
    have hat : labels.at c none = v := by
      unfold Dict.at
      rw [hv]
      rfl
    rw [if_pos hc, hv, hat, Option.some.injEq]
    cases v with
    | none =>
        cases label with
        | none => simp
        | some l => simpa using fun h : unassigned = l => hunassigned (h ▸ hlabel l rfl)
    | some x =>
        have hx : x ∈ ordinals.keys := hlabels.at hat
        cases label with
        | none => simpa using fun h : x = unassigned => hunassigned (h ▸ hx)
        | some l => simp
  · rw [if_neg hc, lookup_eq_none hc]
    cases label with
    | none => simpa using hne
    | some l => simpa using fun h : absent = l => habsent (h ▸ hlabel l rfl)

theorem count_named {labels : Dict K (Option String)} (hkeys : labels.keys.Nodup)
    (hlabels : Labelled labels ordinals)
    {absent : String} (hunassigned : unassigned ∉ ordinals.keys) (habsent : absent ∉ ordinals.keys)
    (hne : absent ≠ unassigned) {label : Option String} (hlabel : ∀ l, label = some l → l ∈ ordinals.keys)
    (hids : (migrations.map CustomerMigration.customerId).Nodup)
    (hall : ∀ c ∈ labels.keys, c ∈ migrations.map CustomerMigration.customerId)
    {name : CustomerMigration K → String} (hname : ∀ m ∈ migrations,
      name m = if m.customerId ∈ labels.keys then (labels.at m.customerId none).getD unassigned else absent) :
    (migrations.filter fun m => name m = label.getD unassigned).length = given labels label := by
  have hnamed := named_iff hkeys hlabels hunassigned habsent hne hlabel
  have hperm : ((migrations.filter fun m => name m = label.getD unassigned).map CustomerMigration.customerId).Perm
      ((labels.filter fun e => e.2 = label).map Prod.fst) := by
    refine (List.perm_ext_iff_of_nodup (hids.sublist (List.filter_sublist.map _))
      (List.Nodup.sublist (List.filter_sublist.map _) hkeys)).mpr fun c => ?_
    simp only [List.mem_map, List.mem_filter, decide_eq_true_eq]
    constructor
    · rintro ⟨m, ⟨hm, hmname⟩, rfl⟩
      exact ⟨_, ⟨(hnamed m.customerId).mp ((hname m hm).symm.trans hmname), rfl⟩, rfl⟩
    · rintro ⟨e, ⟨he, rfl⟩, rfl⟩
      obtain ⟨m, hm, hid⟩ := List.mem_map.mp (hall e.1 (List.mem_map_of_mem he))
      refine ⟨m, ⟨hm, (hname m hm).trans ?_⟩, hid⟩
      rw [hid]
      exact (hnamed e.1).mpr he
  have hlength := hperm.length_eq
  rwa [List.length_map, List.length_map] at hlength

omit [DecidableEq K] in
theorem orderedLabels_perm : (orderedLabels ordinals).Perm ordinals.keys :=
  (perm_sortBy Prod.snd ordinals).map Prod.fst

omit [DecidableEq K] in
theorem mem_sideLabels {absent x : String} :
    x ∈ sideLabels ordinals absent ↔ x ∈ ordinals.keys ∨ x = unassigned ∨ x = absent := by
  unfold sideLabels
  rw [List.mem_append, orderedLabels_perm.mem_iff, List.mem_cons, List.mem_singleton]

omit [DecidableEq K] in
theorem nodup_sideLabels (hordinals : ordinals.keys.Nodup) {absent : String}
    (hunassigned : unassigned ∉ ordinals.keys)
    (habsent : absent ∉ ordinals.keys) (hne : absent ≠ unassigned) : (sideLabels ordinals absent).Nodup := by
  refine List.nodup_append.mpr ⟨orderedLabels_perm.nodup_iff.mpr hordinals, by simpa using hne.symm, ?_⟩
  intro x hx y hy
  rw [orderedLabels_perm.mem_iff] at hx
  obtain rfl | rfl := List.mem_pair.mp hy
  · exact fun h => hunassigned (h ▸ hx)
  · exact fun h => habsent (h ▸ hx)

theorem name_mem_sideLabels {labels : Dict K (Option String)} (hlabels : Labelled labels ordinals)
    {absent : String}
    (c : K) : (if c ∈ labels.keys then (labels.at c none).getD unassigned else absent) ∈ sideLabels ordinals absent := by
  rw [mem_sideLabels]
  split_ifs with hc
  · cases hat : labels.at c none with
    | none => exact .inr (.inl rfl)
    | some l => exact .inl (hlabels.at hat)
  · exact .inr (.inr rfl)

/-- What the matrix's margins and cells are. -/
structure Reconciles (labelsA labelsB : Dict K (Option String)) (ordinals : Dict String ℤ)
    (matrix : MigrationMatrix K) : Prop where
  rows : ∀ label ∈ ordinals.keys, matrix.rowTotals.at label 0 = given labelsA (some label)
  unassignedRow : matrix.rowTotals.at unassigned 0 = given labelsA none
  columns : ∀ label ∈ ordinals.keys, matrix.columnTotals.at label 0 = given labelsB (some label)
  unassignedColumn : matrix.columnTotals.at unassigned 0 = given labelsB none
  total : (matrix.cells.map fun row => (row.2.map Prod.snd).sum).sum = (allCustomers labelsA labelsB).length
  cells : ∀ row ∈ matrix.rowLabels, ∀ column ∈ matrix.columnLabels,
    (matrix.cells.at row []).at column 0 = ((matrix.cellMigrations.at row []).at column []).length

end Margins

/-! ### Reconciliation -/

section Reconciliation

variable {K : Type} [DecidableEq K] {str : K → String} {labelsA labelsB : Dict K (Option String)}
  {ordinals : Dict String ℤ} {migrations : List (CustomerMigration K)}

theorem rowLabel_eq {m : CustomerMigration K} (h : Classified labelsA labelsB ordinals m) : rowLabel m =
    if m.customerId ∈ labelsA.keys then (labelsA.at m.customerId none).getD unassigned else notInEarlier := by
  unfold rowLabel
  rw [h.before]
  by_cases hc : m.customerId ∈ labelsA.keys
  · rw [if_pos hc, if_neg fun hcategory => h.earlier.mp hcategory hc]
  · rw [if_neg hc, if_pos (h.earlier.mpr hc)]

theorem columnLabel_eq {m : CustomerMigration K} (h : Classified labelsA labelsB ordinals m) : columnLabel m =
    if m.customerId ∈ labelsB.keys then (labelsB.at m.customerId none).getD unassigned else notInLater := by
  unfold columnLabel
  rw [h.after]
  by_cases hc : m.customerId ∈ labelsB.keys
  · rw [if_pos hc, if_neg fun hcategory => h.later.mp hcategory hc]
  · rw [if_neg hc, if_pos (h.later.mpr hc)]

/-- What the matrix of some classified customers counts. -/
structure Tabulates (ordinals : Dict String ℤ) (migrations : List (CustomerMigration K))
    (matrix : MigrationMatrix K) : Prop where
  rowLabels : matrix.rowLabels = sideLabels ordinals notInEarlier
  columnLabels : matrix.columnLabels = sideLabels ordinals notInLater
  cells : ∀ row ∈ matrix.rowLabels, ∀ column ∈ matrix.columnLabels, (matrix.cells.at row []).at column 0 =
    (migrations.filter fun m => (rowLabel m, columnLabel m) = (row, column)).length
  members : ∀ row ∈ matrix.rowLabels, ∀ column ∈ matrix.columnLabels,
    (matrix.cellMigrations.at row []).at column [] =
    migrations.filter fun m => (rowLabel m, columnLabel m) = (row, column)
  rowTotals : ∀ row ∈ matrix.rowLabels,
    matrix.rowTotals.at row 0 = (migrations.filter fun m => rowLabel m = row).length
  columnTotals : ∀ column ∈ matrix.columnLabels,
    matrix.columnTotals.at column 0 = (migrations.filter fun m => columnLabel m = column).length
  total : (matrix.cells.map fun row => (row.2.map Prod.snd).sum).sum = migrations.length

omit [DecidableEq K] in
theorem matrix_tabulates (hordinals : ordinals.keys.Nodup)
    (hsentinels : ∀ name ∈ [unassigned, notInEarlier, notInLater], name ∉ ordinals.keys)
    (hrow : ∀ m ∈ migrations, rowLabel m ∈ sideLabels ordinals notInEarlier)
    (hcolumn : ∀ m ∈ migrations, columnLabel m ∈ sideLabels ordinals notInLater) :
    ∃ matrix, buildMigrationMatrix migrations ordinals = .ok matrix ∧ Tabulates ordinals migrations matrix := by
  have hrows : (sideLabels ordinals notInEarlier).Nodup :=
    nodup_sideLabels hordinals (hsentinels _ (by decide)) (hsentinels _ (by decide)) (by decide)
  have hcolumns : (sideLabels ordinals notInLater).Nodup :=
    nodup_sideLabels hordinals (hsentinels _ (by decide)) (hsentinels _ (by decide)) (by decide)
  have hcounted := countMigrations hrows hcolumns (fun m hm => ⟨hrow m hm, hcolumn m hm⟩)
    (fun _ _ => 0) fun _ _ => []
  simp only [Nat.zero_add, List.nil_append] at hcounted
  unfold buildMigrationMatrix
  simp only [hcounted]
  refine ⟨_, rfl, rfl, rfl, ?_, ?_, ?_, ?_, ?_⟩
  · intro row hrow column hcolumn
    exact at_grid hrows hcolumns hrow hcolumn _ _
  · intro row hrow column hcolumn
    exact at_grid hrows hcolumns hrow hcolumn _ _
  · intro row hrow
    refine (at_of hrows hrow _ _).trans ?_
    rw [row_grid hrows hrow, values_of hcolumns]
    exact sum_row hcolumns hcolumn row
  · intro column hmem
    refine (at_of hcolumns hmem _ _).trans ?_
    rw [← sum_column hrows hrow]
    exact congrArg List.sum (List.map_congr_left fun r hr => at_grid hrows hcolumns hr hmem _ _)
  · calc ((grid (sideLabels ordinals notInEarlier) (sideLabels ordinals notInLater) fun r c =>
          (migrations.filter fun m => (rowLabel m, columnLabel m) = (r, c)).length).map
            fun row => (row.2.map Prod.snd).sum).sum
        = ((sideLabels ordinals notInEarlier).map fun r => (migrations.filter fun m => rowLabel m = r).length).sum := by
          unfold grid
          rw [of_distinct hrows, List.map_map]
          refine congrArg List.sum (List.map_congr_left fun r _ => ?_)
          exact (congrArg List.sum (values_of hcolumns _)).trans (sum_row hcolumns hcolumn r)
      _ = migrations.length := sum_filter_key hrows hrow

theorem matrix_reconciles (hkeysA : labelsA.keys.Nodup) (hkeysB : labelsB.keys.Nodup)
    (hordinals : ordinals.keys.Nodup) (hA : Labelled labelsA ordinals) (hB : Labelled labelsB ordinals)
    (hsentinels : ∀ name ∈ [unassigned, notInEarlier, notInLater], name ∉ ordinals.keys)
    (hids : migrations.map CustomerMigration.customerId = sortBy str (allCustomers labelsA labelsB))
    (hclassified : ∀ m ∈ migrations, Classified labelsA labelsB ordinals m) :
    ∃ matrix, buildMigrationMatrix migrations ordinals = .ok matrix ∧
      Reconciles labelsA labelsB ordinals matrix := by
  have hrow : ∀ m ∈ migrations, rowLabel m ∈ sideLabels ordinals notInEarlier := fun m hm => by
    rw [rowLabel_eq (hclassified m hm)]
    exact name_mem_sideLabels hA _
  have hcolumn : ∀ m ∈ migrations, columnLabel m ∈ sideLabels ordinals notInLater := fun m hm => by
    rw [columnLabel_eq (hclassified m hm)]
    exact name_mem_sideLabels hB _
  obtain ⟨matrix, hmatrix, htabulates⟩ := matrix_tabulates hordinals hsentinels hrow hcolumn
  have hdistinct : (migrations.map CustomerMigration.customerId).Nodup := by
    rw [hids]
    exact (perm_sortBy str _).nodup_iff.mpr (List.nodup_dedup _)
  have hmem : ∀ c, c ∈ migrations.map CustomerMigration.customerId ↔ c ∈ labelsA.keys ∨ c ∈ labelsB.keys :=
    fun c => by
    rw [hids, (perm_sortBy str _).mem_iff, mem_allCustomers]
  have hside : ∀ (label : Option String) absent, (∀ l, label = some l → l ∈ ordinals.keys) →
      label.getD unassigned ∈ sideLabels ordinals absent := fun label absent hlabel => by
    cases label with
    | none => exact mem_sideLabels.mpr (.inr (.inl rfl))
    | some l => exact mem_sideLabels.mpr (.inl (hlabel l rfl))
  have hrowTotal : ∀ label : Option String, (∀ l, label = some l → l ∈ ordinals.keys) →
      matrix.rowTotals.at (label.getD unassigned) 0 = given labelsA label := fun label hlabel => by
    rw [htabulates.rowTotals _ (htabulates.rowLabels ▸ hside label _ hlabel)]
    exact count_named hkeysA hA (hsentinels _ (by decide)) (hsentinels _ (by decide)) (by decide) hlabel hdistinct
      (fun c hc => (hmem c).mpr (.inl hc)) fun m hm => rowLabel_eq (hclassified m hm)
  have hcolumnTotal : ∀ label : Option String, (∀ l, label = some l → l ∈ ordinals.keys) →
      matrix.columnTotals.at (label.getD unassigned) 0 = given labelsB label := fun label hlabel => by
    rw [htabulates.columnTotals _ (htabulates.columnLabels ▸ hside label _ hlabel)]
    exact count_named hkeysB hB (hsentinels _ (by decide)) (hsentinels _ (by decide)) (by decide) hlabel hdistinct
      (fun c hc => (hmem c).mpr (.inr hc)) fun m hm => columnLabel_eq (hclassified m hm)
  refine ⟨matrix, hmatrix, ?_, ?_, ?_, ?_, ?_, ?_⟩
  · exact fun label hlabel => hrowTotal (some label) fun l hl => Option.some.inj hl ▸ hlabel
  · exact hrowTotal none fun _ h => by cases h
  · exact fun label hlabel => hcolumnTotal (some label) fun l hl => Option.some.inj hl ▸ hlabel
  · exact hcolumnTotal none fun _ h => by cases h
  · rw [htabulates.total, ← List.length_map CustomerMigration.customerId, hids, (perm_sortBy str _).length_eq]
  · exact fun row hrow column hcolumn => by
      rw [htabulates.cells row hrow column hcolumn, htabulates.members row hrow column hcolumn]

/-- **Reconciliation.** Every customer of either run is classified once, and the matrix's margins are the two
runs' own counts. -/
theorem migration_reconciles (hkeysA : labelsA.keys.Nodup) (hkeysB : labelsB.keys.Nodup)
    (hordinals : ordinals.keys.Nodup) (hA : Labelled labelsA ordinals) (hB : Labelled labelsB ordinals)
    (hsentinels : ∀ name ∈ [unassigned, notInEarlier, notInLater], name ∉ ordinals.keys) :
    ∃ migrations, classifyMigration str labelsA labelsB ordinals = .ok migrations ∧
      (migrations.map CustomerMigration.customerId).Perm (allCustomers labelsA labelsB) ∧
      (∀ m ∈ migrations, Classified labelsA labelsB ordinals m) ∧
      ∃ matrix, buildMigrationMatrix migrations ordinals = .ok matrix ∧
        Reconciles labelsA labelsB ordinals matrix := by
  obtain ⟨migrations, hok, hids, hclassified⟩ := @classifyMigration_ok K _ str labelsA labelsB ordinals hA hB
  obtain ⟨matrix, hmatrix, hreconciles⟩ :=
    matrix_reconciles hkeysA hkeysB hordinals hA hB hsentinels hids hclassified
  exact ⟨migrations, hok, hids ▸ perm_sortBy str _, hclassified, matrix, hmatrix, hreconciles⟩

theorem migration_reconciles_three : ∃ migrations,
    classifyMigration id [("a", some "gold"), ("b", none)] [("b", some "gold"), ("c", some "tin")]
        [("gold", 1), ("tin", 2)] = .ok migrations ∧
      ∃ matrix : MigrationMatrix String, buildMigrationMatrix migrations [("gold", 1), ("tin", 2)] = .ok matrix ∧
        matrix.columnTotals.at "gold" 0 = 1 := by
  obtain ⟨migrations, hok, -, -, matrix, hmatrix, hreconciles⟩ := @migration_reconciles String _ id
    [("a", some "gold"), ("b", none)] [("b", some "gold"), ("c", some "tin")] [("gold", 1), ("tin", 2)]
    (by decide) (by decide) (by decide) (by simp [Labelled, Dict.keys]) (by simp [Labelled, Dict.keys]) (by decide)
  exact ⟨migrations, hok, matrix, hmatrix, hreconciles.columns "gold" (by decide)⟩

end Reconciliation
end RetailSegmentation.SegmentMigration
