import RetailSegmentation.ModelComparison

/-! The migration flow of the segmentation dashboard (`web/services/segmentation_dashboard.py`), beside the
migration matrix and the comparison of the same two runs. -/

namespace RetailSegmentation.SegmentFlow

open Grouping SegmentMigration
open ModelComparison (orUnassigned Rows Comparison compareRuns cellOf statusOf eitherRun compareRuns_ok)

structure FlowLink where
  source : String
  target : String
  weight : ℕ
  deriving DecidableEq, Repr

structure MigrationFlow where
  links : List FlowLink
  unassignedLabel : String
  newToPopulation : ℕ
  leftThePopulation : ℕ
  deriving DecidableEq, Repr

/-- The weights so far, and the customers that are no move. -/
structure Weights where
  weights : Dict (String × String) ℕ
  newToPopulation : ℕ
  leftThePopulation : ℕ

section Flow

variable {K : Type}

/-- The link of a customer both runs scored. -/
def linkOf (migration : CustomerMigration K) : String × String :=
  (orUnassigned migration.labelBefore, orUnassigned migration.labelAfter)

def weighMigration (flow : Weights) (migration : CustomerMigration K) : Weights :=
  if migration.category = .absentFromEarlier then { flow with newToPopulation := flow.newToPopulation + 1 }
  else if migration.category = .absentFromLater then { flow with leftThePopulation := flow.leftThePopulation + 1 }
  else { flow with weights := flow.weights.change (linkOf migration) 0 (· + 1) }

def buildMigrationFlow (migrations : List (CustomerMigration K)) : MigrationFlow :=
  let flow := migrations.foldl weighMigration ⟨[], 0, 0⟩
  { links := (flow.weights.filter fun e => 0 < e.2).map fun e => ⟨e.1.1, e.1.2, e.2⟩
    unassignedLabel := ModelComparison.unassigned
    newToPopulation := flow.newToPopulation
    leftThePopulation := flow.leftThePopulation }

def MigrationFlow.weight (flow : MigrationFlow) (source target : String) : ℕ :=
  ((flow.links.find? fun link => (link.source, link.target) = (source, target)).map FlowLink.weight).getD 0

/-! ### What is weighed -/

def present (migration : CustomerMigration K) : Bool :=
  migration.category ≠ .absentFromEarlier ∧ migration.category ≠ .absentFromLater

theorem weigh_foldl (migrations : List (CustomerMigration K)) (flow : Weights) :
    migrations.foldl weighMigration flow =
      { weights := (migrations.filter present).foldl (fun d m => d.change (linkOf m) 0 (· + 1)) flow.weights
        newToPopulation := flow.newToPopulation + migrations.countP fun m => m.category = .absentFromEarlier
        leftThePopulation := flow.leftThePopulation + migrations.countP fun m =>
          m.category = .absentFromLater } := by
  induction migrations generalizing flow with
  | nil => rfl
  | cons m migrations ih =>
      rw [List.foldl_cons, ih]
      cases hcategory : m.category <;>
        simp [weighMigration, present, hcategory, Nat.add_assoc, Nat.add_comm 1]

theorem flow_weight (migrations : List (CustomerMigration K)) (source target : String) :
    (buildMigrationFlow migrations).weight source target =
      migrations.countP fun m => present m ∧ linkOf m = (source, target) := by
  have hweights : (migrations.foldl weighMigration ⟨[], 0, 0⟩).weights =
      tally linkOf 0 (fun n _ => n + 1) (migrations.filter present) := by
    rw [weigh_foldl]
    rfl
  have hkeys := nodup_keys_tally linkOf 0 (fun n _ => n + 1) (migrations.filter present)
  have hat := at_tally linkOf 0 (fun n _ => n + 1) (migrations.filter present) (source, target)
  rw [foldl_succ, Nat.zero_add, List.filter_filter, ← List.countP_eq_length_filter] at hat
  have hcount : (migrations.countP fun m => decide (linkOf m = (source, target)) && present m) =
      migrations.countP fun m => present m ∧ linkOf m = (source, target) :=
    List.countP_congr fun m _ => by simp [and_comm]
  rw [← hcount, ← hat, ← at_positive hkeys]
  unfold MigrationFlow.weight buildMigrationFlow
  rw [List.find?_map, Option.map_map, hweights]
  rfl

end Flow

/-! ### Three views of two runs -/

section Views

variable {K F : Type} [DecidableEq K] {str : K → String} {quotient : ℕ → ℕ → F} {ordinals : Dict String ℤ}

/-- The label a run gave each customer. -/
def labelsOf (rows : Rows K) : Dict K (Option String) := rows.map fun row => (row.1, row.2.2)

theorem labelsOf_lookup (rows : Rows K) (c : K) :
    (labelsOf rows).lookup c = (List.lookup c rows).map Prod.snd := by
  induction rows with
  | nil => rfl
  | cons row rows ih =>
      unfold labelsOf at ih ⊢
      rw [List.map_cons, lookup_entry, lookup_entry, ih]
      by_cases hc : c = row.1
      · rw [if_pos hc, if_pos hc]
        rfl
      · rw [if_neg hc, if_neg hc]

omit [DecidableEq K] in
theorem labelsOf_keys (rows : Rows K) : (labelsOf rows).keys = rows.map Prod.fst := by
  unfold labelsOf Dict.keys
  rw [List.map_map]
  rfl

omit [DecidableEq K] in
theorem labelsOf_labelled {rows : Rows K}
    (hlabels : ∀ row ∈ rows, ∀ label, row.2.2 = some label → label ∈ ordinals.keys) :
    Labelled (labelsOf rows) ordinals := by
  intro e he
  obtain ⟨row, hrow, rfl⟩ := List.mem_map.mp he
  exact hlabels row hrow

omit [DecidableEq K] in
theorem classify_unchanged {before after : Option String} (hbefore : ∀ x, before = some x → x ∈ ordinals.keys)
    (hafter : ∀ y, after = some y → y ∈ ordinals.keys) (inRunA inRunB : Bool) {category : MigrationCategory}
    {direction : Option Direction} (hok : classify before after inRunA inRunB ordinals = .ok (category, direction)) :
    category = .unchanged ↔ inRunA = true ∧ inRunB = true ∧ before = after := by
  cases inRunA with
  | false =>
      obtain ⟨rfl, -⟩ := Prod.mk.inj (Except.ok.inj hok)
      simp
  | true =>
      cases inRunB with
      | false =>
          obtain ⟨rfl, -⟩ := Prod.mk.inj (Except.ok.inj hok)
          simp
      | true =>
          cases before with
          | none =>
              cases after with
              | none =>
                  obtain ⟨rfl, -⟩ := Prod.mk.inj (Except.ok.inj hok)
                  simp
              | some y =>
                  obtain ⟨rfl, -⟩ := Prod.mk.inj (Except.ok.inj hok)
                  simp
          | some x =>
              cases after with
              | none =>
                  obtain ⟨rfl, -⟩ := Prod.mk.inj (Except.ok.inj hok)
                  simp
              | some y =>
                  by_cases hxy : x = y
                  · subst hxy
                    have hsame : classify (some x) (some x) true true ordinals = .ok (.unchanged, none) := by
                      unfold classify
                      simp only [if_true]
                      rfl
                    obtain ⟨rfl, -⟩ := Prod.mk.inj (Except.ok.inj (hsame.symm.trans hok))
                    simp
                  · rw [classify_moved (hbefore x rfl) (hafter y rfl) hxy] at hok
                    obtain ⟨rfl, -⟩ := Prod.mk.inj (Except.ok.inj hok)
                    simp [hxy]

/-- What the matrix and the flow take of a classified customer. -/
structure Viewed (labelsA labelsB : Dict K (Option String)) (ordinals : Dict String ℤ) (m : CustomerMigration K) :
    Prop where
  classified : Classified labelsA labelsB ordinals m
  unchanged : m.category = .unchanged ↔
    m.customerId ∈ labelsA.keys ∧ m.customerId ∈ labelsB.keys ∧ m.labelBefore = m.labelAfter

theorem classifyMigration_views {labelsA labelsB : Dict K (Option String)} (hA : Labelled labelsA ordinals)
    (hB : Labelled labelsB ordinals) : ∃ migrations,
      classifyMigration str labelsA labelsB ordinals = .ok migrations ∧
      migrations.map CustomerMigration.customerId = sortBy str (allCustomers labelsA labelsB) ∧
      ∀ m ∈ migrations, Viewed labelsA labelsB ordinals m := by
  refine mapM_fits fun c hc => ?_
  obtain ⟨m, hok, hid, hclassified⟩ :=
    classifyCustomer_ok hA hB (mem_allCustomers.mp ((perm_sortBy str _).mem_iff.mp hc))
  refine ⟨m, hok, hid, hclassified, ?_⟩
  have hbefore : ∀ x, labelsA.at c none = some x → x ∈ ordinals.keys := fun x => hA.at
  have hafter : ∀ y, labelsB.at c none = some y → y ∈ ordinals.keys := fun y => hB.at
  obtain ⟨category, direction, hdecide, -⟩ :=
    classify_ok hbefore hafter (decide (c ∈ labelsA.keys)) (decide (c ∈ labelsB.keys))
  unfold classifyCustomer at hok
  simp only [hdecide, bind, Except.bind] at hok
  obtain rfl := Except.ok.inj hok
  simpa using classify_unchanged hbefore hafter _ _ hdecide

variable {firstRows secondRows : Rows K} {migrations : List (CustomerMigration K)}

/-- A customer is in a run's rows, with the label it gave them, or is not in the run. -/
theorem row_cases (rows : Rows K) (c : K) :
    (∃ l, List.lookup c rows = some l ∧ c ∈ (labelsOf rows).keys ∧ (labelsOf rows).at c none = l.2) ∨
      List.lookup c rows = none ∧ c ∉ (labelsOf rows).keys := by
  by_cases hc : c ∈ (labelsOf rows).keys
  · obtain ⟨label, hlabel⟩ := exists_lookup hc
    rw [labelsOf_lookup] at hlabel
    obtain ⟨l, hl, rfl⟩ := Option.map_eq_some_iff.mp hlabel
    refine .inl ⟨l, hl, hc, ?_⟩
    unfold Dict.at
    rw [labelsOf_lookup, hl]
    rfl
  · have hnone := lookup_eq_none hc
    rw [labelsOf_lookup, Option.map_eq_none_iff] at hnone
    exact .inr ⟨hnone, hc⟩

/-- The names of the vocabulary are not taken by what is no label, and none is empty. -/
def Plain (ordinals : Dict String ℤ) : Prop :=
  ∀ name ∈ ["", unassigned, notInEarlier, notInLater], name ∉ ordinals.keys

omit [DecidableEq K] in
theorem orUnassigned_eq (hplain : Plain ordinals) {label : Option String}
    (hlabel : ∀ code, label = some code → code ∈ ordinals.keys) : orUnassigned label = label.getD unassigned := by
  cases label with
  | none => rfl
  | some code => exact if_neg fun hempty : code = "" => hplain "" (by decide) (hempty ▸ hlabel code rfl)

variable (hplain : Plain ordinals)
  (hfirst : ∀ row ∈ firstRows, ∀ label, row.2.2 = some label → label ∈ ordinals.keys)
  (hsecond : ∀ row ∈ secondRows, ∀ label, row.2.2 = some label → label ∈ ordinals.keys)
  {m : CustomerMigration K} (hm : Viewed (labelsOf firstRows) (labelsOf secondRows) ordinals m)

include hm

theorem present_iff : present m = true ↔
    m.customerId ∈ (labelsOf firstRows).keys ∧ m.customerId ∈ (labelsOf secondRows).keys := by
  unfold present
  rw [decide_eq_true_eq, Ne, Ne, hm.classified.earlier, hm.classified.later, not_not, not_not]

theorem link_iff (row column : String) :
    present m = true ∧ linkOf m = (row, column) ↔ cellOf firstRows secondRows m.customerId = some (row,
      column) := by
  rw [present_iff hm]
  unfold linkOf cellOf
  rw [hm.classified.before, hm.classified.after]
  obtain ⟨l, hl, hin, hat⟩ | ⟨hl, hin⟩ := row_cases firstRows m.customerId
  · obtain ⟨l', hl', hin', hat'⟩ | ⟨hl', hin'⟩ := row_cases secondRows m.customerId
    · simp [hl, hl', hin, hin', hat, hat']
    · simp [hl, hl', hin']
  · simp [hl, hin]

include hplain hfirst hsecond

theorem cell_iff {row column : String} (hrow : row ∈ ModelComparison.columnLabels ordinals)
    (hcolumn : column ∈ ModelComparison.columnLabels ordinals) :
    (rowLabel m, columnLabel m) = (row, column) ↔ cellOf firstRows secondRows m.customerId = some (row,
      column) := by
  have hne : ∀ name ∈ ModelComparison.columnLabels ordinals, notInEarlier ≠ name ∧ notInLater ≠ name :=
    fun name hname => by
    obtain hname | rfl := ModelComparison.mem_columnLabels.mp hname
    · exact ⟨fun h => hplain notInEarlier (by decide) (h ▸ hname),
        fun h => hplain notInLater (by decide) (h ▸ hname)⟩
    · exact ⟨by decide, by decide⟩
  rw [rowLabel_eq hm.classified, columnLabel_eq hm.classified]
  unfold cellOf
  obtain ⟨l, hl, hin, hat⟩ | ⟨hl, hin⟩ := row_cases firstRows m.customerId
  · obtain ⟨l', hl', hin', hat'⟩ | ⟨hl', hin'⟩ := row_cases secondRows m.customerId
    · rw [if_pos hin, if_pos hin', hat, hat', hl, hl', Option.bind_some, Option.map_some, Option.some.injEq,
        orUnassigned_eq hplain (hfirst _ (mem_of_lookup hl)),
          orUnassigned_eq hplain (hsecond _ (mem_of_lookup hl'))]
    · simp [hl, hl', hin', (hne column hcolumn).2]
  · simp [hl, hin, (hne row hrow).1]

omit hplain hfirst hsecond in
theorem unchanged_iff : m.category = .unchanged ↔ statusOf firstRows secondRows m.customerId = some .agree := by
  rw [hm.unchanged, hm.classified.before, hm.classified.after]
  unfold statusOf
  obtain ⟨l, hl, hin, hat⟩ | ⟨hl, hin⟩ := row_cases firstRows m.customerId
  · obtain ⟨l', hl', hin', hat'⟩ | ⟨hl', hin'⟩ := row_cases secondRows m.customerId
    · by_cases hsame : l.2 = l'.2 <;> simp [hl, hl', hin, hin', hat, hat', hsame]
    · simp [hl, hl', hin']
  · obtain ⟨l', hl', hin', -⟩ | ⟨hl', hin'⟩ := row_cases secondRows m.customerId <;> simp [hl, hl', hin]

omit hplain hfirst hsecond in
theorem left_iff (heither : m.customerId ∈ eitherRun firstRows secondRows) : m.category = .absentFromLater ↔
    statusOf firstRows secondRows m.customerId = some .onlyInFirst := by
  rw [hm.classified.later]
  unfold statusOf
  obtain ⟨l, hl, hin, -⟩ | ⟨hl, hin⟩ := row_cases firstRows m.customerId
  · obtain ⟨l', hl', hin', -⟩ | ⟨hl', hin'⟩ := row_cases secondRows m.customerId
    · by_cases hsame : l.2 = l'.2 <;> simp [hl, hl', hin', hsame]
    · simp [hl, hl', hin']
  · rw [labelsOf_keys] at hin
    have hin' : m.customerId ∈ (labelsOf secondRows).keys := by
      rw [labelsOf_keys]
      exact (List.mem_append.mp (List.mem_dedup.mp heither)).resolve_left hin
    obtain ⟨l', hl', -, -⟩ | ⟨hl', hnot⟩ := row_cases secondRows m.customerId
    · simp [hl, hl', hin']
    · exact absurd hin' hnot

omit hplain hfirst hsecond in
theorem new_iff : m.category = .absentFromEarlier ↔
    statusOf firstRows secondRows m.customerId = some .onlyInSecond ∨
      List.lookup m.customerId firstRows = none ∧ List.lookup m.customerId secondRows = none := by
  rw [hm.classified.earlier]
  unfold statusOf
  obtain ⟨l, hl, hin, -⟩ | ⟨hl, hin⟩ := row_cases firstRows m.customerId
  · obtain ⟨l', hl', hin', -⟩ | ⟨hl', hin'⟩ := row_cases secondRows m.customerId
    · by_cases hsame : l.2 = l'.2 <;> simp [hl, hl', hin, hsame]
    · simp [hl, hl', hin]
  · obtain ⟨l', hl', hin', -⟩ | ⟨hl', hin'⟩ := row_cases secondRows m.customerId <;> simp [hl, hl', hin]

omit hsecond in
theorem row_absent_iff : rowLabel m = notInEarlier ↔ m.category = .absentFromEarlier := by
  rw [rowLabel_eq hm.classified, hm.classified.earlier]
  obtain ⟨l, hl, hin, hat⟩ | ⟨-, hin⟩ := row_cases firstRows m.customerId
  · rw [if_pos hin, hat]
    refine ⟨fun h => absurd h ?_, fun h => absurd hin h⟩
    cases hlabel : l.2 with
    | none => decide
    | some code =>
        intro h
        obtain rfl : code = notInEarlier := h
        exact hplain notInEarlier (by decide) (hfirst _ (mem_of_lookup hl) notInEarlier hlabel)
  · rw [if_neg hin]
    exact ⟨fun _ => hin, fun _ => rfl⟩

omit hfirst in
theorem column_absent_iff : columnLabel m = notInLater ↔ m.category = .absentFromLater := by
  rw [columnLabel_eq hm.classified, hm.classified.later]
  obtain ⟨l, hl, hin, hat⟩ | ⟨-, hin⟩ := row_cases secondRows m.customerId
  · rw [if_pos hin, hat]
    refine ⟨fun h => absurd h ?_, fun h => absurd hin h⟩
    cases hlabel : l.2 with
    | none => decide
    | some code =>
        intro h
        obtain rfl : code = notInLater := h
        exact hplain notInLater (by decide) (hsecond _ (mem_of_lookup hl) notInLater hlabel)
  · rw [if_neg hin]
    exact ⟨fun _ => hin, fun _ => rfl⟩

end Views

/-! ### Agreement -/

/-- The three views say the same: of every two labels the same number of customers, who are unchanged where
they agree, and of the customers only one run scored the same numbers. -/
structure Agree {K F : Type} (ordinals : Dict String ℤ) (migrations : List (CustomerMigration K))
    (comparison : Comparison K F) (matrix : MigrationMatrix K) (flow : MigrationFlow) : Prop where
  cells : ∀ row ∈ ModelComparison.columnLabels ordinals, ∀ column ∈ ModelComparison.columnLabels ordinals,
    (matrix.cells.at row []).at column 0 = (comparison.cells.at row []).at column 0 ∧
      flow.weight row column = (comparison.cells.at row []).at column 0
  agree : comparison.agree = (migrations.filter fun m => m.category = .unchanged).length
  onlyFirst : comparison.onlyFirst = flow.leftThePopulation ∧
    comparison.onlyFirst = matrix.columnTotals.at notInLater 0
  onlySecond : comparison.onlySecond = flow.newToPopulation ∧
    comparison.onlySecond = matrix.rowTotals.at notInEarlier 0

section Agreement

variable {K F : Type} [DecidableEq K] {str : K → String} {quotient : ℕ → ℕ → F} {ordinals : Dict String ℤ}
  {firstRows secondRows : Rows K} {firstRunId secondRunId : ℤ}

theorem views_agree (hordinals : ordinals.keys.Nodup) (hplain : Plain ordinals)
    (hfirstIds : (firstRows.map Prod.fst).Nodup) (hsecondIds : (secondRows.map Prod.fst).Nodup)
    (hfirst : ∀ row ∈ firstRows, ∀ label, row.2.2 = some label → label ∈ ordinals.keys)
    (hsecond : ∀ row ∈ secondRows, ∀ label, row.2.2 = some label → label ∈ ordinals.keys) :
    ∃ comparison migrations matrix,
      compareRuns str quotient ordinals firstRows secondRows firstRunId secondRunId = .ok comparison ∧
      classifyMigration str (labelsOf firstRows) (labelsOf secondRows) ordinals = .ok migrations ∧
      buildMigrationMatrix migrations ordinals = .ok matrix ∧
      Agree ordinals migrations comparison matrix (buildMigrationFlow migrations) := by
  have hsentinels : ∀ name ∈ [unassigned, notInEarlier, notInLater], name ∉ ordinals.keys :=
    fun name hname => hplain name (List.mem_cons_of_mem _ hname)
  have hA := labelsOf_labelled hfirst
  have hB := labelsOf_labelled hsecond
  obtain ⟨comparison, hcomparison, hcompares⟩ := @compareRuns_ok K F _ str quotient ordinals firstRows secondRows
    firstRunId secondRunId hordinals (hsentinels _ (by decide)) hfirstIds hsecondIds hfirst hsecond
  obtain ⟨migrations, hmigrations, hids, hviewed⟩ := @classifyMigration_views K _ str ordinals _ _ hA hB
  obtain ⟨matrix, hmatrix, htabulates⟩ := matrix_tabulates hordinals hsentinels
    (fun m hm => rowLabel_eq (hviewed m hm).classified ▸ name_mem_sideLabels hA _)
    (fun m hm => columnLabel_eq (hviewed m hm).classified ▸ name_mem_sideLabels hB _)
  have heither : (migrations.map CustomerMigration.customerId).Perm (eitherRun firstRows secondRows) := by
    rw [hids]
    refine (perm_sortBy str _).trans (.of_eq ?_)
    unfold allCustomers eitherRun
    rw [labelsOf_keys, labelsOf_keys]
    rfl
  have hcount : ∀ (p : CustomerMigration K → Bool) (q : K → Bool),
      (∀ m ∈ migrations, p m = true ↔ q m.customerId = true) →
      migrations.countP p = (eitherRun firstRows secondRows).countP q := fun p q hpq => by
    rw [← heither.countP_eq q, List.countP_map]
    exact List.countP_congr hpq
  have hin : ∀ m ∈ migrations, m.customerId ∈ eitherRun firstRows secondRows := fun m hm =>
    heither.mem_iff.mp (List.mem_map_of_mem hm)
  have hside : ∀ name ∈ ModelComparison.columnLabels ordinals, ∀ absent, name ∈ sideLabels ordinals absent :=
    fun name hname absent => mem_sideLabels.mpr ((ModelComparison.mem_columnLabels.mp hname).imp_right .inl)
  refine ⟨comparison, migrations, matrix, hcomparison, hmigrations, hmatrix, ?_, ?_, ?_, ?_⟩
  · intro row hrow column hcolumn
    rw [htabulates.cells row (htabulates.rowLabels ▸ hside row hrow _) column
        (htabulates.columnLabels ▸ hside column hcolumn _), flow_weight, hcompares.cells row hrow column hcolumn,
      ← List.countP_eq_length_filter]
    refine ⟨hcount _ _ fun m hm => ?_, hcount _ _ fun m hm => ?_⟩
    · simpa using cell_iff hplain hfirst hsecond (hviewed m hm) hrow hcolumn
    · simpa using link_iff (hviewed m hm) row column
  · rw [hcompares.agree, ← List.countP_eq_length_filter]
    exact (hcount _ _ fun m hm => by simpa using unchanged_iff (hviewed m hm)).symm
  · have hleft : migrations.countP (fun m => m.category = .absentFromLater) = comparison.onlyFirst := by
      rw [hcompares.onlyFirst]
      exact hcount _ _ fun m hm => by simpa using left_iff (hviewed m hm) (hin m hm)
    have hflow : (buildMigrationFlow migrations).leftThePopulation = comparison.onlyFirst := by
      unfold buildMigrationFlow
      rw [weigh_foldl, ← hleft]
      exact Nat.zero_add _
    have hmatrixLeft : matrix.columnTotals.at notInLater 0 = comparison.onlyFirst := by
      rw [htabulates.columnTotals _ (htabulates.columnLabels ▸ mem_sideLabels.mpr (.inr (.inr rfl))), ← hleft,
        ← List.countP_eq_length_filter]
      exact List.countP_congr fun m hm => by simpa using column_absent_iff hplain hsecond (hviewed m hm)
    exact ⟨hflow.symm, hmatrixLeft.symm⟩
  · have hnew : migrations.countP (fun m => m.category = .absentFromEarlier) = comparison.onlySecond := by
      rw [hcompares.onlySecond]
      refine hcount _ _ fun m hm => ?_
      have hknown : ¬(List.lookup m.customerId firstRows = none ∧ List.lookup m.customerId secondRows = none) := by
        rintro ⟨hl, hl'⟩
        obtain hmem | hmem := List.mem_append.mp (List.mem_dedup.mp (hin m hm))
        · obtain ⟨v, hv⟩ := exists_lookup hmem
          rw [hl] at hv
          cases hv
        · obtain ⟨v, hv⟩ := exists_lookup hmem
          rw [hl'] at hv
          cases hv
      rw [decide_eq_true_eq, decide_eq_true_eq]
      exact (new_iff (hviewed m hm)).trans (or_iff_left hknown)
    have hflow : (buildMigrationFlow migrations).newToPopulation = comparison.onlySecond := by
      unfold buildMigrationFlow
      rw [weigh_foldl, ← hnew]
      exact Nat.zero_add _
    have hmatrixNew : matrix.rowTotals.at notInEarlier 0 = comparison.onlySecond := by
      rw [htabulates.rowTotals _ (htabulates.rowLabels ▸ mem_sideLabels.mpr (.inr (.inr rfl))), ← hnew,
        ← List.countP_eq_length_filter]
      exact List.countP_congr fun m hm => by simpa using row_absent_iff hplain hfirst (hviewed m hm)
    exact ⟨hflow.symm, hmatrixNew.symm⟩

theorem views_agree_three : ∃ (comparison : Comparison ℕ ℕ) (migrations : List (CustomerMigration ℕ))
    (matrix : MigrationMatrix ℕ), comparison.agree = 1 ∧ comparison.onlyFirst = 0 ∧
      Agree [("gold", 1), ("tin", 2)] migrations comparison matrix (buildMigrationFlow migrations) := by
  obtain ⟨comparison, migrations, matrix, hcomparison, -, -, hagree⟩ := @views_agree ℕ ℕ _ (fun _ => "c") Nat.div
    [("gold", 1), ("tin", 2)] [(1, "Ann", some "gold"), (2, "Bo", none)]
    [(1, "Ann", some "gold"), (2, "Bo", some "tin"), (3, "Cy", none)] 1 2 (by decide) (by unfold Plain; decide)
    (by decide) (by decide) (by simp [Dict.keys]) (by simp [Dict.keys])
  refine ⟨comparison, migrations, matrix, ?_, ?_, hagree⟩
  · obtain rfl := Except.ok.inj hcomparison
    rfl
  · obtain rfl := Except.ok.inj hcomparison
    rfl

/-- A label whose code is empty is a row of the matrix, and no label in the comparison and the flow. -/
theorem views_differ_empty :
    ∃ comparison migrations matrix,
      compareRuns (fun _ : ℕ => "c") Nat.div [("", 1)] [(1, "Ann", some "")] [(1, "Ann", some "")] 1 2 =
        .ok comparison ∧
      classifyMigration (fun _ => "c") (labelsOf [(1, "Ann", some "")]) (labelsOf [(1, "Ann", some "")]) [("", 1)] =
        .ok migrations ∧
      buildMigrationMatrix migrations [("", 1)] = .ok matrix ∧
      (matrix.cells.at "" []).at "" 0 = 1 ∧ (comparison.cells.at "" []).at "" 0 = 0 ∧
      (buildMigrationFlow migrations).weight "" "" = 0 := by
  exact ⟨_, _, _, rfl, rfl, rfl, by decide, by decide, by decide⟩

/-- Each name that is not plain, alone in the vocabulary, has two runs the views disagree about. -/
theorem views_differ : ∀ name ∈ ["", unassigned, notInEarlier, notInLater], ∃ firstRows secondRows : Rows ℕ,
    (∀ row ∈ firstRows ++ secondRows, ∀ label, row.2.2 = some label → label = name) ∧
    ∃ (comparison : Comparison ℕ ℕ) (migrations : List (CustomerMigration ℕ)) (matrix : MigrationMatrix ℕ),
      compareRuns (fun _ => "c") Nat.div [(name, 1)] firstRows secondRows 1 2 = .ok comparison ∧
      classifyMigration (fun _ => "c") (labelsOf firstRows) (labelsOf secondRows) [(name, 1)] = .ok migrations ∧
      buildMigrationMatrix migrations [(name, 1)] = .ok matrix ∧
      ¬ Agree [(name, 1)] migrations comparison matrix (buildMigrationFlow migrations) := by
  have hcell : ∀ {name row column : String} {migrations : List (CustomerMigration ℕ)} {comparison : Comparison ℕ ℕ}
      {matrix : MigrationMatrix ℕ} {flow : MigrationFlow}, row ∈ ModelComparison.columnLabels [(name, 1)] →
      column ∈ ModelComparison.columnLabels [(name, 1)] →
      (matrix.cells.at row []).at column 0 ≠ (comparison.cells.at row []).at column 0 →
      ¬ Agree [(name, 1)] migrations comparison matrix flow :=
    fun hrow hcolumn hne hagree => hne (hagree.cells _ hrow _ hcolumn).1
  intro name hname
  simp only [List.mem_cons, List.not_mem_nil, or_false] at hname
  obtain rfl | rfl | rfl | rfl := hname
  · refine ⟨[(1, "Ann", some "")], [(1, "Ann", some "")], by simp, _, _, _, rfl, rfl, rfl, ?_⟩
    exact @hcell _ "" "" _ _ _ _ (by decide) (by decide) (by decide)
  · refine ⟨[(1, "Ann", some unassigned)], [], by simp, _, _, _, rfl, rfl, rfl, fun hagree => ?_⟩
    exact absurd hagree.onlyFirst.2 (by decide)
  · refine ⟨[], [(1, "Ann", none)], by simp, _, _, _, rfl, rfl, rfl, ?_⟩
    exact @hcell _ notInEarlier unassigned _ _ _ _ (by decide) (by decide) (by decide)
  · refine ⟨[(1, "Ann", none)], [], by simp, _, _, _, rfl, rfl, rfl, ?_⟩
    exact @hcell _ unassigned notInLater _ _ _ _ (by decide) (by decide) (by decide)

end Agreement
end RetailSegmentation.SegmentFlow
