import RetailSegmentation.SegmentScoring

/-! The heatmap of the segmentation dashboard (`web/services/segmentation_dashboard.py`): a run's labelled
customers in quintiles of their raw recency and frequency. A float is a value of some linear order, and
`timestamp` and `float` are the readings of an instant and of a count as one. -/

namespace RetailSegmentation.SegmentHeatmap

open Grouping Tiling SegmentScoring

/-- A customer's row of a run, as the dashboard reads it. -/
structure RunRfmRow (K : Type) where
  customerId : K
  labelCode : Option String
  lastPurchaseAt : Option ℤ
  frequency : Option ℤ
  monetary : Option ℤ
  deriving DecidableEq, Repr

structure HeatmapCell where
  recencyBin : ℕ
  frequencyBin : ℕ
  count : ℕ
  monetaryTotal : ℤ
  deriving DecidableEq, Repr

/-- A key that is not there, or a value that is `None`. -/
inductive Raised where
  | keyError | noneValue
  deriving DecidableEq, Repr

section Bins

variable {K F : Type} [DecidableEq K] [LinearOrder F]

/-- The values of the next bucket take its bin. -/
def fillBucket (distinct : List F) (state : ℕ × Dict F ℕ) (bucket : ℕ) : ℕ × Dict F ℕ :=
  let size := tileSize quintiles distinct.length bucket
  (state.1 + size,
    ((distinct.drop state.1).take size).foldl (fun binOf value => binOf.put value (quintiles + 1 - bucket)) state.2)

def binOf (distinct : List F) : Dict F ℕ :=
  ((List.range quintiles).foldl (fun state t => fillBucket distinct state (t + 1)) (0, [])).2

def required {α β : Type} (found : Except α β) : Except Raised β :=
  match found with
  | .ok value => return value
  | .error _ => throw .keyError

/-- Bin (id, value) pairs into 1..5, 5 the highest value. -/
def quintileBins (pairs : List (K × F)) : Except Raised (Dict K ℕ) :=
  let bins := binOf (ranked (pairs.map Prod.snd))
  pairs.foldlM (fun found pair => do return found.put pair.1 (← required (bins.item pair.2))) []

end Bins

section Heatmap

variable {K F : Type} [DecidableEq K] [LinearOrder F] (timestamp float : ℤ → F)

/-- `row.value`, which must not be `None`. -/
def present {α : Type} (value : Option α) : Except Raised α :=
  match value with
  | some v => return v
  | none => throw .noneValue

/-- The values of a measure, read as floats, of the labelled rows. -/
def pairsOf (measure : RunRfmRow K → Option ℤ) (read : ℤ → F) (rows : List (RunRfmRow K)) :
    Except Raised (List (K × F)) :=
  rows.mapM fun row => do return (row.customerId, read (← present (measure row)))

/-- One labelled customer is counted in their cell. -/
def countRow (recency frequency : Dict K ℕ) (state : Dict (ℕ × ℕ) ℕ × Dict (ℕ × ℕ) ℤ) (row : RunRfmRow K) :
    Except Raised (Dict (ℕ × ℕ) ℕ × Dict (ℕ × ℕ) ℤ) := do
  let key := (← required (recency.item row.customerId), ← required (frequency.item row.customerId))
  let spent ← present row.monetary
  return (state.1.change key 0 (· + 1), state.2.change key 0 (· + spent))

/-- The recency and the frequency bin of each cell. -/
def cellKeys : List (ℕ × ℕ) := (List.range quintiles).flatMap fun r => (List.range quintiles).map fun f =>
    (r + 1, f + 1)

/-- Every labelled customer in a grid of 25 cells, all always present. -/
def buildRfmHeatmap (rows : List (RunRfmRow K)) : Except Raised (List HeatmapCell) := do
  let scored := rows.filter fun row => row.labelCode.isSome
  let recency ← quintileBins (← pairsOf RunRfmRow.lastPurchaseAt timestamp scored)
  let frequency ← quintileBins (← pairsOf RunRfmRow.frequency float scored)
  let (counts, monetary) ← scored.foldlM (countRow recency frequency) ([], [])
  return cellKeys.map fun key => ⟨key.1, key.2, counts.at key 0, monetary.at key 0⟩

end Heatmap

/-! ### The bins are the scores -/

section Bins

variable {K F : Type} [DecidableEq K] [LinearOrder F]

/-- After the first buckets, the values that stand before the next one have their bins. -/
theorem binOf_filled {values : List F} {v : F} (hv : v ∈ values) (t : ℕ) :
    ((List.range t).foldl (fun state t => fillBucket (ranked values) state (t + 1)) (0, [])).1 =
        tileStart quintiles values.toFinset.card t ∧
      ((List.range t).foldl (fun state t => fillBucket (ranked values) state (t + 1)) (0, [])).2.lookup v =
        if place values v < tileStart quintiles values.toFinset.card t then some (score quintiles values v)
        else none := by
  induction t with
  | zero => exact ⟨by simp [tileStart], by simp [tileStart]⟩
  | succ t ih =>
      obtain ⟨hstart, hfilled⟩ := ih
      rw [List.range_succ, List.foldl_append]
      refine ⟨?_, ?_⟩
      · change _ + tileSize quintiles (ranked values).length (t + 1) = _
        rw [hstart, length_ranked, tileStart_succ]
      · change List.lookup v (List.foldl _ _ _) = _
        have hslice : v ∈ ((ranked values).drop (tileStart quintiles values.toFinset.card t)).take
            (tileSize quintiles (ranked values).length (t + 1)) ↔
            tileStart quintiles values.toFinset.card t ≤ place values v ∧
              place values v < tileStart quintiles values.toFinset.card (t + 1) := by
          rw [mem_slice hv, length_ranked, ← tileStart_succ]
        rw [lookup_foldl_put, hfilled, hstart]
        have htile := @ntile_eq quintiles values.toFinset.card (place values v) t (by decide) (place_lt hv)
        have hnext : tileStart quintiles values.toFinset.card t ≤ tileStart quintiles values.toFinset.card (t + 1) :=
          tileStart_mono (Nat.le_succ t)
        by_cases hin : tileStart quintiles values.toFinset.card t ≤ place values v ∧
            place values v < tileStart quintiles values.toFinset.card (t + 1)
        · rw [if_pos (hslice.mpr hin), if_pos hin.2]
          unfold score
          rw [htile.mpr hin]
        · rw [if_neg (hslice.not.mpr hin)]
          split_ifs with hbefore hafter hafter
          · rfl
          · omega
          · omega
          · rfl

theorem binOf_lookup {values : List F} {v : F} (hv : v ∈ values) :
    (binOf (ranked values)).lookup v = some (score quintiles values v) := by
  have hall := (binOf_filled hv quintiles).2
  rw [tileStart_all (by decide), if_pos (place_lt hv)] at hall
  exact hall

theorem quintileBins_ok {pairs : List (K × F)} (hids : (pairs.map Prod.fst).Nodup) :
    ∃ bins, quintileBins pairs = .ok bins ∧
      ∀ pair ∈ pairs, bins.lookup pair.1 = some (score quintiles (pairs.map Prod.snd) pair.2) := by
  have hround : ∀ pair ∈ pairs, ∀ found : Dict K ℕ, (do
      return found.put pair.1 (← required ((binOf (ranked (pairs.map Prod.snd))).item pair.2)) : Except Raised _) =
        .ok (found.put pair.1 (score quintiles (pairs.map Prod.snd) pair.2)) := by
    intro pair hpair found
    unfold Dict.item
    rw [binOf_lookup (List.mem_map_of_mem hpair)]
    rfl
  refine ⟨_, foldlM_ok hround [], fun pair hpair => ?_⟩
  exact lookup_filled hids (fun pair => score quintiles (pairs.map Prod.snd) pair.2) [] hpair

end Bins

/-! ### The labelled customers of a run -/

section Run

variable {K : Type} [LinearOrder K] {tables : Tables K} {since now today : ℤ}

/-- What a run stores of a scored customer that the dashboard reads. -/
def runRow (s : ScoredCustomer K) : RunRfmRow K :=
  ⟨s.customerId, s.labelCode, s.lastPurchaseAt, s.frequency, s.monetary⟩

def labelled (tables : Tables K) (since now today : ℤ) : List (ScoredCustomer K) :=
  (scoreRfmRules tables since now today).filter fun s => s.labelCode.isSome

def measured (measure : Measure) (s : ScoredCustomer K) : ℤ := (measure.value s).getD 0

theorem segment_of_label {c : K} (hc : (rowOf tables since now today c).labelCode.isSome) :
    ∃ seg ∈ tables.segments, validOn today seg = true := by
  cases hsales : salesIn tables since now c with
  | none =>
      rw [rowOf_unsold hsales] at hc
      cases hc
  | some w =>
      unfold rowOf selected at hc
      simp only [hsales, Option.map_some] at hc
      cases hband : bandMatch tables today (some (scoreSales (windowSales tables since now) w)) with
      | some seg =>
          obtain ⟨⟨hseg, hvalidOn, -⟩, -⟩ := bandMatch_some hband
          exact ⟨seg, hseg, hvalidOn⟩
      | none =>
          cases hworst : fallback tables today (some w) none with
          | some seg =>
              obtain ⟨_, ⟨hseg, hvalidOn, -⟩, -⟩ := fallback_some hworst
              exact ⟨seg, hseg, hvalidOn⟩
          | none =>
              rw [hband, hworst] at hc
              cases hc

theorem label_of_sold (hvalid : tables.Valid) (hsegment : ∃ seg ∈ tables.segments,
    validOn today seg = true) {c : K}
    {w : Sales K} (hw : salesIn tables since now c = some w) :
      (rowOf tables since now today c).labelCode.isSome := by
  obtain ⟨seg, -, -, -, hlabel, -⟩ | ⟨-, seg, _, -, -, -, hlabel, -⟩ := rowOf_sold hvalid hsegment hw
  · rw [hlabel]
    rfl
  · rw [hlabel]
    rfl

theorem mem_labelled {s : ScoredCustomer K} : s ∈ labelled tables since now today ↔
    ∃ c ∈ tables.customers, rowOf tables since now today c = s ∧ s.labelCode.isSome := by
  unfold labelled
  rw [List.mem_filter, mem_rows]
  exact ⟨fun ⟨⟨c, hc, hs⟩, hlabel⟩ => ⟨c, hc, hs, hlabel⟩, fun ⟨c, hc, hs, hlabel⟩ => ⟨⟨c, hc, hs⟩, hlabel⟩⟩

theorem sold_of_labelled {s : ScoredCustomer K} (hs : s ∈ labelled tables since now today) :
    ∃ c w, salesIn tables since now c = some w ∧ rowOf tables since now today c = s := by
  obtain ⟨c, -, rfl, hlabel⟩ := mem_labelled.mp hs
  cases hsales : salesIn tables since now c with
  | none =>
      rw [rowOf_unsold hsales] at hlabel
      cases hlabel
  | some w => exact ⟨c, w, hsales, rfl⟩

theorem mem_measured (hvalid : tables.Valid) (hsegment : ∃ seg ∈ tables.segments, validOn today seg = true)
    (measure : Measure) (v : ℤ) : v ∈ (labelled tables since now today).map (measured measure) ↔
      v ∈ (windowSales tables since now).map measure.of := by
  simp only [List.mem_map]
  constructor
  · rintro ⟨s, hs, rfl⟩
    obtain ⟨c, w, hw, rfl⟩ := sold_of_labelled hs
    refine ⟨w, mem_windowSales.mpr ⟨c, hw⟩, ?_⟩
    unfold measured
    rw [value_rowOf, hw]
    rfl
  · rintro ⟨w, hw, rfl⟩
    obtain ⟨c, hc⟩ := mem_windowSales.mp hw
    obtain ⟨t, ht, rfl⟩ := transaction_of_salesIn hc
    refine ⟨_, mem_labelled.mpr ⟨_, hvalid.transactionCustomers t ht, rfl, label_of_sold hvalid hsegment hc⟩, ?_⟩
    unfold measured
    rw [value_rowOf, hc]
    rfl

theorem labelled_scores (hvalid : tables.Valid) (measure : Measure) {s : ScoredCustomer K}
    (hs : s ∈ labelled tables since now today) : measure.value s = some (measured measure s) ∧
      measure.score s = some (score quintiles ((labelled tables since now today).map (measured measure))
        (measured measure s)) := by
  obtain ⟨c, w, hw, rfl⟩ := sold_of_labelled hs
  obtain ⟨_, -, heq, hlabel⟩ := mem_labelled.mp hs
  rw [← heq] at hlabel
  have hvalue : measure.value (rowOf tables since now today c) = some (measure.of w) := by
    rw [value_rowOf, hw]
    rfl
  have hmeasured : measured measure (rowOf tables since now today c) = measure.of w := by
    unfold measured
    rw [hvalue]
    rfl
  rw [hmeasured, score_congr (mem_measured hvalid (segment_of_label hlabel) measure)]
  exact ⟨hvalue, (score_of_value hvalue).2⟩

theorem nodup_labelled (hvalid : tables.Valid) :
    ((labelled tables since now today).map ScoredCustomer.customerId).Nodup := by
  have hrows : ((scoreRfmRules tables since now today).map ScoredCustomer.customerId).Nodup := by
    rw [scoreRfmRules_eq, List.map_map]
    exact ((perm_sortBy id tables.customers).nodup_iff.mpr hvalid.customerKeys).map fun _ _ h => h
  exact hrows.sublist (List.filter_sublist.map _)

theorem bounds_labelled (hvalid : tables.Valid) (measure : Measure) {s : ScoredCustomer K}
    (hs : s ∈ labelled tables since now today) : ∃ n, measure.score s = some n ∧ 1 ≤ n ∧ n ≤ quintiles :=
  ⟨_, (labelled_scores hvalid measure hs).2, score_bounds (by decide) (List.mem_map_of_mem hs)⟩

/-! ### The heatmap of a run -/

variable {F : Type} [LinearOrder F] {rows : List (RunRfmRow K)}

theorem perm_labelled (hrows : rows.Perm ((scoreRfmRules tables since now today).map runRow)) :
    (rows.filter fun row => row.labelCode.isSome).Perm ((labelled tables since now today).map runRow) := by
  refine (hrows.filter _).trans (.of_eq ?_)
  rw [List.filter_map]
  rfl

/-- A reading keeps the order of the labelled customers' values of a measure. -/
def Keeps (read : ℤ → F) (measure : Measure) (customers : List (ScoredCustomer K)) : Prop :=
  ∀ s ∈ customers, ∀ s' ∈ customers, measured measure s < measured measure s' →
    read (measured measure s) < read (measured measure s')

theorem bins_of_scores (hvalid : tables.Valid) {measure : Measure} {column : RunRfmRow K → Option ℤ} {read : ℤ → F}
    (hcolumn : ∀ s, column (runRow s) = measure.value s) (hread : Keeps read measure (labelled tables since now today))
    {scored : List (RunRfmRow K)} (hscored : scored.Perm ((labelled tables since now today).map runRow)) :
    ∃ bins, (pairsOf column read scored >>= quintileBins) = .ok bins ∧
      ∀ s ∈ labelled tables since now today, bins.lookup s.customerId = measure.score s := by
  have hof : ∀ row ∈ scored, ∃ s ∈ labelled tables since now today, runRow s = row := fun row hrow =>
    List.mem_map.mp (hscored.mem_iff.mp hrow)
  have hpairs : pairsOf column read scored =
      .ok (scored.map fun row => (row.customerId, read ((column row).getD 0))) := by
    refine mapM_ok fun row hrow => ?_
    obtain ⟨s, hs, rfl⟩ := hof row hrow
    rw [hcolumn, (labelled_scores hvalid measure hs).1]
    rfl
  have hids : ((scored.map fun row => (row.customerId, read ((column row).getD 0))).map Prod.fst).Nodup := by
    rw [List.map_map]
    refine (hscored.map RunRfmRow.customerId).nodup_iff.mpr ?_
    rw [List.map_map]
    exact nodup_labelled hvalid
  obtain ⟨bins, hbins, hall⟩ := quintileBins_ok hids
  refine ⟨bins, ?_, fun s hs => ?_⟩
  · rw [hpairs]
    exact hbins
  · have hmem : runRow s ∈ scored := hscored.mem_iff.mpr (List.mem_map_of_mem hs)
    have hbin := hall _ (List.mem_map_of_mem hmem)
    have hvalue : (column (runRow s)).getD 0 = measured measure s := by
      rw [hcolumn]
      rfl
    have hvalues : ∀ x, x ∈ (scored.map fun row => (row.customerId, read ((column row).getD 0))).map Prod.snd ↔
        x ∈ ((labelled tables since now today).map (measured measure)).map read := by
      intro x
      rw [List.map_map, (hscored.map _).mem_iff, List.map_map, List.map_map]
      simp only [Function.comp_def, hcolumn]
      rfl
    have hkeeps : ∀ u ∈ (labelled tables since now today).map (measured measure),
        ∀ v ∈ (labelled tables since now today).map (measured measure), u < v → read u < read v := by
      intro u hu v hv
      obtain ⟨s, hs, rfl⟩ := List.mem_map.mp hu
      obtain ⟨s', hs', rfl⟩ := List.mem_map.mp hv
      exact hread s hs s' hs'
    rw [hvalue, score_congr hvalues, score_map hkeeps (List.mem_map_of_mem hs)] at hbin
    rw [(labelled_scores hvalid measure hs).2]
    exact hbin

def HeatmapCell.holds (cell : HeatmapCell) (s : ScoredCustomer K) : Bool :=
  decide (s.rScore = some cell.recencyBin) && decide (s.fScore = some cell.frequencyBin)

/-- The cells of a grid that partition some customers, who are counted and whose spend is summed in them. -/
structure Partitions (cells : List HeatmapCell) (customers : List (ScoredCustomer K)) : Prop where
  grid : cells.map (fun cell => (cell.recencyBin, cell.frequencyBin)) = cellKeys
  placed : ∀ s ∈ customers, ∃! cell, cell ∈ cells ∧ cell.holds s = true
  count : ∀ cell ∈ cells, cell.count = (customers.filter cell.holds).length
  monetary : ∀ cell ∈ cells, cell.monetaryTotal = ((customers.filter cell.holds).map (measured .monetary)).sum
  counts : (cells.map HeatmapCell.count).sum = customers.length
  monetaryTotals : (cells.map HeatmapCell.monetaryTotal).sum = (customers.map (measured .monetary)).sum

theorem nodup_cellKeys : cellKeys.Nodup := by decide

theorem mem_cellKeys {r f : ℕ} : (r, f) ∈ cellKeys ↔ (1 ≤ r ∧ r ≤ quintiles) ∧ 1 ≤ f ∧ f ≤ quintiles := by
  unfold cellKeys
  simp only [List.mem_flatMap, List.mem_map, List.mem_range, Prod.mk.injEq]
  constructor
  · rintro ⟨r, hr, f, hf, rfl, rfl⟩
    omega
  · intro h
    exact ⟨r - 1, by omega, f - 1, by omega, by omega, by omega⟩

def cellOf (s : ScoredCustomer K) : ℕ × ℕ := (s.rScore.getD 0, s.fScore.getD 0)

theorem holds_iff (hvalid : tables.Valid) {s : ScoredCustomer K} (hs : s ∈ labelled tables since now today)
    (cell : HeatmapCell) : cell.holds s = true ↔ cellOf s = (cell.recencyBin, cell.frequencyBin) := by
  obtain ⟨r, hr, -⟩ := bounds_labelled hvalid .recency hs
  obtain ⟨f, hf, -⟩ := bounds_labelled hvalid .frequency hs
  change s.rScore = some r at hr
  change s.fScore = some f at hf
  unfold HeatmapCell.holds cellOf
  simp [hr, hf]

theorem cellOf_mem (hvalid : tables.Valid) {s : ScoredCustomer K} (hs : s ∈ labelled tables since now today) :
    cellOf s ∈ cellKeys := by
  obtain ⟨r, hr, hrbounds⟩ := bounds_labelled hvalid .recency hs
  obtain ⟨f, hf, hfbounds⟩ := bounds_labelled hvalid .frequency hs
  change s.rScore = some r at hr
  change s.fScore = some f at hf
  unfold cellOf
  rw [hr, hf]
  exact mem_cellKeys.mpr ⟨hrbounds, hfbounds⟩

/-- The cell of each key, filled from the customers whose scores are its own. -/
def filledCell (customers : List (ScoredCustomer K)) (key : ℕ × ℕ) : HeatmapCell where
  recencyBin := key.1
  frequencyBin := key.2
  count := (customers.filter fun s => cellOf s = key).length
  monetaryTotal := ((customers.filter fun s => cellOf s = key).map (measured .monetary)).sum

theorem filledCell_partitions (hvalid : tables.Valid) : Partitions
    (cellKeys.map (filledCell (labelled tables since now today))) (labelled tables since now today) where
  grid := by
    rw [List.map_map]
    exact List.map_id _
  placed s hs := by
    refine ⟨filledCell _ (cellOf s), ⟨List.mem_map_of_mem (cellOf_mem hvalid hs), (holds_iff hvalid hs _).mpr rfl⟩, ?_⟩
    rintro cell ⟨hcell, hholds⟩
    obtain ⟨key, -, rfl⟩ := List.mem_map.mp hcell
    have hkey : cellOf s = key := (holds_iff hvalid hs _).mp hholds
    rw [hkey]
  count cell hcell := by
    obtain ⟨key, -, rfl⟩ := List.mem_map.mp hcell
    refine congrArg List.length (List.filter_congr fun s hs => ?_)
    exact Bool.eq_iff_iff.mpr (decide_eq_true_iff.trans (holds_iff hvalid hs (filledCell _ key)).symm)
  monetary cell hcell := by
    obtain ⟨key, -, rfl⟩ := List.mem_map.mp hcell
    refine congrArg (fun l => (List.map (measured Measure.monetary) l).sum) (List.filter_congr fun s hs => ?_)
    exact Bool.eq_iff_iff.mpr (decide_eq_true_iff.trans (holds_iff hvalid hs (filledCell _ key)).symm)
  counts := by
    rw [List.map_map]
    exact sum_filter_key nodup_cellKeys fun s hs => cellOf_mem hvalid hs
  monetaryTotals := by
    rw [List.map_map]
    exact sum_by_key nodup_cellKeys (fun s hs => cellOf_mem hvalid hs) (measured .monetary)

theorem countRows_ok (hvalid : tables.Valid) {recency frequency : Dict K ℕ} {scored : List (RunRfmRow K)}
    (hrecency : ∀ s ∈ labelled tables since now today, recency.lookup s.customerId = s.rScore)
    (hfrequency : ∀ s ∈ labelled tables since now today, frequency.lookup s.customerId = s.fScore)
    (hscored : scored.Perm ((labelled tables since now today).map runRow)) :
    ∃ counts monetary, scored.foldlM (countRow recency frequency) ([], []) = .ok (counts, monetary) ∧
      ∀ key, HeatmapCell.mk key.1 key.2 (counts.at key 0) (monetary.at key 0) =
        filledCell (labelled tables since now today) key := by
  let keyOf : RunRfmRow K → ℕ × ℕ := fun row => (recency.at row.customerId 0, frequency.at row.customerId 0)
  let spent : RunRfmRow K → ℤ := fun row => row.monetary.getD 0
  have hkey : ∀ s ∈ labelled tables since now today, keyOf (runRow s) = cellOf s := fun s hs => by
    unfold cellOf
    rw [← hrecency s hs, ← hfrequency s hs]
    rfl
  have hround : ∀ row ∈ scored, ∀ state, countRow recency frequency state row =
      .ok (state.1.change (keyOf row) 0 (· + 1), state.2.change (keyOf row) 0 (· + spent row)) := by
    intro row hrow state
    obtain ⟨s, hs, rfl⟩ := List.mem_map.mp (hscored.mem_iff.mp hrow)
    obtain ⟨r, hr, -⟩ := bounds_labelled hvalid .recency hs
    obtain ⟨f, hf, -⟩ := bounds_labelled hvalid .frequency hs
    have hr' : recency.lookup (runRow s).customerId = some r := (hrecency s hs).trans hr
    have hf' : frequency.lookup (runRow s).customerId = some f := (hfrequency s hs).trans hf
    have hspent : (runRow s).monetary = some (measured .monetary s) := (labelled_scores hvalid .monetary hs).1
    simp only [keyOf, spent, countRow, Dict.item, Dict.at, hr', hf', hspent]
    rfl
  have hkeys : ∀ key, (scored.filter fun row => keyOf row = key).Perm
      (((labelled tables since now today).filter fun s => cellOf s = key).map runRow) := by
    intro key
    refine (hscored.filter _).trans (.of_eq ?_)
    rw [List.filter_map]
    refine congrArg _ (List.filter_congr fun s hs => ?_)
    simp only [Function.comp_apply, hkey s hs]
  have hboth := foldl_both (fun counts row => Dict.change counts (keyOf row) 0 (· + 1))
    (fun monetary row => Dict.change monetary (keyOf row) 0 (· + spent row)) scored ([], [])
  refine ⟨_, _, (foldlM_ok hround _).trans (congrArg _ hboth), fun key => ?_⟩
  have hcount := at_tally keyOf 0 (fun n _ => n + 1) scored key
  have hmonetary := at_tally keyOf 0 (fun total row => total + spent row) scored key
  rw [foldl_succ, Nat.zero_add, (hkeys key).length_eq, List.length_map] at hcount
  rw [foldl_add, zero_add, ((hkeys key).map spent).sum_eq, List.map_map] at hmonetary
  unfold filledCell
  congr 1

/-- **The heatmap.** Over any order of a run's rows, the bins are the scores the run stored and the cells partition
the labelled customers. -/
theorem heatmap_as_scored (hvalid : tables.Valid) {timestamp float : ℤ → F}
    (htimestamp : Keeps timestamp .recency (labelled tables since now today))
    (hfloat : Keeps float .frequency (labelled tables since now today))
    (hrows : rows.Perm ((scoreRfmRules tables since now today).map runRow)) :
    (∃ bins, (pairsOf RunRfmRow.lastPurchaseAt timestamp (rows.filter fun row => row.labelCode.isSome) >>=
        quintileBins) = .ok bins ∧ ∀ s ∈ labelled tables since now today, bins.lookup s.customerId = s.rScore) ∧
      (∃ bins, (pairsOf RunRfmRow.frequency float (rows.filter fun row => row.labelCode.isSome) >>=
        quintileBins) = .ok bins ∧ ∀ s ∈ labelled tables since now today, bins.lookup s.customerId = s.fScore) ∧
      ∃ cells, buildRfmHeatmap timestamp float rows = .ok cells ∧
        Partitions cells (labelled tables since now today) := by
  have hscored := perm_labelled hrows
  have hlast : ∀ s : ScoredCustomer K, RunRfmRow.lastPurchaseAt (runRow s) = Measure.recency.value s :=
    fun _ => rfl
  have hcount : ∀ s : ScoredCustomer K, RunRfmRow.frequency (runRow s) = Measure.frequency.value s := fun _ => rfl
  obtain ⟨recency, hrecency, hr⟩ := bins_of_scores hvalid hlast htimestamp hscored
  obtain ⟨frequency, hfrequency, hf⟩ := bins_of_scores hvalid hcount hfloat hscored
  refine ⟨⟨recency, hrecency, hr⟩, ⟨frequency, hfrequency, hf⟩, _, ?_, filledCell_partitions hvalid⟩
  obtain ⟨counts, monetary, hcounted, hcells⟩ := countRows_ok hvalid hr hf hscored
  have hrun : buildRfmHeatmap timestamp float rows = (do
      let recency ← pairsOf RunRfmRow.lastPurchaseAt timestamp (rows.filter fun row => row.labelCode.isSome) >>=
        quintileBins
      let frequency ← pairsOf RunRfmRow.frequency float (rows.filter fun row => row.labelCode.isSome) >>=
        quintileBins
      let (counts, monetary) ← (rows.filter fun row => row.labelCode.isSome).foldlM (countRow recency frequency)
        ([], [])
      return cellKeys.map fun key => ⟨key.1, key.2, counts.at key 0, monetary.at key 0⟩) := by
    unfold buildRfmHeatmap
    simp only [bind_assoc]
  rw [hrun, hrecency, hfrequency]
  change (List.foldlM (countRow recency frequency) ([], []) _ >>= _) = _
  rw [hcounted]
  exact congrArg Except.ok (List.map_congr_left fun key _ => hcells key)

theorem heatmap_as_scored_corner : ∃ cells, buildRfmHeatmap (id : ℤ → ℤ) id
    ((scoreRfmRules cornerTables 0 9 5).map runRow).reverse = .ok cells ∧
      Partitions cells (labelled cornerTables 0 9 5) := by
  have hkept : ∀ measure : Measure, Keeps (id : ℤ → ℤ) measure (labelled cornerTables 0 9 5) :=
    fun _ _ _ _ _ h => h
  exact (heatmap_as_scored cornerTables_valid (hkept .recency) (hkept .frequency) (List.reverse_perm _)).2.2

end Run
end RetailSegmentation.SegmentHeatmap
