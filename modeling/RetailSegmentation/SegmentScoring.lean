import Mathlib.Data.Finset.Max
import Mathlib.Data.Prod.Lex
import RetailSegmentation.GroupedRows
import RetailSegmentation.TiledRanks

/-! The scoring of the RFM_RULES method (`web/db/segments.py`): one statement scores every customer's recency,
frequency and spend in quintiles and matches the scores against the segments' bands. Money is in hundredths, an
instant in microseconds and a date in days. -/

namespace RetailSegmentation.SegmentScoring

open Grouping Tiling

/-- 5 is the best score in each measure. -/
def quintiles : ℕ := 5

/-! ### Tables -/

structure TransactionRow (K : Type) where
  customerId : K
  occurredAt : ℤ
  total : ℤ

structure SegmentRow where
  segmentId : ℤ
  labelCode : String
  ruleId : ℤ
  validFrom : ℤ
  validTo : Option ℤ
  deriving DecidableEq, Repr

structure RuleRow where
  ruleId : ℤ
  rMin : ℕ
  rMax : ℕ
  fMin : ℕ
  fMax : ℕ
  mMin : ℕ
  mMax : ℕ
  deriving DecidableEq, Repr

structure LabelRow where
  labelCode : String
  ordinalPosition : ℤ
  deriving DecidableEq, Repr

structure Tables (K : Type) where
  customers : List K
  transactions : List (TransactionRow K)
  segments : List SegmentRow
  rules : List RuleRow
  labels : List LabelRow

/-- What the schema keeps: the keys and the references. -/
structure Tables.Valid {K : Type} (tables : Tables K) : Prop where
  customerKeys : tables.customers.Nodup
  segmentKeys : (tables.segments.map SegmentRow.segmentId).Nodup
  ruleKeys : (tables.rules.map RuleRow.ruleId).Nodup
  labelKeys : (tables.labels.map LabelRow.labelCode).Nodup
  transactionCustomers : ∀ t ∈ tables.transactions, t.customerId ∈ tables.customers
  segmentRules : ∀ s ∈ tables.segments, s.ruleId ∈ tables.rules.map RuleRow.ruleId
  segmentLabels : ∀ s ∈ tables.segments, s.labelCode ∈ tables.labels.map LabelRow.labelCode

/-! ### The statement -/

/-- A row of `window_sales`. -/
structure Sales (K : Type) where
  customerId : K
  lastPurchase : ℤ
  frequency : ℤ
  monetary : ℤ
  deriving DecidableEq, Repr

/-- A row of `scored`. -/
structure Scored (K : Type) where
  customerId : K
  r : ℕ
  f : ℕ
  m : ℕ
  deriving DecidableEq, Repr

structure ScoredCustomer (K : Type) where
  customerId : K
  lastPurchaseAt : Option ℤ
  frequency : Option ℤ
  monetary : Option ℤ
  rScore : Option ℕ
  fScore : Option ℕ
  mScore : Option ℕ
  segmentId : Option ℤ
  labelCode : Option String
  viaFallback : Bool
  deriving DecidableEq, Repr

section Statement

variable {K : Type} [LinearOrder K] (tables : Tables K) (since now today : ℤ)

def inWindow (t : TransactionRow K) : Bool := decide (since ≤ t.occurredAt) && decide (t.occurredAt ≤ now)

/-- `max(...)`, of rows that are there. -/
def greatest (values : List ℤ) : ℤ := values.toFinset.max.unbotD 0

def salesOf (customerId : K) (group : List (TransactionRow K)) : Sales K where
  customerId
  lastPurchase := greatest (group.map TransactionRow.occurredAt)
  frequency := group.length
  monetary := (group.map TransactionRow.total).sum

def windowSales : List (Sales K) :=
  groupBy TransactionRow.customerId salesOf (tables.transactions.filter (inWindow since now))

/-- `5 + 1 - ntile(5) OVER (ORDER BY measure DESC)` over the distinct values of a measure. -/
def bounds (values : List ℤ) : List (ℤ × ℕ) :=
  (ranked values).zipIdx.map fun e => (e.1, quintiles + 1 - ntile quintiles (ranked values).length e.2)

def scored : List (Scored K) :=
  let sales := windowSales tables since now
  (join (join (join sales (bounds (sales.map Sales.lastPurchase)) fun w rb => rb.1 = w.lastPurchase)
    (bounds (sales.map Sales.frequency)) fun row fb => fb.1 = row.1.frequency)
    (bounds (sales.map Sales.monetary)) fun row mb => mb.1 = row.1.1.monetary).map fun row =>
      ⟨row.1.1.1.customerId, row.1.1.2.2, row.1.2.2, row.2.2⟩

def validOn (seg : SegmentRow) : Bool := decide (seg.validFrom ≤ today) && seg.validTo.all (today ≤ ·)

def between (least most : ℕ) (x : ℕ) : Bool := decide (least ≤ x) && decide (x ≤ most)

def RuleRow.holds (rule : RuleRow) (s : Scored K) : Bool :=
  between rule.rMin rule.rMax s.r && between rule.fMin rule.fMax s.f && between rule.mMin rule.mMax s.m

/-- The valid segment whose band holds the triple, the lowest id of several. -/
def bandMatch (s : Option (Scored K)) : Option SegmentRow :=
  ((sortBy (fun row => row.1.segmentId) ((join tables.segments tables.rules fun seg rule =>
    rule.ruleId = seg.ruleId).filter fun row => s.any row.2.holds && validOn today row.1)).head?).map Prod.fst

/-- The valid segment of the worst-ranked label, for a customer with sales whom no band holds. -/
def fallback (w : Option (Sales K)) (matched : Option SegmentRow) : Option SegmentRow :=
  ((sortBy (fun row => toLex (-row.2.ordinalPosition, row.1.segmentId)) ((join tables.segments tables.labels
    fun seg label => label.labelCode = seg.labelCode).filter fun row =>
      w.isSome && matched.isNone && validOn today row.1)).head?).map Prod.fst

def selected (customerId : K) (s : Option (Scored K)) (w : Option (Sales K)) : ScoredCustomer K :=
  let matched := bandMatch tables today s
  let worst := fallback tables today w matched
  { customerId
    lastPurchaseAt := w.map Sales.lastPurchase
    frequency := w.map Sales.frequency
    monetary := w.map Sales.monetary
    rScore := s.map Scored.r
    fScore := s.map Scored.f
    mScore := s.map Scored.m
    segmentId := (matched.or worst).map SegmentRow.segmentId
    labelCode := (matched.or worst).map SegmentRow.labelCode
    viaFallback := matched.isNone && worst.isSome }

/-- Every customer's scores and match; `since` is `now() - make_interval(days => ...)`. -/
def scoreRfmRules : List (ScoredCustomer K) :=
  sortBy ScoredCustomer.customerId ((leftJoin (leftJoin tables.customers (scored tables since now)
    fun c s => s.customerId = c) (windowSales tables since now) fun row w => w.customerId = row.1).map
      fun row => selected tables today row.1.1 row.1.2 row.2)

end Statement

/-! ### What the statement computes -/

section Computed

variable {K : Type} [LinearOrder K] {tables : Tables K} {since now today : ℤ}

omit [LinearOrder K] in
theorem mem_bounds {values : List ℤ} {v : ℤ} (hv : v ∈ values) :
    (v, score quintiles values v) ∈ bounds values := by
  refine List.mem_map.mpr ⟨(v, place values v), ?_, ?_⟩
  · rw [← idxOf_ranked hv, List.mem_zipIdx_iff_getElem?]
    exact List.getElem?_idxOf (mem_ranked.mpr hv)
  · unfold score
    rw [length_ranked]

omit [LinearOrder K] in
theorem nodup_bounds (values : List ℤ) : ((bounds values).map Prod.fst).Nodup := by
  unfold bounds
  rw [List.map_map]
  change (((ranked values).zipIdx.map Prod.fst)).Nodup
  rw [List.zipIdx_map_fst]
  exact ranked_sorted.imp fun h => ne_of_gt h

omit [LinearOrder K] in
theorem join_bounds {ρ : Type} {sales : List (Sales K)} {row : Sales K → ρ} {value : ρ → ℤ} {measure : Sales K → ℤ}
    (hvalue : ∀ w, value (row w) = measure w) :
    join (sales.map row) (bounds (sales.map measure)) (fun r bound => bound.1 = value r) =
      sales.map fun w => (row w, (measure w, score quintiles (sales.map measure) (measure w))) := by
  have hcolumn : ∀ r ∈ sales.map row, (value r, score quintiles (sales.map measure) (value r)) ∈
      bounds (sales.map measure) ∧ Prod.fst (value r,
        score quintiles (sales.map measure) (value r)) = value r := by
    intro r hr
    obtain ⟨w, hw, rfl⟩ := List.mem_map.mp hr
    exact ⟨mem_bounds (hvalue w ▸ List.mem_map_of_mem hw), rfl⟩
  rw [join_column (nodup_bounds _) hcolumn, List.map_map]
  exact List.map_congr_left fun w _ => by rw [Function.comp_apply, hvalue]

def scoreSales (sales : List (Sales K)) (w : Sales K) : Scored K where
  customerId := w.customerId
  r := score quintiles (sales.map Sales.lastPurchase) w.lastPurchase
  f := score quintiles (sales.map Sales.frequency) w.frequency
  m := score quintiles (sales.map Sales.monetary) w.monetary

theorem scored_eq : scored tables since now =
    (windowSales tables since now).map (scoreSales (windowSales tables since now)) := by
  have hr := @join_bounds K _ (windowSales tables since now) id Sales.lastPurchase Sales.lastPurchase fun _ => rfl
  rw [List.map_id] at hr
  unfold scored
  dsimp only
  rw [hr, @join_bounds K _ _ _ (fun row : Sales K × ℤ × ℕ => row.1.frequency) Sales.frequency fun _ => rfl,
    @join_bounds K _ _ _ (fun row : (Sales K × ℤ × ℕ) × ℤ × ℕ => row.1.1.monetary) Sales.monetary
      fun _ => rfl, List.map_map]
  rfl

def salesIn (tables : Tables K) (since now : ℤ) (c : K) : Option (Sales K) :=
  (windowSales tables since now).find? fun w => w.customerId = c

theorem nodup_windowSales : ((windowSales tables since now).map Sales.customerId).Nodup :=
  nodup_groupBy (q := id) (fun _ _ => rfl) fun _ _ _ _ h => h

def rowOf (tables : Tables K) (since now today : ℤ) (c : K) : ScoredCustomer K :=
  selected tables today c ((salesIn tables since now c).map (scoreSales (windowSales tables since now)))
    (salesIn tables since now c)

theorem scoreRfmRules_eq : scoreRfmRules tables since now today =
    (sortBy id tables.customers).map (rowOf tables since now today) := by
  have hkeys : ((scored tables since now).map Scored.customerId).Nodup := by
    rw [scored_eq, List.map_map]
    exact nodup_windowSales
  have hfind : ∀ c, (scored tables since now).find? (fun s => s.customerId = c) =
      (salesIn tables since now c).map (scoreSales (windowSales tables since now)) := by
    intro c
    rw [scored_eq, List.find?_map]
    rfl
  have hscored : leftJoin tables.customers (scored tables since now) (fun c s => s.customerId = c) =
      tables.customers.map fun c => (c, (scored tables since now).find? fun s => s.customerId = c) :=
    leftJoin_key hkeys
  have hrows : leftJoin (leftJoin tables.customers (scored tables since now) fun c s => s.customerId = c)
      (windowSales tables since now) (fun row w => w.customerId = row.1) =
      tables.customers.map fun c => ((c, (salesIn tables since now c).map
        (scoreSales (windowSales tables since now))), salesIn tables since now c) := by
    rw [hscored, leftJoin_key nodup_windowSales, List.map_map]
    simp only [hfind]
    rfl
  unfold scoreRfmRules
  rw [hrows, List.map_map]
  exact (map_sortBy fun _ _ => rfl).symm

theorem salesIn_eq (c : K) : salesIn tables since now c =
    if (tables.transactions.filter (inWindow since now)).filter (fun t => t.customerId = c) = [] then none
    else some (salesOf c ((tables.transactions.filter (inWindow since now)).filter fun t => t.customerId = c)) :=
  find_groupBy (fun _ _ => rfl) c

theorem mem_windowSales {w : Sales K} : w ∈ windowSales tables since now ↔ ∃ c,
    salesIn tables since now c = some w := by
  constructor
  · exact fun hw => ⟨w.customerId, find_key nodup_windowSales hw⟩
  · exact fun ⟨c, hc⟩ => List.mem_of_find?_eq_some hc

/-! ### Measures -/

inductive Measure where
  | recency | frequency | monetary
  deriving DecidableEq, Repr

def Measure.of : Measure → Sales K → ℤ
  | .recency => Sales.lastPurchase
  | .frequency => Sales.frequency
  | .monetary => Sales.monetary

def Measure.value : Measure → ScoredCustomer K → Option ℤ
  | .recency => ScoredCustomer.lastPurchaseAt
  | .frequency => ScoredCustomer.frequency
  | .monetary => ScoredCustomer.monetary

def Measure.score : Measure → ScoredCustomer K → Option ℕ
  | .recency => ScoredCustomer.rScore
  | .frequency => ScoredCustomer.fScore
  | .monetary => ScoredCustomer.mScore

variable {measure : Measure} {c : K}

theorem value_rowOf : measure.value (rowOf tables since now today c) =
    (salesIn tables since now c).map measure.of := by
  cases measure <;> rfl

theorem score_rowOf : measure.score (rowOf tables since now today c) = (salesIn tables since now c).map fun w =>
    score quintiles ((windowSales tables since now).map measure.of) (measure.of w) := by
  cases measure <;> exact Option.map_map _ _ _

theorem score_of_value {v : ℤ} (hv : measure.value (rowOf tables since now today c) = some v) :
    v ∈ (windowSales tables since now).map measure.of ∧ measure.score (rowOf tables since now today c) =
      some (score quintiles ((windowSales tables since now).map measure.of) v) := by
  rw [value_rowOf] at hv
  obtain ⟨w, hw, rfl⟩ := Option.map_eq_some_iff.mp hv
  refine ⟨List.mem_map_of_mem (mem_windowSales.mpr ⟨c, hw⟩), ?_⟩
  rw [score_rowOf, hw]
  rfl

end Computed

/-! ### Segments -/

section Segments

variable {K : Type} {tables : Tables K} {today : ℤ} {s : Scored K} {w : Sales K} {seg : SegmentRow}

def Holds (tables : Tables K) (today : ℤ) (s : Scored K) (seg : SegmentRow) : Prop :=
  seg ∈ tables.segments ∧ validOn today seg = true ∧ ∃ rule ∈ tables.rules,
    rule.ruleId = seg.ruleId ∧ rule.holds s = true

def Placed (tables : Tables K) (today : ℤ) (seg : SegmentRow) (position : ℤ) : Prop :=
  seg ∈ tables.segments ∧ validOn today seg = true ∧
    ∃ label ∈ tables.labels, label.labelCode = seg.labelCode ∧ label.ordinalPosition = position

theorem bandMatch_some (h : bandMatch tables today (some s) = some seg) :
    Holds tables today s seg ∧ ∀ seg', Holds tables today s seg' → seg.segmentId ≤ seg'.segmentId := by
  obtain ⟨row, hrow, rfl⟩ := Option.map_eq_some_iff.mp h
  obtain ⟨hmem, hleast⟩ := head_sortBy hrow
  obtain ⟨hjoin, hholds⟩ := List.mem_filter.mp hmem
  obtain ⟨hseg, hrule, hon⟩ := mem_join.mp hjoin
  obtain ⟨hband, hvalidOn⟩ := Bool.and_eq_true_iff.mp hholds
  refine ⟨⟨hseg, hvalidOn, row.2, hrule, of_decide_eq_true hon, hband⟩, ?_⟩
  rintro seg' ⟨hseg', hvalidOn', rule, hrule', hon', hband'⟩
  refine hleast (seg', rule) (List.mem_filter.mpr ⟨mem_join.mpr ⟨hseg', hrule', decide_eq_true hon'⟩, ?_⟩)
  exact Bool.and_eq_true_iff.mpr ⟨hband', hvalidOn'⟩

theorem bandMatch_none (h : bandMatch tables today (some s) = none) (seg : SegmentRow) :
    ¬ Holds tables today s seg := by
  rintro ⟨hseg, hvalidOn, rule, hrule, hon, hband⟩
  have hnil := head_sortBy_eq_none.mp (Option.map_eq_none_iff.mp h)
  have hmem : (seg, rule) ∈ join tables.segments tables.rules fun seg rule => rule.ruleId = seg.ruleId :=
    mem_join.mpr ⟨hseg, hrule, decide_eq_true hon⟩
  exact List.not_mem_nil (hnil ▸ List.mem_filter.mpr ⟨hmem, Bool.and_eq_true_iff.mpr ⟨hband, hvalidOn⟩⟩)

theorem bandMatch_of_none : bandMatch tables today none = none := by
  unfold bandMatch
  rw [Option.map_eq_none_iff, head_sortBy_eq_none]
  exact List.filter_eq_nil_iff.mpr fun row _ h => by cases h

theorem fallback_some (h : fallback tables today (some w) none = some seg) : ∃ position,
    Placed tables today seg position ∧ ∀ seg' position', Placed tables today seg' position' →
      position' < position ∨ position' = position ∧ seg.segmentId ≤ seg'.segmentId := by
  obtain ⟨row, hrow, rfl⟩ := Option.map_eq_some_iff.mp h
  obtain ⟨hmem, hleast⟩ := head_sortBy hrow
  obtain ⟨hjoin, hvalidOn⟩ := List.mem_filter.mp hmem
  obtain ⟨hseg, hlabel, hon⟩ := mem_join.mp hjoin
  refine ⟨row.2.ordinalPosition, ⟨hseg, hvalidOn, row.2, hlabel, of_decide_eq_true hon, rfl⟩, ?_⟩
  rintro seg' _ ⟨hseg', hvalidOn', label, hlabel', hon', rfl⟩
  have hle := hleast (seg', label) (List.mem_filter.mpr
    ⟨mem_join.mpr ⟨hseg', hlabel', decide_eq_true hon'⟩, hvalidOn'⟩)
  obtain hlt | ⟨heq, hid⟩ := (Prod.Lex.toLex_le_toLex).mp hle
  · exact .inl (neg_lt_neg_iff.mp hlt)
  · exact .inr ⟨(neg_inj.mp heq).symm, hid⟩

theorem fallback_none (h : fallback tables today (some w) none = none) (seg : SegmentRow) (position : ℤ) :
    ¬ Placed tables today seg position := by
  rintro ⟨hseg, hvalidOn, label, hlabel, hon, -⟩
  have hnil := head_sortBy_eq_none.mp (Option.map_eq_none_iff.mp h)
  have hmem : (seg, label) ∈ join tables.segments tables.labels fun seg label => label.labelCode = seg.labelCode :=
    mem_join.mpr ⟨hseg, hlabel, decide_eq_true hon⟩
  exact List.not_mem_nil (hnil ▸ List.mem_filter.mpr ⟨hmem, hvalidOn⟩)

theorem fallback_of_some {w : Option (Sales K)} : fallback tables today w (some seg) = none := by
  unfold fallback
  rw [Option.map_eq_none_iff, head_sortBy_eq_none]
  exact List.filter_eq_nil_iff.mpr fun row _ h => by simp at h

theorem fallback_of_none {matched : Option SegmentRow} : fallback tables today none matched = none := by
  unfold fallback
  rw [Option.map_eq_none_iff, head_sortBy_eq_none]
  exact List.filter_eq_nil_iff.mpr fun row _ h => by cases h

end Segments

/-! ### What the rows say -/

section Rows

variable {K : Type} [LinearOrder K]

def scoredValues (measure : Measure) (rows : List (ScoredCustomer K)) (s : ℕ) : Finset (Option ℤ) :=
  ((rows.filter fun row => measure.score row = some s).map measure.value).toFinset

/-- The label of a scored customer: that of the lowest segment whose band holds the triple, or of the
worst-ranked one where no band does. -/
def LabelledAs (tables : Tables K) (today : ℤ) (row : ScoredCustomer K) (s : Scored K) : Prop :=
  (∃ seg, Holds tables today s seg ∧ (∀ seg', Holds tables today s seg' → seg.segmentId ≤ seg'.segmentId) ∧
    row.segmentId = some seg.segmentId ∧ row.labelCode = some seg.labelCode ∧ row.viaFallback = false) ∨
  (∀ seg, ¬ Holds tables today s seg) ∧ ∃ seg position, Placed tables today seg position ∧
    (∀ seg' position', Placed tables today seg' position' →
      position' < position ∨ position' = position ∧ seg.segmentId ≤ seg'.segmentId) ∧
    row.segmentId = some seg.segmentId ∧ row.labelCode = some seg.labelCode ∧ row.viaFallback = true

/-- The row of a customer without a sale in the window. -/
def unassigned (customerId : K) : ScoredCustomer K :=
  ⟨customerId, none, none, none, none, none, none, none, none, false⟩

/-- What the scoring promises of its rows. -/
structure ScoredRight (tables : Tables K) (since now today : ℤ) (rows : List (ScoredCustomer K)) : Prop where
  customers : (rows.map ScoredCustomer.customerId).Perm tables.customers
  unsold : ∀ row ∈ rows, (∀ t ∈ tables.transactions, inWindow since now t = true → t.customerId ≠ row.customerId) →
    row = unassigned row.customerId
  sold : ∀ row ∈ rows, ∀ t ∈ tables.transactions, inWindow since now t = true → t.customerId = row.customerId →
    ∃ r f m, row.rScore = some r ∧ row.fScore = some f ∧ row.mScore = some m ∧
      LabelledAs tables today row ⟨row.customerId, r, f, m⟩
  monotone : ∀ (measure : Measure), ∀ row ∈ rows, ∀ row' ∈ rows, ∀ v v', measure.value row = some v →
    measure.value row' = some v' → ∃ s s', measure.score row = some s ∧ measure.score row' = some s' ∧
      (v = v' → s = s') ∧ (v ≤ v' → s ≤ s')
  bounds : ∀ (measure : Measure), ∀ row ∈ rows, ∀ s, measure.score row = some s → 1 ≤ s ∧ s ≤ quintiles
  even : ∀ (measure : Measure) s s', 1 ≤ s ∧ s ≤ quintiles → 1 ≤ s' ∧ s' ≤ quintiles →
    (scoredValues measure rows s).card ≤ (scoredValues measure rows s').card + 1

variable {tables : Tables K} {since now today : ℤ} {c : K}

theorem salesIn_none (h : ∀ t ∈ tables.transactions, inWindow since now t = true → t.customerId ≠ c) :
    salesIn tables since now c = none := by
  rw [salesIn_eq, if_pos]
  refine List.filter_eq_nil_iff.mpr fun t ht hid => ?_
  obtain ⟨ht, hwindow⟩ := List.mem_filter.mp ht
  exact h t ht hwindow (of_decide_eq_true hid)

theorem exists_salesIn {t : TransactionRow K} (ht : t ∈ tables.transactions)
    (hwindow : inWindow since now t = true) :
    ∃ w, salesIn tables since now t.customerId = some w := by
  have hne : ¬ (tables.transactions.filter (inWindow since now)).filter (fun t' => t'.customerId = t.customerId) = [] :=
    List.ne_nil_of_mem (List.mem_filter.mpr ⟨List.mem_filter.mpr ⟨ht, hwindow⟩, decide_eq_true rfl⟩)
  rw [salesIn_eq, if_neg hne]
  exact ⟨_, rfl⟩

theorem transaction_of_salesIn {w : Sales K} (h : salesIn tables since now c = some w) :
    ∃ t ∈ tables.transactions, t.customerId = c := by
  by_contra hnone
  rw [salesIn_none fun t ht _ hid => hnone ⟨t, ht, hid⟩] at h
  cases h

theorem mem_rows {row : ScoredCustomer K} : row ∈ scoreRfmRules tables since now today ↔
    ∃ c ∈ tables.customers, rowOf tables since now today c = row := by
  rw [scoreRfmRules_eq, List.mem_map]
  simp only [mem_sortBy]

theorem rowOf_unsold (h : salesIn tables since now c = none) : rowOf tables since now today c = unassigned c := by
  unfold rowOf selected unassigned
  simp only [h, Option.map_none, bandMatch_of_none, fallback_of_none, Option.or_none]
  rfl

theorem rowOf_sold (hvalid : tables.Valid) (hsegment : ∃ seg ∈ tables.segments, validOn today seg = true)
    {w : Sales K}
    (h : salesIn tables since now c = some w) : LabelledAs tables today (rowOf tables since now today c)
      (scoreSales (windowSales tables since now) w) := by
  unfold rowOf selected
  simp only [h, Option.map_some]
  cases hband : bandMatch tables today (some (scoreSales (windowSales tables since now) w)) with
  | some seg =>
      obtain ⟨hholds, hleast⟩ := bandMatch_some hband
      simp only [fallback_of_some]
      exact .inl ⟨seg, hholds, hleast, rfl, rfl, rfl⟩
  | none =>
      cases hworst : fallback tables today (some w) none with
      | some seg =>
          obtain ⟨position, hplaced, hleast⟩ := fallback_some hworst
          exact .inr ⟨bandMatch_none hband, seg, position, hplaced, hleast, rfl, rfl, rfl⟩
      | none =>
          obtain ⟨seg, hseg, hvalidOn⟩ := hsegment
          obtain ⟨label, hlabel, hcode⟩ := List.mem_map.mp (hvalid.segmentLabels seg hseg)
          exact absurd ⟨hseg, hvalidOn, label, hlabel, hcode, rfl⟩ (fallback_none hworst seg label.ordinalPosition)

theorem scoredValues_eq (hvalid : tables.Valid) (measure : Measure) (s : ℕ) :
    scoredValues measure (scoreRfmRules tables since now today) s =
      (((windowSales tables since now).map measure.of).toFinset.filter fun v =>
        score quintiles ((windowSales tables since now).map measure.of) v = s).image some := by
  ext x
  simp only [scoredValues, List.mem_toFinset, List.mem_map, List.mem_filter, Finset.mem_image, Finset.mem_filter,
    mem_rows, decide_eq_true_eq]
  constructor
  · rintro ⟨_, ⟨⟨c, hc, rfl⟩, hs⟩, rfl⟩
    rw [score_rowOf] at hs
    obtain ⟨w, hw, hs⟩ := Option.map_eq_some_iff.mp hs
    refine ⟨measure.of w, ⟨⟨w, mem_windowSales.mpr ⟨c, hw⟩, rfl⟩, hs⟩, ?_⟩
    rw [value_rowOf, hw]
    rfl
  · rintro ⟨_, ⟨⟨w, hw, rfl⟩, hs⟩, rfl⟩
    obtain ⟨c, hc⟩ := mem_windowSales.mp hw
    obtain ⟨t, ht, rfl⟩ := transaction_of_salesIn hc
    refine ⟨_, ⟨⟨t.customerId, hvalid.transactionCustomers t ht, rfl⟩, ?_⟩, ?_⟩
    · rw [score_rowOf, hc]
      exact congrArg some hs
    · rw [value_rowOf, hc]
      rfl

theorem scored_right (hvalid : tables.Valid) (hsegment : ∃ seg ∈ tables.segments, validOn today seg = true) :
    ScoredRight tables since now today (scoreRfmRules tables since now today) where
  customers := by
    rw [scoreRfmRules_eq, List.map_map]
    exact (List.Perm.of_eq (List.map_id _)).trans (perm_sortBy id tables.customers)
  unsold row hrow hnone := by
    obtain ⟨c, -, rfl⟩ := mem_rows.mp hrow
    exact rowOf_unsold (salesIn_none hnone)
  sold row hrow t ht hwindow hid := by
    obtain ⟨c, -, rfl⟩ := mem_rows.mp hrow
    obtain rfl : t.customerId = c := hid
    obtain ⟨w, hw⟩ := exists_salesIn ht hwindow
    have hfound := List.find?_some hw
    have howner : w.customerId = t.customerId := of_decide_eq_true hfound
    have hscore : ∀ measure : Measure, measure.score (rowOf tables since now today t.customerId) =
        some (score quintiles ((windowSales tables since now).map measure.of) (measure.of w)) := fun measure => by
      rw [score_rowOf, hw]
      rfl
    have hlabelled := rowOf_sold hvalid hsegment hw
    refine ⟨_, _, _, hscore .recency, hscore .frequency, hscore .monetary, ?_⟩
    unfold scoreSales at hlabelled
    rwa [howner] at hlabelled
  monotone measure row hrow row' hrow' v v' hv hv' := by
    obtain ⟨c, -, rfl⟩ := mem_rows.mp hrow
    obtain ⟨c', -, rfl⟩ := mem_rows.mp hrow'
    obtain ⟨hmem, hs⟩ := score_of_value hv
    obtain ⟨-, hs'⟩ := score_of_value hv'
    exact ⟨_, _, hs, hs', fun h => h ▸ rfl, score_mono (by decide) hmem⟩
  bounds measure row hrow s hs := by
    obtain ⟨c, -, rfl⟩ := mem_rows.mp hrow
    rw [score_rowOf] at hs
    obtain ⟨w, hw, rfl⟩ := Option.map_eq_some_iff.mp hs
    exact score_bounds (by decide) (List.mem_map_of_mem (mem_windowSales.mpr ⟨c, hw⟩))
  even measure s s' hs hs' := by
    rw [scoredValues_eq hvalid, scoredValues_eq hvalid, Finset.card_image_of_injective _ (Option.some_injective _),
      Finset.card_image_of_injective _ (Option.some_injective _)]
    exact card_score_le (by decide) hs hs'

end Rows

/-! ### Neither ids nor the order of rows matter -/

section Renaming

variable {K K' : Type}

def TransactionRow.rename (f : K → K') (t : TransactionRow K) : TransactionRow K' :=
  ⟨f t.customerId, t.occurredAt, t.total⟩

def Sales.rename (f : K → K') (w : Sales K) : Sales K' := ⟨f w.customerId, w.lastPurchase, w.frequency, w.monetary⟩

def ScoredCustomer.rename (f : K → K') (row : ScoredCustomer K) : ScoredCustomer K' :=
  { row with customerId := f row.customerId }

/-- The same rows under other customer ids, and in any order. -/
structure Renamed (f : K → K') (tables : Tables K) (tables' : Tables K') : Prop where
  customers : tables'.customers.Perm (tables.customers.map f)
  transactions : tables'.transactions.Perm (tables.transactions.map (TransactionRow.rename f))
  segments : tables'.segments.Perm tables.segments
  rules : tables'.rules.Perm tables.rules
  labels : tables'.labels.Perm tables.labels

theorem greatest_perm {values values' : List ℤ} (h : values.Perm values') :
    greatest values = greatest values' := by
  unfold greatest
  rw [List.toFinset_eq_of_perm _ _ h]

theorem salesOf_renamed {f : K → K'} {c : K} {group : List (TransactionRow K)} {group' : List (TransactionRow K')}
    (h : group'.Perm (group.map (TransactionRow.rename f))) :
      salesOf (f c) group' = (salesOf c group).rename f := by
  have hlast : (group'.map TransactionRow.occurredAt).Perm (group.map TransactionRow.occurredAt) :=
    (h.map _).trans (.of_eq (by rw [List.map_map]; rfl))
  have htotal : (group'.map TransactionRow.total).Perm (group.map TransactionRow.total) :=
    (h.map _).trans (.of_eq (by rw [List.map_map]; rfl))
  unfold salesOf Sales.rename
  rw [greatest_perm hlast, htotal.sum_eq, h.length_eq, List.length_map]

variable [LinearOrder K] [LinearOrder K'] {f : K → K'} (hf : Function.Injective f) {tables : Tables K}
  {tables' : Tables K'} (h : Renamed f tables tables') {since now today : ℤ}

include hf h

theorem salesIn_renamed (c : K) : salesIn tables' since now (f c) = (salesIn tables since now c).map (Sales.rename f) := by
  have hgroup : ((tables'.transactions.filter (inWindow since now)).filter fun t => t.customerId = f c).Perm
      (((tables.transactions.filter (inWindow since now)).filter fun t => t.customerId = c).map
        (TransactionRow.rename f)) := by
    refine ((h.transactions.filter _).filter _).trans (.of_eq ?_)
    rw [List.filter_map, List.filter_map]
    refine congrArg _ (List.filter_congr fun t _ => ?_)
    exact decide_eq_decide.mpr hf.eq_iff
  rw [salesIn_eq, salesIn_eq]
  by_cases hnone : (tables.transactions.filter (inWindow since now)).filter (fun t => t.customerId = c) = []
  · rw [if_pos hnone, if_pos]
    · rfl
    · rw [hnone] at hgroup
      exact hgroup.eq_nil
  · have hnone' : ¬ (tables'.transactions.filter (inWindow since now)).filter (fun t => t.customerId = f c) = [] := by
      intro hnil
      rw [hnil] at hgroup
      exact hnone (List.map_eq_nil_iff.mp hgroup.nil_eq.symm)
    rw [if_neg hnone, if_neg hnone', salesOf_renamed hgroup]
    rfl

theorem mem_values_renamed (measure : Measure) (v : ℤ) : v ∈ (windowSales tables' since now).map measure.of ↔
    v ∈ (windowSales tables since now).map measure.of := by
  have hof : ∀ w : Sales K, measure.of (w.rename f) = measure.of w := fun w => by cases measure <;> rfl
  simp only [List.mem_map, mem_windowSales]
  constructor
  · rintro ⟨w', ⟨c', hc'⟩, rfl⟩
    obtain ⟨t', ht', rfl⟩ := transaction_of_salesIn hc'
    obtain ⟨t, -, rfl⟩ := List.mem_map.mp (h.transactions.mem_iff.mp ht')
    rw [show (t.rename f).customerId = f t.customerId from rfl, salesIn_renamed hf h] at hc'
    obtain ⟨w, hw, rfl⟩ := Option.map_eq_some_iff.mp hc'
    exact ⟨w, ⟨_, hw⟩, (hof w).symm⟩
  · rintro ⟨w, ⟨c, hc⟩, rfl⟩
    exact ⟨w.rename f, ⟨f c, by rw [salesIn_renamed hf h, hc]; rfl⟩, hof w⟩

omit hf [LinearOrder K] [LinearOrder K'] in
theorem holds_renamed {s : Scored K} {s' : Scored K'} (hr : s'.r = s.r) (hf : s'.f = s.f) (hm : s'.m = s.m)
    (seg : SegmentRow) : Holds tables' today s' seg ↔ Holds tables today s seg := by
  unfold Holds RuleRow.holds
  rw [hr, hf, hm, h.segments.mem_iff]
  simp only [h.rules.mem_iff]

omit hf [LinearOrder K] [LinearOrder K'] in
theorem placed_renamed (seg : SegmentRow) (position : ℤ) :
    Placed tables' today seg position ↔ Placed tables today seg position := by
  unfold Placed
  rw [h.segments.mem_iff]
  simp only [h.labels.mem_iff]

omit hf [LinearOrder K] [LinearOrder K'] in
theorem bandMatch_renamed (hkeys : (tables.segments.map SegmentRow.segmentId).Nodup) {s : Scored K}
    {s' : Scored K'}
    (hr : s'.r = s.r) (hf : s'.f = s.f) (hm : s'.m = s.m) :
    bandMatch tables' today (some s') = bandMatch tables today (some s) := by
  have hholds := @holds_renamed _ _ f tables tables' h today s s' hr hf hm
  cases hmatch : bandMatch tables today (some s) with
  | none =>
      cases hmatch' : bandMatch tables' today (some s') with
      | none => rfl
      | some seg' => exact absurd ((hholds seg').mp (bandMatch_some hmatch').1) (bandMatch_none hmatch seg')
  | some seg =>
      obtain ⟨hseg, hleast⟩ := bandMatch_some hmatch
      cases hmatch' : bandMatch tables' today (some s') with
      | none => exact absurd ((hholds seg).mpr hseg) (bandMatch_none hmatch' seg)
      | some seg' =>
          obtain ⟨hseg', hleast'⟩ := bandMatch_some hmatch'
          have hseg' := (hholds seg').mp hseg'
          have hid : seg'.segmentId = seg.segmentId :=
            le_antisymm (hleast' seg ((hholds seg).mpr hseg)) (hleast seg' hseg')
          rw [eq_of_key hkeys hseg.1 hseg'.1 hid]

omit hf [LinearOrder K] [LinearOrder K'] in
theorem fallback_renamed (hkeys : (tables.segments.map SegmentRow.segmentId).Nodup) (w : Sales K) (w' : Sales K') :
    fallback tables' today (some w') none = fallback tables today (some w) none := by
  have hplaced := @placed_renamed _ _ f tables tables' h today
  cases hworst : fallback tables today (some w) none with
  | none =>
      cases hworst' : fallback tables' today (some w') none with
      | none => rfl
      | some seg' =>
          obtain ⟨position', hseg', -⟩ := fallback_some hworst'
          exact absurd ((hplaced seg' position').mp hseg') (fallback_none hworst seg' position')
  | some seg =>
      obtain ⟨position, hseg, hleast⟩ := fallback_some hworst
      cases hworst' : fallback tables' today (some w') none with
      | none => exact absurd ((hplaced seg position).mpr hseg) (fallback_none hworst' seg position)
      | some seg' =>
          obtain ⟨position', hseg', hleast'⟩ := fallback_some hworst'
          have hseg' := (hplaced seg' position').mp hseg'
          have hid : seg'.segmentId = seg.segmentId := by
            have hle := hleast seg' position' hseg'
            have hle' := hleast' seg position ((hplaced seg position).mpr hseg)
            omega
          rw [eq_of_key hkeys hseg.1 hseg'.1 hid]

theorem rowOf_renamed (hkeys : (tables.segments.map SegmentRow.segmentId).Nodup) (c : K) :
    rowOf tables' since now today (f c) = (rowOf tables since now today c).rename f := by
  cases hsales : salesIn tables since now c with
  | none =>
      have hsales' : salesIn tables' since now (f c) = none := by rw [salesIn_renamed hf h, hsales]; rfl
      rw [rowOf_unsold hsales, rowOf_unsold hsales']
      rfl
  | some w =>
      have hsales' : salesIn tables' since now (f c) = some (w.rename f) := by
        rw [salesIn_renamed hf h, hsales]
        rfl
      have hscore : ∀ (measure : Measure) v, score quintiles ((windowSales tables' since now).map measure.of) v =
          score quintiles ((windowSales tables since now).map measure.of) v :=
        fun measure v => score_congr (mem_values_renamed hf h measure)
      have hscores : scoreSales (windowSales tables' since now) (w.rename f) =
          { scoreSales (windowSales tables since now) w with customerId := f w.customerId } := by
        unfold scoreSales
        congr 1
        · exact hscore .recency w.lastPurchase
        · exact hscore .frequency w.frequency
        · exact hscore .monetary w.monetary
      have hmatch : bandMatch tables' today (some (scoreSales (windowSales tables' since now) (w.rename f))) =
          bandMatch tables today (some (scoreSales (windowSales tables since now) w)) := by
        rw [hscores]
        exact bandMatch_renamed h hkeys rfl rfl rfl
      unfold rowOf selected
      simp only [hsales, hsales', Option.map_some, hmatch]
      cases hband : bandMatch tables today (some (scoreSales (windowSales tables since now) w)) with
      | none =>
          rw [fallback_renamed h hkeys w (w.rename f), hscores]
          rfl
      | some seg =>
          rw [fallback_of_some, fallback_of_some, hscores]
          rfl

/-- Rows for the same customers under other ids, read in any order, are the same rows under those ids. -/
theorem scoreRfmRules_renamed (hkeys : (tables.segments.map SegmentRow.segmentId).Nodup) :
    (scoreRfmRules tables' since now today).Perm
      ((scoreRfmRules tables since now today).map (ScoredCustomer.rename f)) := by
  rw [scoreRfmRules_eq, scoreRfmRules_eq, List.map_map]
  have hcustomers := ((perm_sortBy id tables'.customers).trans h.customers).map (rowOf tables' since now today)
  have hrows : (tables.customers.map f).map (rowOf tables' since now today) =
      tables.customers.map (ScoredCustomer.rename f ∘ rowOf tables since now today) := by
    rw [List.map_map]
    exact List.map_congr_left fun c _ => rowOf_renamed hf h hkeys c
  exact hcustomers.trans ((List.Perm.of_eq hrows).trans ((perm_sortBy id tables.customers).symm.map _))

end Renaming

/-- **The scoring.** One row for every customer, scored and labelled as the rule says, whatever their ids and the
order of the tables' rows. -/
theorem score_rfm_rules {K : Type} [LinearOrder K] {tables : Tables K} {since now today : ℤ}
    (hvalid : tables.Valid)
    (hsegment : ∃ seg ∈ tables.segments, validOn today seg = true) :
    ScoredRight tables since now today (scoreRfmRules tables since now today) ∧
      ∀ (K' : Type) [LinearOrder K'] (f : K → K') (tables' : Tables K'), Function.Injective f →
        Renamed f tables tables' → (scoreRfmRules tables' since now today).Perm
          ((scoreRfmRules tables since now today).map (ScoredCustomer.rename f)) :=
  ⟨scored_right hvalid hsegment, fun _ _ _ _ hf h => scoreRfmRules_renamed hf h hvalid.segmentKeys⟩

/-- Three customers, one without a sale, and one band that holds only the best. -/
def cornerTables : Tables ℕ where
  customers := [1, 2, 3]
  transactions := [⟨1, 5, 300⟩, ⟨2, 4, 100⟩, ⟨1, 3, 100⟩]
  segments := [⟨1, "gold", 1, 0, none⟩, ⟨2, "tin", 2, 0, some 9⟩]
  rules := [⟨1, 5, 5, 5, 5, 5, 5⟩, ⟨2, 1, 1, 1, 1, 1, 1⟩]
  labels := [⟨"gold", 1⟩, ⟨"tin", 2⟩]

theorem cornerTables_valid : cornerTables.Valid :=
  ⟨by decide, by decide, by decide, by decide, by decide, by decide, by decide⟩

theorem score_rfm_rules_corner : ((scoreRfmRules cornerTables 0 9 5).map ScoredCustomer.viaFallback) = [false,
    true, false] ∧
    ScoredRight cornerTables 0 9 5 (scoreRfmRules cornerTables 0 9 5) :=
  ⟨by decide +kernel, (score_rfm_rules cornerTables_valid ⟨⟨1, "gold", 1, 0, none⟩, by decide, by decide⟩).1⟩

end RetailSegmentation.SegmentScoring
