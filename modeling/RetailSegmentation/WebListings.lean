import Mathlib.Data.List.Lex
import Mathlib.Data.String.Basic
import RetailSegmentation.ExperimentConversions
import RetailSegmentation.PagedRows
import RetailSegmentation.SearchPatterns

/-! The listings of the web in pages: customers (`web/db/customers.py`), the history of the segments
(`web/db/segment_history_report.py`) and the conversions of an experiment
(`web/db/experiment_conversions.py`). Each pairs a query with a limit and a count of its own. -/

namespace RetailSegmentation.WebListings

open ExperimentResults Grouping LikePatterns OldestFirst SearchPatterns

/-! ### Tables -/

structure CustomerRow where
  customerId : String
  userId : Option String
  name : List Char
  email : Option (List Char)
  phone : Option (List Char)
  registrationChannelId : ℤ
  registeredOn : ℤ
  deriving DecidableEq, Repr

/-- `customer_segment_history`, money in cents. -/
structure HistoryRow where
  historyId : ℤ
  customerId : String
  runId : ℤ
  segmentId : Option ℤ
  labelCode : Option String
  lastPurchaseAt : Option Instant
  frequencyCount : Option ℤ
  monetaryTotal : Option ℤ
  rScore : Option ℤ
  fScore : Option ℤ
  mScore : Option ℤ
  validFrom : Instant
  validTo : Option Instant
  deriving DecidableEq, Repr

structure RunRow where
  runId : ℤ
  method : String
  windowDays : ℤ
  runAt : Instant
  dataOrigin : String
  deriving DecidableEq, Repr

structure LabelRow where
  labelCode : String
  name : String
  deriving DecidableEq, Repr

structure ConversionRow where
  conversionId : ℤ
  assignmentId : ℤ
  transactionId : ℤ
  deriving DecidableEq, Repr

structure TransactionRow where
  transactionId : ℤ
  sourceTransactionId : String
  occurredAt : Instant
  total : ℤ
  deriving DecidableEq, Repr

structure Tables where
  customers : List CustomerRow
  history : List HistoryRow
  runs : List RunRow
  labels : List LabelRow
  conversions : List ConversionRow
  assignments : List AssignmentRow
  groups : List GroupRow
  experiments : List ExperimentRow
  transactions : List TransactionRow

def HistoryRow.isOpen (h : HistoryRow) : Bool := h.validTo = none

/-- What the schema keeps: the keys, at most one open assignment of a customer, and the rows that others refer
to. -/
structure Tables.Valid (db : Tables) : Prop where
  customers : (db.customers.map CustomerRow.customerId).Nodup
  history : (db.history.map HistoryRow.historyId).Nodup
  oneOpen : ((db.history.filter HistoryRow.isOpen).map HistoryRow.customerId).Nodup
  runs : (db.runs.map RunRow.runId).Nodup
  labels : (db.labels.map LabelRow.labelCode).Nodup
  conversions : (db.conversions.map ConversionRow.conversionId).Nodup
  assignments : (db.assignments.map AssignmentRow.assignmentId).Nodup
  groups : (db.groups.map GroupRow.groupId).Nodup
  experiments : (db.experiments.map ExperimentRow.experimentId).Nodup
  transactions : (db.transactions.map TransactionRow.transactionId).Nodup
  historyCustomers : ∀ h ∈ db.history, h.customerId ∈ db.customers.map CustomerRow.customerId
  historyRuns : ∀ h ∈ db.history, h.runId ∈ db.runs.map RunRow.runId
  conversionAssignments : ∀ c ∈ db.conversions, c.assignmentId ∈ db.assignments.map AssignmentRow.assignmentId
  conversionTransactions : ∀ c ∈ db.conversions, c.transactionId ∈ db.transactions.map TransactionRow.transactionId
  assignmentGroups : ∀ a ∈ db.assignments, a.groupId ∈ db.groups.map GroupRow.groupId
  assignmentExperiments : ∀ a ∈ db.assignments, a.experimentId ∈ db.experiments.map ExperimentRow.experimentId

/-! ### Listings -/

/-- What the two statements of a listing are over: the rows, the key that they are ordered by, and the count. -/
structure Listing (α T : Type) where
  rows : List α
  key : α → T
  total : ℕ

def pageCount (total perPage : ℕ) : ℕ := max 1 ((total + perPage - 1) / perPage)

/-- However the rows of one key are ordered for each page, the pages from 1 to the last hold what matches
once, in the order of the listing, and the total is how much matches. -/
def Listing.Partitions {α T : Type} [LinearOrder T] (listing : Listing α T) (perPage : ℕ)
    (matching : List α) : Prop :=
  listing.total = matching.length ∧
    ∀ pages : ℕ → List α, (∀ page, IsPage listing.key ((page - 1) * perPage) perPage listing.rows (pages page)) →
      ((List.range (pageCount listing.total perPage)).flatMap fun k => pages (k + 1)).Perm matching ∧
        ((List.range (pageCount listing.total perPage)).flatMap fun k => pages (k + 1)).Pairwise
          fun a b => listing.key a ≤ listing.key b

/-- A customer as listed. -/
structure Customer where
  customerId : String
  userId : Option String
  name : List Char
  email : Option (List Char)
  phone : Option (List Char)
  registrationChannelId : ℤ
  registeredOn : ℤ
  labelName : Option String
  deriving DecidableEq, Repr

def customerOf (c : CustomerRow) (labelName : Option String) : Customer :=
  ⟨c.customerId, c.userId, c.name, c.email, c.phone, c.registrationChannelId, c.registeredOn, labelName⟩

structure RunAssignment where
  customerId : String
  customerName : List Char
  segmentId : Option ℤ
  labelCode : Option String
  rScore : Option ℤ
  fScore : Option ℤ
  mScore : Option ℤ
  lastPurchaseAt : Option Instant
  frequencyCount : Option ℤ
  monetaryTotal : Option ℤ
  deriving DecidableEq, Repr

structure HistoryEntry where
  historyId : ℤ
  runId : ℤ
  runAt : Instant
  method : String
  windowDays : ℤ
  validFrom : Instant
  validTo : Option Instant
  labelName : Option String
  assignment : RunAssignment
  dataOrigin : String
  deriving DecidableEq, Repr

def historyEntry (h : HistoryRow) (c : CustomerRow) (r : RunRow) (labelName : Option String) : HistoryEntry :=
  ⟨h.historyId, h.runId, r.runAt, r.method, r.windowDays, h.validFrom, h.validTo, labelName,
    ⟨h.customerId, c.name, h.segmentId, h.labelCode, h.rScore, h.fScore, h.mScore, h.lastPurchaseAt,
      h.frequencyCount,
      h.monetaryTotal⟩, r.dataOrigin⟩

/-- The filters of the history, each optional. -/
structure HistoryFilters where
  runId : Option ℤ := none
  labelCode : Option String := none
  periodStart : Option ℤ := none
  periodEnd : Option ℤ := none

structure Attribution where
  conversionId : ℤ
  assignmentId : ℤ
  customerId : String
  kind : Experiments.Kind
  assignedAt : Instant
  windowEndsAt : Instant
  transactionId : ℤ
  sourceTransactionId : String
  occurredAt : Instant
  total : ℤ
  deriving DecidableEq, Repr

def attributionOf (plusDays : Instant → ℤ → Instant) (c : ConversionRow) (a : AssignmentRow) (g : GroupRow)
    (e : ExperimentRow) (t : TransactionRow) : Attribution :=
  ⟨c.conversionId, a.assignmentId, a.customerId, g.kind, a.assignedAt,
    plusDays a.assignedAt e.conversionWindowDays,
    t.transactionId, t.sourceTransactionId, t.occurredAt, t.total⟩

section Statements

variable {N : Type}

-- What the database folds case with, how it orders names, the midnight a day starts at, and
-- `timestamptz + make_interval(days => ...)`.
variable (fold : Char → List Char) (collate : List Char → N) (midnight : ℤ → Instant)
  (plusDays : Instant → ℤ → Instant) (db : Tables)

def likes (pattern : List Char) (text : Option (List Char)) : Bool :=
  text.any fun text => (ilike fold text pattern).toOption = some true

/-- `WHERE c.name ILIKE ... OR c.email ILIKE ...`, where there is something to search for. -/
def searched (search : Option (List Char)) (c : CustomerRow) : Bool :=
  match search with
  | none | some [] => true
  | some (q :: search) =>
    let pattern := ilikePattern (q :: search)
    likes fold pattern (some c.name) || likes fold pattern c.email

/-- `list_customers`: by name and id. -/
def listCustomers (search : Option (List Char)) : Listing Customer (N ×ₗ String) where
  rows :=
    let joined := leftJoin (leftJoin db.customers db.history fun c h => h.customerId = c.customerId ∧
      h.isOpen = true)
      db.labels fun row l => some l.labelCode = row.2.bind HistoryRow.labelCode
    (joined.filter fun row => searched fold search row.1.1).map fun row =>
      customerOf row.1.1 (row.2.map LabelRow.name)
  key c := toLex (collate c.name, c.customerId)
  total := (db.customers.filter (searched fold search)).length

/-- `list_customers_in_segment`: by name alone. -/
def listCustomersInSegment (segmentId : ℤ) : Listing Customer N where
  rows :=
    ((join db.customers db.history fun c h => h.customerId = c.customerId ∧ h.isOpen = true).filter fun row =>
      row.2.segmentId = some segmentId).map fun row => customerOf row.1 none
  key c := collate c.name
  total := (db.history.filter fun h => h.segmentId = some segmentId ∧ h.isOpen = true).length

/-- The condition of both statements about the history. -/
def HistoryFilters.holds (filters : HistoryFilters) (h : HistoryRow) (r : RunRow) : Bool :=
  filters.runId.all (h.runId = ·) &&
    filters.labelCode.all (fun code => (code = "" ∧ h.labelCode = none) ∨ h.labelCode = some code) &&
    filters.periodStart.all (fun day => midnight day ≤ r.runAt) &&
    filters.periodEnd.all fun day => r.runAt < midnight (day + 1)

/-- `list_history_entries` and `count_history_entries`: the newest run first, then by name and customer. -/
def listHistoryEntries (filters : HistoryFilters) : Listing HistoryEntry (ℤ ×ₗ N ×ₗ String) where
  rows :=
    let joined := leftJoin (join (join db.history db.customers fun h c => c.customerId = h.customerId) db.runs
      fun row r => r.runId = row.1.runId) db.labels fun row l => some l.labelCode = row.1.1.labelCode
    (joined.filter fun row => filters.holds midnight row.1.1.1 row.1.2).map fun row =>
      historyEntry row.1.1.1 row.1.1.2 row.1.2 (row.2.map LabelRow.name)
  key e := toLex (-e.runAt, toLex (collate e.assignment.customerName, e.assignment.customerId))
  total := ((join db.history db.runs fun h r => r.runId = h.runId).filter fun row =>
    filters.holds midnight row.1 row.2).length

/-- `list_attributions`: the newest sale first, then the newest conversion. -/
def listAttributions (experimentId : ℤ) : Listing Attribution (ℤ ×ₗ ℤ) where
  rows :=
    let joined := join (join (join (join db.conversions db.assignments fun c a => a.assignmentId = c.assignmentId)
      db.groups fun row g => g.groupId = row.2.groupId)
      db.experiments fun row e => e.experimentId = row.1.2.experimentId)
      db.transactions fun row t => t.transactionId = row.1.1.1.transactionId
    (joined.filter fun row => row.1.1.1.2.experimentId = experimentId).map fun row =>
      attributionOf plusDays row.1.1.1.1 row.1.1.1.2 row.1.1.2 row.1.2 row.2
  key a := toLex (-a.occurredAt, -a.conversionId)
  total := ((join db.conversions db.assignments fun c a => a.assignmentId = c.assignmentId).filter fun row =>
    row.2.experimentId = experimentId).length

/-! ### What matches -/

/-- The assignment that a customer holds. -/
def Tables.openRow (c : CustomerRow) : Option HistoryRow :=
  (db.history.filter HistoryRow.isOpen).find? fun h => h.customerId = c.customerId

def Tables.labelName (labelCode : Option String) : Option String :=
  (db.labels.find? fun l => some l.labelCode = labelCode).map LabelRow.name

/-- The customers that the search finds, each with the label of the assignment they hold. -/
def matchingCustomers (search : Option (List Char)) : List Customer :=
  (db.customers.filter (searched fold search)).map fun c =>
    customerOf c (db.labelName ((db.openRow c).bind HistoryRow.labelCode))

def customersInSegment (segmentId : ℤ) : List Customer :=
  (db.customers.filter fun c => (db.openRow c).any fun h => h.segmentId = some segmentId).map fun c =>
    customerOf c none

def Tables.customer (h : HistoryRow) : Option CustomerRow :=
  db.customers.find? fun c => c.customerId = h.customerId

def Tables.run (h : HistoryRow) : Option RunRow := db.runs.find? fun r => r.runId = h.runId

/-- The assignments that the filters hold of, each with its customer, its run and its label. -/
def matchingEntries (filters : HistoryFilters) : List HistoryEntry :=
  (db.history.filter fun h => (db.run h).any fun r => filters.holds midnight h r).filterMap fun h =>
    (db.customer h).bind fun c => (db.run h).map fun r => historyEntry h c r (db.labelName h.labelCode)

def Tables.assignment (c : ConversionRow) : Option AssignmentRow :=
  db.assignments.find? fun a => a.assignmentId = c.assignmentId

def Tables.group (a : AssignmentRow) : Option GroupRow := db.groups.find? fun g => g.groupId = a.groupId

def Tables.experiment (a : AssignmentRow) : Option ExperimentRow :=
  db.experiments.find? fun e => e.experimentId = a.experimentId

def Tables.transaction (c : ConversionRow) : Option TransactionRow :=
  db.transactions.find? fun t => t.transactionId = c.transactionId

/-- The conversions of the experiment, each with its assignment and its sale. -/
def matchingAttributions (experimentId : ℤ) : List Attribution :=
  (db.conversions.filter fun c => (db.assignment c).any fun a => a.experimentId = experimentId).filterMap fun c =>
    (db.assignment c).bind fun a => (db.group a).bind fun g => (db.experiment a).bind fun e =>
      (db.transaction c).map fun t => attributionOf plusDays c a g e t

end Statements

/-! ### Pages -/

theorem le_pageCount (total : ℕ) {perPage : ℕ} (hper : 0 < perPage) :
    total ≤ pageCount total perPage * perPage := by
  have hdiv := Nat.div_add_mod (total + perPage - 1) perPage
  have hmod := Nat.mod_lt (total + perPage - 1) hper
  have hle : total ≤ (total + perPage - 1) / perPage * perPage := by
    rw [Nat.mul_comm]
    omega
  exact hle.trans (Nat.mul_le_mul_right perPage (Nat.le_max_right _ _))

/-- Where the rows are what matches, and the count is theirs, the pages partition them exactly when none ends
within the rows of one key. -/
theorem Listing.partitions_iff {α T : Type} [LinearOrder T] {listing : Listing α T} {matching : List α}
    {perPage : ℕ}
    (hrows : listing.rows = matching) (htotal : listing.total = matching.length) (hnodup : matching.Nodup)
    (hper : 0 < perPage) : listing.Partitions perPage matching ↔ Aligned listing.key perPage matching := by
  have hmany := le_pageCount matching.length hper
  refine Iff.trans ?_ (forall_pages_at_iff hper hnodup hmany)
  unfold Partitions
  rw [hrows, htotal]
  constructor
  · rintro ⟨-, hall⟩ pages hpages
    exact hall (fun page => pages (page - 1)) fun page => hpages (page - 1)
  · intro hall
    exact ⟨rfl, fun pages hpages => hall (fun k => pages (k + 1)) fun k => hpages (k + 1)⟩

theorem Listing.partitions {α T : Type} [LinearOrder T] {listing : Listing α T} {matching : List α} {perPage : ℕ}
    (hrows : listing.rows = matching) (htotal : listing.total = matching.length) (hnodup : matching.Nodup)
    (hkey : ∀ a ∈ matching, ∀ b ∈ matching, listing.key a = listing.key b → a = b) (hper : 0 < perPage) :
    listing.Partitions perPage matching :=
  (partitions_iff hrows htotal hnodup hper).mpr (aligned_of_injOn hnodup hkey)

/-! ### The rows are what matches -/

section Rows

variable {N : Type} {fold : Char → List Char} {collate : List Char → N} {midnight : ℤ → Instant}
  {plusDays : Instant → ℤ → Instant} {db : Tables}

theorem filter_and {α : Type} (ys : List α) (p q : α → Bool) :
    ys.filter (fun y => p y = true ∧ q y = true) = (ys.filter q).filter p := by
  rw [List.filter_filter]
  refine List.filter_congr fun y _ => ?_
  rw [Bool.decide_and, Bool.decide_eq_true, Bool.decide_eq_true]

theorem leftJoin_open (db : Tables) :
    leftJoin db.customers db.history (fun c h => h.customerId = c.customerId ∧ h.isOpen = true) =
      leftJoin db.customers (db.history.filter HistoryRow.isOpen) fun c h => h.customerId = c.customerId := by
  unfold leftJoin
  refine List.flatMap_congr fun c _ => ?_
  rw [← filter_and db.history (fun h => h.customerId = c.customerId) HistoryRow.isOpen]
  simp only [decide_eq_true_eq]

theorem join_open (db : Tables) :
    join db.customers db.history (fun c h => h.customerId = c.customerId ∧ h.isOpen = true) =
      join db.customers (db.history.filter HistoryRow.isOpen) fun c h => h.customerId = c.customerId := by
  unfold join
  refine List.flatMap_congr fun c _ => ?_
  rw [← filter_and db.history (fun h => h.customerId = c.customerId) HistoryRow.isOpen]
  simp only [decide_eq_true_eq]

theorem length_filterMap_congr {α β γ : Type} {f : α → Option β} {g : α → Option γ} {xs : List α}
    (h : ∀ x ∈ xs, (f x).isSome = (g x).isSome) : (xs.filterMap f).length = (xs.filterMap g).length := by
  rw [List.length_filterMap_eq_countP, List.length_filterMap_eq_countP]
  exact List.countP_congr fun x hx => by rw [h x hx]

theorem labels_nodup (h : db.Valid) : (db.labels.map fun l => some l.labelCode).Nodup := by
  have hmapped := h.labels.map (Option.some_injective String)
  rwa [List.map_map] at hmapped

theorem listCustomers_rows (h : db.Valid) (search : Option (List Char)) :
    (listCustomers fold collate db search).rows = matchingCustomers fold db search := by
  unfold listCustomers matchingCustomers
  dsimp only
  rw [leftJoin_open, leftJoin_key h.oneOpen, leftJoin_key (labels_nodup h), List.map_map, List.filter_map,
    List.map_map]
  rfl

theorem listCustomersInSegment_rows (h : db.Valid) (segmentId : ℤ) :
    (listCustomersInSegment collate db segmentId).rows = customersInSegment db segmentId := by
  unfold listCustomersInSegment customersInSegment
  dsimp only
  rw [join_open, join_key h.oneOpen, List.filter_filterMap, List.map_filterMap, ← List.filterMap_eq_map',
    List.filterMap_filter]
  refine List.filterMap_congr fun c _ => ?_
  unfold Tables.openRow
  cases (db.history.filter HistoryRow.isOpen).find? fun h => h.customerId = c.customerId with
  | none => rfl
  | some row =>
      by_cases hsegment : row.segmentId = some segmentId
      · simp [hsegment]
      · simp [hsegment]

theorem customer_eq (h : db.Valid) {row : HistoryRow} (hrow : row ∈ db.history) : ∃ c,
    db.customer row = some c := by
  obtain ⟨c, hc, hcustomer⟩ := List.mem_map.mp (h.historyCustomers row hrow)
  refine ⟨c, ?_⟩
  unfold Tables.customer
  rw [← hcustomer]
  exact find_key h.customers hc

theorem listHistoryEntries_rows (h : db.Valid) (filters : HistoryFilters) :
    (listHistoryEntries collate midnight db filters).rows = matchingEntries midnight db filters := by
  unfold listHistoryEntries matchingEntries
  dsimp only
  rw [join_key h.customers, join_key h.runs, leftJoin_key (labels_nodup h), List.filterMap_filterMap,
    List.map_filterMap, List.filter_filterMap, List.map_filterMap, List.filterMap_filter]
  refine List.filterMap_congr fun row hrow => ?_
  obtain ⟨c, hfind⟩ := customer_eq h hrow
  unfold Tables.customer at hfind
  unfold Tables.customer Tables.run Tables.labelName
  rw [hfind]
  change (((((db.runs.find? fun r => r.runId = row.runId).map _).map _).filter _).map _) = _
  cases db.runs.find? fun r => r.runId = row.runId with
  | none => rfl
  | some r =>
      by_cases hholds : filters.holds midnight row r = true
      · simp [hholds]
      · simp [hholds]

theorem listHistoryEntries_total (h : db.Valid) (filters : HistoryFilters) :
    (listHistoryEntries collate midnight db filters).total = (matchingEntries midnight db filters).length := by
  unfold listHistoryEntries matchingEntries
  dsimp only
  rw [join_key h.runs, List.filter_filterMap, List.filterMap_filter]
  refine length_filterMap_congr fun row hrow => ?_
  obtain ⟨c, hfind⟩ := customer_eq h hrow
  rw [hfind]
  unfold Tables.run
  cases db.runs.find? fun r => r.runId = row.runId with
  | none => rfl
  | some r =>
      by_cases hholds : filters.holds midnight row r = true
      · simp [hholds]
      · simp [hholds]

theorem listAttributions_rows (h : db.Valid) (experimentId : ℤ) :
    (listAttributions plusDays db experimentId).rows = matchingAttributions plusDays db experimentId := by
  unfold listAttributions matchingAttributions
  dsimp only
  rw [join_key h.assignments, join_key h.groups, join_key h.experiments, join_key h.transactions,
    List.filterMap_filterMap, List.filterMap_filterMap, List.filterMap_filterMap, List.filter_filterMap,
    List.map_filterMap, List.filterMap_filter]
  refine List.filterMap_congr fun c _ => ?_
  unfold Tables.assignment Tables.group Tables.experiment Tables.transaction
  cases db.assignments.find? fun a => a.assignmentId = c.assignmentId with
  | none => rfl
  | some a =>
      dsimp only [Option.map_some, Option.bind_some]
      cases db.groups.find? fun g => g.groupId = a.groupId with
      | none => simp
      | some g =>
          dsimp only [Option.map_some, Option.bind_some]
          cases db.experiments.find? fun e => e.experimentId = a.experimentId with
          | none => simp
          | some e =>
              dsimp only [Option.map_some, Option.bind_some]
              cases db.transactions.find? fun t => t.transactionId = c.transactionId with
              | none => simp
              | some t =>
                  by_cases hexperiment : a.experimentId = experimentId
                  · simp [hexperiment]
                  · simp [hexperiment]

theorem attribution_found (h : db.Valid) {c : ConversionRow} (hc : c ∈ db.conversions) :
    ∃ a g e t, db.assignment c = some a ∧ db.group a = some g ∧ db.experiment a = some e ∧
      db.transaction c = some t := by
  obtain ⟨a, ha, hassignment⟩ := List.mem_map.mp (h.conversionAssignments c hc)
  obtain ⟨t, ht, htransaction⟩ := List.mem_map.mp (h.conversionTransactions c hc)
  obtain ⟨g, hg, hgroup⟩ := List.mem_map.mp (h.assignmentGroups a ha)
  obtain ⟨e, he, hexperiment⟩ := List.mem_map.mp (h.assignmentExperiments a ha)
  refine ⟨a, g, e, t, ?_, ?_, ?_, ?_⟩
  · unfold Tables.assignment
    rw [← hassignment]
    exact find_key h.assignments ha
  · unfold Tables.group
    rw [← hgroup]
    exact find_key h.groups hg
  · unfold Tables.experiment
    rw [← hexperiment]
    exact find_key h.experiments he
  · unfold Tables.transaction
    rw [← htransaction]
    exact find_key h.transactions ht

theorem listAttributions_total (h : db.Valid) (experimentId : ℤ) :
    (listAttributions plusDays db experimentId).total = (matchingAttributions plusDays db experimentId).length := by
  unfold listAttributions matchingAttributions
  dsimp only
  rw [join_key h.assignments, List.filter_filterMap, List.filterMap_filter]
  refine length_filterMap_congr fun c hc => ?_
  obtain ⟨a, g, e, t, ha, hg, he, ht⟩ := attribution_found h hc
  rw [ht, ha]
  unfold Tables.assignment at ha
  rw [ha]
  simp only [Option.map_some, Option.bind_some, Option.any_some, hg, he]
  by_cases hexperiment : a.experimentId = experimentId
  · simp [hexperiment]
  · simp [hexperiment]

theorem listCustomersInSegment_total (h : db.Valid) (segmentId : ℤ) :
    (listCustomersInSegment collate db segmentId).total = (customersInSegment db segmentId).length := by
  have hperm : ((db.history.filter fun h => h.segmentId = some segmentId ∧ h.isOpen = true).map
      HistoryRow.customerId).Perm ((db.customers.filter fun c =>
        (db.openRow c).any fun h => h.segmentId = some segmentId).map CustomerRow.customerId) := by
    have hopen : db.history.filter (fun h => h.segmentId = some segmentId ∧ h.isOpen = true) =
        (db.history.filter HistoryRow.isOpen).filter fun h => h.segmentId = some segmentId := by
      rw [← filter_and db.history (fun h => h.segmentId = some segmentId) HistoryRow.isOpen]
      simp only [decide_eq_true_eq]
    rw [hopen]
    refine (List.perm_ext_iff_of_nodup ?_ ?_).mpr fun customerId => ?_
    · exact h.oneOpen.sublist (List.filter_sublist.map _)
    · exact h.customers.sublist (List.filter_sublist.map _)
    · simp only [List.mem_map, List.mem_filter (p := fun h : HistoryRow => decide (h.segmentId = some segmentId)),
        List.mem_filter (p := fun c => (db.openRow c).any fun h => decide (h.segmentId = some segmentId)),
        decide_eq_true_eq, Option.any_eq_true]
      constructor
      · rintro ⟨row, ⟨hrow, hsegment⟩, rfl⟩
        obtain ⟨c, hc, hcustomer⟩ := List.mem_map.mp (h.historyCustomers row (List.mem_of_mem_filter hrow))
        refine ⟨c, ⟨hc, row, ?_, hsegment⟩, hcustomer⟩
        unfold Tables.openRow
        rw [hcustomer]
        exact find_key h.oneOpen hrow
      · rintro ⟨c, ⟨hc, row, hrow, hsegment⟩, rfl⟩
        unfold Tables.openRow at hrow
        refine ⟨row, ⟨List.mem_of_find?_eq_some hrow, hsegment⟩, ?_⟩
        simpa using List.find?_some hrow
  have hlength := hperm.length_eq
  rw [List.length_map, List.length_map] at hlength
  unfold listCustomersInSegment customersInSegment
  dsimp only
  rw [List.length_map]
  exact hlength

theorem listCustomers_total (search : Option (List Char)) :
    (listCustomers fold collate db search).total = (matchingCustomers fold db search).length :=
      (List.length_map _).symm

/-! ### Each matches once -/

theorem filterMap_key_sublist {α β κ : Type} {f : α → Option β} {key : α → κ} {key' : β → κ} (xs : List α)
    (h : ∀ x b, f x = some b → key' b = key x) : ((xs.filterMap f).map key').Sublist (xs.map key) := by
  rw [List.map_filterMap]
  induction xs with
  | nil => exact .slnil
  | cons x xs ih =>
      rw [List.map_cons]
      cases hx : f x with
      | none =>
          rw [List.filterMap_cons_none (by rw [hx]; rfl)]
          exact ih.cons _
      | some b =>
          rw [List.filterMap_cons_some (by rw [hx]; rfl), h x b hx]
          exact ih.cons_cons _

theorem matchingCustomers_ids (h : db.Valid) (search : Option (List Char)) :
    ((matchingCustomers fold db search).map Customer.customerId).Nodup := by
  unfold matchingCustomers
  rw [List.map_map]
  exact h.customers.sublist (List.filter_sublist.map _)

theorem customersInSegment_ids (h : db.Valid) (segmentId : ℤ) :
    ((customersInSegment db segmentId).map Customer.customerId).Nodup := by
  unfold customersInSegment
  rw [List.map_map]
  exact h.customers.sublist (List.filter_sublist.map _)

theorem matchingEntries_ids (h : db.Valid) (filters : HistoryFilters) :
    ((matchingEntries midnight db filters).map HistoryEntry.historyId).Nodup := by
  have hids : ((db.history.filter fun h => (db.run h).any fun r => filters.holds midnight h r).map
      HistoryRow.historyId).Nodup := h.history.sublist (List.filter_sublist.map _)
  refine hids.sublist (filterMap_key_sublist _ fun row entry hentry => ?_)
  obtain ⟨c, -, hentry⟩ := Option.bind_eq_some_iff.mp hentry
  obtain ⟨r, -, rfl⟩ := Option.map_eq_some_iff.mp hentry
  rfl

theorem matchingAttributions_ids (h : db.Valid) (experimentId : ℤ) :
    ((matchingAttributions plusDays db experimentId).map Attribution.conversionId).Nodup := by
  have hids : ((db.conversions.filter fun c => (db.assignment c).any fun a => a.experimentId = experimentId).map
      ConversionRow.conversionId).Nodup := h.conversions.sublist (List.filter_sublist.map _)
  refine hids.sublist (filterMap_key_sublist _ fun row attribution hattribution => ?_)
  obtain ⟨a, -, hattribution⟩ := Option.bind_eq_some_iff.mp hattribution
  obtain ⟨g, -, hattribution⟩ := Option.bind_eq_some_iff.mp hattribution
  obtain ⟨e, -, hattribution⟩ := Option.bind_eq_some_iff.mp hattribution
  obtain ⟨t, -, rfl⟩ := Option.map_eq_some_iff.mp hattribution
  rfl

end Rows

/-! ### The four listings -/

section Partitions

variable {N : Type} [LinearOrder N] {fold : Char → List Char} {collate : List Char → N} {midnight : ℤ → Instant}
  {plusDays : Instant → ℤ → Instant} {db : Tables} {perPage : ℕ}

theorem listCustomers_partitions (h : db.Valid) (hper : 0 < perPage) (search : Option (List Char)) :
    (listCustomers fold collate db search).Partitions perPage (matchingCustomers fold db search) := by
  have hids : ((matchingCustomers fold db search).map Customer.customerId).Nodup := matchingCustomers_ids h search
  refine Listing.partitions (listCustomers_rows h search) (listCustomers_total search) (.of_map _ hids) ?_ hper
  intro a ha b hb hkey
  exact eq_of_key hids hb ha (congrArg (fun key => (ofLex key).2) hkey)

theorem listAttributions_partitions (h : db.Valid) (hper : 0 < perPage) (experimentId : ℤ) :
    (listAttributions plusDays db experimentId).Partitions perPage (matchingAttributions plusDays db experimentId) := by
  have hids : ((matchingAttributions plusDays db experimentId).map Attribution.conversionId).Nodup :=
    matchingAttributions_ids h experimentId
  refine Listing.partitions (listAttributions_rows h experimentId) (listAttributions_total h experimentId)
    (.of_map _ hids) ?_ hper
  intro a ha b hb hkey
  exact eq_of_key hids hb ha (neg_inj.mp (congrArg (fun key => (ofLex key).2) hkey))

theorem listCustomersInSegment_partitions_iff (h : db.Valid) (hper : 0 < perPage) (segmentId : ℤ) :
    (listCustomersInSegment collate db segmentId).Partitions perPage (customersInSegment db segmentId) ↔
      Aligned (fun c : Customer => collate c.name) perPage (customersInSegment db segmentId) :=
  Listing.partitions_iff (listCustomersInSegment_rows h segmentId) (listCustomersInSegment_total h segmentId)
    (.of_map _ (customersInSegment_ids h segmentId)) hper

theorem listHistoryEntries_partitions_iff (h : db.Valid) (hper : 0 < perPage) (filters : HistoryFilters) :
    (listHistoryEntries collate midnight db filters).Partitions perPage (matchingEntries midnight db filters) ↔
      Aligned (listHistoryEntries collate midnight db filters).key perPage (matchingEntries midnight db filters) :=
  Listing.partitions_iff (listHistoryEntries_rows h filters) (listHistoryEntries_total h filters)
    (.of_map _ (matchingEntries_ids h filters)) hper

/-- **Pages of the web's listings.** Those of customers and of conversions partition what matches, and those of a
segment and of the history exactly when none of them ends between two customers of one name, and none between two
assignments of one customer by runs of one instant. -/
theorem listings_partition_iff (fold : Char → List Char) (collate : List Char → N) (midnight : ℤ → Instant)
    (plusDays : Instant → ℤ → Instant) (db : Tables) (h : db.Valid) (perPage : ℕ) (hper : 0 < perPage)
    (search : Option (List Char)) (segmentId : ℤ) (filters : HistoryFilters) (experimentId : ℤ) :
    ((listCustomers fold collate db search).Partitions perPage (matchingCustomers fold db search) ∧
      (listCustomersInSegment collate db segmentId).Partitions perPage (customersInSegment db segmentId) ∧
      (listHistoryEntries collate midnight db filters).Partitions perPage (matchingEntries midnight db filters) ∧
      (listAttributions plusDays db experimentId).Partitions perPage (matchingAttributions plusDays db experimentId)) ↔
    Aligned (fun c : Customer => collate c.name) perPage (customersInSegment db segmentId) ∧
      Aligned (fun e : HistoryEntry => toLex (-e.runAt, toLex (collate e.assignment.customerName,
        e.assignment.customerId))) perPage (matchingEntries midnight db filters) := by
  have hsegment := @listCustomersInSegment_partitions_iff N _ collate db perPage h hper segmentId
  have hhistory := @listHistoryEntries_partitions_iff N _ collate midnight db perPage h hper filters
  constructor
  · rintro ⟨-, hin, hentries, -⟩
    exact ⟨hsegment.mp hin, hhistory.mp hentries⟩
  · rintro ⟨hin, hentries⟩
    exact ⟨listCustomers_partitions h hper search, hsegment.mpr hin, hhistory.mpr hentries,
      listAttributions_partitions h hper experimentId⟩

end Partitions

/-! ### Two customers of one name -/

def ana (customerId : String) : CustomerRow := ⟨customerId, none, "Ana".toList, none, none, 1, 20000⟩

def scored (historyId : ℤ) (customerId : String) : HistoryRow :=
  ⟨historyId, customerId, 1, some 1, some "CHAMPIONS", some 5, some 2, some 4500, some 5, some 4, some 4, 10, none⟩

/-- One run put both in one segment. -/
def anas : Tables where
  customers := [ana "a", ana "b"]
  history := [scored 1 "a", scored 2 "b"]
  runs := [⟨1, "RFM_RULES", 90, 10, "OBSERVED"⟩]
  labels := [⟨"CHAMPIONS", "Champions"⟩]
  conversions := [⟨1, 1, 7⟩]
  assignments := [⟨1, 1, 1, "a", 3⟩]
  groups := [⟨1, 1, .control, "Control", ""⟩]
  experiments := [⟨1, "purchase", 30, .observed⟩]
  transactions := [⟨7, "till-7", 5, 4500⟩]

theorem anas_valid : anas.Valid := by
  constructor <;> decide

/-- Both are on one page of two. -/
theorem listings_partition_anas :
    (listCustomers (fun c => [c]) id anas (some "an".toList)).Partitions 2
        (matchingCustomers (fun c => [c]) anas (some "an".toList)) ∧
      (listCustomersInSegment id anas 1).Partitions 2 (customersInSegment anas 1) ∧
      (listHistoryEntries id id anas {}).Partitions 2 (matchingEntries id anas {}) ∧
      (listAttributions (fun at_ days => at_ + days) anas 1).Partitions 2
        (matchingAttributions (fun at_ days => at_ + days) anas 1) := by
  refine (listings_partition_iff (fun c => [c]) id id (fun at_ days => at_ + days) anas anas_valid 2 (by decide)
    (some "an".toList) 1 {} 1).mpr ⟨?_, ?_⟩
  · intro c hc k hacross
    have hfew : (customersInSegment anas 1).length = 2 := by decide
    have hnone : ∀ c ∈ customersInSegment anas 1,
      before (fun c : Customer => id c.name) (customersInSegment anas 1) c = 0 := by decide
    have hle : upTo (fun c : Customer => id c.name) (customersInSegment anas 1) c ≤ 2 :=
      hfew ▸ List.countP_le_length
    rw [hnone c hc] at hacross
    omega
  · intro e he k hacross
    have hfew : (matchingEntries id anas {}).length = 2 := by decide
    have hle : upTo (fun e : HistoryEntry => toLex (-e.runAt,
      toLex (id e.assignment.customerName, e.assignment.customerId))) (matchingEntries id anas {}) e ≤ 2 :=
      hfew ▸ List.countP_le_length
    omega

/-- On pages of one, the segment's listing may show the first twice and the second never. -/
theorem segment_pages_tied : ¬ (listCustomersInSegment id anas 1).Partitions 1 (customersInSegment anas 1) := by
  intro hpages
  have haligned := (listCustomersInSegment_partitions_iff anas_valid (by decide) 1).mp hpages
  exact haligned (customerOf (ana "a") none) (by decide) 1 (by decide)

end RetailSegmentation.WebListings
