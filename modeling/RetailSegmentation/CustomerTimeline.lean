import Mathlib.Data.List.Chain
import Mathlib.Data.Prod.Lex
import RetailSegmentation.GroupedRows

/-! A customer's segment timeline (`web/services/customer_timeline.py`), over their assignment history
(`web/db/customer_timeline.py`): since when they hold each label, and which assignment was open at an instant. -/

namespace RetailSegmentation.CustomerTimeline

open Grouping

/-- Microseconds. -/
abbrev Instant := ℤ

inductive DataOrigin where
  | observed | seeded
  deriving DecidableEq, Repr

/-- One assignment, with the run that wrote it. Without a label, the run found nothing to label. -/
structure HistoryRow where
  runId : ℤ
  labelCode : Option String
  labelName : Option String
  lastPurchaseAt : Option Instant
  frequencyCount : Option ℤ
  monetaryTotal : Option ℤ
  rScore : Option ℤ
  fScore : Option ℤ
  mScore : Option ℤ
  validFrom : Instant
  validTo : Option Instant
  runAt : Instant
  windowDays : ℤ
  dataOrigin : DataOrigin
  deriving DecidableEq, Repr

structure TimelineEntry where
  row : HistoryRow
  labelSince : Instant
  recencyDays : Option ℤ
  changed : Bool
  isFirst : Bool
  previousRunId : Option ℤ
  deriving DecidableEq, Repr

/-- Whole days from the last purchase to the run that measured it. -/
def recencyDays (lastPurchaseAt : Option Instant) (runAt : Instant) : Option ℤ :=
  lastPurchaseAt.map fun last => (runAt - last) / 86400000000

def contiguous (earlier later : HistoryRow) : Bool := earlier.validTo = some later.validFrom

def continues (earlier later : HistoryRow) : Bool :=
  earlier.labelCode = later.labelCode && contiguous earlier later

def entryOf (last : Option TimelineEntry) (row : HistoryRow) : TimelineEntry :=
  match last with
  | none =>
    { row
      labelSince := row.validFrom
      recencyDays := recencyDays row.lastPurchaseAt row.runAt
      changed := false
      isFirst := true
      previousRunId := none }
  | some last =>
    { row
      labelSince := if continues last.row row then last.labelSince else row.validFrom
      recencyDays := recencyDays row.lastPurchaseAt row.runAt
      changed := last.row.labelCode ≠ row.labelCode
      isFirst := false
      previousRunId := some last.row.runId }

/-- The entries of rows given newest first, in the same order; each is made after the one before it. -/
def buildEntries (rows : List HistoryRow) : List TimelineEntry :=
  rows.reverse.foldl (fun entries row => entryOf entries.head? row :: entries) []

/-- The row was the assignment at the end of the day that the instant closes. -/
def openAt (boundary : Instant) (row : HistoryRow) : Bool :=
  row.validFrom < boundary ∧ ∀ closed ∈ row.validTo, boundary ≤ closed

def entryAsOf (entries : List TimelineEntry) (boundary : Instant) : Option TimelineEntry :=
  entries.find? fun entry => openAt boundary entry.row

/-! ### Entries -/

theorem buildEntries_cons (row : HistoryRow) (older : List HistoryRow) :
    buildEntries (row :: older) = entryOf (buildEntries older).head? row :: buildEntries older := by
  unfold buildEntries
  rw [List.reverse_cons, List.foldl_append]
  rfl

theorem entryOf_row (last : Option TimelineEntry) (row : HistoryRow) : (entryOf last row).row = row := by
  cases last <;> rfl

theorem buildEntries_rows (rows : List HistoryRow) : (buildEntries rows).map TimelineEntry.row = rows := by
  induction rows with
  | nil => rfl
  | cons row older ih => rw [buildEntries_cons, List.map_cons, entryOf_row, ih]

/-- The rows that go on with one another down to an instant: the last of them opened then, and the row before
it does not go on with it. -/
structure Stretch (row : HistoryRow) (older : List HistoryRow) (since : Instant) : Prop where
  run : ∃ run first rest, row :: older = run ++ first :: rest ∧
    (run ++ [first]).IsChain (fun later earlier => continues earlier later = true) ∧
    (∀ earlier ∈ rest.head?, continues earlier first = false) ∧ since = first.validFrom

theorem stretch_cons {row later : HistoryRow} {older : List HistoryRow} {since : Instant}
    (h : Stretch row older since) (hcontinues : continues row later = true) :
      Stretch later (row :: older) since := by
  obtain ⟨run, first, rest, heq, hchain, hrest, hsince⟩ := h
  refine ⟨later :: run, first, rest, by rw [heq]; rfl, ?_, hrest, hsince⟩
  rw [List.cons_append, List.isChain_cons]
  refine ⟨fun next hnext => ?_, hchain⟩
  have hhead : next = row := by
    cases run with
    | nil =>
        obtain ⟨rfl, -⟩ := List.cons.inj heq
        exact (Option.some.inj hnext).symm
    | cons head run =>
        obtain ⟨rfl, -⟩ := List.cons.inj heq
        exact (Option.some.inj hnext).symm
  rw [hhead]
  exact hcontinues

theorem stretch_first {row : HistoryRow} {older : List HistoryRow}
    (h : ∀ earlier ∈ older.head?, continues earlier row = false) : Stretch row older row.validFrom :=
  ⟨[], row, older, rfl, List.isChain_singleton _, h, rfl⟩

theorem entryOf_stretch (row : HistoryRow) (older : List HistoryRow) :
    Stretch row older (entryOf (buildEntries older).head? row).labelSince := by
  induction older generalizing row with
  | nil => exact stretch_first fun _ h => by cases h
  | cons last older ih =>
      rw [buildEntries_cons, List.head?_cons]
      by_cases hcontinues : continues last row = true
      · have hsince : (entryOf (some (entryOf (buildEntries older).head? last)) row).labelSince =
            (entryOf (buildEntries older).head? last).labelSince := by
          change (if continues (entryOf _ last).row row then _ else _) = _
          rw [entryOf_row, if_pos hcontinues]
        rw [hsince]
        exact stretch_cons (ih last) hcontinues
      · have hsince : (entryOf (some (entryOf (buildEntries older).head? last)) row).labelSince = row.validFrom := by
          change (if continues (entryOf _ last).row row then _ else _) = _
          rw [entryOf_row, if_neg hcontinues]
        rw [hsince]
        refine stretch_first fun earlier hearlier => ?_
        obtain rfl := Option.some.inj hearlier
        exact Bool.eq_false_iff.mpr hcontinues

/-! ### As of an instant -/

/-- The row holds at the instant: it is open from its first instant, and closed at its last. -/
def HistoryRow.Holds (row : HistoryRow) (t : Instant) : Prop :=
  row.validFrom ≤ t ∧ ∀ closed ∈ row.validTo, t < closed

/-- No two rows hold at one instant. -/
def Disjoint (rows : List HistoryRow) : Prop := rows.Pairwise fun a b => ∀ t, ¬ (a.Holds t ∧ b.Holds t)

theorem holds_of_openAt {row : HistoryRow} {boundary t : Instant} (h : openAt boundary row = true)
    (hfrom : row.validFrom ≤ t) (hlt : t < boundary) : row.Holds t := by
  obtain ⟨-, hclosed⟩ := of_decide_eq_true h
  exact ⟨hfrom, fun closed hmem => hlt.trans_le (hclosed closed hmem)⟩

theorem not_both_open {a b : HistoryRow} (h : ∀ t, ¬ (a.Holds t ∧ b.Holds t)) {boundary : Instant}
    (ha : openAt boundary a = true) : openAt boundary b = false := by
  refine Bool.eq_false_iff.mpr fun hb => ?_
  have hlt : max a.validFrom b.validFrom < boundary := max_lt (of_decide_eq_true ha).1 (of_decide_eq_true hb).1
  exact h (max a.validFrom b.validFrom)
    ⟨holds_of_openAt ha (le_max_left _ _) hlt, holds_of_openAt hb (le_max_right _ _) hlt⟩

theorem filter_openAt {rows : List HistoryRow} (h : Disjoint rows) (boundary : Instant) :
    rows.filter (openAt boundary) = (rows.find? (openAt boundary)).toList := by
  induction rows with
  | nil => rfl
  | cons row rows ih =>
      obtain ⟨hrow, hrows⟩ := List.pairwise_cons.mp h
      by_cases hopen : openAt boundary row = true
      · have hothers : rows.filter (openAt boundary) = [] :=
          List.filter_eq_nil_iff.mpr fun other hother =>
            Bool.eq_false_iff.mp (not_both_open (hrow other hother) hopen)
        rw [List.filter_cons_of_pos hopen, List.find?_cons_of_pos hopen, hothers]
        rfl
      · rw [List.filter_cons_of_neg hopen, List.find?_cons_of_neg hopen]
        exact ih hrows

theorem entryAsOf_row (rows : List HistoryRow) (boundary : Instant) :
    (entryAsOf (buildEntries rows) boundary).map TimelineEntry.row = rows.find? (openAt boundary) := by
  have hfind : ((buildEntries rows).map TimelineEntry.row).find? (openAt boundary) =
      ((buildEntries rows).find? (openAt boundary ∘ TimelineEntry.row)).map TimelineEntry.row := List.find?_map
  rw [buildEntries_rows] at hfind
  exact hfind.symm

/-- Two runs that kept a label, and one that changed it after a gap. -/
def visits : List HistoryRow :=
  [⟨3, some "gold", none, none, none, none, none, none, none, 40, none, 40, 180, .observed⟩,
    ⟨2, some "loyal", none, none, none, none, none, none, none, 20, some 30, 20, 180, .observed⟩,
    ⟨1, some "loyal", none, none, none, none, none, none, none, 10, some 20, 10, 180, .observed⟩]

theorem visits_disjoint : Disjoint visits := by
  have hspan : ∀ {a b : HistoryRow} {closed : Instant}, b.validTo = some closed → closed ≤ a.validFrom →
      ∀ t, ¬ (a.Holds t ∧ b.Holds t) := by
    rintro a b closed hclosed hle t ⟨ha, hb⟩
    exact absurd (ha.1.trans_lt (hb.2 closed hclosed)) (not_lt.mpr hle)
  refine List.pairwise_cons.mpr ⟨fun b hb => ?_, List.pairwise_cons.mpr ⟨fun b hb => ?_, List.pairwise_singleton _ _⟩⟩
  · obtain rfl | hb := List.mem_cons.mp hb
    · exact hspan rfl (by decide)
    · obtain rfl := List.mem_singleton.mp hb
      exact hspan rfl (by decide)
  · obtain rfl := List.mem_singleton.mp hb
    exact hspan rfl (by decide)

example : (buildEntries visits).map TimelineEntry.labelSince = [40, 10, 10] := by decide

/-! ### Where the rows come from -/

/-- What a statement reads of `customer_segment_history`. -/
structure Assignment where
  historyId : ℤ
  customerId : String
  runId : ℤ
  labelCode : Option String
  lastPurchaseAt : Option Instant
  frequencyCount : Option ℤ
  monetaryTotal : Option ℤ
  rScore : Option ℤ
  fScore : Option ℤ
  mScore : Option ℤ
  validFrom : Instant
  validTo : Option Instant
  deriving DecidableEq, Repr

structure Run where
  runId : ℤ
  runAt : Instant
  windowDays : ℤ
  dataOrigin : DataOrigin
  deriving DecidableEq, Repr

structure Label where
  labelCode : String
  name : String
  deriving DecidableEq, Repr

structure Tables where
  history : List Assignment
  runs : List Run
  labels : List Label

def historyRow (h : Assignment) (r : Run) (label : Option Label) : HistoryRow where
  runId := h.runId
  labelCode := h.labelCode
  labelName := label.map Label.name
  lastPurchaseAt := h.lastPurchaseAt
  frequencyCount := h.frequencyCount
  monetaryTotal := h.monetaryTotal
  rScore := h.rScore
  fScore := h.fScore
  mScore := h.mScore
  validFrom := h.validFrom
  validTo := h.validTo
  runAt := r.runAt
  windowDays := r.windowDays
  dataOrigin := r.dataOrigin

/-- Every assignment the customer has held, newest first. -/
def listHistoryRows (tables : Tables) (customerId : String) : List HistoryRow :=
  let joined := leftJoin (join tables.history tables.runs fun h r => r.runId = h.runId) tables.labels fun row label =>
    some label.labelCode = row.1.labelCode
  let rows := joined.filter fun row => row.1.1.customerId = customerId
  (sortBy (fun row => toLex (-row.1.1.validFrom, -row.1.1.historyId)) rows).map fun row =>
    historyRow row.1.1 row.1.2 row.2

/-- What the schema keeps of the history: its keys, the runs it refers to, and no two assignments of one
customer at once. -/
structure Tables.Valid (tables : Tables) : Prop where
  runKeys : (tables.runs.map Run.runId).Nodup
  labelKeys : (tables.labels.map Label.labelCode).Nodup
  runs : ∀ h ∈ tables.history, h.runId ∈ tables.runs.map Run.runId
  noOverlap : tables.history.Pairwise fun a b => a.customerId = b.customerId →
    ∀ t, ¬ ((a.validFrom ≤ t ∧ ∀ closed ∈ a.validTo, t < closed) ∧ b.validFrom ≤ t ∧ ∀ closed ∈ b.validTo,
      t < closed)

section Listed

variable {tables : Tables} (h : tables.Valid)

include h

theorem joined_history : ((leftJoin (join tables.history tables.runs fun h r => r.runId = h.runId) tables.labels
    fun row label => some label.labelCode = row.1.labelCode).map fun row => row.1.1) = tables.history := by
  have hlabels : (tables.labels.map fun label => some label.labelCode).Nodup := by
    have hmapped := h.labelKeys.map (Option.some_injective String)
    rwa [List.map_map] at hmapped
  rw [leftJoin_key hlabels, List.map_map]
  exact map_fst_join h.runKeys h.runs

theorem listHistoryRows_disjoint (customerId : String) :
    Disjoint (listHistoryRows tables customerId) ∧
      (listHistoryRows tables customerId).Pairwise fun later earlier => earlier.validFrom ≤ later.validFrom := by
  have hoverlap := h.noOverlap
  rw [← joined_history h, List.pairwise_map] at hoverlap
  unfold listHistoryRows
  generalize leftJoin (join tables.history tables.runs fun h r => r.runId = h.runId) tables.labels
    (fun row label => some label.labelCode = row.1.labelCode) = joined at hoverlap ⊢
  have hperm := perm_sortBy (fun row : (Assignment × Run) × Option Label =>
    toLex (-row.1.1.validFrom, -row.1.1.historyId)) (joined.filter fun row => row.1.1.customerId = customerId)
  have hsorted : (sortBy (fun row : (Assignment × Run) × Option Label =>
    toLex (-row.1.1.validFrom, -row.1.1.historyId)) (joined.filter fun row =>
      row.1.1.customerId = customerId)).Pairwise
      fun a b => toLex (-a.1.1.validFrom, -a.1.1.historyId) ≤ toLex (-b.1.1.validFrom, -b.1.1.historyId) :=
    List.pairwise_insertionSort _ _
  refine ⟨?_, ?_⟩
  · unfold Disjoint
    rw [List.pairwise_map, hperm.pairwise_iff fun hab t hboth => hab t hboth.symm]
    refine (hoverlap.filter _).imp_of_mem fun {a b} ha hb hab => hab ?_
    rw [of_decide_eq_true (List.mem_filter.mp ha).2, of_decide_eq_true (List.mem_filter.mp hb).2]
  · rw [List.pairwise_map]
    refine hsorted.imp fun {a b} hab => ?_
    obtain hlt | ⟨heq, -⟩ := Prod.Lex.toLex_le_toLex.mp hab
    · exact neg_le_neg_iff.mp hlt.le
    · exact (neg_injective heq).ge

end Listed

end RetailSegmentation.CustomerTimeline
