import RetailSegmentation.SegmentRuns
import RetailSegmentation.TemporalRows
import RetailSegmentation.TransactionTables

/-! The tables that segmentation runs record into (`sql/01_schema.sql`), for any number of connections. What is
committed of `customer_segment_history` is the timeline of the runs that have committed. -/

namespace RetailSegmentation.SegmentRuns

open Program Transactions Temporal

/-- A row of `segmentation_run`. -/
structure RunRow (I : Type) where
  runId : ℕ
  method : String
  windowDays : ℤ
  parameters : String
  customerCount : ℕ
  runAt : I
  dataOrigin : String
  deriving DecidableEq, Repr

/-- A row of `customer_segment_history`. -/
structure HistoryRow (U I D : Type) where
  customerId : U
  runId : ℕ
  columns : Columns I D
  validFrom : I
  validTo : Option I
  deriving DecidableEq, Repr

/-- What an open transaction has written: rows of both tables, and the rows it has closed, by the key
`(run_id, customer_id)`. -/
structure Work (U I D : Type) where
  runs : List (RunRow I)
  closed : List ((ℕ × U) × I)
  opened : List (HistoryRow U I D)

/-- A run that was committed, by whom, and the assignments it recorded. -/
structure Recorded (T U I D : Type) where
  by_ : T
  run : RunRow I
  entries : List (U × Columns I D)

/-- The tables, the holder of the advisory lock and, read by nothing, the runs that were committed. -/
structure RunsDb (T U I D : Type) where
  customers : List U
  runs : List (RunRow I)
  history : List (HistoryRow U I D)
  work : T → Work U I D
  lock : Option T
  nextRun : ℕ
  commits : List (Recorded T U I D)

variable {T U I D : Type}

namespace Work

def none_ : Work U I D := ⟨[], [], []⟩

end Work

namespace HistoryRow

def key (row : HistoryRow U I D) : ℕ × U := (row.runId, row.customerId)

def version (row : HistoryRow U I D) : Version U (ℕ × Columns I D) I :=
  ⟨row.customerId, (row.runId, row.columns), row.validFrom, row.validTo⟩

variable [DecidableEq U]

def closeBy (closed : List ((ℕ × U) × I)) (row : HistoryRow U I D) : HistoryRow U I D :=
  match row.validTo, closed.lookup row.key with
  | none, some at_ => { row with validTo := some at_ }
  | _, _ => row

end HistoryRow

def Recorded.batch (commit : Recorded T U I D) : Batch U (ℕ × Columns I D) I :=
  ⟨commit.run.runAt, commit.entries.map fun entry => (entry.1, (commit.run.runId, entry.2))⟩

theorem Recorded.batch_keys (commit : Recorded T U I D) : commit.batch.keys = commit.entries.map Prod.fst := by
  unfold Recorded.batch Batch.keys
  rw [List.map_map]
  rfl

/-- The customers with an open row, and its segment and label. -/
def openPairs (rows : List (Version U (ℕ × Columns I D) I)) : List (U × Option ℤ × Option String) :=
  (rows.filter fun row => row.validTo.isNone).map fun row => (row.key, row.value.2.pair)

namespace RunsDb

section Server

variable [DecidableEq T] [DecidableEq U]

/-- The history as transaction `t` reads it. -/
def view (db : RunsDb T U I D) (t : T) : List (HistoryRow U I D) :=
  (db.history ++ (db.work t).opened).map (HistoryRow.closeBy (db.work t).closed)

def write (db : RunsDb T U I D) (t : T) (work : Work U I D) : RunsDb T U I D :=
  { db with work := Function.update db.work t work }

/-- What `UPDATE … SET valid_to = at` closes of these rows. -/
def closings (rows : List (HistoryRow U I D)) (customers : List U) (at_ : I) : List ((ℕ × U) × I) :=
  (rows.filter fun row => row.validTo.isNone && row.customerId ∈ customers).map fun row => (row.key, at_)

def release (db : RunsDb T U I D) (t : T) : Option T := if db.lock = some t then none else db.lock

def commit (t : T) (db : RunsDb T U I D) : RunsDb T U I D :=
  { db with
    runs := db.runs ++ (db.work t).runs
    history := db.view t
    work := Function.update db.work t .none_
    lock := db.release t
    commits := db.commits ++ (db.work t).runs.map fun run => ⟨t, run,
      ((db.work t).opened.filter fun row => row.runId = run.runId).map fun row => (row.customerId, row.columns)⟩ }

def rollback (t : T) (db : RunsDb T U I D) : RunsDb T U I D :=
  { db with
    work := Function.update db.work t .none_
    lock := db.release t }

variable [LE I] (uuids : Uuids U)

/-- Under `run_id`, `at`: a row for each of these. -/
def openedRows (runId : ℕ) (at_ : I) (entries : List (U × Columns I D)) : List (HistoryRow U I D) :=
  entries.map fun entry => ⟨entry.1, runId, entry.2, at_, none⟩

/-- The answers to statements. A statement waits for rows that another transaction has closed or opened, and the
schema refuses a row that ends before it begins, and a second row of one customer in a run, or open at once. The clock
may read anything. -/
inductive Answers (t : T) :
    (s : Statement I D) → RunsDb T U I D → Result U I D s → RunsDb T U I D → Prop
  | advisoryLock {db} (hfree : db.lock = none ∨ db.lock = some t) :
    Answers t .advisoryLock db () { db with lock := some t }
  | clockTimestamp {db} (now : I) : Answers t .clockTimestamp db now db
  | readOpen {db rows} (hrows : rows.Perm (openPairs ((db.view t).map HistoryRow.version))) :
    Answers t .readOpen db rows db
  | createRun {db method windowDays parameters customerCount runAt} (dataOrigin : String) :
    Answers t (.createRun method windowDays parameters customerCount runAt) db (db.nextRun, dataOrigin)
      { db.write t { db.work t with
          runs := (db.work t).runs ++
            [⟨db.nextRun, method, windowDays, parameters, customerCount, runAt, dataOrigin⟩] } with
        nextRun := db.nextRun + 1 }
  | close {db at_ customerIds customers} (hids : customerIds.mapM uuids.parse = some customers)
      (hfree : ∀ u ≠ t, ∀ row ∈ db.history, row.customerId ∈ customers → row.key ∉ (db.work u).closed.map Prod.fst)
      (hcheck : ∀ row ∈ db.view t, row.validTo = none → row.customerId ∈ customers → row.validFrom ≤ at_) :
    Answers t (.close at_ customerIds) db ()
      (db.write t { db.work t with closed := (db.work t).closed ++ closings (db.view t) customers at_ })
  | insert {db runId rows at_ entries}
      (hids : rows.mapM (fun row => (uuids.parse row.1).map fun id => (id, row.2)) = some entries)
      (hunique : (entries.map Prod.fst).Nodup)
      (hnew : ∀ entry ∈ entries, ∀ row ∈ db.view t, row.customerId = entry.1 →
        row.runId ≠ runId ∧ row.validTo ≠ none)
      (hfree : ∀ u ≠ t, ∀ row ∈ (db.work u).opened, row.customerId ∉ entries.map Prod.fst)
      (hrun : ∃ run ∈ db.runs ++ (db.work t).runs, run.runId = runId)
      (hcustomers : ∀ entry ∈ entries, entry.1 ∈ db.customers) :
    Answers t (.insert runId rows at_) db ()
      (db.write t { db.work t with opened := (db.work t).opened ++ openedRows runId at_ entries })
  | notify {db runId} : Answers t (.notify runId) db () db

/-- Any request may fail; a commit that fails has not happened. -/
def server : Server T (Statement I D) (Result U I D) DbError (RunsDb T U I D) where
  answers := Answers uuids
  refuses _ _ _ _ := False
  aborts _ := True
  commit := commit
  rollback := rollback
  losesReplies := False

/-- Meanwhile customers are inserted. -/
inductive NewCustomer : RunsDb T U I D → RunsDb T U I D → Prop
  | insert {db customer} (hnew : customer ∉ db.customers) :
    NewCustomer db { db with customers := db.customers ++ [customer] }

def machine : Machine T (Request (Statement I D)) (Reply (Result U I D) DbError) (RunsDb T U I D) :=
  { (server uuids).machine with env := NewCustomer }

end Server

def empty (customers : List U) (runs : List (RunRow I)) (nextRun : ℕ) : RunsDb T U I D :=
  ⟨customers, runs, [], fun _ => .none_, none, nextRun, []⟩

end RunsDb

/-! ### A commit records a batch -/

section Commit

variable [DecidableEq U]

theorem lookup_constant {κ ν : Type} [BEq κ] [LawfulBEq κ] {keys : List κ} (v : ν) {k : κ} (hk : k ∈ keys) :
    (keys.map fun key => (key, v)).lookup k = some v := by
  induction keys with
  | nil => cases hk
  | cons key keys ih =>
      rw [List.map_cons, List.lookup_cons]
      cases heq : k == key with
      | true => rfl
      | false =>
          have hne : k ≠ key := fun h => by
            rw [h, BEq.rfl] at heq
            cases heq
          exact ih ((List.mem_cons.mp hk).resolve_left hne)

theorem lookup_closings (rows : List (HistoryRow U I D)) (customers : List U) (at_ : I) {row : HistoryRow U I D}
    (hrow : row ∈ rows) (hopen : row.validTo = none) :
    (RunsDb.closings rows customers at_).lookup row.key = if row.customerId ∈ customers then some at_ else none := by
  have hmap : RunsDb.closings rows customers at_ = ((rows.filter fun row => row.validTo.isNone &&
      row.customerId ∈ customers).map HistoryRow.key).map fun key => (key, at_) := by
    rw [List.map_map]
    rfl
  rw [hmap]
  split_ifs with hmem
  · refine lookup_constant at_ (List.mem_map_of_mem (List.mem_filter.mpr ⟨hrow, ?_⟩))
    simp [hopen, hmem]
  · refine List.lookup_eq_none_iff.mpr fun closing hclosing => bne_iff_ne.mpr fun hsame => ?_
    obtain ⟨key, hkey, rfl⟩ := List.mem_map.mp hclosing
    obtain ⟨row', hrow', rfl⟩ := List.mem_map.mp hkey
    have hcustomer : row.customerId = row'.customerId := congrArg Prod.snd hsame
    have hclosed := (List.mem_filter.mp hrow').2
    simp only [Bool.and_eq_true, decide_eq_true_eq] at hclosed
    exact hmem (hcustomer.symm ▸ hclosed.2)

theorem closeBy_of_closed (closed : List ((ℕ × U) × I)) {row : HistoryRow U I D} {until_ : I}
    (hclosed : row.validTo = some until_) : row.closeBy closed = row := by
  unfold HistoryRow.closeBy
  rw [hclosed]

theorem closeBy_closings (rows : List (HistoryRow U I D)) (customers : List U) (at_ : I) {row : HistoryRow U I D}
    (hrow : row ∈ rows) (hopen : row.validTo = none) : row.closeBy (RunsDb.closings rows customers at_) =
      if row.customerId ∈ customers then { row with validTo := some at_ } else row := by
  have hlookup := lookup_closings rows customers at_ hrow hopen
  unfold HistoryRow.closeBy
  rw [hopen, hlookup]
  split_ifs <;> rfl

theorem version_closeBy (rows : List (HistoryRow U I D)) (customers : List U) (at_ : I) {row : HistoryRow U I D}
    (hrow : row ∈ rows) : (row.closeBy (RunsDb.closings rows customers at_)).version =
      if row.version.key ∈ customers then row.version.closeAt at_ else row.version := by
  have hkey : row.version.key = row.customerId := rfl
  rw [hkey]
  cases hopen : row.validTo with
  | some until_ =>
      have hclosed : row.version.closeAt at_ = row.version := by
        unfold Version.closeAt HistoryRow.version
        rw [hopen]
      rw [closeBy_of_closed _ hopen, hclosed, ite_self]
  | none =>
      rw [closeBy_closings rows customers at_ hrow hopen]
      split_ifs
      · unfold Version.closeAt HistoryRow.version
        rw [hopen]
      · rfl

theorem closeBy_opened (rows : List (HistoryRow U I D)) (customers : List U) (at_ : I) {row : HistoryRow U I D}
    (hother : ∀ row' ∈ rows, row'.runId ≠ row.runId) :
    row.closeBy (RunsDb.closings rows customers at_) = row := by
  have hlookup : (RunsDb.closings rows customers at_).lookup row.key = none := by
    refine List.lookup_eq_none_iff.mpr fun closing hclosing => bne_iff_ne.mpr fun hsame => ?_
    obtain ⟨row', hrow', rfl⟩ := List.mem_map.mp hclosing
    exact hother row' (List.mem_of_mem_filter hrow') (congrArg Prod.fst hsame).symm
  unfold HistoryRow.closeBy
  rw [hlookup]
  cases row.validTo <;> rfl

/-- The rows that a run leaves, where it has closed and opened those of its customers. -/
theorem recorded_view {history : List (HistoryRow U I D)} {run : RunRow I} {entries : List (U × Columns I D)} {by_ : T}
    (hother : ∀ row ∈ history, row.runId ≠ run.runId) :
    ((history ++ RunsDb.openedRows run.runId run.runAt entries).map
      (HistoryRow.closeBy (RunsDb.closings history (entries.map Prod.fst) run.runAt))).map HistoryRow.version =
    Temporal.record (history.map HistoryRow.version) (Recorded.batch ⟨by_, run, entries⟩) := by
  have hkeys := Recorded.batch_keys (⟨by_, run, entries⟩ : Recorded T U I D)
  unfold Temporal.record Temporal.closed
  rw [List.map_append, List.map_append, hkeys]
  congr 1
  · rw [List.map_map, List.map_map]
    exact List.map_congr_left fun row hrow => version_closeBy history _ run.runAt hrow
  · unfold RunsDb.openedRows Batch.opened Recorded.batch
    rw [List.map_map, List.map_map, List.map_map]
    refine List.map_congr_left fun entry hentry => ?_
    have hopened : (⟨entry.1, run.runId, entry.2, run.runAt, none⟩ : HistoryRow U I D).closeBy
        (RunsDb.closings history (entries.map Prod.fst) run.runAt) = _ := closeBy_opened history _ run.runAt hother
    exact congrArg HistoryRow.version hopened

end Commit

end RetailSegmentation.SegmentRuns
