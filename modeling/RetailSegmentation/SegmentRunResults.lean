import RetailSegmentation.RootedTrees
import RetailSegmentation.SegmentRunsRecorded

/-! What every interleaving of segmentation runs leaves: a history without gaps, overlaps or second open rows, one row
for every assignment of a run, and results that count what the run has changed. -/

namespace RetailSegmentation.SegmentRuns

open Program Transactions Temporal Grouping

/-! ### The program of a run -/

section Programs

variable {U I D P : Type} {uuids : Uuids U} {dumps : P → Option String} {method : String}
  {windowDays : ℤ}

/-- The assignment was recorded as this entry: the customer its id names, and its columns. -/
def RecordedAs (uuids : Uuids U) (a : Assignment I D) (entry : U × Columns I D) : Prop :=
  uuids.parse a.customerId = some entry.1 ∧ entry.2 = a.asRow.2

theorem recordedAs_of_rows {assignments : List (Assignment I D)} {entries : List (U × Columns I D)}
    (h : (assignments.map Assignment.asRow).mapM (fun row => (uuids.parse row.1).map fun id => (id, row.2)) =
      some entries) : List.Forall₂ (RecordedAs uuids) assignments entries := by
  have hall := Forest.mapM_eq_some h
  rw [List.forall₂_map_left_iff] at hall
  refine hall.imp fun a entry hentry => ?_
  obtain ⟨id, hid, rfl⟩ := Option.map_eq_some_iff.mp hentry
  exact ⟨hid, rfl⟩

theorem ids_of_recordedAs {assignments : List (Assignment I D)} {entries : List (U × Columns I D)}
    (h : List.Forall₂ (RecordedAs uuids) assignments entries) :
    (assignments.map Assignment.customerId).mapM uuids.parse = some (entries.map Prod.fst) := by
  refine Forest.mapM_of_forall₂ ?_
  rw [List.forall₂_map_left_iff, List.forall₂_map_right_iff]
  exact h.imp fun _ _ hentry => hentry.1

def priorOf (uuids : Uuids U) (prior : List (U × Option ℤ × Option String)) : Dict String (Option ℤ × Option String) :=
  prior.foldl (fun d row => d.put (uuids.text row.1) row.2) []

def reported (uuids : Uuids U) (assignments : List (Assignment I D)) (prior : List (U × Option ℤ × Option String))
    (run : RunRow I) : RunResult :=
  let counts := summarise assignments (priorOf uuids prior)
  { windowDays := run.windowDays
    processed := counts.processed
    assigned := counts.assigned
    unmatched := counts.unmatched
    reassigned := counts.reassigned
    cleared := counts.cleared
    runId := run.runId
    method := run.method
    fallback := counts.fallback
    dataOrigin := run.dataOrigin }

/-- What a run has recorded, of what its adapter has put out. -/
structure Reports (uuids : Uuids U) (method : String) (windowDays : ℤ) (adapter : MethodAdapter I D P)
    (prior : List (U × Option ℤ × Option String)) (run : RunRow I) (entries : List (U × Columns I D))
    (result : RunResult) : Prop where
  ran : run.method = method ∧ run.windowDays = windowDays
  output : ∃ output, adapter.decide windowDays = .ok output ∧ validated output = .ok output.assignments ∧
    List.Forall₂ (RecordedAs uuids) output.assignments entries ∧ result = reported uuids output.assignments prior run

/-- A run that fails leaves nothing but what its rollback gives back. -/
def Failing (stage : Stage U I D) : Prop := stage.undone = .idle

theorem validated_ok {output : MethodOutput I D P} {assignments : List (Assignment I D)}
    (h : validated output = .ok assignments) : assignments = output.assignments := by
  unfold validated at h
  cases hall : validatedFrom [] output.assignments with
  | error e =>
      rw [hall] at h
      cases h
  | ok _ =>
      rw [hall] at h
      exact (Except.ok.inj h).symm

theorem follows_writes {assignments : List (Assignment I D)} {prior : List (U × Option ℤ × Option String)}
    {run : RunRow I} {α : Type} {result : α} (hcount : run.customerCount = assignments.length) :
    (do
      closeOpenAssignments (assignments.map Assignment.customerId) run.runAt
      insertAssignments run.runId (assignments.map Assignment.asRow) run.runAt
      execute (.notify run.runId)
      return result : RunProg U I D α).Follows (workflow uuids).protocol (.writing prior run [] [])
      (Contract.Ends (fun a stage => a = result ∧ ∃ entries, stage = .writing prior run (entries.map Prod.fst) entries ∧
        List.Forall₂ (RecordedAs uuids) assignments entries ∧ (workflow uuids).commits stage) fun _ => Failing) := by
  have hnotify : ∀ stage : Stage U I D, stage.undone = .idle → (∃ entries, stage =
      .writing prior run (entries.map Prod.fst) entries ∧ List.Forall₂ (RecordedAs uuids) assignments entries ∧
        (workflow uuids).commits stage) → (do
      execute (.notify run.runId)
      return result : RunProg U I D α).Follows (workflow uuids).protocol stage
      (Contract.Ends (fun a stage => a = result ∧ ∃ entries, stage = .writing prior run (entries.map Prod.fst) entries ∧
        List.Forall₂ (RecordedAs uuids) assignments entries ∧ (workflow uuids).commits stage) fun _ => Failing) := by
    rintro stage hundone ⟨entries, rfl, hentries, hcommits⟩
    refine Workflow.follows_step trivial ?_ fun e _ => rfl
    rintro - stage rfl
    exact ⟨rfl, entries, rfl, hentries, hcommits⟩
  cases assignments with
  | nil =>
      unfold closeOpenAssignments insertAssignments
      exact hnotify _ rfl ⟨[], rfl, .nil, rfl, hcount, List.nodup_nil⟩
  | cons a rest =>
      have hclose : closeOpenAssignments (U := U) (D := D) ((a :: rest).map Assignment.customerId) run.runAt =
          execute (.close run.runAt ((a :: rest).map Assignment.customerId)) := if_neg (List.cons_ne_nil _ _)
      rw [hclose]
      refine Workflow.follows_step rfl ?_ fun e _ => rfl
      rintro - stage ⟨customers, hcustomers, rfl⟩
      have hids : ((a :: rest).map Assignment.asRow).map Prod.fst = (a :: rest).map Assignment.customerId := by
        rw [List.map_map]
        rfl
      refine Workflow.follows_step ⟨rfl, rfl, hids ▸ hcustomers⟩ ?_ fun e _ => rfl
      rintro - stage ⟨entries, hentries, hkeys, rfl⟩
      have hrecorded := recordedAs_of_rows hentries
      obtain rfl := Option.some.inj (hcustomers.symm.trans (ids_of_recordedAs hrecorded))
      exact hnotify _ rfl ⟨entries, rfl, hrecorded, rfl, hcount.trans hrecorded.length_eq, hkeys⟩

theorem follows_lockForRun : (lockForRun : RunProg U I D I).Follows (workflow uuids).protocol .idle
    (Contract.Ends (fun at_ stage => stage = .stamped at_) fun _ => Failing) := by
  unfold lockForRun
  refine Workflow.follows_step trivial ?_ fun e _ => rfl
  rintro - stage rfl
  exact Workflow.follows_execute trivial (fun at_ stage h => h) fun e _ => rfl

theorem follows_readOpen {at_ : I} : (readOpenAssignments uuids : RunProg U I D _).Follows (workflow uuids).protocol
    (.stamped at_) (Contract.Ends (fun d stage => ∃ prior, d = priorOf uuids prior ∧ stage = .looked at_ prior)
      fun _ => Failing) := by
  unfold readOpenAssignments
  refine Workflow.follows_step trivial ?_ fun e _ => rfl
  rintro prior stage rfl
  exact ⟨prior, rfl, rfl⟩

theorem follows_createRun {at_ : I} {prior : List (U × Option ℤ × Option String)} {parameters : P} {count : ℕ} :
    (createRun dumps method windowDays parameters count at_ : RunProg U I D _).Follows (workflow uuids).protocol
      (.looked at_ prior) (Contract.Ends (fun reply stage => ∃ run : RunRow I, stage = .writing prior run [] [] ∧
        run.method = method ∧ run.windowDays = windowDays ∧ run.customerCount = count ∧ run.runAt = at_ ∧
          run.runId = reply.1 ∧ run.dataOrigin = reply.2) fun _ => Failing) := by
  unfold createRun
  cases dumps parameters with
  | none => exact rfl
  | some snapshot =>
      refine Workflow.follows_execute rfl ?_ fun e _ => rfl
      rintro ⟨runId, dataOrigin⟩ stage rfl
      exact ⟨⟨runId, method, windowDays, snapshot, count, at_, dataOrigin⟩, rfl, rfl, rfl, rfl, rfl, rfl, rfl⟩

theorem follows_recordBody (adapter : MethodAdapter I D P) :
    (recordBody uuids dumps method windowDays adapter).Follows (workflow uuids).protocol .idle
      (Contract.Ends (fun result stage => ∃ prior run entries, stage =
        .writing prior run (entries.map Prod.fst) entries ∧ (workflow uuids).commits stage ∧
          Reports uuids method windowDays adapter prior run entries result) fun _ => Failing) := by
  unfold recordBody
  refine follows_lockForRun.bind ?_
  rintro at_ stage rfl
  cases hdecide : adapter.decide windowDays with
  | error e => exact rfl
  | ok output =>
      change (orRaise (validated output) >>= _).Follows _ _ _
      cases hvalid : validated output with
      | error e => exact rfl
      | ok assignments =>
          obtain rfl := validated_ok hvalid
          refine follows_readOpen.bind ?_
          rintro - stage ⟨prior, rfl, rfl⟩
          refine follows_createRun.bind ?_
          rintro ⟨runId, dataOrigin⟩ stage ⟨run, rfl, rfl, rfl, hcount, rfl, rfl, rfl⟩
          refine (follows_writes hcount).mono ?_
          rintro (e | result) stage h
          · exact h
          · obtain ⟨rfl, entries, rfl, hentries, hcommits⟩ := h
            exact ⟨prior, run, entries, rfl, hcommits, ⟨rfl, rfl⟩, output, hdecide, hvalid, hentries, rfl⟩

/-- How a run ends: with a result that reports what it has recorded, or having recorded nothing. -/
theorem follows_record (adapter : MethodAdapter I D P) :
    (record uuids dumps method windowDays adapter).Follows (workflow uuids).protocol .idle
      (Contract.Ends (fun result stage => ∃ prior run entries, stage = .done prior run entries ∧
        Reports uuids method windowDays adapter prior run entries result) fun _ stage => stage = .idle) := by
  unfold record
  refine Workflow.follows_atomic (follows_recordBody adapter) ?_ fun e stage h => ⟨h, fun _ _ => h⟩
  rintro result stage ⟨prior, run, entries, rfl, hcommits, hreports⟩
  exact ⟨hcommits, ⟨prior, run, entries, rfl, hreports⟩, fun e _ => ⟨rfl, fun h => h.elim⟩⟩

/-- A call of `run_method`, and what the adapter of RFM_RULES would put out. -/
structure Call (I D P : Type) where
  method : String
  windowDays : ℤ
  adapter : Option (MethodAdapter I D P)
  rfmRules : ℤ → Except Raised (MethodOutput I D P)

def Call.chosen (call : Call I D P) : Option (MethodAdapter I D P) :=
  call.adapter <|> (if call.method = "RFM_RULES" then some ⟨"RFM_RULES", call.rfmRules⟩ else none)

def Call.program (uuids : Uuids U) (dumps : P → Option String) (repr : String → String) (call : Call I D P) :
    RunProg U I D RunResult :=
  runMethod uuids dumps repr call.rfmRules call.method call.windowDays call.adapter

theorem follows_program (repr : String → String) (call : Call I D P) :
    (call.program uuids dumps repr).Follows (workflow uuids).protocol .idle
      (Contract.Ends (fun result stage => ∃ adapter prior run entries, call.chosen = some adapter ∧
        stage = .done prior run entries ∧ Reports uuids call.method call.windowDays adapter prior run entries result)
        fun _ stage => stage = .idle) := by
  unfold Call.program runMethod
  dsimp only
  by_cases hmethod : call.method ∈ methods
  · rw [if_neg (not_not.mpr hmethod), ← Call.chosen]
    cases hchosen : call.chosen with
    | none => exact rfl
    | some adapter =>
        by_cases hsame : adapter.method = call.method
        · have hrecord : (if adapter.method ≠ call.method then Prog.raise (.adapterMismatch ("The " ++ adapter.method ++
              " adapter cannot run the requested " ++ call.method ++ " method."))
              else record uuids dumps call.method call.windowDays adapter : RunProg U I D RunResult) =
              record uuids dumps call.method call.windowDays adapter := if_neg (not_not.mpr hsame)
          dsimp only
          rw [hrecord]
          refine (follows_record adapter).weaken ?_ fun _ _ h => h
          rintro result stage ⟨prior, run, entries, rfl, hreports⟩
          exact ⟨adapter, prior, run, entries, rfl, rfl, hreports⟩
        · dsimp only
          rw [if_pos hsame]
          exact rfl
  · rw [if_pos hmethod]
    exact rfl

end Programs

/-! ### What is committed -/

section History

variable {T U I D : Type} [LinearOrder I] [DecidableEq U] {start : List (RunRow I)} {db : RunsDb T U I D}

def rowsOf (customer : U) (rows : List (HistoryRow U I D)) : List (HistoryRow U I D) :=
  rows.filter fun row => row.customerId = customer

/-- One customer's rows leave no gap and do not overlap, and at most one is open. -/
structure Continuous (rows : List (HistoryRow U I D)) : Prop where
  contiguous : rows.IsChain fun row next => row.validTo = some next.validFrom
  apart : rows.Pairwise fun row later => ∃ until_, row.validTo = some until_ ∧ until_ ≤ later.validFrom
  one_open : (rows.filter fun row => row.validTo.isNone).length ≤ 1

/-- What a run that was committed has left. -/
structure Left (db : RunsDb T U I D) (commit : Recorded T U I D) : Prop where
  run : commit.run ∈ db.runs
  count : commit.run.customerCount = commit.entries.length
  rows : (db.history.filter fun row => row.runId = commit.run.runId).map (fun row => (row.customerId, row.columns)) =
    commit.entries
  still_open : ∀ entry ∈ commit.entries, ∃ row ∈ db.history, row.customerId = entry.1 ∧ row.validTo = none

def LastRun (commits : List (Recorded T U I D)) (row : HistoryRow U I D) : Prop :=
  ∃ earlier commit later, commits = earlier ++ commit :: later ∧ row.runId = commit.run.runId ∧
    (row.customerId, row.columns) ∈ commit.entries ∧ ∀ other ∈ later, row.customerId ∉ other.entries.map Prod.fst

omit [LinearOrder I] [DecidableEq U] in
theorem batches_keys {commits : List (Recorded T U I D)}
    (hkeys : ∀ commit ∈ commits, (commit.entries.map Prod.fst).Nodup) :
    ∀ batch ∈ commits.map Recorded.batch, batch.keys.Nodup := by
  intro batch hbatch
  obtain ⟨commit, hcommit, rfl⟩ := List.mem_map.mp hbatch
  rw [commit.batch_keys]
  exact hkeys commit hcommit

theorem Sound.batch_keys (h : Sound start db) : ∀ batch ∈ db.commits.map Recorded.batch, batch.keys.Nodup :=
  batches_keys fun commit hcommit => (h.entries commit hcommit).1

theorem Sound.rowsOf (h : Sound start db) (customer : U) : (rowsOf customer db.history).map HistoryRow.version =
    versions customer (said customer (db.commits.map Recorded.batch)) := by
  rw [← ofKey_timeline h.batch_keys, ← h.history]
  unfold SegmentRuns.rowsOf ofKey
  rw [List.filter_map]
  rfl

/-- **A customer's history is continuous.** -/
theorem Sound.continuous (h : Sound start db) (customer : U) : Continuous (SegmentRuns.rowsOf customer db.history) := by
  have hrows := h.rowsOf customer
  refine ⟨?_, ?_, ?_⟩
  · have hchain := versions_chain (k := customer) (said customer (db.commits.map Recorded.batch))
    rw [← hrows, List.isChain_map] at hchain
    exact hchain
  · have hchain := versions_chain (k := customer) (said customer (db.commits.map Recorded.batch))
    rw [← hrows] at hchain
    have hapart := apart_of_chain hchain fun version hversion until_ huntil => by
      obtain ⟨row, hrow, rfl⟩ := List.mem_map.mp hversion
      exact h.checked row (List.mem_of_mem_filter hrow) until_ huntil
    rw [List.pairwise_map] at hapart
    exact hapart
  · have hopen := open_versions (k := customer) (said customer (db.commits.map Recorded.batch))
    rw [← hrows, List.filter_map] at hopen
    have hlength := congrArg List.length hopen
    rw [List.length_map] at hlength
    refine hlength.trans_le ?_
    cases (said customer (db.commits.map Recorded.batch)).getLast? <;> simp

theorem Sound.lastRun (h : Sound start db) {row : HistoryRow U I D} (hrow : row ∈ db.history)
    (hopen : row.validTo = none) : LastRun db.commits row := by
  have hmem : row.version ∈ (versions row.customerId (said row.customerId (db.commits.map Recorded.batch))).filter
      fun row => row.validTo.isNone := by
    rw [← h.rowsOf]
    refine List.mem_filter.mpr ⟨List.mem_map_of_mem (List.mem_filter.mpr ⟨hrow, decide_eq_true rfl⟩), ?_⟩
    exact Option.isNone_iff_eq_none.mpr hopen
  rw [open_versions] at hmem
  cases hlast : (said row.customerId (db.commits.map Recorded.batch)).getLast? with
  | none =>
      rw [hlast] at hmem
      cases hmem
  | some last =>
      rw [hlast] at hmem
      have hversion : row.version = ⟨row.customerId, last.2, last.1, none⟩ := List.mem_singleton.mp hmem
      obtain ⟨earlier, batch, later, hsplit, htells, hlater⟩ := last_said hlast
      obtain ⟨earlier', rest, hcommits, rfl, hrest⟩ := List.map_eq_append_iff.mp hsplit
      obtain ⟨commit, later', rfl, rfl, rfl⟩ := List.map_eq_cons_iff.mp hrest
      obtain ⟨-, hentry⟩ := mem_of_tells htells
      obtain ⟨entry, hentries, heq⟩ := List.mem_map.mp hentry
      obtain ⟨hcustomer, hvalue⟩ := Prod.mk.inj heq
      have hlastValue : (row.runId, row.columns) = last.2 := congrArg Version.value hversion
      rw [← hvalue] at hlastValue
      obtain ⟨hrun, hcolumns⟩ := Prod.mk.inj hlastValue
      refine ⟨earlier', commit, later', hcommits, hrun, ?_, fun other hother => ?_⟩
      · have hpair : (row.customerId, row.columns) = entry := Prod.ext hcustomer.symm hcolumns
        rwa [hpair]
      · rw [← other.batch_keys]
        exact hlater _ (List.mem_map_of_mem hother)

omit [LinearOrder I] [DecidableEq U] in
theorem flatMap_one {β : Type} {commits : List (Recorded T U I D)}
    (hids : (commits.map fun commit => commit.run.runId).Nodup) {commit : Recorded T U I D}
    (hcommit : commit ∈ commits) (f : Recorded T U I D → List β) :
    commits.flatMap (fun other => if other.run.runId = commit.run.runId then f other else []) = f commit := by
  induction commits with
  | nil => cases hcommit
  | cons first rest ih =>
      obtain ⟨hnot, hrest⟩ := List.nodup_cons.mp hids
      rw [List.flatMap_cons]
      obtain rfl | hmem := List.mem_cons.mp hcommit
      · have hnone : rest.flatMap (fun other => if other.run.runId = commit.run.runId then f other else []) = [] := by
          refine List.flatMap_eq_nil_iff.mpr fun other hother => if_neg fun hsame => hnot ?_
          have hmem : other.run.runId ∈ rest.map fun commit => commit.run.runId := List.mem_map_of_mem hother
          rwa [hsame] at hmem
        rw [if_pos rfl, hnone, List.append_nil]
      · have hne : first.run.runId ≠ commit.run.runId := by
          intro hsame
          have hmem' : commit.run.runId ∈ rest.map fun commit => commit.run.runId := List.mem_map_of_mem hmem
          rw [← hsame] at hmem'
          exact hnot hmem'
        rw [if_neg hne, List.nil_append, ih hrest hmem]

/-- **A run has one row for each of its assignments**, and its customers have an open row from then on. -/
theorem Sound.left (h : Sound start db) {commit : Recorded T U I D} (hcommit : commit ∈ db.commits) :
    Left db commit := by
  have hrun : commit.run ∈ db.runs := by
    rw [h.runs]
    exact List.mem_append_right _ (List.mem_map_of_mem hcommit)
  refine ⟨hrun, (h.entries commit hcommit).2, ?_, fun entry hentry => ?_⟩
  · have hentries : db.history.map (fun row => row.version.entry) =
        db.commits.flatMap fun commit => commit.entries.map fun entry => (entry.1, (commit.run.runId, entry.2)) := by
      have hall := entries_timeline (db.commits.map Recorded.batch)
      rw [← h.history, List.map_map, List.flatMap_map] at hall
      exact hall
    have hids : (db.commits.map fun commit => commit.run.runId).Nodup := by
      have hnodup := h.ids
      rw [h.runs, List.map_append, List.map_map] at hnodup
      exact (List.nodup_append.mp hnodup).2.1
    have hfiltered := congrArg (List.filter fun entry => decide (entry.2.1 = commit.run.runId)) hentries
    rw [List.filter_map, List.filter_flatMap] at hfiltered
    have hone : ∀ other ∈ db.commits, (other.entries.map fun entry => (entry.1, (other.run.runId, entry.2))).filter
        (fun entry => decide (entry.2.1 = commit.run.runId)) = if other.run.runId = commit.run.runId then
          other.entries.map fun entry => (entry.1, (other.run.runId, entry.2)) else [] := by
      intro other _
      split_ifs with hsame
      · refine List.filter_eq_self.mpr fun entry hentry => ?_
        obtain ⟨_, -, rfl⟩ := List.mem_map.mp hentry
        exact decide_eq_true hsame
      · refine List.filter_eq_nil_iff.mpr fun entry hentry => ?_
        obtain ⟨_, -, rfl⟩ := List.mem_map.mp hentry
        exact fun htrue => hsame (of_decide_eq_true htrue)
    have hflat : db.commits.flatMap (fun other => if other.run.runId = commit.run.runId then
        other.entries.map fun entry => (entry.1, (other.run.runId, entry.2)) else []) =
          commit.entries.map fun entry => (entry.1, (commit.run.runId, entry.2)) :=
      flatMap_one hids hcommit _
    rw [List.flatMap_congr hone, hflat] at hfiltered
    have hpairs := congrArg (List.map fun entry => (entry.1, entry.2.2)) hfiltered
    rw [List.map_map, List.map_map] at hpairs
    exact hpairs.trans (List.map_id' _)
  · have hkeys : commit.batch.keys.Nodup := h.batch_keys _ (List.mem_map_of_mem hcommit)
    have hmember : (entry.1, (commit.run.runId, entry.2)) ∈ commit.batch.entries := List.mem_map_of_mem hentry
    have htells := tells_of_mem hkeys hmember
    have hsome : (said entry.1 (db.commits.map Recorded.batch)) ≠ [] := by
      intro hnone
      have hmem := List.filterMap_eq_nil_iff.mp hnone _ (List.mem_map_of_mem hcommit)
      rw [htells] at hmem
      cases hmem
    obtain ⟨last, hlast⟩ := Option.ne_none_iff_exists'.mp (List.getLast?_eq_none_iff.not.mpr hsome)
    have hopen := open_versions (k := entry.1) (said entry.1 (db.commits.map Recorded.batch))
    rw [hlast, ← h.rowsOf] at hopen
    have hmem : (⟨entry.1, last.2, last.1, none⟩ : Version U (ℕ × Columns I D) I) ∈
        ((SegmentRuns.rowsOf entry.1 db.history).map HistoryRow.version).filter fun row => row.validTo.isNone := by
      rw [hopen]
      exact List.mem_singleton_self _
    obtain ⟨row, hrow, hversion⟩ := List.mem_map.mp (List.mem_of_mem_filter hmem)
    exact ⟨row, List.mem_of_mem_filter hrow, congrArg Version.key hversion, congrArg Version.validTo hversion⟩

end History

/-! ### What a result counts -/

section Counts

variable {T U I D : Type} [DecidableEq U] {uuids : Uuids U}

def openPair (customer : U) (rows : List (Version U (ℕ × Columns I D) I)) : Option (Option ℤ × Option String) :=
  (current customer rows).map fun value => value.2.pair

/-- The history that some runs leave. -/
def leftBy (commits : List (Recorded T U I D)) : List (Version U (ℕ × Columns I D) I) :=
  timeline (commits.map Recorded.batch)

omit [DecidableEq U] in
theorem changes_eq (prior : Dict String (Option ℤ × Option String)) (assignments : List (Assignment I D))
    (counts : ℕ × ℕ) : (changes prior assignments counts).1 + (changes prior assignments counts).2 =
      counts.1 + counts.2 + assignments.countP fun a => !unchanged prior a := by
  induction assignments generalizing counts with
  | nil => rfl
  | cons a rest ih =>
      obtain ⟨reassigned, cleared⟩ := counts
      unfold changes
      split_ifs with hsame hlabel
      · rw [ih, List.countP_cons_of_neg (by simp [hsame])]
      · rw [ih, List.countP_cons_of_pos (by simpa using hsame)]
        dsimp only
        omega
      · rw [ih, List.countP_cons_of_pos (by simpa using hsame)]
        dsimp only
        omega

omit [DecidableEq U] in
theorem text_injective (uuids : Uuids U) : Function.Injective uuids.text := by
  intro id id' h
  have hparse := congrArg uuids.parse h
  rw [uuids.parse_text, uuids.parse_text] at hparse
  exact Option.some.inj hparse

theorem nodup_openPairs {commits : List (Recorded T U I D)}
    (hkeys : ∀ commit ∈ commits, (commit.entries.map Prod.fst).Nodup) :
    ((openPairs (leftBy commits)).map Prod.fst).Nodup := by
  unfold openPairs
  rw [List.map_map]
  refine List.nodup_iff_count_le_one.mpr fun customer => ?_
  rw [List.count_eq_countP, List.countP_map, List.countP_eq_length_filter, List.filter_filter]
  have hopen := open_versions (k := customer) (said customer (commits.map Recorded.batch))
  rw [← ofKey_timeline (batches_keys hkeys)] at hopen
  unfold ofKey at hopen
  rw [List.filter_filter] at hopen
  have hlength := congrArg List.length hopen
  refine (le_of_eq ?_).trans (hlength.trans_le ?_)
  · congr 1
    refine List.filter_congr fun row _ => ?_
    by_cases hkey : row.key = customer
    · simp [hkey]
    · simp [hkey]
  · cases (said customer (commits.map Recorded.batch)).getLast? <;> simp

/-- The dict of the open assignments has each under the text of its customer, and nothing else. -/
theorem lookup_priorOf {commits : List (Recorded T U I D)} {prior : List (U × Option ℤ × Option String)}
    (hkeys : ∀ commit ∈ commits, (commit.entries.map Prod.fst).Nodup)
    (hprior : prior.Perm (openPairs (leftBy commits))) :
    (∀ customer, (priorOf uuids prior).lookup (uuids.text customer) = openPair customer (leftBy commits)) ∧
      ∀ text, (∀ customer, text ≠ uuids.text customer) → (priorOf uuids prior).lookup text = none := by
  have htexts : (prior.map fun row => uuids.text row.1).Nodup := by
    have hnodup := ((hprior.map Prod.fst).nodup_iff.mpr (nodup_openPairs hkeys)).map (text_injective uuids)
    rwa [List.map_map] at hnodup
  refine ⟨fun customer => ?_, fun text htext => ?_⟩
  · unfold openPair current priorOf
    cases hfind : (leftBy commits).find? fun row => row.key = customer ∧ row.validTo.isNone with
    | none =>
        refine lookup_filled_other Prod.snd [] fun hmem => ?_
        obtain ⟨row, hrow, htext⟩ := List.mem_map.mp hmem
        obtain ⟨version, hversion, rfl⟩ := List.mem_map.mp (hprior.mem_iff.mp hrow)
        obtain ⟨hmem, hopen⟩ := List.mem_filter.mp hversion
        exact List.find?_eq_none.mp hfind version hmem (decide_eq_true ⟨text_injective uuids htext, hopen⟩)
    | some version =>
        have hfound := List.find?_some hfind
        obtain ⟨rfl, hopen⟩ : version.key = customer ∧ version.validTo.isNone = true := of_decide_eq_true hfound
        have hmem : (version.key, version.value.2.pair) ∈ prior := hprior.mem_iff.mpr
          (List.mem_map_of_mem (List.mem_filter.mpr ⟨List.mem_of_find?_eq_some hfind, hopen⟩))
        exact lookup_filled htexts Prod.snd [] hmem
  · refine lookup_filled_other Prod.snd [] fun hmem => ?_
    obtain ⟨row, -, heq⟩ := List.mem_map.mp hmem
    exact htext row.1 heq.symm

theorem openPair_recorded {commits : List (Recorded T U I D)} {commit : Recorded T U I D}
    (hkeys : ∀ commit' ∈ commits ++ [commit], (commit'.entries.map Prod.fst).Nodup) {entry : U × Columns I D}
    (hentry : entry ∈ commit.entries) : openPair entry.1 (leftBy (commits ++ [commit])) = some entry.2.pair := by
  have hbatches := batches_keys hkeys
  have hmember : (entry.1, (commit.run.runId, entry.2)) ∈ commit.batch.entries := List.mem_map_of_mem hentry
  have hlast : commit ∈ commits ++ [commit] := List.mem_append_right _ (List.mem_singleton_self _)
  have htells := tells_of_mem (hbatches _ (List.mem_map_of_mem hlast)) hmember
  unfold openPair leftBy
  rw [current_timeline hbatches]
  unfold said
  rw [List.map_append, List.map_singleton, List.filterMap_append, List.filterMap_cons, htells]
  simp

/-- Written as PostgreSQL writes it, the id of an assignment is found where its customer is. -/
theorem unchanged_iff {commits : List (Recorded T U I D)} {commit : Recorded T U I D}
    {prior : List (U × Option ℤ × Option String)}
    (hkeys : ∀ commit' ∈ commits ++ [commit], (commit'.entries.map Prod.fst).Nodup)
    (hprior : prior.Perm (openPairs (leftBy commits))) {a : Assignment I D} {entry : U × Columns I D}
    (hentry : entry ∈ commit.entries) (hrecorded : RecordedAs uuids a entry) :
    unchanged (priorOf uuids prior) a = true ↔ a.customerId = uuids.text entry.1 ∧
      openPair entry.1 (leftBy commits) = openPair entry.1 (leftBy (commits ++ [commit])) := by
  obtain ⟨hparse, hcolumns⟩ := hrecorded
  obtain ⟨hfound, hmissing⟩ := @lookup_priorOf T U I D _ uuids commits prior
    (fun commit' h => hkeys commit' (List.mem_append_left _ h)) hprior
  have hpair : entry.2.pair = (a.segmentId, a.labelCode) := by
    rw [hcolumns]
    rfl
  rw [openPair_recorded hkeys hentry, hpair]
  unfold unchanged
  rw [decide_eq_true_iff]
  constructor
  · intro hlookup
    have htext : a.customerId = uuids.text entry.1 := by
      by_contra hne
      have hnone := hmissing a.customerId fun customer heq => by
        rw [heq, uuids.parse_text] at hparse
        exact hne (heq.trans (congrArg uuids.text (Option.some.inj hparse)))
      rw [hnone] at hlookup
      cases hlookup
    rw [htext, hfound] at hlookup
    exact ⟨htext, hlookup⟩
  · rintro ⟨htext, hsame⟩
    rw [htext, hfound, hsame]

/-- The changes that a run counts: of the assignments of its customers, those that differ from what was open before,
and those that spell the customer's id in a way of their own. -/
def changed (uuids : Uuids U) (commits : List (Recorded T U I D)) (commit : Recorded T U I D)
    (assignments : List (Assignment I D)) : ℕ :=
  (assignments.zip commit.entries).countP fun pair => pair.1.customerId ≠ uuids.text pair.2.1 ∨
    openPair pair.2.1 (leftBy commits) ≠ openPair pair.2.1 (leftBy (commits ++ [commit]))

theorem changes_recorded {commits : List (Recorded T U I D)} {commit : Recorded T U I D}
    {prior : List (U × Option ℤ × Option String)} {assignments : List (Assignment I D)}
    (hkeys : ∀ commit' ∈ commits ++ [commit], (commit'.entries.map Prod.fst).Nodup)
    (hprior : prior.Perm (openPairs (leftBy commits)))
    (hrecorded : List.Forall₂ (RecordedAs uuids) assignments commit.entries) :
    (assignments.countP fun a => !unchanged (priorOf uuids prior) a) = changed uuids commits commit assignments := by
  have hpairs : ∀ pair ∈ assignments.zip commit.entries, RecordedAs uuids pair.1 pair.2 ∧ pair.2 ∈ commit.entries := by
    rintro ⟨a, entry⟩ hpair
    exact ⟨(List.forall₂_iff_zip.mp hrecorded).2 hpair, (List.of_mem_zip hpair).2⟩
  have hfst : (assignments.zip commit.entries).map Prod.fst = assignments :=
    List.map_fst_zip hrecorded.length_eq.le
  unfold changed
  conv_lhs => rw [← hfst]
  rw [List.countP_map]
  refine List.countP_congr fun pair hpair => ?_
  obtain ⟨ha, hentry⟩ := hpairs pair hpair
  have hiff := unchanged_iff hkeys hprior hentry ha
  simp only [Function.comp_apply, Bool.not_eq_true', decide_eq_true_eq]
  rw [← Bool.not_eq_true, hiff, not_and_or]

omit [DecidableEq U] in
theorem countP_recorded {assignments : List (Assignment I D)} {entries : List (U × Columns I D)}
    (hrecorded : List.Forall₂ (RecordedAs uuids) assignments entries) :
    (assignments.countP fun a => a.labelCode.isSome) = entries.countP fun entry => entry.2.labelCode.isSome := by
  induction hrecorded with
  | nil => rfl
  | cons hentry _ ih =>
      have hlabel := congrArg Columns.labelCode hentry.2
      rw [List.countP_cons, List.countP_cons, ih, hlabel]
      rfl

/-- Where every id is spelled as PostgreSQL does, only the open assignments are compared. -/
theorem changed_of_spelled {commits : List (Recorded T U I D)} {commit : Recorded T U I D}
    {assignments : List (Assignment I D)} (hrecorded : List.Forall₂ (RecordedAs uuids) assignments commit.entries)
    (hspelled : ∀ a ∈ assignments, ∃ id, a.customerId = uuids.text id) :
    changed uuids commits commit assignments = commit.entries.countP fun entry =>
      openPair entry.1 (leftBy commits) ≠ openPair entry.1 (leftBy (commits ++ [commit])) := by
  have hsnd : (assignments.zip commit.entries).map Prod.snd = commit.entries :=
    List.map_snd_zip hrecorded.length_eq.ge
  unfold changed
  conv_rhs => rw [← hsnd]
  rw [List.countP_map]
  refine List.countP_congr fun pair hpair => ?_
  obtain ⟨hparse, -⟩ := (List.forall₂_iff_zip.mp hrecorded).2 hpair
  obtain ⟨id, hid⟩ := hspelled pair.1 (List.of_mem_zip hpair).1
  have htext : pair.1.customerId = uuids.text pair.2.1 := by
    rw [hid, uuids.parse_text] at hparse
    rw [hid, Option.some.inj hparse]
  simp [htext]

end Counts

/-! ### Every interleaving -/

section Runs

variable {T U I D P : Type} [LinearOrder I] [DecidableEq U] [DecidableEq T]

abbrev RunsConfig (T U I D : Type) : Type :=
  Config T (Request (Statement I D)) (Reply (Result U I D) DbError) Raised RunResult (RunsDb T U I D)

/-- Some runs, not begun, over an empty history. -/
def runs (uuids : Uuids U) (dumps : P → Option String) (repr : String → String) (calls : T → Call I D P)
    (customers : List U) (recorded : List (RunRow I)) (nextRun : ℕ) : RunsConfig T U I D :=
  Config.initial (fun t => (calls t).program uuids dumps repr) (.empty customers recorded nextRun)

def Ending (uuids : Uuids U) (call : Call I D P) : Except Raised RunResult → Stage U I D → Prop :=
  Contract.Ends (fun result stage => ∃ adapter prior run entries, call.chosen = some adapter ∧
    stage = .done prior run entries ∧ Reports uuids call.method call.windowDays adapter prior run entries result)
    fun _ stage => stage = .idle

variable (uuids : Uuids U) (dumps : P → Option String) (repr : String → String) (calls : T → Call I D P)
  (customers : List U) {recorded : List (RunRow I)} {nextRun : ℕ}

theorem obeys_runs (hids : (recorded.map RunRow.runId).Nodup) (hnext : ∀ run ∈ recorded, run.runId < nextRun)
    {cfg : RunsConfig T U I D}
    (hrun : (RunsDb.machine uuids).Reaches (runs uuids dumps repr calls customers recorded nextRun) cfg) :
    (runContract recorded).Obeys (fun _ => (workflow uuids).protocol) (fun t => Ending uuids (calls t)) cfg := by
  refine Contract.Obeys.reaches run_implements run_closed ?_ hrun
  refine Contract.Obeys.initial ?_ fun t => ⟨.idle, ?_, follows_program repr (calls t)⟩
  · exact ⟨rfl, by simp [RunsDb.empty], by simp [RunsDb.empty], (List.append_nil _).symm, hids, hnext⟩
  · exact ⟨rfl, Option.some_ne_none _ |>.symm, List.not_mem_nil⟩

/-- **A result says what its run has changed.** It names the run that was committed, counts its assignments, and of
them those that changed the open segment or label of their customer, where the adapter has spelled the customer's id
as PostgreSQL does. -/
theorem results_over_runs (hids : (recorded.map RunRow.runId).Nodup) (hnext : ∀ run ∈ recorded, run.runId < nextRun)
    {cfg : RunsConfig T U I D}
    (hrun : (RunsDb.machine uuids).Reaches (runs uuids dumps repr calls customers recorded nextRun) cfg)
    {t : T} {result : RunResult} (hthread : cfg.threads t = some (.ret result)) :
    ∃ earlier commit later adapter output, cfg.state.commits = earlier ++ commit :: later ∧ commit.by_ = t ∧
      (calls t).chosen = some adapter ∧ adapter.decide (calls t).windowDays = .ok output ∧
      result.runId = commit.run.runId ∧ result.method = (calls t).method ∧
      result.dataOrigin = commit.run.dataOrigin ∧ result.processed = commit.entries.length ∧
      result.processed = result.assigned + result.unmatched ∧
      result.assigned = (commit.entries.countP fun entry => entry.2.labelCode.isSome) ∧
      result.reassigned + result.cleared = changed uuids earlier commit output.assignments ∧
      ((∀ a ∈ output.assignments, ∃ id, a.customerId = uuids.text id) →
        result.reassigned + result.cleared = commit.entries.countP fun entry =>
          openPair entry.1 (leftBy earlier) ≠ openPair entry.1 (leftBy (earlier ++ [commit]))) := by
  have hobeys := obeys_runs uuids dumps repr calls customers hids hnext hrun
  obtain ⟨stage, hat, adapter, prior, run, entries, hchosen, rfl, ⟨hmethod, -⟩, output, houtput, hvalid, hrecorded,
    rfl⟩ := hobeys.ended hthread
  obtain ⟨-, -, earlier, later, hcommits, hprior⟩ := hat
  have hkeys : ∀ commit ∈ earlier ++ [⟨t, run, entries⟩], (commit.entries.map Prod.fst).Nodup := by
    intro commit hcommit
    refine (hobeys.inv.entries commit ?_).1
    rw [hcommits, List.append_cons]
    exact List.mem_append_left _ hcommit
  have hcounts : (reported uuids output.assignments prior run).reassigned +
      (reported uuids output.assignments prior run).cleared =
        changed uuids earlier ⟨t, run, entries⟩ output.assignments := by
    have hsum := changes_eq (priorOf uuids prior) output.assignments (0, 0)
    rw [changes_recorded hkeys hprior hrecorded] at hsum
    exact hsum.trans (Nat.zero_add _)
  have hassigned : (reported uuids output.assignments prior run).assigned =
      output.assignments.countP fun a => a.labelCode.isSome := rfl
  have hall : output.assignments.length = (reported uuids output.assignments prior run).assigned +
      (reported uuids output.assignments prior run).unmatched := (Nat.add_sub_cancel' List.countP_le_length).symm
  refine ⟨earlier, ⟨t, run, entries⟩, later, adapter, output, hcommits, rfl, hchosen, houtput, rfl, hmethod, rfl,
    hrecorded.length_eq, hall, hassigned.trans (countP_recorded hrecorded), hcounts, fun hspelled => ?_⟩
  rw [hcounts]
  exact changed_of_spelled hrecorded hspelled

end Runs

/-! ### A run -/

/-- Ids as they are written. -/
def plainUuids : Uuids String := ⟨id, some, fun _ => rfl⟩

/-- One connection, whose statements all succeed, on a database without history. -/
def succeed (t : Unit) : (s : Statement ℕ ℕ) → RunsDb Unit String ℕ ℕ →
    Option (Result String ℕ ℕ s × RunsDb Unit String ℕ ℕ)
  | .advisoryLock, db => if db.lock = none then some ((), { db with lock := some t }) else none
  | .clockTimestamp, db => some (1, db)
  | .readOpen, db => some (openPairs ((db.view t).map HistoryRow.version), db)
  | .createRun method windowDays parameters customerCount runAt, db => some ((db.nextRun, "OBSERVED"),
      { db.write t { db.work t with
          runs := (db.work t).runs ++
            [⟨db.nextRun, method, windowDays, parameters, customerCount, runAt, "OBSERVED"⟩] } with
        nextRun := db.nextRun + 1 })
  | .close at_ customers, db =>
    if (db.view t).isEmpty then
      some ((),
        db.write t { db.work t with closed := (db.work t).closed ++ RunsDb.closings (db.view t) customers at_ })
    else none
  | .insert runId rows at_, db =>
    if (rows.map Prod.fst).Nodup ∧ (db.view t).isEmpty ∧
        ((db.runs ++ (db.work t).runs).any fun run => run.runId = runId) ∧ ∀ row ∈ rows, row.1 ∈ db.customers then
      some ((), db.write t { db.work t with opened := (db.work t).opened ++ RunsDb.openedRows runId at_ rows })
    else none
  | .notify _, db => some ((), db)

theorem mapM_some {α : Type} (rows : List α) : rows.mapM some = some rows :=
  Forest.mapM_of_forall₂ (List.forall₂_same.mpr fun _ _ => rfl)

theorem answers_of_succeed (t : Unit) (s : Statement ℕ ℕ) (db : RunsDb Unit String ℕ ℕ) (v : Result String ℕ ℕ s)
    (db' : RunsDb Unit String ℕ ℕ) (h : succeed t s db = some (v, db')) : RunsDb.Answers plainUuids t s db v db' := by
  cases s with
  | advisoryLock =>
      dsimp only [succeed] at h
      split_ifs at h with hfree
      obtain ⟨rfl, rfl⟩ := Prod.mk.inj (Option.some.inj h)
      exact .advisoryLock (.inl hfree)
  | clockTimestamp =>
      obtain ⟨rfl, rfl⟩ := Prod.mk.inj (Option.some.inj h)
      exact .clockTimestamp 1
  | readOpen =>
      obtain ⟨rfl, rfl⟩ := Prod.mk.inj (Option.some.inj h)
      exact .readOpen (.refl _)
  | createRun method windowDays parameters customerCount runAt =>
      obtain ⟨rfl, rfl⟩ := Prod.mk.inj (Option.some.inj h)
      exact .createRun "OBSERVED"
  | close at_ customers =>
      dsimp only [succeed] at h
      split_ifs at h with hnone
      obtain ⟨rfl, rfl⟩ := Prod.mk.inj (Option.some.inj h)
      refine .close (mapM_some customers) (fun u hu => absurd rfl hu) fun row hrow => ?_
      rw [List.isEmpty_iff.mp hnone] at hrow
      cases hrow
  | insert runId rows at_ =>
      dsimp only [succeed] at h
      split_ifs at h with hall
      obtain ⟨hunique, hnone, hrun, hcustomers⟩ := hall
      obtain ⟨rfl, rfl⟩ := Prod.mk.inj (Option.some.inj h)
      obtain ⟨run, hmem, hrunId⟩ := List.any_eq_true.mp hrun
      refine .insert (mapM_some rows) hunique (fun entry _ row hrow => ?_) (fun u hu => absurd rfl hu)
        ⟨run, hmem, of_decide_eq_true hrunId⟩ hcustomers
      rw [List.isEmpty_iff.mp hnone] at hrow
      cases hrow
  | notify runId =>
      obtain ⟨rfl, rfl⟩ := Prod.mk.inj (Option.some.inj h)
      exact .notify

def ana : Assignment ℕ ℕ := ⟨"ana", some "LOYAL", some 3, some 1, some 2, some 40, none, none, none, false⟩

def anaCall (_ : Unit) : Call ℕ ℕ String := ⟨"RFM_RULES", 180, none, fun _ => .ok ⟨[ana], "window 180"⟩⟩

theorem ana_recorded : ∃ cfg,
    (RunsDb.machine plainUuids).Reaches (runs plainUuids some id anaCall ["ana"] [] 0) cfg ∧
    cfg.threads () = some (.ret ⟨180, 1, 1, 0, 1, 0, 0, "RFM_RULES", 0, "OBSERVED"⟩) ∧
    cfg.state.history = [⟨"ana", 0, ana.asRow.2, 1, none⟩] := by
  have hrun : ((schedule ((RunsDb.server plainUuids).respond succeed fun _ _ _ => none)
      [(), (), (), (), (), (), (), ()] (runs plainUuids some id anaCall ["ana"] [] 0)).any fun cfg =>
        outcome (cfg.threads ()) = some (.ok ⟨180, 1, 1, 0, 1, 0, 0, "RFM_RULES", 0, "OBSERVED"⟩) ∧
          cfg.state.history = [⟨"ana", 0, ana.asRow.2, 1, none⟩]) = true := by
    decide +kernel
  obtain ⟨cfg, hcfg, hboth⟩ := (Option.any_eq_true _ _).mp hrun
  obtain ⟨hresult, hhistory⟩ := of_decide_eq_true hboth
  have hreaches := Machine.reaches_of_schedule (RunsDb.machine plainUuids)
    (fun _ _ _ _ _ h => Server.step_of_respond answers_of_succeed (fun _ _ _ _ h => by cases h) h) _ hcfg
  exact ⟨cfg, hreaches, ret_of_outcome hresult, hhistory⟩

theorem ana_counted : ∃ cfg, (RunsDb.machine plainUuids).Reaches (runs plainUuids some id anaCall ["ana"] [] 0) cfg ∧
    ∃ earlier commit later, cfg.state.commits = earlier ++ commit :: later ∧ commit.run.runId = 0 ∧
      commit.entries.length = 1 ∧ (commit.entries.countP fun entry => openPair entry.1 (leftBy earlier) ≠
        openPair entry.1 (leftBy (earlier ++ [commit]))) = 1 := by
  obtain ⟨cfg, hrun, hthread, -⟩ := ana_recorded
  have hids : (([] : List (RunRow ℕ)).map RunRow.runId).Nodup := List.nodup_nil
  have hnext : ∀ run ∈ ([] : List (RunRow ℕ)), run.runId < 0 := nofun
  obtain ⟨earlier, commit, later, _, output, hcommits, -, -, -, hid, -, -, hprocessed, -, -, -, hcounted⟩ :=
    results_over_runs plainUuids some id anaCall ["ana"] hids hnext hrun hthread
  refine ⟨cfg, hrun, earlier, commit, later, hcommits, hid.symm, hprocessed.symm, ?_⟩
  exact (hcounted fun a _ => ⟨a.customerId, rfl⟩).symm

end RetailSegmentation.SegmentRuns
