import RetailSegmentation.SegmentHistory

/-! Segmentation runs of any number of connections, interleaved statement by statement with failures, crashes and new
customers. Only the holder of the advisory lock has anything to commit, so what is committed is the timeline of the
runs. -/

namespace RetailSegmentation.SegmentRuns

open Program Transactions Temporal

section Stages

variable {T U I D : Type}

/-- Where the transaction of a run stands. -/
inductive Stage (U I D : Type) where
  | idle
  | locked
  | stamped (at_ : I)
  | looked (at_ : I) (prior : List (U × Option ℤ × Option String))
  | writing (prior : List (U × Option ℤ × Option String)) (run : RunRow I) (customers : List U)
    (entries : List (U × Columns I D))
  | done (prior : List (U × Option ℤ × Option String)) (run : RunRow I) (entries : List (U × Columns I D))

def Stage.after : Stage U I D → Stage U I D
  | writing prior run _ entries => done prior run entries
  | stage => stage

def Stage.undone : Stage U I D → Stage U I D
  | done prior run entries => done prior run entries
  | _ => idle

/-- The steps of a run, in their order. -/
def workflow (uuids : Uuids U) : Workflow (Statement I D) (Result U I D) DbError (Stage U I D) where
  may statement stage := match statement, stage with
    | .advisoryLock, .idle => True
    | .clockTimestamp, .locked => True
    | .readOpen, .stamped _ => True
    | .createRun _ _ _ _ runAt, .looked at_ _ => runAt = at_
    | .close at_ _, .writing _ run [] [] => at_ = run.runAt
    | .insert runId rows at_, .writing _ run customers [] =>
      runId = run.runId ∧ at_ = run.runAt ∧ (rows.map Prod.fst).mapM uuids.parse = some customers
    | .notify _, .writing _ _ _ _ => True
    | _, _ => False
  next statement v stage stage' := match statement, v, stage with
    | .advisoryLock, _, _ => stage' = .locked
    | .clockTimestamp, at_, _ => stage' = .stamped at_
    | .readOpen, rows, .stamped at_ => stage' = .looked at_ rows
    | .createRun method windowDays parameters customerCount runAt, (runId, dataOrigin), .looked _ prior =>
      stage' = .writing prior ⟨runId, method, windowDays, parameters, customerCount, runAt, dataOrigin⟩ [] []
    | .close _ customerIds, _, .writing prior run _ _ =>
      ∃ customers, customerIds.mapM uuids.parse = some customers ∧ stage' = .writing prior run customers []
    | .insert _ rows _, _, .writing prior run customers _ => ∃ entries,
      rows.mapM (fun row => (uuids.parse row.1).map fun id => (id, row.2)) = some entries ∧
        (entries.map Prod.fst).Nodup ∧ stage' = .writing prior run customers entries
    | .notify _, _, stage => stage' = stage
    | _, _, _ => False
  fails _ _ _ := False
  aborts _ := True
  commits stage := match stage with
    | .writing _ run customers entries =>
      customers = entries.map Prod.fst ∧ run.customerCount = entries.length ∧ (entries.map Prod.fst).Nodup
    | _ => False
  after := Stage.after
  undone := Stage.undone
  losesReplies := False

variable [LinearOrder I] [DecidableEq U]

/-- What is committed: the timeline of the runs. -/
structure Sound (start : List (RunRow I)) (db : RunsDb T U I D) : Prop where
  history : db.history.map HistoryRow.version = timeline (db.commits.map Recorded.batch)
  checked : ∀ row ∈ db.history, ∀ until_, row.validTo = some until_ → row.validFrom ≤ until_
  entries : ∀ commit ∈ db.commits, (commit.entries.map Prod.fst).Nodup ∧
    commit.run.customerCount = commit.entries.length
  runs : db.runs = start ++ db.commits.map Recorded.run
  ids : (db.runs.map RunRow.runId).Nodup
  fresh : ∀ run ∈ db.runs, run.runId < db.nextRun

/-- Transaction `t` holds the lock, and has committed nothing. -/
structure Holds (t : T) (db : RunsDb T U I D) : Prop where
  lock : db.lock = some t
  uncommitted : t ∉ db.commits.map Recorded.by_

/-- None of the open rows of these customers begins after the instant. -/
def Checked (at_ : I) (customers : List U) (history : List (HistoryRow U I D)) : Prop :=
  ∀ row ∈ history, row.validTo = none → row.customerId ∈ customers → row.validFrom ≤ at_

/-- Only what the lock protects, or nothing. -/
def At (t : T) : Stage U I D → RunsDb T U I D → Prop
  | .idle, db => db.work t = .none_ ∧ db.lock ≠ some t ∧ t ∉ db.commits.map Recorded.by_
  | .locked, db => Holds t db ∧ db.work t = .none_
  | .stamped _, db => Holds t db ∧ db.work t = .none_
  | .looked _ prior, db => Holds t db ∧ db.work t = .none_ ∧
    prior.Perm (openPairs (db.history.map HistoryRow.version))
  | .writing prior run customers entries, db => Holds t db ∧
    db.work t = ⟨[run], RunsDb.closings db.history customers run.runAt,
      RunsDb.openedRows run.runId run.runAt entries⟩ ∧
    Checked run.runAt customers db.history ∧ prior.Perm (openPairs (db.history.map HistoryRow.version)) ∧
    run.runId < db.nextRun ∧ ∀ run' ∈ db.runs, run'.runId ≠ run.runId
  | .done prior run entries, db => db.work t = .none_ ∧ db.lock ≠ some t ∧ ∃ earlier later,
    db.commits = earlier ++ ⟨t, run, entries⟩ :: later ∧
      prior.Perm (openPairs (timeline (earlier.map Recorded.batch)))

/-- What a step of another connection leaves to `u`. -/
structure Leaves (u : T) (db db' : RunsDb T U I D) : Prop where
  work : db'.work u = db.work u
  lock : db'.lock = some u ↔ db.lock = some u
  commits : db.commits <+: db'.commits
  uncommitted : u ∉ db.commits.map Recorded.by_ → u ∉ db'.commits.map Recorded.by_
  held : db.lock = some u → db'.history = db.history ∧ db'.commits = db.commits ∧ db'.runs = db.runs
  nextRun : db.nextRun ≤ db'.nextRun

variable {start : List (RunRow I)} {t u : T} {db db' : RunsDb T U I D} {stage : Stage U I D}

omit [LinearOrder I] [DecidableEq U] in
theorem Leaves.refl (u : T) (db : RunsDb T U I D) : Leaves u db db :=
  ⟨rfl, Iff.rfl, List.prefix_rfl, fun h => h, fun _ => ⟨rfl, rfl, rfl⟩, le_rfl⟩

omit [DecidableEq U] [LinearOrder I] in
theorem Leaves.holds (h : Leaves u db db') (hin : Holds u db) : Holds u db' where
  lock := h.lock.mpr hin.lock
  uncommitted := h.uncommitted hin.uncommitted

theorem Leaves.at_ (h : Leaves u db db') (hat : At u stage db) : At u stage db' := by
  cases stage with
  | idle => exact ⟨h.work.trans hat.1, h.lock.not.mpr hat.2.1, h.uncommitted hat.2.2⟩
  | locked => exact ⟨h.holds hat.1, h.work.trans hat.2⟩
  | stamped at_ => exact ⟨h.holds hat.1, h.work.trans hat.2⟩
  | looked at_ prior =>
      obtain ⟨hin, hwork, hprior⟩ := hat
      refine ⟨h.holds hin, h.work.trans hwork, ?_⟩
      rw [(h.held hin.lock).1]
      exact hprior
  | writing prior run customers entries =>
      obtain ⟨hin, hwork, hchecked, hprior, hnext, hfresh⟩ := hat
      obtain ⟨hhistory, -, hruns⟩ := h.held hin.lock
      refine ⟨h.holds hin, ?_, ?_, ?_, hnext.trans_le h.nextRun, ?_⟩
      · rw [h.work, hhistory]
        exact hwork
      · rw [hhistory]
        exact hchecked
      · rw [hhistory]
        exact hprior
      · rw [hruns]
        exact hfresh
  | done prior run entries =>
      obtain ⟨hwork, hlock, earlier, later, hcommits, hprior⟩ := hat
      obtain ⟨more, hmore⟩ := h.commits
      refine ⟨h.work.trans hwork, h.lock.not.mpr hlock, earlier, later ++ more, ?_, hprior⟩
      rw [← hmore, hcommits, List.append_assoc]
      rfl

variable [DecidableEq T]

variable (uuids : Uuids U) (start) in
def runContract : Contract T (Request (Statement I D)) (Reply (Result U I D) DbError) (RunsDb T U I D)
    (Stage U I D) where
  inv := Sound start
  at_ := At
  guar _ _ _ _ _ := True

omit [DecidableEq T] in
theorem keeps_of_leaves (hsound : Sound start db') (hleaves : ∀ u, u ≠ t → Leaves u db db') :
    (runContract start).Keeps t db db' :=
  ⟨hsound, fun u hu _ hat => (hleaves u hu).at_ hat⟩

omit [DecidableEq T] in
theorem keeps_self (hsound : Sound start db) : (runContract start).Keeps t db db :=
  keeps_of_leaves hsound fun u _ => .refl u db

omit [LinearOrder I] [DecidableEq U] in
theorem leaves_write {work : Work U I D} (hu : u ≠ t) (db : RunsDb T U I D) : Leaves u db (db.write t work) :=
  { Leaves.refl u db with work := Function.update_of_ne hu _ _ }

theorem Sound.write (h : Sound start db) (work : Work U I D) : Sound start (db.write t work) :=
  ⟨h.history, h.checked, h.entries, h.runs, h.ids, h.fresh⟩

end Stages

/-! ### Commits and rollbacks -/

section Ends

variable {T U I D : Type} [LinearOrder I] [DecidableEq U] [DecidableEq T] {start : List (RunRow I)} {t u : T}
  {db db' : RunsDb T U I D} {stage : Stage U I D} {uuids : Uuids U}

omit [LinearOrder I] [DecidableEq U] in
theorem leaves_rollback (hu : u ≠ t) (db : RunsDb T U I D) : Leaves u db (db.rollback t) where
  work := Function.update_of_ne hu _ _
  lock := release_other hu db.lock
  commits := List.prefix_rfl
  uncommitted h := h
  held _ := ⟨rfl, rfl, rfl⟩
  nextRun := le_rfl

theorem Sound.rollback (h : Sound start db) : Sound start (db.rollback t) :=
  ⟨h.history, h.checked, h.entries, h.runs, h.ids, h.fresh⟩

theorem at_rollback (hat : At t stage db) : At t stage.undone (db.rollback t) := by
  have hwork : (db.rollback t).work t = .none_ := Function.update_self t _ _
  have hlock : (db.rollback t).lock ≠ some t := release_self t db.lock
  cases stage with
  | idle => exact ⟨hwork, hlock, hat.2.2⟩
  | locked => exact ⟨hwork, hlock, hat.1.uncommitted⟩
  | stamped at_ => exact ⟨hwork, hlock, hat.1.uncommitted⟩
  | looked at_ prior => exact ⟨hwork, hlock, hat.1.uncommitted⟩
  | writing prior run customers entries => exact ⟨hwork, hlock, hat.1.uncommitted⟩
  | done prior run entries => exact ⟨hwork, hlock, hat.2.2⟩

theorem run_rollsBack : RollsBack (runContract start) (RunsDb.server uuids) fun _ : T => workflow (D := D) uuids :=
  fun _ _ db hsound hat =>
    ⟨keeps_of_leaves hsound.rollback fun _ hu => leaves_rollback hu db, at_rollback hat, fun _ _ => trivial⟩

omit [DecidableEq T] in
theorem Sound.run_of_row (h : Sound start db) {row : HistoryRow U I D} (hrow : row ∈ db.history) :
    ∃ commit ∈ db.commits, commit.run.runId = row.runId ∧ (row.customerId, row.columns) ∈ commit.entries := by
  have hmem : row.version.entry ∈ (db.commits.map Recorded.batch).flatMap Batch.entries := by
    rw [← entries_timeline, ← h.history]
    exact List.mem_map_of_mem (List.mem_map_of_mem hrow)
  obtain ⟨batch, hbatch, hentry⟩ := List.mem_flatMap.mp hmem
  obtain ⟨commit, hcommit, rfl⟩ := List.mem_map.mp hbatch
  obtain ⟨entry, hentries, heq⟩ := List.mem_map.mp hentry
  obtain ⟨hcustomer, hvalue⟩ := Prod.mk.inj heq
  obtain ⟨hrun, hcolumns⟩ := Prod.mk.inj hvalue
  refine ⟨commit, hcommit, hrun, ?_⟩
  have heq : (row.customerId, row.columns) = entry := Prod.ext hcustomer.symm hcolumns.symm
  rwa [heq]

omit [DecidableEq T] in
theorem Sound.no_row (h : Sound start db) {runId : ℕ} (hfresh : ∀ run ∈ db.runs, run.runId ≠ runId) :
    ∀ row ∈ db.history, row.runId ≠ runId := by
  intro row hrow
  obtain ⟨commit, hcommit, hrun, -⟩ := h.run_of_row hrow
  rw [← hrun]
  refine hfresh commit.run ?_
  rw [h.runs]
  exact List.mem_append_right _ (List.mem_map_of_mem hcommit)

omit [LinearOrder I] in
theorem commits_commit {run : RunRow I} {closed : List ((ℕ × U) × I)} {entries : List (U × Columns I D)}
    (hwork : db.work t = ⟨[run], closed, RunsDb.openedRows run.runId run.runAt entries⟩) :
    (db.commit t).commits = db.commits ++ [⟨t, run, entries⟩] := by
  have hrows : ((RunsDb.openedRows run.runId run.runAt entries).filter fun row => row.runId = run.runId).map
      (fun row => (row.customerId, row.columns)) = entries := by
    have hall : ∀ row ∈ RunsDb.openedRows run.runId run.runAt entries, decide (row.runId = run.runId) = true := by
      intro row hrow
      obtain ⟨entry, -, rfl⟩ := List.mem_map.mp hrow
      exact decide_eq_true rfl
    rw [List.filter_eq_self.mpr hall]
    unfold RunsDb.openedRows
    rw [List.map_map]
    exact List.map_id' _
  unfold RunsDb.commit
  rw [hwork]
  exact congrArg (fun rows => db.commits ++ [(⟨t, run, rows⟩ : Recorded T U I D)]) hrows

theorem checked_view {history : List (HistoryRow U I D)} {customers : List U} {run : RunRow I}
    {entries : List (U × Columns I D)}
    (hhistory : ∀ row ∈ history, ∀ until_, row.validTo = some until_ → row.validFrom ≤ until_)
    (hchecked : Checked run.runAt customers history) (hother : ∀ row ∈ history, row.runId ≠ run.runId) :
    ∀ row ∈ (history ++ RunsDb.openedRows run.runId run.runAt entries).map
      (HistoryRow.closeBy (RunsDb.closings history customers run.runAt)),
      ∀ until_, row.validTo = some until_ → row.validFrom ≤ until_ := by
  intro row hrow until_ huntil
  obtain ⟨row, hmem, rfl⟩ := List.mem_map.mp hrow
  obtain hmem | hmem := List.mem_append.mp hmem
  · cases hopen : row.validTo with
    | some at_ =>
        rw [closeBy_of_closed _ hopen] at huntil ⊢
        exact hhistory row hmem until_ huntil
    | none =>
        rw [closeBy_closings history customers run.runAt hmem hopen] at huntil ⊢
        split_ifs at huntil ⊢ with hcustomer
        · obtain rfl := Option.some.inj huntil
          exact hchecked row hmem hopen hcustomer
        · rw [hopen] at huntil
          cases huntil
  · obtain ⟨entry, hentry, rfl⟩ := List.mem_map.mp hmem
    rw [closeBy_opened history customers run.runAt hother] at huntil
    cases huntil

theorem run_commits : Commits (runContract start) (RunsDb.server uuids) fun _ : T => workflow (D := D) uuids := by
  intro t stage db hsound hat hcommits
  cases stage with
  | writing prior run customers entries =>
      obtain ⟨hin, hwork, hchecked, hprior, hnext, hfresh⟩ := hat
      obtain ⟨rfl, hcount, hkeys⟩ := hcommits
      have hrecorded := commits_commit hwork
      have hruns : (db.commit t).runs = db.runs ++ [run] := by
        unfold RunsDb.commit
        rw [hwork]
      have hview : (db.commit t).history.map HistoryRow.version =
          timeline ((db.commit t).commits.map Recorded.batch) := by
        rw [hrecorded, List.map_append, List.map_singleton, timeline_append, ← hsound.history,
          ← recorded_view (hsound.no_row hfresh)]
        unfold RunsDb.commit RunsDb.view
        rw [hwork]
      have hsound' : Sound start (db.commit t) := by
        refine ⟨hview, ?_, ?_, ?_, ?_, ?_⟩
        · rw [show (db.commit t).history = db.view t from rfl]
          unfold RunsDb.view
          rw [hwork]
          exact checked_view hsound.checked hchecked (hsound.no_row hfresh)
        · rw [hrecorded]
          intro commit hcommit
          obtain hcommit | hcommit := List.mem_append.mp hcommit
          · exact hsound.entries commit hcommit
          · obtain rfl := List.mem_singleton.mp hcommit
            exact ⟨hkeys, hcount⟩
        · rw [hrecorded, hruns, hsound.runs, List.map_append, List.append_assoc]
          rfl
        · rw [hruns, List.map_append, List.nodup_append]
          refine ⟨hsound.ids, List.nodup_singleton _, fun id hid id' hid' => ?_⟩
          obtain ⟨run', hrun', rfl⟩ := List.mem_map.mp hid
          obtain rfl := List.mem_singleton.mp hid'
          exact hfresh run' hrun'
        · rw [hruns]
          intro run' hrun'
          obtain hrun' | hrun' := List.mem_append.mp hrun'
          · exact hsound.fresh run' hrun'
          · exact List.mem_singleton.mp hrun' ▸ hnext
      refine ⟨keeps_of_leaves hsound' fun u hu => ?_, ?_, fun _ => trivial⟩
      · have hne : db.lock ≠ some u := by
          rw [hin.lock]
          exact fun h => hu (Option.some.inj h).symm
        have hprefix : db.commits <+: (db.commit t).commits := by
          rw [hrecorded]
          exact List.prefix_append _ _
        have huncommitted : u ∉ db.commits.map Recorded.by_ → u ∉ (db.commit t).commits.map Recorded.by_ := by
          rw [hrecorded, List.map_append, List.mem_append]
          exact fun hnot => not_or.mpr ⟨hnot, fun h => hu (List.mem_singleton.mp h)⟩
        exact ⟨Function.update_of_ne hu _ _, release_other hu db.lock, hprefix, huncommitted, fun h => absurd h hne,
          le_rfl⟩
      · refine ⟨Function.update_self t _ _, release_self t db.lock, db.commits, [], hrecorded, ?_⟩
        rw [← hsound.history]
        exact hprior
  | _ => exact hcommits.elim

/-! ### Statements -/

omit [LinearOrder I] [DecidableEq T] in
theorem view_of_clean {runs : List (RunRow I)} (hwork : db.work t = ⟨runs, [], []⟩) : db.view t = db.history := by
  have hsame : ∀ row : HistoryRow U I D, row.closeBy [] = row := by
    intro row
    unfold HistoryRow.closeBy
    cases row.validTo <;> rfl
  unfold RunsDb.view
  rw [hwork]
  change (db.history ++ []).map (HistoryRow.closeBy []) = db.history
  rw [List.append_nil, List.map_congr_left fun row _ => hsame row, List.map_id']

omit [LinearOrder I] [DecidableEq T] in
theorem closings_nil (rows : List (HistoryRow U I D)) (at_ : I) : RunsDb.closings rows [] at_ = [] := by
  have hnone : rows.filter (fun row => row.validTo.isNone && row.customerId ∈ ([] : List U)) = [] :=
    List.filter_eq_nil_iff.mpr fun row _ => by simp
  unfold RunsDb.closings
  rw [hnone]
  rfl

theorem run_answers : Transactions.Answers (runContract start) (RunsDb.server uuids)
    (fun _ : T => workflow (D := D) uuids) fun _ _ _ => True := by
  intro t statement stage db v db' hsound hat hmay _ hanswer
  refine ⟨trivial, ?_⟩
  cases hanswer with
  | advisoryLock hfree =>
      cases stage with
      | idle =>
          obtain ⟨hwork, -, hnot⟩ := hat
          refine ⟨keeps_of_leaves ⟨hsound.history, hsound.checked, hsound.entries, hsound.runs, hsound.ids,
            hsound.fresh⟩ fun u hu => ?_, .locked, ⟨⟨rfl, hnot⟩, hwork⟩, rfl⟩
          have hne : db.lock ≠ some u := by
            obtain h | h := hfree
            · rw [h]
              exact nofun
            · rw [h]
              exact fun h' => hu (Option.some.inj h').symm
          exact { Leaves.refl u db with lock := iff_of_false (fun h => hu (Option.some.inj h).symm) hne }
      | _ => exact hmay.elim
  | clockTimestamp now =>
      cases stage with
      | locked => exact ⟨keeps_self hsound, .stamped now, hat, rfl⟩
      | _ => exact hmay.elim
  | @readOpen _ rows hrows =>
      cases stage with
      | stamped at_ =>
          obtain ⟨hin, hwork⟩ := hat
          rw [view_of_clean hwork] at hrows
          exact ⟨keeps_self hsound, .looked at_ rows, ⟨hin, hwork, hrows⟩, rfl⟩
      | _ => exact hmay.elim
  | @createRun _ method windowDays parameters customerCount runAt dataOrigin =>
      cases stage with
      | looked at_ prior =>
          obtain rfl : runAt = at_ := hmay
          obtain ⟨hin, hwork, hprior⟩ := hat
          refine ⟨keeps_of_leaves ⟨hsound.history, hsound.checked, hsound.entries, hsound.runs, hsound.ids, fun run hrun => (hsound.fresh run hrun).trans (Nat.lt_succ_self _)⟩ fun u hu => ?_,
            .writing prior ⟨db.nextRun, method, windowDays, parameters, customerCount, runAt, dataOrigin⟩ [] [],
              ⟨⟨hin.lock, hin.uncommitted⟩, ?_, fun _ _ _ hnone => absurd hnone List.not_mem_nil, hprior,
                Nat.lt_succ_self _,
                fun run hrun => (hsound.fresh run hrun).ne⟩, rfl⟩
          · exact { Leaves.refl u db with
              work := Function.update_of_ne hu _ _
              nextRun := Nat.le_succ _ }
          · refine (Function.update_self t _ _).trans ?_
            rw [hwork, closings_nil]
            rfl
      | _ => exact hmay.elim
  | @close _ at_ customerIds customers hids hfree hcheck =>
      cases stage with
      | writing prior run customers' entries =>
          obtain ⟨rfl, rfl, rfl⟩ : customers' = [] ∧ entries = [] ∧ at_ = run.runAt := by
            cases customers' with
            | nil =>
                cases entries with
                | nil => exact ⟨rfl, rfl, hmay⟩
                | cons _ _ => exact hmay.elim
            | cons _ _ => exact hmay.elim
          obtain ⟨hin, hwork, -, hprior, hnext, hfresh⟩ := hat
          rw [closings_nil] at hwork
          rw [view_of_clean hwork] at hcheck
          refine ⟨keeps_of_leaves (hsound.write _) fun u hu => leaves_write hu db, .writing prior run customers [],
            ⟨⟨hin.lock, hin.uncommitted⟩, ?_, hcheck, hprior, hnext, hfresh⟩, customers, hids, rfl⟩
          refine (Function.update_self t _ _).trans ?_
          rw [view_of_clean hwork, hwork]
          rfl
      | _ => exact hmay.elim
  | @insert _ runId rows at_ entries hids hunique hnew hfree hrun hcustomers =>
      cases stage with
      | writing prior run customers entries' =>
          obtain ⟨rfl, rfl, rfl, -⟩ : entries' = [] ∧ runId = run.runId ∧ at_ = run.runAt ∧
              (rows.map Prod.fst).mapM uuids.parse = some customers := by
            cases entries' with
            | nil => exact ⟨rfl, hmay⟩
            | cons _ _ => exact hmay.elim
          obtain ⟨hin, hwork, hchecked, hprior, hnext, hfresh⟩ := hat
          refine ⟨keeps_of_leaves (hsound.write _) fun u hu => leaves_write hu db,
            .writing prior run customers entries, ⟨⟨hin.lock, hin.uncommitted⟩, ?_,
              hchecked, hprior, hnext, hfresh⟩, entries, hids, hunique, rfl⟩
          refine (Function.update_self t _ _).trans ?_
          rw [hwork]
          rfl
      | _ => exact hmay.elim
  | notify =>
      cases stage with
      | writing prior run customers entries => exact ⟨keeps_self hsound, _, hat, rfl⟩
      | _ => exact hmay.elim

theorem run_refuses : Refuses (runContract start) (RunsDb.server uuids) fun _ : T => workflow (D := D) uuids :=
  ⟨fun _ _ _ _ _ _ _ _ h => h.elim, fun _ _ _ => trivial, fun _ h => h.elim⟩

theorem run_implements : (runContract start).Implements (RunsDb.machine uuids) fun _ : T =>
    (workflow (D := D) uuids).protocol :=
  implements_workflow (fun _ _ _ _ _ h => ⟨trivial, h⟩) run_answers run_refuses run_commits run_rollsBack

theorem run_closed : (runContract start).Closed (RunsDb.machine (T := T) (D := D) uuids) where
  env db db' hsound henv := by
    obtain ⟨hnew⟩ := henv
    refine ⟨⟨hsound.history, hsound.checked, hsound.entries, hsound.runs, hsound.ids, hsound.fresh⟩,
      fun u stage hat => ?_⟩
    exact Leaves.at_ (Leaves.refl u db |> fun h => { h with }) hat
  halt t db db' hsound hhalt := by
    obtain rfl : db' = db.rollback t := hhalt
    exact keeps_of_leaves hsound.rollback fun u hu => leaves_rollback hu db

end Ends

end RetailSegmentation.SegmentRuns
