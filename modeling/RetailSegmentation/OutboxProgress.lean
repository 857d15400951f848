import RetailSegmentation.OutboxRelay

/-! A pass of the relay makes progress, whatever is in the outbox, unless a batch of rows it cannot relay is
older than all it can. -/

namespace RetailSegmentation.Outbox

open Program OldestFirst

inductive Kit where
  | py
  | rs
  deriving DecidableEq, Repr

section World

variable {T : Type} [LinearOrder T]

/-- The rows of the outbox, and the ids that the open transaction has marked. -/
structure World (T : Type) where
  outbox : List (Row T)
  marked : List ℕ

/-- The rows a pass may select: unrelayed, and not locked by another transaction. -/
def eligible (locked : ℕ → Bool) (outbox : List (Row T)) : List (Row T) :=
  outbox.filter fun row => row.relayedAt.isNone && !locked row.eventId

/-- `UPDATE outbox SET relayed_at = now() WHERE event_id = ANY(ids)`. -/
def setRelayed (eventIds : List ℕ) (now : T) (outbox : List (Row T)) : List (Row T) :=
  outbox.map fun row => if row.eventId ∈ eventIds then { row with relayedAt := some now } else row

/-- `DELETE FROM outbox WHERE relayed_at IS NOT NULL AND relayed_at < cutoff`. -/
def purged (cutoff : T) (outbox : List (Row T)) : List (Row T) :=
  outbox.filter fun row => !row.relayedAt.any fun at_ => at_ < cutoff

variable (loads : T → Bool) (locked : ℕ → Bool)

/-- What PostgreSQL and Redis answer when they do not fail. The client cannot read every time that the server
holds. -/
inductive Healthy : (c : Command) → World T → Reply T c → World T → Prop
  | connect {w} : Healthy .connect w (.ok ()) w
  | notifies {w} : Healthy .notifies w (.ok ()) w
  | begin {w} : Healthy .begin w (.ok ()) { w with marked := [] }
  | select {w limit batch} (hbatch : Oldest Row.occurredAt limit (eligible locked w.outbox) batch) :
    Healthy (.select limit) w (if batch.all fun row => loads row.occurredAt then .ok batch else .error .value) w
  | xadd {w entry maxlen} : Healthy (.xadd entry maxlen) w (.ok ()) w
  | waitAof {w numlocal numreplicas timeout n replicas} (hconfirmed : 1 ≤ n) :
    Healthy (.waitAof numlocal numreplicas timeout) w (.ok (n :: replicas)) w
  | mark {w eventIds} : Healthy (.mark eventIds) w (.ok ()) { w with marked := eventIds }
  | commit {w} now : Healthy .commit w (.ok ()) ⟨setRelayed w.marked now w.outbox, []⟩
  | rollback {w} : Healthy .rollback w (.ok ()) { w with marked := [] }
  | purgeDue {w seconds} due : Healthy (.purgeDue seconds) w due w
  | purge {w days} cutoff : Healthy (.purge days) w (.ok ()) { w with outbox := purged cutoff w.outbox }
  | notePurge {w} : Healthy .notePurge w () w

/-! ### What follows a command -/

section Commands

variable {loads locked} {α : Type} {Q : Except Failure α → World T → Prop} {w : World T}

@[simp] theorem wp_connect {k : Except Failure Unit → RelayProg T α} :
    Prog.wp (Healthy loads locked) (.call .connect k) Q w ↔ (k (.ok ())).wp (Healthy loads locked) Q w :=
  ⟨fun h => h _ _ .connect, fun h r w' hstep => by cases hstep; exact h⟩

@[simp] theorem wp_notifies {k : Except Failure Unit → RelayProg T α} :
    Prog.wp (Healthy loads locked) (.call .notifies k) Q w ↔ (k (.ok ())).wp (Healthy loads locked) Q w :=
  ⟨fun h => h _ _ .notifies, fun h r w' hstep => by cases hstep; exact h⟩

@[simp] theorem wp_begin {k : Except Failure Unit → RelayProg T α} :
    Prog.wp (Healthy loads locked) (.call .begin k) Q w ↔
      (k (.ok ())).wp (Healthy loads locked) Q { w with marked := [] } :=
  ⟨fun h => h _ _ .begin, fun h r w' hstep => by cases hstep; exact h⟩

@[simp] theorem wp_select {limit : ℕ} {k : Except Failure (List (Row T)) → RelayProg T α} :
    Prog.wp (Healthy loads locked) (.call (.select limit) k) Q w ↔
      ∀ batch, Oldest Row.occurredAt limit (eligible locked w.outbox) batch →
        (k (if batch.all fun row => loads row.occurredAt then .ok batch else .error .value)).wp
          (Healthy loads locked) Q w :=
  ⟨fun h batch hbatch => h _ _ (.select hbatch), fun h r w' hstep => by
    cases hstep with
    | select hbatch => exact h _ hbatch⟩

@[simp] theorem wp_xadd {entry : Entry} {maxlen : ℕ} {k : Except Failure Unit → RelayProg T α} :
    Prog.wp (Healthy loads locked) (.call (.xadd entry maxlen) k) Q w ↔
      (k (.ok ())).wp (Healthy loads locked) Q w :=
  ⟨fun h => h _ _ .xadd, fun h r w' hstep => by cases hstep; exact h⟩

@[simp] theorem wp_waitAof {numlocal numreplicas timeout : ℕ} {k : Except Failure (List ℤ) → RelayProg T α} :
    Prog.wp (Healthy loads locked) (.call (.waitAof numlocal numreplicas timeout) k) Q w ↔
      ∀ n replicas, 1 ≤ n → (k (.ok (n :: replicas))).wp (Healthy loads locked) Q w :=
  ⟨fun h n replicas hn => h _ _ (.waitAof hn), fun h r w' hstep => by
    cases hstep with
    | waitAof hn => exact h _ _ hn⟩

@[simp] theorem wp_mark {eventIds : List ℕ} {k : Except Failure Unit → RelayProg T α} :
    Prog.wp (Healthy loads locked) (.call (.mark eventIds) k) Q w ↔
      (k (.ok ())).wp (Healthy loads locked) Q { w with marked := eventIds } :=
  ⟨fun h => h _ _ .mark, fun h r w' hstep => by cases hstep; exact h⟩

@[simp] theorem wp_commit {k : Except Failure Unit → RelayProg T α} :
    Prog.wp (Healthy loads locked) (.call .commit k) Q w ↔
      ∀ now, (k (.ok ())).wp (Healthy loads locked) Q ⟨setRelayed w.marked now w.outbox, []⟩ :=
  ⟨fun h now => h _ _ (.commit now), fun h r w' hstep => by
    cases hstep with
    | commit now => exact h now⟩

@[simp] theorem wp_rollback {k : Except Failure Unit → RelayProg T α} :
    Prog.wp (Healthy loads locked) (.call .rollback k) Q w ↔
      (k (.ok ())).wp (Healthy loads locked) Q { w with marked := [] } :=
  ⟨fun h => h _ _ .rollback, fun h r w' hstep => by cases hstep; exact h⟩

@[simp] theorem wp_purgeDue {seconds : ℕ} {k : Bool → RelayProg T α} :
    Prog.wp (Healthy loads locked) (.call (.purgeDue seconds) k) Q w ↔
      ∀ due, (k due).wp (Healthy loads locked) Q w :=
  ⟨fun h due => h _ _ (.purgeDue due), fun h r w' hstep => by cases hstep; exact h r⟩

@[simp] theorem wp_purge {days : ℕ} {k : Except Failure Unit → RelayProg T α} :
    Prog.wp (Healthy loads locked) (.call (.purge days) k) Q w ↔
      ∀ cutoff, (k (.ok ())).wp (Healthy loads locked) Q { w with outbox := purged cutoff w.outbox } :=
  ⟨fun h cutoff => h _ _ (.purge cutoff), fun h r w' hstep => by
    cases hstep with
    | purge cutoff => exact h cutoff⟩

@[simp] theorem wp_notePurge {k : Unit → RelayProg T α} :
    Prog.wp (Healthy loads locked) (.call .notePurge k) Q w ↔ (k ()).wp (Healthy loads locked) Q w :=
  ⟨fun h => h _ _ .notePurge, fun h r w' hstep => by cases hstep; exact h⟩

end Commands

/-! ### What a pass makes of its batch -/

variable (relay : Relay T)

/-- A row of the outbox that the relay is configured for, and cannot write. -/
def unwritable (row : Row T) : Bool := row.stream ∈ relay.streams && (relay.timestamp row.occurredAt).isNone

def configured (rows : List (Row T)) : List ℕ := (rows.filter fun row => row.stream ∈ relay.streams).map Row.eventId

variable {loads locked} {relay}

theorem wp_deliver_py {Q : Except Failure (List ℕ) → World T → Prop} {w : World T} (rows : List (Row T))
    (eventIds : List ℕ) :
    (Py.deliver relay rows eventIds).wp (Healthy loads locked) Q w ↔
      Q (if rows.any (unwritable relay) then .error .value else .ok (eventIds ++ configured relay rows)) w := by
  induction rows generalizing eventIds with
  | nil => simp [Py.deliver, configured]
  | cons row rows ih =>
      unfold Py.deliver
      by_cases hstream : row.stream ∈ relay.streams
      · rw [if_neg (not_not.mpr hstream)]
        cases htime : relay.timestamp row.occurredAt with
        | none => simp [unwritable, hstream, htime]
        | some occurredAt =>
            simp only [Prog.send_bind, wp_xadd]
            change (Py.deliver relay rows (eventIds ++ [row.eventId])).wp _ Q w ↔ _
            rw [ih]
            simp [unwritable, configured, hstream, htime]
      · rw [if_pos hstream, ih]
        simp [unwritable, configured, hstream]

theorem wp_deliver_rs {Q : Except Failure (Except Failure (List ℕ)) → World T → Prop} {w : World T}
    (rows : List (Row T)) (eventIds : List ℕ) :
    (Rs.deliver relay rows eventIds).wp (Healthy loads locked) Q w ↔
      Q (if rows.any (unwritable relay) then .error .database else .ok (.ok (eventIds ++ configured relay rows))) w := by
  induction rows generalizing eventIds with
  | nil => simp [Rs.deliver, configured]
  | cons row rows ih =>
      unfold Rs.deliver
      by_cases hstream : row.stream ∈ relay.streams
      · rw [if_neg (not_not.mpr hstream)]
        cases htime : relay.timestamp row.occurredAt with
        | none => simp [unwritable, hstream, htime]
        | some occurredAt =>
            simp only [Prog.send_bind, wp_xadd]
            rw [ih]
            simp [unwritable, configured, hstream, htime]
      · rw [if_pos hstream, ih]
        simp [unwritable, configured, hstream]

/-! ### Progress -/

def Relayed (row : Row T) (outbox : List (Row T)) : Prop :=
  ∀ other ∈ outbox, other.eventId = row.eventId → other.relayedAt.isSome = true

variable (locked relay) in
/-- Of the rows that a pass may select and is configured for, one has been relayed. -/
def Progress (before after : List (Row T)) : Prop :=
  ∃ row ∈ eligible locked before, row.stream ∈ relay.streams ∧ Relayed row after

omit [LinearOrder T] in
theorem not_progress (outbox : List (Row T)) : ¬ Progress locked relay outbox outbox := by
  rintro ⟨row, hrow, -, hrelayed⟩
  obtain ⟨hmem, heligible⟩ := List.mem_filter.mp hrow
  have hsome := hrelayed row hmem rfl
  rw [Bool.and_eq_true, Option.isNone_iff_eq_none] at heligible
  rw [heligible.1] at hsome
  cases hsome

omit [LinearOrder T] in
@[simp] theorem setRelayed_nil (now : T) (outbox : List (Row T)) : setRelayed [] now outbox = outbox := by
  simp [setRelayed]

theorem relayed_purged {row : Row T} {cutoff : T} {outbox : List (Row T)} :
    Relayed row (purged cutoff outbox) ↔ Relayed row outbox := by
  constructor
  · intro h other hother hid
    by_contra hnone
    have hkept : other ∈ purged cutoff outbox := by
      refine List.mem_filter.mpr ⟨hother, ?_⟩
      rw [Bool.not_eq_true, Option.isSome_eq_false_iff, Option.isNone_iff_eq_none] at hnone
      rw [hnone]
      rfl
    exact hnone (h other hkept hid)
  · exact fun h other hother => h other (List.mem_of_mem_filter hother)

theorem progress_purged {before after : List (Row T)} {cutoff : T} :
    Progress locked relay before (purged cutoff after) ↔ Progress locked relay before after :=
  exists_congr fun _ => and_congr_right fun _ => and_congr_right fun _ => relayed_purged

omit [LinearOrder T] in
theorem relayed_setRelayed {row : Row T} {eventIds : List ℕ} (hmem : row.eventId ∈ eventIds) (now : T)
    (outbox : List (Row T)) : Relayed row (setRelayed eventIds now outbox) := by
  intro other hother hid
  obtain ⟨old, -, rfl⟩ := List.mem_map.mp hother
  by_cases hold : old.eventId ∈ eventIds
  · rw [if_pos hold]
    rfl
  · rw [if_neg hold] at hid
    exact absurd (hid ▸ hmem) hold

section Purges

variable {before : List (Row T)} {Q : Except Failure Unit → World T → Prop}
  (hQ : ∀ o w, Q o w ↔ Progress locked relay before w.outbox)

include hQ

theorem wp_purgeStale_py {w : World T} :
    (Py.purgeStale (T := T)).wp (Healthy loads locked) Q w ↔ Progress locked relay before w.outbox := by
  unfold Py.purgeStale Py.transaction
  simp [-Prog.wp_call, Prog.send, orRaise, hQ, progress_purged]
  exact fun h _ _ => h

theorem wp_purgeStale_rs {w : World T} :
    (Rs.purgeStale (T := T)).wp (Healthy loads locked) Q w ↔ Progress locked relay before w.outbox := by
  unfold Rs.purgeStale
  simp [-Prog.wp_call, Prog.send, orRaise, hQ, progress_purged]
  exact fun h _ => h

end Purges

variable (loads relay) in
/-- The client reads the row, and the relay can write it if it is configured for it. -/
def legible (row : Row T) : Bool := loads row.occurredAt && !unwritable relay row

variable (loads relay) in
def deliverable (batch : List (Row T)) : Bool :=
  (batch.all fun row => loads row.occurredAt) && !batch.any (unwritable relay)

omit [LinearOrder T] in
theorem deliverable_iff {batch : List (Row T)} :
    deliverable loads relay batch = true ↔ ∀ row ∈ batch, legible loads relay row = true := by
  simp [deliverable, legible, forall_and]

theorem wp_relayBatch {Q : Except Failure ℕ → World T → Prop} {outbox : List (Row T)} :
    (Py.relayBatch relay).wp (Healthy loads locked) Q ⟨outbox, []⟩ ↔
      ∀ batch, Oldest Row.occurredAt 100 (eligible locked outbox) batch →
        if deliverable loads relay batch then Q (.ok (configured relay batch).length) ⟨outbox,
          configured relay batch⟩
        else Q (.error .value) ⟨outbox, []⟩ := by
  unfold Py.relayBatch
  simp only [Prog.send_bind, wp_select]
  refine forall_congr' fun batch => forall_congr' fun _ => ?_
  unfold deliverable
  cases batch.all fun row => loads row.occurredAt with
  | false => simp [-Prog.wp_call, orRaise]
  | true =>
      have hrows : orRaise (if true = true then .ok batch else .error .value) = (.ret batch : RelayProg T _) := rfl
      rw [hrows, Prog.ret_bind, Prog.wp_bind, wp_deliver_py]
      cases batch.any (unwritable relay) with
      | true => simp
      | false =>
          simp only [Bool.false_eq_true, if_false, List.nil_append]
          by_cases hnone : configured relay batch = []
          · simp [hnone]
          · simp only [hnone, if_false, wp_waitAof]
            have hconfirmed : ∀ n replicas, 1 ≤ n → Py.confirmed (T := T) (n :: replicas) = .ret () :=
              fun n _ hn =>
              if_neg (not_lt.mpr hn)
            simp +contextual [-Prog.wp_call, orRaise, hconfirmed]
            exact ⟨fun h => h 1 le_rfl, fun h _ _ => h⟩

section Passes

variable {outbox : List (Row T)}

variable (loads locked relay outbox) in
/-- Progress, as decided by the batch that a pass selects. -/
def BatchProgress : Prop :=
  ∀ batch, Oldest Row.occurredAt 100 (eligible locked outbox) batch →
    if deliverable loads relay batch then
      ∀ now, Progress locked relay outbox (setRelayed (configured relay batch) now outbox)
    else Progress locked relay outbox outbox

theorem wp_runOnce_py {wait : Bool} :
    (Py.runOnce relay wait).wp (Healthy loads locked) (fun _ w' => Progress locked relay outbox w'.outbox) ⟨outbox, []⟩ ↔
      BatchProgress loads locked relay outbox := by
  unfold Py.runOnce Py.transaction BatchProgress
  cases wait
  all_goals
    simp [-Prog.wp_call, orRaise, Prog.wp_bind, Prog.wp_tryCatch, wp_relayBatch]
    refine forall_congr' fun batch => forall_congr' fun _ => ?_
    by_cases hdeliverable : deliverable loads relay batch = true
    · rw [if_pos hdeliverable, if_pos hdeliverable]
      exact forall_congr' fun now => wp_purgeStale_py fun o w => by cases o <;> rfl
    · rw [if_neg hdeliverable, if_neg hdeliverable]

theorem wp_confirm {Q : Except Failure (Except Failure (List ℕ)) → World T → Prop} {w : World T}
    (eventIds : List ℕ) :
    (Rs.confirm eventIds).wp (Healthy loads locked) Q w ↔ Q (.ok (.ok eventIds)) w := by
  cases eventIds with
  | nil => exact Iff.rfl
  | cons eventId eventIds =>
      unfold Rs.confirm
      simp +contextual [-Prog.wp_call]
      exact ⟨fun h => h 1 le_rfl, fun h _ _ => h⟩

theorem wp_finish {eventIds : List ℕ} :
    (Rs.finish (.ok eventIds)).wp (Healthy loads locked) (fun _ w' => Progress locked relay outbox w'.outbox) ⟨outbox, []⟩ ↔
      ∀ now, Progress locked relay outbox (setRelayed eventIds now outbox) := by
  have hpurge : ∀ (n : ℕ) w, (Rs.purgeStale >>= fun _ => Prog.ret n : RelayProg T ℕ).wp (Healthy loads locked)
      (fun _ w' => Progress locked relay outbox w'.outbox) w ↔ Progress locked relay outbox w.outbox := by
    intro n w
    rw [Prog.wp_bind]
    exact wp_purgeStale_rs fun o w => by cases o <;> rfl
  unfold Rs.finish
  cases eventIds <;> simp [-Prog.wp_call, orRaise, hpurge]

theorem wp_runOnce_rs {wait : Bool} :
    (Rs.runOnce relay wait).wp (Healthy loads locked) (fun _ w' => Progress locked relay outbox w'.outbox) ⟨outbox, []⟩ ↔
      BatchProgress loads locked relay outbox := by
  unfold Rs.runOnce BatchProgress
  cases wait
  all_goals
    simp [-Prog.wp_call, -List.all_eq_true, orRaise]
    refine forall_congr' fun batch => forall_congr' fun _ => ?_
    unfold deliverable
    cases batch.all fun row => loads row.occurredAt with
    | false => simp
    | true =>
        simp only [if_true, Prog.ret_bind, Bool.true_and]
        rw [Prog.wp_bind, wp_deliver_rs]
        cases batch.any (unwritable relay) with
        | true => simp
        | false => simp [Prog.wp_bind, wp_confirm, wp_finish]

/-- The unconfigured rows that may be selected before every configured one. -/
def ahead (relay : Relay T) (rows : List (Row T)) : ℕ :=
  rows.countP fun row => !decide (row.stream ∈ relay.streams) &&
    rows.all fun other => !decide (other.stream ∈ relay.streams) || decide (row.occurredAt ≤ other.occurredAt)

theorem batchProgress_iff (hwork : ∃ row ∈ eligible locked outbox, row.stream ∈ relay.streams) :
    BatchProgress loads locked relay outbox ↔
      ahead relay (eligible locked outbox) < 100 ∧
        ∀ row ∈ eligible locked outbox, legible loads relay row = false →
          100 ≤ (eligible locked outbox).countP fun older => older.occurredAt < row.occurredAt := by
  have hbatch : ∀ batch, Oldest Row.occurredAt 100 (eligible locked outbox) batch →
      ((if deliverable loads relay batch then
          ∀ now, Progress locked relay outbox (setRelayed (configured relay batch) now outbox)
        else Progress locked relay outbox outbox) ↔
      (∃ row ∈ batch, decide (row.stream ∈ relay.streams) = true) ∧ ∀ row ∈ batch,
        legible loads relay row = true) := by
    intro batch holdest
    rw [← deliverable_iff]
    by_cases hdeliverable : deliverable loads relay batch = true
    · rw [if_pos hdeliverable, and_iff_left hdeliverable]
      constructor
      · intro hall
        by_contra hnone
        have hempty : configured relay batch = [] := by
          unfold configured
          rw [List.map_eq_nil_iff, List.filter_eq_nil_iff]
          exact fun row hrow hstream => hnone ⟨row, hrow, hstream⟩
        obtain ⟨row, -, -⟩ := hwork
        have hstill := hall row.occurredAt
        rw [hempty, setRelayed_nil] at hstill
        exact not_progress outbox hstill
      · rintro ⟨row, hrow, hstream⟩ now
        refine ⟨row, holdest.mem hrow, of_decide_eq_true hstream, relayed_setRelayed ?_ now outbox⟩
        exact List.mem_map_of_mem (List.mem_filter.mpr ⟨hrow, hstream⟩)
    · rw [if_neg hdeliverable]
      exact iff_of_false (not_progress outbox) fun h => hdeliverable h.2
  have hwork' : ∃ row ∈ eligible locked outbox, decide (row.stream ∈ relay.streams) = true := by simpa using hwork
  unfold ahead
  rw [← forall_oldest_exists_iff hwork', ← forall_oldest_forall_iff, ← forall₂_and]
  exact forall₂_congr hbatch

end Passes

omit [LinearOrder T] in
theorem exists_runOnce [LinearOrder T] (t : T) {α : Type} (p : RelayProg T α) (w : World T) :
    ∃ o w', Prog.Exec (Healthy loads locked) p w o w' := by
  refine Prog.exists_exec (fun c w => ?_) p w
  cases c with
  | connect => exact ⟨_, _, .connect⟩
  | notifies => exact ⟨_, _, .notifies⟩
  | begin => exact ⟨_, _, .begin⟩
  | select limit =>
      obtain ⟨batch, hbatch⟩ := exists_oldest Row.occurredAt limit (eligible locked w.outbox)
      exact ⟨_, _, .select hbatch⟩
  | xadd entry maxlen => exact ⟨_, _, .xadd⟩
  | waitAof numlocal numreplicas timeout => exact ⟨.ok [1], _, .waitAof le_rfl⟩
  | mark eventIds => exact ⟨_, _, .mark⟩
  | commit => exact ⟨_, _, .commit t⟩
  | rollback => exact ⟨_, _, .rollback⟩
  | purgeDue seconds => exact ⟨_, _, .purgeDue true⟩
  | purge days => exact ⟨_, _, .purge t⟩
  | notePurge => exact ⟨_, _, .notePurge⟩

/-! ### Both kits -/

/-- A kit's `run_once`, and the times that its PostgreSQL client reads of every row: `kit-rs` reads a time
only when it writes it. -/
def Kit.runOnce (relay : Relay T) (wait : Bool) : Kit → RelayProg T ℕ
  | .py => Py.runOnce relay wait
  | .rs => Rs.runOnce relay wait

def Kit.reads (loads : T → Bool) : Kit → T → Bool
  | .py => loads
  | .rs => fun _ => true

variable (loads locked relay) in
theorem progress_iff (kit : Kit) (wait : Bool) (outbox : List (Row T)) :
    (∀ o w', Prog.Exec (Healthy (kit.reads loads) locked) (kit.runOnce relay wait) ⟨outbox, []⟩ o w' →
        Progress locked relay outbox w'.outbox) ↔
      BatchProgress (kit.reads loads) locked relay outbox := by
  have hwp : _ ↔ Prog.wp (Healthy (kit.reads loads) locked) (kit.runOnce relay wait)
      (fun _ w' => Progress locked relay outbox w'.outbox) ⟨outbox, []⟩ := Prog.forall_exec_iff
  rw [hwp]
  cases kit with
  | py => exact wp_runOnce_py
  | rs => exact wp_runOnce_rs

/-- **When a pass makes progress.** With a row to relay, a pass in which nothing fails relays one, whatever
else is in the outbox, exactly when fewer than a batch of rows of other streams may be selected before all of
its own, and no row that it cannot read or write is among the oldest. -/
theorem relay_progress_iff (kit : Kit) (relay : Relay T) (loads : T → Bool) (locked : ℕ → Bool) (wait : Bool)
    (outbox : List (Row T)) (hwork : ∃ row ∈ eligible locked outbox, row.stream ∈ relay.streams) :
    ((∃ o w', Prog.Exec (Healthy (kit.reads loads) locked) (kit.runOnce relay wait) ⟨outbox, []⟩ o w') ∧
      ∀ o w', Prog.Exec (Healthy (kit.reads loads) locked) (kit.runOnce relay wait) ⟨outbox, []⟩ o w' →
        Progress locked relay outbox w'.outbox) ↔
      ahead relay (eligible locked outbox) < 100 ∧
        ∀ row ∈ eligible locked outbox, legible (kit.reads loads) relay row = false →
          100 ≤ (eligible locked outbox).countP fun older => older.occurredAt < row.occurredAt := by
  obtain ⟨row, -, -⟩ := id hwork
  rw [and_iff_right (exists_runOnce row.occurredAt _ _), progress_iff, batchProgress_iff hwork]

end World

def salesRelay : Relay ℕ := ⟨["stream:sales.v1.recorded"], fun t => some (toString t)⟩

/-- Rows of a stream that is not configured, at time 0, and a newer one to relay. -/
def behind (others : ℕ) : List (Row ℕ) :=
  (List.range others).map (fun id => ⟨id, "stream:sales.v0.recorded", "INSERT", toString id, 0, none⟩) ++
    [⟨others, "stream:sales.v1.recorded", "INSERT", toString others, 1, none⟩]

theorem mem_behind (others : ℕ) : ∃ row ∈ eligible (fun _ => false) (behind others),
    row.stream ∈ salesRelay.streams :=
  ⟨_, List.mem_filter.mpr ⟨List.mem_append_right _ List.mem_cons_self, rfl⟩, List.mem_cons_self⟩

theorem relay_progress_two_behind :
    ((∃ o w', Prog.Exec (Healthy (Kit.py.reads fun _ => true) fun _ => false) (Kit.py.runOnce salesRelay false)
        ⟨behind 2, []⟩ o w') ∧
      ∀ o w', Prog.Exec (Healthy (Kit.py.reads fun _ => true) fun _ => false) (Kit.py.runOnce salesRelay false)
        ⟨behind 2, []⟩ o w' → Progress (fun _ => false) salesRelay (behind 2) w'.outbox) ↔
      ahead salesRelay (eligible (fun _ => false) (behind 2)) < 100 ∧
        ∀ row ∈ eligible (fun _ => false) (behind 2), legible (Kit.py.reads fun _ => true) salesRelay row = false →
          100 ≤ (eligible (fun _ => false) (behind 2)).countP fun older => older.occurredAt < row.occurredAt :=
  relay_progress_iff .py salesRelay _ _ false (behind 2) (mem_behind 2)

theorem stalls_behind_hundred (kit : Kit) :
    ¬ ∀ o w', Prog.Exec (Healthy (kit.reads fun _ => true) fun _ => false) (kit.runOnce salesRelay false)
      ⟨behind 100, []⟩ o w' → Progress (fun _ => false) salesRelay (behind 100) w'.outbox := by
  rw [progress_iff, batchProgress_iff (mem_behind 100)]
  intro h
  exact absurd h.1 (by decide +kernel)

/-- A hundred older rows of another stream, and neither kit relays the one it could. -/
theorem relay_stalls :
    (¬ ∀ o w', Prog.Exec (Healthy (Kit.py.reads fun _ => true) fun _ => false) (Kit.py.runOnce salesRelay false)
      ⟨behind 100, []⟩ o w' → Progress (fun _ => false) salesRelay (behind 100) w'.outbox) ∧
    ¬ ∀ o w', Prog.Exec (Healthy (Kit.rs.reads fun _ => true) fun _ => false) (Kit.rs.runOnce salesRelay false)
      ⟨behind 100, []⟩ o w' → Progress (fun _ => false) salesRelay (behind 100) w'.outbox :=
  ⟨stalls_behind_hundred .py, stalls_behind_hundred .rs⟩

end RetailSegmentation.Outbox
