import RetailSegmentation.FloorOutbox
import RetailSegmentation.ProgramProtocol

/-! What holds of the queue of floor writes in every interleaving, and what a pass knows of it at each point
of its loop. -/

namespace RetailSegmentation.Floor

open Program

/-! ### Answers -/

/-- A success, a 4xx, or one of the answers a row is sent again after. -/
def Answer.Definite (a : Answer) : Prop :=
  a.isSuccessful = true ∨ (400 ≤ a.status ∧ a.status ≤ 499) ∨ a.status = 502 ∨ a.status = 503 ∨ a.status = 504

theorem Attempt.of_done {world : World} {a : Answer} {status : ℕ} {body correlationId : Option String}
    {replayed : Bool} (h : Attempt.of world a = .done status body correlationId replayed) :
    a.isSuccessful = true := by
  unfold Attempt.of at h
  split at h
  · assumption
  · split at h
    · cases h
    · split at h
      · cases h
      · cases h

theorem Attempt.of_refused {world : World} {a : Answer} {error : ApiError} (hdefinite : a.Definite)
    (h : Attempt.of world a = .refused error) : a.FinalRefusal := by
  unfold Attempt.of at h
  split at h
  · cases h
  · rename_i hfails
    split at h
    · cases h
    · rename_i hsession
      split at h
      · cases h
      · rename_i hresend
        simp only [resend, List.mem_cons, List.not_mem_nil, or_false, not_or] at hresend
        rcases hdefinite with hsuccess | ⟨hlow, hhigh⟩ | hgateway
        · exact absurd hsuccess hfails
        · exact ⟨hlow, hhigh, hsession, hresend.1⟩
        · rcases hgateway with h502 | h503 | h504
          · exact absurd h502 hresend.2.1
          · exact absurd h503 hresend.2.2.1
          · exact absurd h504 hresend.2.2.2

/-- The request is no floor write. -/
def Endpoint.Beside (endpoint : Endpoint) : Prop := ∀ id url body key, endpoint ≠ .post id url body key

/-! ### Rows and what became of them -/

/-- The two rows are one floor write: what was fixed at the tap is the same. -/
structure SameWrite (row row' : OutboxRow) : Prop where
  id : row'.id = row.id
  write : row'.write = row.write

theorem SameWrite.refl (row : OutboxRow) : SameWrite row row := ⟨rfl, rfl⟩

theorem SameWrite.trans {row row' row'' : OutboxRow} (h : SameWrite row row') (h' : SameWrite row' row'') :
    SameWrite row row'' :=
  ⟨h'.id.trans h.id, h'.write.trans h.write⟩

theorem SameWrite.endpoint {row row' : OutboxRow} (h : SameWrite row row') (url : String) :
    row'.endpoint url = row.endpoint url := by
  simp only [OutboxRow.endpoint, h.id, h.write]

theorem sameWrite_done (row : OutboxRow) (status : ℕ) (body correlationId code : Option String) :
    SameWrite row (row.done status body correlationId code) := by
  unfold OutboxRow.done
  split
  · exact ⟨rfl, rfl⟩
  · exact .refl row

theorem sameWrite_refused (row : OutboxRow) (status : ℕ) (code message : String)
    (correlationId : Option String) : SameWrite row (row.refused status code message correlationId) := by
  unfold OutboxRow.refused
  split
  · exact ⟨rfl, rfl⟩
  · exact .refl row

theorem state_done (row : OutboxRow) (status : ℕ) (body correlationId code : Option String) :
    (row.done status body correlationId code).state = row.state ∨
      row.state = .pending ∧ (row.done status body correlationId code).state = .done := by
  unfold OutboxRow.done
  split
  · exact .inr ⟨‹_›, rfl⟩
  · exact .inl rfl

theorem state_refused (row : OutboxRow) (status : ℕ) (code message : String) (correlationId : Option String) :
    (row.refused status code message correlationId).state = row.state ∨
      row.state = .pending ∧ (row.refused status code message correlationId).state = .refused := by
  unfold OutboxRow.refused
  split
  · exact .inr ⟨‹_›, rfl⟩
  · exact .inl rfl

theorem done_not_pending (row : OutboxRow) (status : ℕ) (body correlationId code : Option String) :
    (row.done status body correlationId code).state ≠ .pending := by
  unfold OutboxRow.done
  split
  · exact fun h => by cases h
  · assumption

theorem refused_not_pending (row : OutboxRow) (status : ℕ) (code message : String)
    (correlationId : Option String) : (row.refused status code message correlationId).state ≠ .pending := by
  unfold OutboxRow.refused
  split
  · exact fun h => by cases h
  · assumption

section Rows

variable (world : World)

/-- The row was sent exactly as it is stored, and answered `a`. -/
def World.Exchanged (wire : List Exchange) (row : OutboxRow) (a : Answer) (held : Bool) : Prop :=
  ∃ e ∈ wire, ∃ url, world.resolve row.write.path = some url ∧ e.request.endpoint = row.endpoint url ∧
    e.response = some a ∧ e.held = held

/-- A 2xx answer to exactly what is stored. -/
def World.Confirmed (wire : List Exchange) (row : OutboxRow) : Prop :=
  ∃ a held, world.Exchanged wire row a held ∧ a.isSuccessful = true

/-- The path is no URL, or a final refusal of exactly what is stored, given while sales-service did not hold
the sale. -/
def World.FinallyRefused (wire : List Exchange) (row : OutboxRow) : Prop :=
  world.resolve row.write.path = none ∨ ∃ a, world.Exchanged wire row a false ∧ a.FinalRefusal

variable {world} {wire wire' : List Exchange} {row row' : OutboxRow}

theorem World.Exchanged.mono {a : Answer} {held : Bool} (h : world.Exchanged wire row a held)
    (hwire : wire ⊆ wire') (hsame : SameWrite row row') : world.Exchanged wire' row' a held := by
  obtain ⟨e, he, url, hurl, hendpoint, hresponse, hheld⟩ := h
  refine ⟨e, hwire he, url, ?_, ?_, hresponse, hheld⟩
  · rw [hsame.write]
    exact hurl
  · rw [hsame.endpoint]
    exact hendpoint

theorem World.Confirmed.mono (h : world.Confirmed wire row) (hwire : wire ⊆ wire')
    (hsame : SameWrite row row') : world.Confirmed wire' row' := by
  obtain ⟨a, held, hexchanged, hsuccess⟩ := h
  exact ⟨a, held, hexchanged.mono hwire hsame, hsuccess⟩

theorem World.FinallyRefused.mono (h : world.FinallyRefused wire row) (hwire : wire ⊆ wire')
    (hsame : SameWrite row row') : world.FinallyRefused wire' row' := by
  rcases h with hpath | ⟨a, hexchanged, hfinal⟩
  · exact .inl (by rw [hsame.write]; exact hpath)
  · exact .inr ⟨a, hexchanged.mono hwire hsame, hfinal⟩

variable (world) in
/-- What may become of a row: it stays what it was, or it leaves PENDING for a good reason. -/
structure World.Moves (wire : List Exchange) (row row' : OutboxRow) : Prop where
  same : SameWrite row row'
  state : row'.state = row.state ∨ row.state = .pending ∧
    (row'.state = .done ∧ world.Confirmed wire row ∨ row'.state = .refused ∧ world.FinallyRefused wire row)

theorem World.Moves.refl (row : OutboxRow) : world.Moves wire row row := ⟨.refl row, .inl rfl⟩

end Rows

/-! ### The queue -/

section Queue

variable {T : Type} (world : World) (s s' : Phone T)

/-- What a step may do to the queue: a row stays or moves on, only a refused one is deleted, and a new one is
a write as it was tapped. -/
structure World.QueueKept : Prop where
  kept : ∀ row ∈ s.outbox, (∃ row' ∈ s'.outbox, world.Moves s'.wire row row') ∨
    row.state = .refused ∧ ∀ row' ∈ s'.outbox, row'.id ≠ row.id
  fresh : ∀ row' ∈ s'.outbox, (∃ row ∈ s.outbox, SameWrite row row') ∨
    s.lastId < row'.id ∧ ∃ write : NewRow, row' = write.row row'.id

/-- The rows stand in the order of their taps. -/
structure Numbered : Prop where
  ascending : s.outbox.Pairwise fun row row' => row.id < row'.id
  limit : ∀ row ∈ s.outbox, row.id ≤ s.lastId

/-- The rows that left PENDING did so for a good reason, and one pass runs at a time. -/
structure World.Queued : Prop extends Numbered s where
  done : ∀ row ∈ s.outbox, row.state = .done → world.Confirmed s.wire row
  refused : ∀ row ∈ s.outbox, row.state = .refused → world.FinallyRefused s.wire row
  one : ∀ t u, s.under .pass t = true → s.under .pass u = true → t = u

/-- What the queue of pending rows is to everyone else. -/
structure Leaves (u : T) : Prop where
  under : s'.under .pass u = s.under .pass u
  lastId : s.lastId ≤ s'.lastId
  wire : s.wire ⊆ s'.wire
  kept : ∀ row ∈ s.outbox, row.state = .pending → ∃ row' ∈ s'.outbox, SameWrite row row' ∧ row'.state = .pending
  fresh : ∀ row' ∈ s'.outbox, row'.state = .pending →
    (∃ row ∈ s.outbox, SameWrite row row' ∧ row.state = .pending) ∨ s.lastId < row'.id

/-- Where a thread stands: outside a pass, before it has read the rows, or with these rows still to send, the
first of which has been answered `known`. -/
inductive Stage where
  | idle
  | started
  | sending (userId : String) (limit : ℕ) (rows : List OutboxRow) (known : List Answer)

/-- The rows a pass has still to send are the pending ones of its user among those it has read. -/
structure World.Sending (t : T) (userId : String) (limit : ℕ) (rows : List OutboxRow) (known : List Answer) :
    Prop where
  under : s.under .pass t = true
  within : limit ≤ s.lastId
  upTo : ∀ row ∈ rows, row.id ≤ limit
  ascending : rows.Pairwise fun row row' => row.id < row'.id
  user : ∀ row ∈ rows, row.write.userId = userId
  present : ∀ row ∈ rows, ∃ row' ∈ s.outbox, SameWrite row row' ∧ row'.state = .pending
  covers : ∀ row' ∈ s.outbox, row'.state = .pending → row'.write.userId = userId → row'.id ≤ limit →
    ∃ row ∈ rows, SameWrite row row'
  heard : ∀ a ∈ known, ∀ row rest, rows = row :: rest → a.Definite ∧
    (∃ held, world.Exchanged s.wire row a held) ∧ (a.FinalRefusal → world.Exchanged s.wire row a false)

def World.At (t : T) : Stage → Phone T → Prop
  | .idle, s => s.under .pass t = false
  | .started, s => s.under .pass t = true
  | .sending userId limit rows known, s => world.Sending s t userId limit rows known

variable {world} {s s'}

theorem World.Sending.leaves {u : T} {userId : String} {limit : ℕ} {rows : List OutboxRow} {known : List Answer}
    (h : world.Sending s u userId limit rows known) (hleaves : Leaves s s' u) :
    world.Sending s' u userId limit rows known := by
  refine ⟨hleaves.under.trans h.under, Nat.le_trans h.within hleaves.lastId, h.upTo, h.ascending, h.user,
    ?_, ?_, ?_⟩
  · intro row hrow
    obtain ⟨row', hrow', hsame, hpending⟩ := h.present row hrow
    obtain ⟨row'', hrow'', hsame', hpending'⟩ := hleaves.kept row' hrow' hpending
    exact ⟨row'', hrow'', hsame.trans hsame', hpending'⟩
  · intro row' hrow' hpending huser hlimit
    rcases hleaves.fresh row' hrow' hpending with ⟨row, hrow, hsame, hwas⟩ | hnew
    · obtain ⟨row₀, hrow₀, hsame₀⟩ := h.covers row hrow hwas (hsame.write ▸ huser) (hsame.id ▸ hlimit)
      exact ⟨row₀, hrow₀, hsame₀.trans hsame⟩
    · exact absurd (Nat.le_trans hlimit h.within) (Nat.not_le.mpr hnew)
  · intro a ha row rest hrows
    obtain ⟨hdefinite, ⟨held, hexchanged⟩, hfinal⟩ := h.heard a ha row rest hrows
    exact ⟨hdefinite, ⟨held, hexchanged.mono hleaves.wire (.refl row)⟩,
      fun hrefusal => (hfinal hrefusal).mono hleaves.wire (.refl row)⟩

theorem World.At.leaves {u : T} {stage : Stage} (h : world.At u stage s) (hleaves : Leaves s s' u) :
    world.At u stage s' := by
  cases stage with
  | idle => exact hleaves.under.trans h
  | started => exact hleaves.under.trans h
  | sending userId limit rows known => exact World.Sending.leaves h hleaves

/-! ### Steps -/

/-- The queue is as it was, and so is every pass. -/
structure Unmoved (s s' : Phone T) : Prop where
  outbox : s'.outbox = s.outbox
  lastId : s'.lastId = s.lastId
  under : s'.under .pass = s.under .pass
  wire : s.wire ⊆ s'.wire

theorem Unmoved.leaves (h : Unmoved s s') (u : T) : Leaves s s' u := by
  refine ⟨congrFun h.under u, Nat.le_of_eq h.lastId.symm, h.wire, ?_, ?_⟩
  · intro row hrow hpending
    exact ⟨row, h.outbox ▸ hrow, .refl row, hpending⟩
  · intro row' hrow' hpending
    exact .inl ⟨row', h.outbox ▸ hrow', .refl row', hpending⟩

theorem Unmoved.queueKept (h : Unmoved s s') : world.QueueKept s s' := by
  refine ⟨fun row hrow => .inl ⟨row, h.outbox ▸ hrow, .refl row⟩, fun row' hrow' => .inl ⟨row', ?_, .refl row'⟩⟩
  exact h.outbox ▸ hrow'

theorem Numbered.unmoved (hnumbered : Numbered s) (h : Unmoved s s') : Numbered s' := by
  constructor
  · rw [h.outbox]
    exact hnumbered.ascending
  · rw [h.outbox, h.lastId]
    exact hnumbered.limit

theorem World.Queued.unmoved (hqueued : world.Queued s) (h : Unmoved s s') : world.Queued s' := by
  refine ⟨hqueued.toNumbered.unmoved h, ?_, ?_, ?_⟩
  · rw [h.outbox]
    exact fun row hrow hdone => (hqueued.done row hrow hdone).mono h.wire (.refl row)
  · rw [h.outbox]
    exact fun row hrow hrefused => (hqueued.refused row hrow hrefused).mono h.wire (.refl row)
  · rw [h.under]
    exact hqueued.one

/-! A tap adds a row behind all others. -/

theorem leaves_push (write : NewRow) (u : T) : Leaves s (s.push write) u := by
  refine ⟨rfl, Nat.le_succ _, List.Subset.refl _, ?_, ?_⟩
  · intro row hrow hpending
    exact ⟨row, List.mem_append_left _ hrow, .refl row, hpending⟩
  · intro row' hrow' hpending
    rcases List.mem_append.mp hrow' with hold | hnew
    · exact .inl ⟨row', hold, .refl row', hpending⟩
    · obtain rfl := List.mem_singleton.mp hnew
      exact .inr (Nat.lt_succ_self _)

theorem queueKept_push (write : NewRow) : world.QueueKept s (s.push write) := by
  refine ⟨fun row hrow => .inl ⟨row, List.mem_append_left _ hrow, .refl row⟩, fun row' hrow' => ?_⟩
  rcases List.mem_append.mp hrow' with hold | hnew
  · exact .inl ⟨row', hold, .refl row'⟩
  · obtain rfl := List.mem_singleton.mp hnew
    exact .inr ⟨Nat.lt_succ_self _, write, rfl⟩

theorem Numbered.push (hnumbered : Numbered s) (write : NewRow) : Numbered (s.push write) := by
  constructor
  · refine List.pairwise_append.mpr ⟨hnumbered.ascending, List.pairwise_singleton _ _, ?_⟩
    intro row hrow row' hrow'
    obtain rfl := List.mem_singleton.mp hrow'
    exact Nat.lt_succ_of_le (hnumbered.limit row hrow)
  · intro row hrow
    rcases List.mem_append.mp hrow with hold | hnew
    · exact Nat.le_succ_of_le (hnumbered.limit row hold)
    · obtain rfl := List.mem_singleton.mp hnew
      exact Nat.le_refl _

theorem World.Queued.push (hqueued : world.Queued s) (write : NewRow) : world.Queued (s.push write) := by
  refine ⟨hqueued.toNumbered.push write, ?_, ?_, hqueued.one⟩
  · intro row hrow hdone
    rcases List.mem_append.mp hrow with hold | hnew
    · exact hqueued.done row hold hdone
    · obtain rfl := List.mem_singleton.mp hnew
      cases hdone
  · intro row hrow hrefused
    rcases List.mem_append.mp hrow with hold | hnew
    · exact hqueued.refused row hold hrefused
    · obtain rfl := List.mem_singleton.mp hnew
      cases hrefused

/-! Dismissing takes refused rows only. -/

theorem mem_remove {id : ℕ} {row : OutboxRow} :
    row ∈ (s.remove id).outbox ↔ row ∈ s.outbox ∧ ¬(row.id = id ∧ row.state = .refused) := by
  simp only [Phone.remove, List.mem_filter, decide_eq_true_eq]

theorem leaves_remove (id : ℕ) (u : T) : Leaves s (s.remove id) u := by
  refine ⟨rfl, Nat.le_refl _, List.Subset.refl _, ?_, ?_⟩
  · intro row hrow hpending
    refine ⟨row, mem_remove.mpr ⟨hrow, fun h => ?_⟩, .refl row, hpending⟩
    cases hpending.symm.trans h.2
  · intro row' hrow' hpending
    exact .inl ⟨row', (mem_remove.mp hrow').1, .refl row', hpending⟩

theorem eq_of_id {rows : List OutboxRow} (h : rows.Pairwise fun row row' => row.id < row'.id)
    {row row' : OutboxRow} (hrow : row ∈ rows) (hrow' : row' ∈ rows) (hid : row.id = row'.id) : row = row' := by
  induction h with
  | nil => cases hrow
  | cons hhead _ ih =>
      rcases List.mem_cons.mp hrow with rfl | hrest
      · rcases List.mem_cons.mp hrow' with rfl | hrest'
        · rfl
        · exact absurd hid (Nat.ne_of_lt (hhead row' hrest'))
      · rcases List.mem_cons.mp hrow' with rfl | hrest'
        · exact absurd hid.symm (Nat.ne_of_lt (hhead row hrest))
        · exact ih hrest hrest'

theorem queueKept_remove (hqueued : world.Queued s) (id : ℕ) : world.QueueKept s (s.remove id) := by
  refine ⟨fun row hrow => ?_, fun row' hrow' => .inl ⟨row', (mem_remove.mp hrow').1, .refl row'⟩⟩
  by_cases hgone : row.id = id ∧ row.state = .refused
  · refine .inr ⟨hgone.2, fun row' hrow' hid => ?_⟩
    obtain ⟨hold, hstays⟩ := mem_remove.mp hrow'
    obtain rfl := eq_of_id hqueued.ascending hold hrow hid
    exact hstays hgone
  · exact .inl ⟨row, mem_remove.mpr ⟨hrow, hgone⟩, .refl row⟩

theorem Numbered.remove (hnumbered : Numbered s) (id : ℕ) : Numbered (s.remove id) :=
  ⟨hnumbered.ascending.filter _, fun row hrow => hnumbered.limit row (mem_remove.mp hrow).1⟩

theorem World.Queued.remove (hqueued : world.Queued s) (id : ℕ) : world.Queued (s.remove id) := by
  refine ⟨hqueued.toNumbered.remove id, ?_, ?_, hqueued.one⟩
  · exact fun row hrow hdone => hqueued.done row (mem_remove.mp hrow).1 hdone
  · exact fun row hrow hrefused => hqueued.refused row (mem_remove.mp hrow).1 hrefused

/-! An update of one row that keeps what was fixed at the tap. -/

section Update

variable {id : ℕ} {set : OutboxRow → OutboxRow}

theorem mem_update {row' : OutboxRow} :
    row' ∈ (s.update id set).outbox ↔ ∃ row ∈ s.outbox, (if row.id = id then set row else row) = row' :=
  List.mem_map

theorem sameWrite_update (hset : ∀ row, SameWrite row (set row)) (row : OutboxRow) :
    SameWrite row (if row.id = id then set row else row) := by
  split
  · exact hset row
  · exact .refl row

theorem leaves_update (hset : ∀ row, SameWrite row (set row)) (hstate : ∀ row, (set row).state = row.state)
    (u : T) : Leaves s (s.update id set) u := by
  have hkeeps : ∀ row : OutboxRow, (if row.id = id then set row else row).state = row.state := by
    intro row
    split
    · exact hstate row
    · rfl
  refine ⟨rfl, Nat.le_refl _, List.Subset.refl _, ?_, ?_⟩
  · intro row hrow hpending
    exact ⟨_, mem_update.mpr ⟨row, hrow, rfl⟩, sameWrite_update hset row, (hkeeps row).trans hpending⟩
  · intro row' hrow' hpending
    obtain ⟨row, hrow, rfl⟩ := mem_update.mp hrow'
    exact .inl ⟨row, hrow, sameWrite_update hset row, (hkeeps row).symm.trans hpending⟩

theorem queueKept_update
    (hmoves : ∀ row ∈ s.outbox, row.id = id → world.Moves s.wire row (set row)) :
    world.QueueKept s (s.update id set) := by
  have hmoved : ∀ row ∈ s.outbox, world.Moves s.wire row (if row.id = id then set row else row) := by
    intro row hrow
    split
    · exact hmoves row hrow ‹_›
    · exact .refl row
  refine ⟨fun row hrow => .inl ⟨_, mem_update.mpr ⟨row, hrow, rfl⟩, hmoved row hrow⟩, fun row' hrow' => ?_⟩
  obtain ⟨row, hrow, rfl⟩ := mem_update.mp hrow'
  exact .inl ⟨row, hrow, (hmoved row hrow).same⟩

theorem Numbered.update (hnumbered : Numbered s) (hset : ∀ row, SameWrite row (set row)) :
    Numbered (s.update id set) := by
  constructor
  · refine List.pairwise_map.mpr (hnumbered.ascending.imp fun h => ?_)
    rw [(sameWrite_update hset _).id, (sameWrite_update hset _).id]
    exact h
  · intro row' hrow'
    obtain ⟨row, hrow, rfl⟩ := mem_update.mp hrow'
    rw [(sameWrite_update hset row).id]
    exact hnumbered.limit row hrow

theorem World.Queued.update (hqueued : world.Queued s) (hset : ∀ row, SameWrite row (set row))
    (hmoves : ∀ row ∈ s.outbox, row.id = id → world.Moves s.wire row (set row)) :
    world.Queued (s.update id set) := by
  refine ⟨hqueued.toNumbered.update hset, ?_, ?_, hqueued.one⟩
  · intro row' hrow' hdone
    obtain ⟨row, hrow, rfl⟩ := mem_update.mp hrow'
    refine (?_ : world.Confirmed s.wire row).mono (List.Subset.refl _) (sameWrite_update hset row)
    split at hdone
    · rcases (hmoves row hrow ‹_›).state with hsame | ⟨-, ⟨-, hconfirmed⟩ | ⟨hrefused, -⟩⟩
      · exact hqueued.done row hrow (hsame.symm.trans hdone)
      · exact hconfirmed
      · cases hdone.symm.trans hrefused
    · exact hqueued.done row hrow hdone
  · intro row' hrow' hrefused
    obtain ⟨row, hrow, rfl⟩ := mem_update.mp hrow'
    refine (?_ : world.FinallyRefused s.wire row).mono (List.Subset.refl _) (sameWrite_update hset row)
    split at hrefused
    · rcases (hmoves row hrow ‹_›).state with hsame | ⟨-, ⟨hdone, -⟩ | ⟨-, hfinal⟩⟩
      · exact hqueued.refused row hrow (hsame.symm.trans hrefused)
      · cases hdone.symm.trans hrefused
      · exact hfinal
    · exact hqueued.refused row hrow hrefused

end Update

/-! ### What a thread may do, and where it stands then -/

/-- Nothing a pass relies on changes, whoever issues it. -/
def Command.Quiet : Command → Prop
  | .begin work => work = .call
  | .finish work => work = .call
  | .send request => request.saleKey = none ∧ ∀ row url body key, request.endpoint ≠ .post row url body key
  | .insert _ => False
  | .pendingFor _ => False
  | .countAttempt _ => False
  | .markDone .. => False
  | .markRefused .. => False
  | .dismiss _ => False
  | _ => True

variable (world) in
/-- A thread issues a command that a pass relies on only where the pass is at it. -/
def queueMay : Command → Stage → Prop
  | .begin .pass, stage => stage = .idle
  | .pendingFor _, stage => stage = .started
  | .countAttempt id, stage => ∃ userId limit row rest known,
      stage = .sending userId limit (row :: rest) known ∧ id = row.id
  | .send ⟨.post id url body key, _⟩, stage => ∃ userId limit row rest known,
      stage = .sending userId limit (row :: rest) known ∧ world.resolve row.write.path = some url ∧
        .post id url body key = row.endpoint url
  | .markDone id _ _ _ _, stage => ∃ userId limit row rest known,
      stage = .sending userId limit (row :: rest) known ∧ id = row.id ∧ ∃ a ∈ known, a.isSuccessful = true
  | .markRefused id _ _ _ _, stage => ∃ userId limit row rest known,
      stage = .sending userId limit (row :: rest) known ∧ id = row.id ∧
        (world.resolve row.write.path = none ∨ ∃ a ∈ known, ∃ error, Attempt.of world a = .refused error)
  | _, _ => True

/-- The answer to the row that is being sent is heard. -/
def Stage.hear : Stage → Response → Stage
  | .sending userId limit rows known, some a => .sending userId limit rows (a :: known)
  | stage, _ => stage

/-- The row is marked, and the pass goes on to the next. -/
def Stage.marked : Stage → Stage
  | .sending userId limit (_ :: rest) _ => .sending userId limit rest []
  | stage => stage

def queueNext : (c : Command) → Reply c → Stage → Stage → Prop
  | .begin .pass, _, _, stage' => stage' = .started
  | .finish .pass, _, _, stage' => stage' = .idle
  | .pendingFor userId, rows, _, stage' => ∃ limit, stage' = .sending userId limit rows []
  | .send ⟨.post _ _ _ _, _⟩, response, stage, stage' => stage' = stage.hear response
  | .markDone _ _ _ _ _, _, stage, stage' => stage' = stage.marked
  | .markRefused _ _ _ _ _, _, stage, stage' => stage' = stage.marked
  | _, _, stage, stage' => stage' = stage

variable (world) in
def queueProtocol : Protocol Command Reply Stage := ⟨queueMay world, queueNext⟩

variable (T world) in
def queueContract : Contract T Command Reply (Phone T) Stage where
  inv s := world.Queued s
  at_ t stage s := world.At t stage s
  guar _ _ s _ s' := world.QueueKept s s'

def Command.beginsPass : Command → Bool
  | .begin .pass => true
  | _ => false

/-- At most one pass at a time. -/
def OnePass (_ : T) (c : Command) (s : Phone T) : Prop := c = .begin .pass → ∀ u, s.under .pass u = false

variable (world) in
/-- A row is answered with a success, a 4xx or a gateway's 502, 503 or 504, and a sale with a final refusal
only by recordSale, or before it is recorded. -/
def Heeds (_ : T) : (c : Command) → Phone T → Reply c → Prop
  | .send ⟨.post _ _ _ key, _⟩, s, some a => a.Definite ∧
      (a.FinalRefusal → world.settles a = true ∨ ∀ k, key = some k → k ∉ s.recorded)
  | _, _, _ => True

variable {t : T} {stage : Stage} {c : Command}

theorem keeps_of_leaves (hqueued : world.Queued s') (hleaves : ∀ u, Leaves s s' u) :
    (queueContract T world).Keeps t s s' :=
  ⟨hqueued, fun u _ _ h => World.At.leaves h (hleaves u)⟩

theorem unmoved_answers {r : Reply c} (hqueued : world.Queued s) (hat : world.At t stage s)
    (h : Unmoved s s') (hnext : queueNext c r stage stage) :
    (queueContract T world).guar t c s r s' ∧ (queueContract T world).Keeps t s s' ∧
      ∃ stage', (queueContract T world).at_ t stage' s' ∧ queueNext c r stage stage' :=
  ⟨h.queueKept, keeps_of_leaves (hqueued.unmoved h) h.leaves, stage, hat.leaves (h.leaves t), hnext⟩

theorem not_held {request : Request} {id : ℕ} {url body : String} {key : Option String} {a : Answer}
    {recorded : List String} (hrecords : world.Records s request (some a) recorded) (hfinal : a.FinalRefusal)
    (hendpoint : request.endpoint = .post id url body key)
    (hheeds : world.settles a = true ∨ ∀ k, key = some k → k ∉ s.recorded) :
    ((request.saleKey.map fun k => decide (k ∈ recorded)).getD false) = false := by
  have hkey : request.saleKey = key := by
    unfold Request.saleKey
    rw [hendpoint]
  cases key with
  | none =>
      rw [hkey]
      rfl
  | some k =>
      have hnot : k ∉ recorded := by
        rw [hrecords.refused a rfl hfinal]
        exact hheeds.elim (fun hsettles => hrecords.settled a rfl hfinal hsettles k hkey) fun h => h k rfl
      rw [hkey]
      exact decide_eq_false hnot

theorem World.Sending.hear {userId : String} {limit : ℕ} {row : OutboxRow} {rest : List OutboxRow}
    {known : List Answer} {a : Answer} {held : Bool}
    (h : world.Sending s t userId limit (row :: rest) known) (hdefinite : a.Definite)
    (hexchanged : world.Exchanged s.wire row a held) (hheld : a.FinalRefusal → held = false) :
    world.Sending s t userId limit (row :: rest) (a :: known) := by
  refine ⟨h.under, h.within, h.upTo, h.ascending, h.user, h.present, h.covers, ?_⟩
  intro a' ha' row' rest' hrows
  rcases List.mem_cons.mp ha' with rfl | hold
  · obtain ⟨rfl, rfl⟩ := List.cons.inj hrows
    refine ⟨hdefinite, ⟨held, hexchanged⟩, fun hfinal => ?_⟩
    obtain rfl := hheld hfinal
    exact hexchanged
  · exact h.heard a' hold row' rest' hrows

theorem World.Sending.mark {userId : String} {limit : ℕ} {row : OutboxRow} {rest : List OutboxRow}
    {known : List Answer} {set : OutboxRow → OutboxRow}
    (h : world.Sending s t userId limit (row :: rest) known) (hleft : ∀ row, (set row).state ≠ .pending) :
    world.Sending (s.update row.id set) t userId limit rest [] := by
  obtain ⟨hhead, hrest⟩ := List.pairwise_cons.mp h.ascending
  refine ⟨h.under, h.within, fun row' h' => h.upTo row' (List.mem_cons_of_mem _ h'), hrest,
    fun row' h' => h.user row' (List.mem_cons_of_mem _ h'), ?_, ?_, ?_⟩
  · intro row' hrow'
    obtain ⟨stored, hstored, hsame, hpending⟩ := h.present row' (List.mem_cons_of_mem _ hrow')
    have hother : stored.id ≠ row.id := fun hid => Nat.ne_of_lt (hhead row' hrow') (hid.symm.trans hsame.id)
    exact ⟨stored, mem_update.mpr ⟨stored, hstored, if_neg hother⟩, hsame, hpending⟩
  · intro row' hrow' hpending huser hlimit
    obtain ⟨stored, hstored, rfl⟩ := mem_update.mp hrow'
    by_cases hid : stored.id = row.id
    · rw [if_pos hid] at hpending
      exact absurd hpending (hleft stored)
    · rw [if_neg hid] at hpending huser hlimit ⊢
      obtain ⟨row₀, hrow₀, hsame⟩ := h.covers stored hstored hpending huser hlimit
      rcases List.mem_cons.mp hrow₀ with rfl | hrest₀
      · exact absurd hsame.id hid
      · exact ⟨row₀, hrest₀, hsame⟩
  · intro a ha
    cases ha

theorem mark_answers {userId : String} {limit : ℕ} {row : OutboxRow} {rest : List OutboxRow}
    {known : List Answer} {F : OutboxRow → OutboxRow} (hqueued : world.Queued s)
    (hat : world.Sending s t userId limit (row :: rest) known) (hset : ∀ row, SameWrite row (F row))
    (hleft : ∀ row, (F row).state ≠ .pending)
    (hmoves : ∀ row', SameWrite row row' → world.Moves s.wire row' (F row')) :
    world.QueueKept s (s.update row.id F) ∧ (queueContract T world).Keeps t s (s.update row.id F) ∧
      world.Sending (s.update row.id F) t userId limit rest [] := by
  obtain ⟨stored, hstored, hsame, -⟩ := hat.present row List.mem_cons_self
  have hmoved : ∀ row' ∈ s.outbox, row'.id = row.id → world.Moves s.wire row' (F row') := by
    intro row' hrow' hid
    obtain rfl := eq_of_id hqueued.ascending hstored hrow' (hsame.id.trans hid.symm)
    exact hmoves stored hsame
  refine ⟨queueKept_update hmoved, ⟨hqueued.update hset hmoved, ?_⟩, hat.mark hleft⟩
  intro u hne stage hu
  cases stage with
  | idle => exact hu
  | started => exact hu
  | sending => exact absurd (hqueued.one u t (World.Sending.under hu) hat.under) hne

section Commands

variable [DecidableEq T]

variable (T world) in
def queueMachine : Machine T Command Reply (Phone T) := (phoneMachine T world True).guard OnePass

theorem unmoved_of_quiet {r : Reply c} (hquiet : c.Quiet) (hstep : s.Step world t c r s') : Unmoved s s' := by
  cases hstep with
  | begin work =>
      obtain rfl := hquiet
      exact ⟨rfl, rfl, s.setUnder_other (by simp) t _, List.Subset.refl _⟩
  | finish work =>
      obtain rfl := hquiet
      exact ⟨rfl, rfl, s.setUnder_other (by simp) t _, List.Subset.refl _⟩
  | answered => exact ⟨rfl, rfl, rfl, List.subset_cons_self _ _⟩
  | unanswered => exact ⟨rfl, rfl, rfl, List.subset_cons_self _ _⟩
  | insert => cases hquiet
  | pendingFor => cases hquiet
  | countAttempt => cases hquiet
  | markDone => cases hquiet
  | markRefused => cases hquiet
  | dismiss => cases hquiet
  | _ => exact ⟨rfl, rfl, rfl, List.Subset.refl _⟩

theorem leaves_setUnder {u : T} (hne : u ≠ t) (under : Bool) : Leaves s (s.setUnder .pass t under) u :=
  ⟨s.setUnder_of_ne .pass hne under, Nat.le_refl _, List.Subset.refl _,
    fun row hrow hpending => ⟨row, hrow, .refl row, hpending⟩,
    fun row hrow hpending => .inl ⟨row, hrow, .refl row, hpending⟩⟩

theorem queueKept_setUnder (work : Work) (under : Bool) : world.QueueKept s (s.setUnder work t under) :=
  ⟨fun row hrow => .inl ⟨row, hrow, .refl row⟩, fun row hrow => .inl ⟨row, hrow, .refl row⟩⟩

theorem World.Queued.setUnder (hqueued : world.Queued s) (under : Bool)
    (hone : under = true → ∀ u, s.under .pass u = false) : world.Queued (s.setUnder .pass t under) := by
  refine ⟨⟨hqueued.ascending, hqueued.limit⟩, hqueued.done, hqueued.refused, ?_⟩
  have honly : under = true → ∀ u, (s.setUnder .pass t under).under .pass u = true → u = t := by
    intro hunder u hu
    by_contra hne
    rw [s.setUnder_of_ne .pass hne, hone hunder u] at hu
    cases hu
  have hold : under = false → ∀ u, (s.setUnder .pass t under).under .pass u = true → s.under .pass u = true := by
    intro hunder u hu
    by_cases hut : u = t
    · subst hut
      rw [s.setUnder_self, hunder] at hu
      cases hu
    · rwa [s.setUnder_of_ne .pass hut] at hu
  intro u v hu hv
  cases hunder : under with
  | true => exact (honly hunder u hu).trans (honly hunder v hv).symm
  | false => exact hqueued.one u v (hold hunder u hu) (hold hunder v hv)

omit [DecidableEq T] in
theorem sending_answered {id : ℕ} {url body : String} {key bearer : Option String} {a : Answer}
    {issued recorded : List String} (hat : world.At t stage s)
    (hmay : queueMay world (.send ⟨.post id url body key, bearer⟩) stage)
    (hheeds : Heeds world t (.send ⟨.post id url body key, bearer⟩) s (some a))
    (hrecords : world.Records s ⟨.post id url body key, bearer⟩ (some a) recorded) :
    world.At t (stage.hear (some a))
      { s.exchange ⟨.post id url body key, bearer⟩ (some a) recorded with issued := issued } := by
  obtain ⟨userId, limit, row, rest, known, rfl, hurl, hendpoint⟩ := hmay
  have hmoved : Unmoved s
      { s.exchange ⟨.post id url body key, bearer⟩ (some a) recorded with issued := issued } :=
    ⟨rfl, rfl, rfl, List.subset_cons_self _ _⟩
  have hsending := World.Sending.leaves hat (hmoved.leaves t)
  exact hsending.hear hheeds.1 ⟨_, List.mem_cons_self, url, hurl, hendpoint, rfl, rfl⟩ fun hfinal =>
    not_held hrecords hfinal rfl (hheeds.2 hfinal)

theorem queueContract_implements :
    (queueContract T world).Implements ((queueMachine T world).restrict (Heeds world)) fun _ =>
      queueProtocol world := by
  rintro t c stage hmay s r s' hqueued hat ⟨hheeds, hone, hstep⟩
  have hquiet : c.Quiet → queueNext c r stage stage →
      (queueContract T world).guar t c s r s' ∧ (queueContract T world).Keeps t s s' ∧
        ∃ stage', (queueContract T world).at_ t stage' s' ∧ queueNext c r stage stage' :=
    fun hquiet hnext => unmoved_answers hqueued hat (unmoved_of_quiet hquiet hstep) hnext
  cases hstep with
  | begin work =>
      cases work with
      | call => exact hquiet rfl rfl
      | pass =>
          refine ⟨queueKept_setUnder .pass true, ⟨hqueued.setUnder true fun _ => hone rfl, ?_⟩, .started, ?_, rfl⟩
          · exact fun u hne _ hu => World.At.leaves hu (leaves_setUnder hne true)
          · exact s.setUnder_self .pass t true
  | finish work =>
      cases work with
      | call => exact hquiet rfl rfl
      | pass =>
          refine ⟨queueKept_setUnder .pass false, ⟨hqueued.setUnder false (by simp), ?_⟩, .idle, ?_, rfl⟩
          · exact fun u hne _ hu => World.At.leaves hu (leaves_setUnder hne false)
          · exact s.setUnder_self .pass t false
  | answered request a issued recorded hanswers hrecords =>
      have hmoved : Unmoved s { s.exchange request (some a) recorded with issued := issued ++ s.issued } :=
        ⟨rfl, rfl, rfl, List.subset_cons_self _ _⟩
      obtain ⟨endpoint, bearer⟩ := request
      cases endpoint with
      | post id url body key =>
          exact ⟨hmoved.queueKept, keeps_of_leaves (hqueued.unmoved hmoved) hmoved.leaves, stage.hear (some a),
            sending_answered hat hmay hheeds hrecords, rfl⟩
      | _ => exact unmoved_answers hqueued hat hmoved rfl
  | unanswered request issued recorded hissued hrecords =>
      have hmoved : Unmoved s { s.exchange request none recorded with issued := issued } :=
        ⟨rfl, rfl, rfl, List.subset_cons_self _ _⟩
      obtain ⟨endpoint, bearer⟩ := request
      cases endpoint with
      | post id url body key =>
          obtain ⟨userId, limit, row, rest, known, rfl, -⟩ := hmay
          exact unmoved_answers hqueued hat hmoved rfl
      | _ => exact unmoved_answers hqueued hat hmoved rfl
  | insert write =>
      exact ⟨queueKept_push write, keeps_of_leaves (hqueued.push write) (leaves_push write), stage,
        hat.leaves (leaves_push write t), rfl⟩
  | pendingFor userId =>
      obtain rfl := hmay
      have hmoved : Unmoved s s := ⟨rfl, rfl, rfl, List.Subset.refl _⟩
      refine ⟨hmoved.queueKept, keeps_of_leaves hqueued hmoved.leaves,
        .sending userId s.lastId (s.pending userId) [],
        ?_, s.lastId, rfl⟩
      have hmem : ∀ row, row ∈ s.pending userId ↔
          row ∈ s.outbox ∧ row.state = .pending ∧ row.write.userId = userId := by
        intro row
        simp only [Phone.pending, List.mem_filter, decide_eq_true_eq]
      refine ⟨hat, Nat.le_refl _, fun row hrow => hqueued.limit row ((hmem row).mp hrow).1,
        hqueued.ascending.filter _, fun row hrow => ((hmem row).mp hrow).2.2, ?_, ?_, ?_⟩
      · intro row hrow
        obtain ⟨hstored, hpending, -⟩ := (hmem row).mp hrow
        exact ⟨row, hstored, .refl row, hpending⟩
      · intro row' hrow' hpending huser _
        exact ⟨row', (hmem row').mpr ⟨hrow', hpending, huser⟩, .refl row'⟩
      · intro a ha
        cases ha
  | countAttempt id =>
      have hset : ∀ row : OutboxRow, SameWrite row row.attempted := fun row => ⟨rfl, rfl⟩
      have hmoves : ∀ row ∈ s.outbox, row.id = id → world.Moves s.wire row row.attempted :=
        fun row _ _ => ⟨hset row, .inl rfl⟩
      have hleaves : ∀ u, Leaves s (s.update id OutboxRow.attempted) u := leaves_update hset fun _ => rfl
      exact ⟨queueKept_update hmoves, keeps_of_leaves (hqueued.update hset hmoves) hleaves, stage,
        hat.leaves (hleaves t), rfl⟩
  | markDone id status body correlationId code =>
      obtain ⟨userId, limit, row, rest, known, rfl, rfl, a, ha, hsuccess⟩ := hmay
      obtain ⟨hkept, hkeeps, hnext⟩ := mark_answers (F := fun row => row.done status body correlationId code)
        hqueued hat (fun row => sameWrite_done row status body correlationId code)
        (fun row => done_not_pending row status body correlationId code) fun row' hsame => by
          refine ⟨sameWrite_done row' status body correlationId code, ?_⟩
          obtain ⟨-, ⟨held, hexchanged⟩, -⟩ := World.Sending.heard hat a ha row rest rfl
          exact (state_done row' status body correlationId code).imp_right fun ⟨hpending, hdone⟩ =>
            ⟨hpending, .inl ⟨hdone, a, held, hexchanged.mono (List.Subset.refl _) hsame, hsuccess⟩⟩
      exact ⟨hkept, hkeeps, .sending userId limit rest [], hnext, rfl⟩
  | markRefused id status code message correlationId =>
      obtain ⟨userId, limit, row, rest, known, rfl, rfl, hwhy⟩ := hmay
      have hfinal : world.FinallyRefused s.wire row := by
        rcases hwhy with hpath | ⟨a, ha, error, hrefused⟩
        · exact .inl hpath
        · obtain ⟨hdefinite, -, hexchanged⟩ := World.Sending.heard hat a ha row rest rfl
          have hfinal := Attempt.of_refused hdefinite hrefused
          exact .inr ⟨a, hexchanged hfinal, hfinal⟩
      obtain ⟨hkept, hkeeps, hnext⟩ := mark_answers
        (F := fun row => row.refused status code message correlationId)
        hqueued hat (fun row => sameWrite_refused row status code message correlationId)
        (fun row => refused_not_pending row status code message correlationId) fun row' hsame => by
          refine ⟨sameWrite_refused row' status code message correlationId, ?_⟩
          exact (state_refused row' status code message correlationId).imp_right fun ⟨hpending, hrefused⟩ =>
            ⟨hpending, .inr ⟨hrefused, hfinal.mono (List.Subset.refl _) hsame⟩⟩
      exact ⟨hkept, hkeeps, .sending userId limit rest [], hnext, rfl⟩
  | dismiss id =>
      exact ⟨queueKept_remove hqueued id, keeps_of_leaves (hqueued.remove id) (leaves_remove id), stage,
        hat.leaves (leaves_remove id t), rfl⟩
  | _ => exact hquiet trivial rfl

end Commands
end Queue
end RetailSegmentation.Floor
