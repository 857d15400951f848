import RetailSegmentation.CheckIns

/-! Every interleaving of `createCheckIn` requests, while stores, users and reviews change. A committed
check-in stays as it is, and each was inserted by one request, whose values it carries. -/

namespace RetailSegmentation.CheckIns

open Program Transactions

/-! ### What a row records -/

/-- What a request asks to record, and for whom. -/
structure Submission where
  userId : Uuid
  request : CheckInRequest
  deriving DecidableEq, Repr

namespace Submission

abbrev id (s : Submission) : Uuid := s.request.clientCheckInId

def Same (s s' : Submission) : Prop :=
  s.userId = s'.userId ∧ s.request.storeId = s'.request.storeId ∧
    s.request.occurredAt = s'.request.occurredAt ∧ s.request.fix = s'.request.fix

end Submission

/-- The row carries the values of the request, its moment in whole microseconds. -/
structure Recorded (s : Submission) (row : Row) : Prop where
  userId : row.userId = s.userId
  storeId : row.storeId = s.request.storeId
  occurredAt : row.occurredAt = s.request.occurredAt.micros
  latitude : row.latitude = s.request.fix.map Fix.latitude
  longitude : row.longitude = s.request.fix.map Fix.longitude
  accuracyM : row.accuracyM = s.request.fix.map Fix.accuracyM

theorem fix_ext {fix fix' : Option Fix} (hlatitude : fix.map Fix.latitude = fix'.map Fix.latitude)
    (hlongitude : fix.map Fix.longitude = fix'.map Fix.longitude)
    (haccuracy : fix.map Fix.accuracyM = fix'.map Fix.accuracyM) : fix = fix' := by
  cases fix with
  | none =>
      cases fix' with
      | none => rfl
      | some _ => cases hlatitude
  | some a =>
      cases fix' with
      | none => cases hlatitude
      | some b =>
          obtain ⟨latitude, longitude, accuracyM⟩ := a
          obtain ⟨latitude', longitude', accuracyM'⟩ := b
          obtain rfl : latitude = latitude' := Option.some.inj hlatitude
          obtain rfl : longitude = longitude' := Option.some.inj hlongitude
          obtain rfl : accuracyM = accuracyM' := Option.some.inj haccuracy
          rfl

/-- A request is taken for the recorded one when it equals it, its moment as it was stored. -/
theorem Recorded.sameRequest {s s' : Submission} {row : Row} (hrow : Recorded s row) (id : Uuid)
    (verified : Bool) : (CheckIn.fromRow id row verified).SameRequest s'.userId s'.request ↔
      s.userId = s'.userId ∧ s.request.storeId = s'.request.storeId ∧
        Moment.ofMicros s.request.occurredAt.micros = s'.request.occurredAt ∧
        s.request.fix = s'.request.fix := by
  simp only [CheckIn.SameRequest, CheckIn.fromRow, hrow.userId, hrow.storeId, hrow.occurredAt,
    hrow.latitude, hrow.longitude, hrow.accuracyM]
  constructor
  · rintro ⟨huser, hstore, hmoment, hlatitude, hlongitude, haccuracy⟩
    exact ⟨huser, hstore, hmoment, fix_ext hlatitude hlongitude haccuracy⟩
  · rintro ⟨huser, hstore, hmoment, hfix⟩
    exact ⟨huser, hstore, hmoment, by rw [hfix], by rw [hfix], by rw [hfix]⟩

/-- The comparison tells the same request from every other exactly where its moment is stored whole. -/
theorem Recorded.recognises_iff {s : Submission} {row : Row} (hrow : Recorded s row) (id : Uuid)
    (verified : Bool) : (∀ s' : Submission,
      (CheckIn.fromRow id row verified).SameRequest s'.userId s'.request ↔ s.Same s') ↔
        s.request.occurredAt.Exact := by
  constructor
  · intro h
    have hself := (hrow.sameRequest id verified).mp ((h s).mpr ⟨rfl, rfl, rfl, rfl⟩)
    exact Moment.ofMicros_micros.mp hself.2.2.1
  · intro hexact s'
    rw [hrow.sameRequest, Moment.ofMicros_micros.mpr hexact, Submission.Same]

/-! ### Stages -/

/-- Where a request is: not begun or over (`known`: the check-in that was recorded before it began),
begun, without a recorded check-in, with one, with a row of its own, or with that row committed. -/
inductive Stage where
  | idle (known : Option Row)
  | opened (known : Option Row)
  | missed
  | found (row : Row)
  | inserted (row : Row)
  | recorded (row : Row)

section Runs

variable {T : Type}

structure Clean (t : T) (db : CheckInDb T) : Prop where
  pending : db.rows.pending t = ∅
  owner : ∀ k, db.rows.owner k ≠ some t

/-- Transaction `t` has inserted the row of its request, and nothing else. -/
structure Inserted (s : Submission) (row : Row) (t : T) (db : CheckInDb T) : Prop where
  pending : (db.rows.pending t).lookup s.id = some (some row)
  others : ∀ k ≠ s.id, (db.rows.pending t).lookup k = none
  owner : ∀ k, db.rows.owner k = some t ↔ k = s.id
  recorded : Recorded s row

/-- What holds of transaction `t` at each stage of its request. -/
def At (s : Submission) (t : T) (db : CheckInDb T) : Stage → Prop
  | .idle known => (Clean t db ∧ db.author s.id ≠ some t) ∧
      ∀ row, known = some row → db.rows.rows.lookup s.id = some row
  | .opened known => (Clean t db ∧ db.author s.id ≠ some t) ∧
      ∀ row, known = some row → db.rows.rows.lookup s.id = some row
  | .missed => Clean t db ∧ db.author s.id ≠ some t
  | .found row => (Clean t db ∧ db.author s.id ≠ some t) ∧ db.rows.rows.lookup s.id = some row
  | .inserted row => Inserted s row t db ∧ db.author s.id = some t
  | .recorded row => Clean t db ∧ db.rows.rows.lookup s.id = some row ∧ db.author s.id = some t

/-- Each committed row was there at the start or carries the request that inserted it, the rows `before`
are still there, and a row that stands has the author that inserted it, a request that can be read. -/
structure Consistent (subs : T → Submission) (reads : T → Prop) (start before : AList fun _ : Uuid => Row)
    (db : CheckInDb T) : Prop where
  origin : ∀ k row, db.rows.rows.lookup k = some row → start.lookup k = some row ∨
    ∃ t, db.author k = some t ∧ (subs t).id = k ∧ Recorded (subs t) row
  persists : ∀ k row, before.lookup k = some row → db.rows.rows.lookup k = some row
  pending : ∀ t k, k ∈ db.rows.pending t → k ∉ db.rows.rows ∧ db.author k = some t
  authored : ∀ t k, db.author k = some t → k ∈ db.rows.rows ∨ k ∈ db.rows.pending t
  reads : ∀ t k, db.author k = some t → reads t

/-- What transaction `u` may rely on is left alone. -/
structure Leaves (u : T) (db db' : CheckInDb T) : Prop where
  pending : db'.rows.pending u = db.rows.pending u
  owner : ∀ k, db'.rows.owner k = some u ↔ db.rows.owner k = some u
  rows : ∀ k row, db.rows.rows.lookup k = some row → db'.rows.rows.lookup k = some row
  author : ∀ k, db'.author k = some u ↔ db.author k = some u

variable {subs : T → Submission} {reads : T → Prop} {start before : AList fun _ : Uuid => Row}
  {s : Submission} {t u : T} {db db' : CheckInDb T}

theorem Leaves.refl (u : T) (db : CheckInDb T) : Leaves u db db :=
  ⟨rfl, fun _ => Iff.rfl, fun _ _ h => h, fun _ => Iff.rfl⟩

theorem Leaves.clean (h : Leaves u db db') (hclean : Clean u db) : Clean u db' :=
  ⟨h.pending.trans hclean.pending, fun k => (h.owner k).not.mpr (hclean.owner k)⟩

theorem At.leaves {stage : Stage} (hat : At s u db stage) (h : Leaves u db db') : At s u db' stage := by
  have houtside : Clean u db ∧ db.author s.id ≠ some u → Clean u db' ∧ db'.author s.id ≠ some u :=
    fun hout => ⟨h.clean hout.1, (h.author s.id).not.mpr hout.2⟩
  cases stage with
  | idle known => exact ⟨houtside hat.1, fun row hrow => h.rows _ _ (hat.2 row hrow)⟩
  | opened known => exact ⟨houtside hat.1, fun row hrow => h.rows _ _ (hat.2 row hrow)⟩
  | missed => exact houtside hat
  | found row => exact ⟨houtside hat.1, h.rows _ _ hat.2⟩
  | inserted row =>
      obtain ⟨⟨hpending, hothers, howner, hrecorded⟩, hauthor⟩ := hat
      refine ⟨⟨?_, ?_, fun k => (h.owner k).trans (howner k), hrecorded⟩, (h.author s.id).mpr hauthor⟩
      · rw [h.pending, hpending]
      · rw [h.pending]
        exact hothers
  | recorded row => exact ⟨h.clean hat.1, h.rows _ _ hat.2.1, (h.author s.id).mpr hat.2.2⟩

theorem At.unknown (hout : Clean t db ∧ db.author s.id ≠ some t) : At s t db (.idle none) :=
  ⟨hout, fun _ hrow => (Option.some_ne_none _ hrow.symm).elim⟩

/-! ### Workflow -/

namespace Stage

def after : Stage → Stage
  | inserted row => recorded row
  | stage => stage

def undone : Stage → Stage
  | idle known => idle known
  | opened known => idle known
  | missed => idle none
  | found row => found row
  | inserted _ => idle none
  | recorded row => recorded row

end Stage

/-- The columns carry the request. -/
structure Columns.Carries (columns : Columns) (s : Submission) : Prop where
  id : columns.clientCheckInId = s.id
  userId : columns.userId = s.userId
  storeId : columns.storeId = s.request.storeId
  occurredAt : columns.occurredAt = s.request.occurredAt
  latitude : columns.latitude = s.request.fix.map Fix.latitude
  longitude : columns.longitude = s.request.fix.map Fix.longitude
  accuracyM : columns.accuracyM = s.request.fix.map Fix.accuracyM

theorem Columns.Carries.recorded {columns : Columns} (h : columns.Carries s) (drawn : Drawn) :
    Recorded s (columns.row drawn) :=
  ⟨h.userId, h.storeId, congrArg Moment.micros h.occurredAt, h.latitude, h.longitude, h.accuracyM⟩

/-- What a request may do at each stage, and where the answers lead. -/
def recording (reads : Prop) (s : Submission) : Workflow Statement Result DbError Stage where
  may statement stage := match statement, stage with
    | .setConfig _, .idle _ => True
    | .readByClientId id, .opened _ => id = s.id
    | .readByClientId id, .found _ => id = s.id
    | .readStore _, .missed => True
    | .insert columns, .missed => columns.Carries s ∧ reads
    | _, _ => False
  next statement v stage stage' := match statement, v, stage with
    | .setConfig _, _, .idle known => stage' = .opened known
    | .readByClientId _, v, .opened known =>
      (v = none ∧ known = none ∧ stage' = .missed) ∨
      ∃ row verified, v = some (.fromRow s.id row verified) ∧ stage' = .found row
    | .readByClientId _, v, .found row =>
      ∃ verified, v = some (.fromRow s.id row verified) ∧ stage' = .found row
    | .readStore _, _, _ => stage' = .missed
    | .insert _, v, .missed =>
      (∃ row, v = none ∧ stage' = .found row) ∨
      ∃ row verified, v = some (.fromRow s.id row verified) ∧ stage' = .inserted row
    | _, _, _ => False
  fails statement _ stage := match statement, stage with
    | .insert _, .missed => True
    | _, _ => False
  aborts := IsAbort
  commits stage := match stage with
    | .found _ => True
    | .inserted _ => True
    | _ => False
  after := Stage.after
  undone := Stage.undone
  losesReplies := True

variable (subs reads start before) in
def checkInContract : Contract T (Request Statement) (Reply Result DbError) (CheckInDb T) Stage where
  inv := Consistent subs reads start before
  at_ t stage db := At (subs t) t db stage
  guar _ _ _ _ _ := True

end Runs

section Obligations

variable {T : Type} [DecidableEq T] {subs : T → Submission} {reads : T → Prop}
  {start before : AList fun _ : Uuid => Row} {t u : T} {db db' : CheckInDb T}

omit [DecidableEq T] in
theorem keeps_of_leaves (hinv : Consistent subs reads start before db') (hleaves : ∀ u ≠ t, Leaves u db db') :
    (checkInContract subs reads start before).Keeps t db db' :=
  ⟨hinv, fun u hu _ hat => At.leaves hat (hleaves u hu)⟩

omit [DecidableEq T] in
theorem keeps_self (hinv : Consistent subs reads start before db) :
    (checkInContract subs reads start before).Keeps t db db :=
  keeps_of_leaves hinv fun u _ => .refl u db

/-! ### Rollback and commit -/

omit [DecidableEq T] in
theorem Consistent.pending_one (hinv : Consistent subs reads start before db) {k : Uuid}
    (ht : k ∈ db.rows.pending t) (hu : k ∈ db.rows.pending u) : u = t :=
  Option.some.inj ((hinv.pending u k hu).2.symm.trans (hinv.pending t k ht).2)

theorem rollback_author (hinv : Consistent subs reads start before db) (hu : u ≠ t) (k : Uuid) :
    (db.rollback t).author k = some u ↔ db.author k = some u := by
  change (if k ∈ db.rows.pending t then none else db.author k) = some u ↔ _
  split_ifs with hk
  · rw [(hinv.pending t k hk).2]
    exact ⟨nofun, fun h => absurd (Option.some.inj h).symm hu⟩
  · rfl

theorem rollback_leaves (hinv : Consistent subs reads start before db) (hu : u ≠ t) :
    Leaves u db (db.rollback t) :=
  ⟨Table.rollback_pending_other t hu, Table.rollback_owner_other t hu, fun _ _ h => h,
    rollback_author hinv hu⟩

theorem rollback_consistent (hinv : Consistent subs reads start before db) (t : T) :
    Consistent subs reads start before (db.rollback t) := by
  have hempty : (db.rollback t).rows.pending t = ∅ := Table.rollback_pending_self t
  have hother : ∀ u ≠ t, (db.rollback t).rows.pending u = db.rows.pending u :=
    fun u hu => Table.rollback_pending_other t hu
  have hkeep : ∀ k, k ∉ db.rows.pending t → (db.rollback t).author k = db.author k := fun k hk => if_neg hk
  have hauthor : ∀ u k, (db.rollback t).author k = some u → k ∉ db.rows.pending t ∧ db.author k = some u := by
    intro u k h
    change (if k ∈ db.rows.pending t then none else db.author k) = some u at h
    split_ifs at h with hk
    exact ⟨hk, h⟩
  refine ⟨fun k row hrow => ?_, hinv.persists, fun u k hk => ?_, fun u k hk => ?_,
    fun u k hk => hinv.reads u k (hauthor u k hk).2⟩
  · have hnot : k ∉ db.rows.pending t := fun hk => by
      have habsent : db.rows.rows.lookup k = none := AList.lookup_eq_none.mpr (hinv.pending t k hk).1
      exact absurd (habsent.symm.trans hrow) nofun
    rw [hkeep k hnot]
    exact hinv.origin k row hrow
  · have hut : u ≠ t := by
      rintro rfl
      rw [hempty] at hk
      exact AList.notMem_empty k hk
    rw [hother u hut] at hk
    rw [hkeep k fun ht => hut (hinv.pending_one ht hk)]
    exact hinv.pending u k hk
  · obtain ⟨hnot, hk⟩ := hauthor u k hk
    refine (hinv.authored u k hk).imp_right fun hpending => ?_
    rw [hother u fun hut => hnot (hut ▸ hpending)]
    exact hpending

theorem rollback_clean (t : T) (db : CheckInDb T) : Clean t (db.rollback t) :=
  ⟨Table.rollback_pending_self t, Table.rollback_owner_self t⟩

omit [DecidableEq T] in
theorem Clean.not_pending (hclean : Clean t db) (k : Uuid) : k ∉ db.rows.pending t := by
  rw [hclean.pending]
  exact AList.notMem_empty k

theorem Clean.rollback_author (hclean : Clean t db) (k : Uuid) : (db.rollback t).author k = db.author k :=
  if_neg (hclean.not_pending k)

theorem rollback_outside {k : Uuid} (hout : Clean t db ∧ db.author k ≠ some t) :
    Clean t (db.rollback t) ∧ (db.rollback t).author k ≠ some t := by
  refine ⟨rollback_clean t db, ?_⟩
  rw [hout.1.rollback_author]
  exact hout.2

theorem checkIn_rollsBack : RollsBack (checkInContract subs reads start before) (checkInServer T)
    fun t => recording (reads t) (subs t) := by
  intro t stage db hinv hat
  refine ⟨keeps_of_leaves (rollback_consistent hinv t) fun u hu => rollback_leaves hinv hu, ?_,
    fun _ _ => trivial⟩
  cases stage with
  | idle known => exact ⟨rollback_outside hat.1, hat.2⟩
  | opened known => exact ⟨rollback_outside hat.1, hat.2⟩
  | missed => exact At.unknown (rollback_outside hat)
  | found row => exact ⟨rollback_outside hat.1, hat.2⟩
  | inserted row =>
      obtain ⟨hinserted, -⟩ := hat
      refine At.unknown ⟨rollback_clean t db, ?_⟩
      have hmem : (subs t).id ∈ db.rows.pending t :=
        AList.lookup_isSome.mp (by rw [hinserted.pending]; rfl)
      change (if (subs t).id ∈ db.rows.pending t then none else db.author (subs t).id) ≠ some t
      rw [if_pos hmem]
      exact nofun
  | recorded row =>
      obtain ⟨hclean, hrow, hauthor⟩ := hat
      exact ⟨rollback_clean t db, hrow, (hclean.rollback_author _).trans hauthor⟩

theorem Inserted.commit_rows {s : Submission} {row : Row} (hinserted : Inserted s row t db) (k : Uuid) :
    (db.commit t).rows.rows.lookup k = if k = s.id then some row else db.rows.rows.lookup k := by
  have hget : (db.commit t).rows.rows.lookup k = db.rows.get t k := Table.commit_rows t k
  rw [hget, Table.get]
  split_ifs with hk
  · rw [hk, hinserted.pending]
  · rw [hinserted.others k hk]

theorem Inserted.commit_consistent {row : Row} (hinv : Consistent subs reads start before db)
    (hinserted : Inserted (subs t) row t db) (hauthor : db.author (subs t).id = some t) :
    Consistent subs reads start before (db.commit t) := by
  have habsent : db.rows.rows.lookup (subs t).id = none :=
    AList.lookup_eq_none.mpr (hinv.pending t _ (AList.lookup_isSome.mp (by rw [hinserted.pending]; rfl))).1
  have hrows := hinserted.commit_rows
  have hkeep : ∀ k row', db.rows.rows.lookup k = some row' → (db.commit t).rows.rows.lookup k = some row' := by
    intro k row' hrow
    rw [hrows, if_neg fun hk => by rw [hk, habsent] at hrow; cases hrow]
    exact hrow
  refine ⟨fun k row' hrow => ?_, fun k row' h => hkeep k row' (hinv.persists k row' h), fun u k hk => ?_,
    fun u k hk => ?_, hinv.reads⟩
  · rw [hrows] at hrow
    split_ifs at hrow with hid
    · obtain rfl := Option.some.inj hrow
      exact .inr ⟨t, hid ▸ hauthor, hid.symm, hinserted.recorded⟩
    · exact hinv.origin k row' hrow
  · have hut : u ≠ t := by
      rintro rfl
      have hempty : (db.commit u).rows.pending u = ∅ := Table.commit_pending_self u
      rw [hempty] at hk
      exact AList.notMem_empty k hk
    have hsame : (db.commit t).rows.pending u = db.rows.pending u := Table.commit_pending_other t hut
    rw [hsame] at hk
    obtain ⟨hnot, hby⟩ := hinv.pending u k hk
    refine ⟨fun hmem => ?_, hby⟩
    rw [← AList.lookup_isSome, hrows] at hmem
    split_ifs at hmem with hid
    · rw [hid, hauthor] at hby
      exact hut (Option.some.inj hby).symm
    · exact hnot (AList.lookup_isSome.mp hmem)
  · change db.author k = some u at hk
    rcases hinv.authored u k hk with hmem | hpending
    · left
      obtain ⟨row', hrow⟩ := Option.isSome_iff_exists.mp (AList.lookup_isSome.mpr hmem)
      exact AList.lookup_isSome.mp (by rw [hkeep k row' hrow]; rfl)
    · by_cases hut : u = t
      · subst hut
        left
        rw [← AList.lookup_isSome, hrows]
        split_ifs with hid
        · rfl
        · have hnone := hinserted.others k hid
          exact absurd hpending (AList.lookup_eq_none.mp hnone)
      · right
        have hsame : (db.commit t).rows.pending u = db.rows.pending u := Table.commit_pending_other t hut
        rw [hsame]
        exact hpending

theorem checkIn_commits : Commits (checkInContract subs reads start before) (checkInServer T)
    fun t => recording (reads t) (subs t) := by
  intro t stage db hinv hat hcommits
  cases stage with
  | found row =>
      have hsame : db.commit t = db := by
        rw [CheckInDb.commit, Table.commit_eq_self t hat.1.1.pending hat.1.1.owner]
      change (checkInContract subs reads start before).Keeps t db (db.commit t) ∧ _ ∧ _
      refine ⟨?_, ?_, fun _ => trivial⟩
      · rw [hsame]
        exact keeps_self hinv
      · change At (subs t) t (db.commit t) (.found row)
        rw [hsame]
        exact hat
  | inserted row =>
      obtain ⟨hinserted, hauthor⟩ := hat
      have hinv' := hinserted.commit_consistent hinv hauthor
      refine ⟨keeps_of_leaves hinv' fun u hu => ?_, ⟨?_, ?_, hauthor⟩, fun _ => trivial⟩
      · refine ⟨Table.commit_pending_other t hu, Table.commit_owner_other t hu, fun k row' hrow => ?_,
          fun _ => Iff.rfl⟩
        have habsent := (hinv.pending t (subs t).id
          (AList.lookup_isSome.mp (by rw [hinserted.pending]; rfl))).1
        change (db.commit t).rows.rows.lookup k = some row'
        rw [hinserted.commit_rows, if_neg fun hk => ?_]
        · exact hrow
        · rw [hk, AList.lookup_eq_none.mpr habsent] at hrow
          cases hrow
      · exact ⟨Table.commit_pending_self t, Table.commit_owner_self t⟩
      · change (db.commit t).rows.rows.lookup (subs t).id = some row
        rw [hinserted.commit_rows, if_pos rfl]
  | _ => exact hcommits.elim

/-! ### Statements -/

/-- A first insert of an id that is free: the row is the transaction's own, and nobody else's facts change. -/
theorem put_inserted {columns : Columns} (drawn : Drawn) (hinv : Consistent subs reads start before db)
    (hclean : Clean t db) (hcarries : columns.Carries (subs t)) (hreads : reads t)
    (habsent : db.rows.get t columns.clientCheckInId = none)
    (hfree : db.rows.Free t columns.clientCheckInId)
    (hdb : db' = { db with
      rows := db.rows.put t columns.clientCheckInId (some (columns.row drawn)) hfree
      author := Function.update db.author columns.clientCheckInId (some t) }) :
    (checkInContract subs reads start before).Keeps t db db' ∧
      At (subs t) t db' (.inserted (columns.row drawn)) := by
  have hid := hcarries.id
  rw [hid] at habsent
  have hrows : db.rows.rows.lookup (subs t).id = none :=
    (Table.get_eq_rows (hclean.owner _)).symm.trans habsent
  have hfree' : db.rows.Free t (subs t).id := hid ▸ hfree
  obtain rfl : db' = { db with
      rows := db.rows.put t (subs t).id (some (columns.row drawn)) hfree'
      author := Function.update db.author (subs t).id (some t) } := by
    rw [hdb]
    congr 1
    · congr 1
    · rw [hid]
  have hnone : ∀ u ≠ t, (subs t).id ∉ db.rows.pending u := fun u hu hk =>
    hfree'.owner_ne hu (db.rows.owned u _ hk)
  have hnobody : ∀ u, db.author (subs t).id ≠ some u := by
    intro u hu
    rcases hinv.authored u _ hu with hmem | hpending
    · exact AList.lookup_eq_none.mp hrows hmem
    · by_cases hut : u = t
      · subst hut
        exact hclean.not_pending _ hpending
      · exact hnone u hut hpending
  have hauthor : ∀ k u, u ≠ t →
      (Function.update db.author (subs t).id (some t) k = some u ↔ db.author k = some u) := by
    intro k u hu
    by_cases hk : k = (subs t).id
    · rw [hk, Function.update_self]
      exact iff_of_false (fun h => hu (Option.some.inj h).symm) (hnobody u)
    · rw [Function.update_of_ne hk]
  refine ⟨keeps_of_leaves ⟨fun k row hrow => ?_, hinv.persists, fun u k hk => ?_, fun u k hk => ?_,
    fun u k hk => ?_⟩ fun u hu => ⟨Table.put_pending_other hfree' _ hu, Table.put_owner_other hfree' _ hu,
      fun _ _ h => h,
      fun k => hauthor k u hu⟩, ⟨⟨?_, fun k hk => ?_, fun k => ?_, hcarries.recorded drawn⟩, ?_⟩⟩
  · have hk : k ≠ (subs t).id := by
      rintro rfl
      exact absurd (hrows.symm.trans hrow) nofun
    change start.lookup k = some row ∨ ∃ u, Function.update db.author (subs t).id (some t) k = some u ∧ _
    rw [Function.update_of_ne hk]
    exact hinv.origin k row hrow
  · change k ∉ db.rows.rows ∧ Function.update db.author (subs t).id (some t) k = some u
    by_cases hut : u = t
    · subst hut
      have hpending : k ∈ (db.rows.pending u).insert (subs u).id (some (columns.row drawn)) := by
        rw [← Table.put_pending_self hfree']
        exact hk
      rcases (AList.mem_insert _).mp hpending with rfl | hold
      · exact ⟨AList.lookup_eq_none.mp hrows, Function.update_self _ _ _⟩
      · exact absurd hold (hclean.not_pending k)
    · have hpending : k ∈ db.rows.pending u := by
        rw [← Table.put_pending_other hfree' (some (columns.row drawn)) hut]
        exact hk
      rw [hauthor k u hut]
      exact hinv.pending u k hpending
  · change k ∈ db.rows.rows ∨ k ∈ (db.rows.put t (subs t).id (some (columns.row drawn)) hfree').pending u
    change Function.update db.author (subs t).id (some t) k = some u at hk
    by_cases hid' : k = (subs t).id
    · rw [hid', Function.update_self] at hk
      obtain rfl := Option.some.inj hk
      right
      rw [Table.put_pending_self, hid']
      exact (AList.mem_insert _).mpr (.inl rfl)
    · rw [Function.update_of_ne hid'] at hk
      refine (hinv.authored u k hk).imp_right fun hpending => ?_
      have hut : u ≠ t := by
        rintro rfl
        exact hclean.not_pending k hpending
      rw [Table.put_pending_other hfree' _ hut]
      exact hpending
  · by_cases hut : u = t
    · exact hut ▸ hreads
    · exact hinv.reads u k ((hauthor k u hut).mp hk)
  · change ((db.rows.put t (subs t).id _ hfree').pending t).lookup (subs t).id = _
    rw [Table.put_pending_self, AList.lookup_insert]
  · change ((db.rows.put t (subs t).id _ hfree').pending t).lookup k = none
    rw [Table.put_pending_self, AList.lookup_insert_ne hk, hclean.pending]
    rfl
  · change (db.rows.put t (subs t).id _ hfree').owner k = some t ↔ _
    by_cases hk : k = (subs t).id
    · rw [hk]
      exact iff_of_true (Table.put_owner_self hfree' _) rfl
    · rw [Table.put_owner_of_ne hfree' _ hk]
      exact iff_of_false (hclean.owner k) hk
  · exact Function.update_self _ _ _

theorem checkIn_answers : Answers (checkInContract subs reads start before) (checkInServer T)
    (fun t => recording (reads t) (subs t)) fun _ _ _ => True := by
  intro t statement stage db v db' hinv hat hmay _ hanswer
  obtain ⟨drawn, hanswer⟩ := hanswer
  refine ⟨trivial, ?_⟩
  cases statement with
  | setConfig sub =>
      cases stage with
      | idle known =>
          obtain ⟨-, rfl⟩ := Prod.mk.inj (Option.some.inj hanswer)
          exact ⟨keeps_self hinv, .opened known, hat, rfl⟩
      | _ => exact hmay.elim
  | readByClientId id =>
      obtain ⟨rfl, rfl⟩ := Prod.mk.inj (Option.some.inj hanswer)
      cases stage with
      | opened known =>
          obtain rfl : id = (subs t).id := hmay
          obtain ⟨hout, hknown⟩ := hat
          have hget : db.rows.get t (subs t).id = db.rows.rows.lookup (subs t).id :=
            Table.get_eq_rows (hout.1.owner _)
          refine ⟨keeps_self hinv, ?_⟩
          rw [hget]
          cases hrow : db.rows.rows.lookup (subs t).id with
          | none =>
              refine ⟨.missed, hout, .inl ⟨rfl, ?_, rfl⟩⟩
              rw [Option.eq_none_iff_forall_not_mem]
              intro row hmem
              exact absurd (hrow.symm.trans (hknown row hmem)) nofun
          | some row => exact ⟨.found row, ⟨hout, hrow⟩, .inr ⟨row, _, rfl, rfl⟩⟩
      | found row =>
          obtain rfl : id = (subs t).id := hmay
          have hget : db.rows.get t (subs t).id = some row :=
            (Table.get_eq_rows (hat.1.1.owner _)).trans hat.2
          refine ⟨keeps_self hinv, .found row, hat, ?_⟩
          rw [hget]
          exact ⟨_, rfl, rfl⟩
      | _ => exact hmay.elim
  | readStore storeId =>
      cases stage with
      | missed =>
          obtain ⟨-, rfl⟩ := Prod.mk.inj (Option.some.inj hanswer)
          exact ⟨keeps_self hinv, .missed, hat, rfl⟩
      | _ => exact hmay.elim
  | insert columns =>
      cases stage with
      | missed =>
          obtain ⟨hclean, hauthor⟩ := hat
          obtain ⟨hcarries, hreads⟩ : columns.Carries (subs t) ∧ reads t := hmay
          simp only [CheckInDb.answer] at hanswer
          split_ifs at hanswer with hcheck hsome hfree hkey
          · obtain ⟨rfl, rfl⟩ := Prod.mk.inj (Option.some.inj hanswer)
            rw [hcarries.id, Table.get_eq_rows (hclean.owner _)] at hsome
            obtain ⟨row, hrow⟩ := Option.isSome_iff_exists.mp hsome
            exact ⟨keeps_self hinv, .found row, ⟨⟨hclean, hauthor⟩, hrow⟩, .inl ⟨row, rfl, rfl⟩⟩
          · obtain ⟨rfl, hdb⟩ := Prod.mk.inj (Option.some.inj hanswer)
            have habsent : db.rows.get t columns.clientCheckInId = none := by
              simpa using hsome
            obtain ⟨hkeeps, hinserted⟩ :=
              put_inserted drawn hinv hclean hcarries hreads habsent hfree hdb.symm
            exact ⟨hkeeps, .inserted (columns.row drawn), hinserted, .inr ⟨_, _, by rw [hcarries.id], rfl⟩⟩
      | _ => exact hmay.elim

theorem insert_of_refusal {drawn : Drawn} {statement : Statement} {e : DbError}
    (h : CheckInDb.refusal drawn t statement db = some e) : ∃ columns, statement = .insert columns := by
  cases statement with
  | insert columns => exact ⟨columns, rfl⟩
  | _ => cases h

theorem checkIn_refuses : Refuses (checkInContract subs reads start before) (checkInServer T)
    fun t => recording (reads t) (subs t) := by
  refine ⟨fun t statement stage db e hinv hat hmay hrefuse => ?_, fun _ _ h => h, fun _ _ => trivial⟩
  obtain ⟨drawn, hrefuse⟩ := hrefuse
  obtain ⟨columns, rfl⟩ := insert_of_refusal hrefuse
  cases stage with
  | missed => trivial
  | _ => exact hmay.elim

end Obligations
end RetailSegmentation.CheckIns
