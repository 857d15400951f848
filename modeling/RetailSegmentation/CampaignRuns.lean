import RetailSegmentation.CampaignWriters

/-! Every interleaving of the two writers. The committed campaigns are what a legal history makes of the
first ones, one event for each transaction that committed a change. -/

namespace RetailSegmentation.Campaigns

open Program Transactions

section Runs

variable {T : Type}

def bookOf (rows : AList fun _ : ℤ => Campaign) : Book := fun id => rows.lookup id

/-- When `before` had happened no draft had these details, and none was created since. -/
def Checked (start : Book) (details : Details) (before history : List (T × Event)) : Prop :=
  ∃ later, history = before ++ later ∧ (∀ id, play start before id ≠ some ⟨details, .draft⟩) ∧
    ∀ u id details', (u, .created id details') ∉ later

/-- Where a transaction is: outside, having read a status, holding a row, holding the create lock, having
found no duplicate, having written, outlasted by another move, or committed. -/
inductive Stage (T : Type) where
  | idle
  | saw (id : ℤ) (status : Status)
  | held (id : ℤ) (c : Campaign)
  | locked
  | checked (details : Details) (before : List (T × Event))
  | wrote (e : Event)
  | lost (id : ℤ) (status : Status)
  | done (e : Event)

structure Clean (t : T) (db : CampaignDb T) : Prop where
  pending : db.rows.pending t = ∅
  owner : ∀ k, db.rows.owner k ≠ some t

/-- Transaction `t` has changed nothing and holds nothing. -/
structure Outlying (t : T) (db : CampaignDb T) : Prop where
  clean : Clean t db
  lock : db.lock ≠ some t
  event : db.event t = none

def Fresh (t : T) (db : CampaignDb T) : Prop := ∀ e, (t, e) ∉ db.history

/-- Transaction `t` has written the row of event `e`, which is legal as long as it holds that row. -/
structure Wrote (start : Book) (e : Event) (t : T) (db : CampaignDb T) : Prop where
  pending : (db.rows.pending t).lookup e.id = some (e.row (db.rows.rows.lookup e.id))
  others : ∀ k ≠ e.id, (db.rows.pending t).lookup k = none
  owner : ∀ k, db.rows.owner k = some t ↔ k = e.id
  event : db.event t = some e
  legal : e.Legal (bookOf db.rows.rows)
  fresh : Fresh t db
  creates : ∀ id details, e = .created id details →
    db.lock = some t ∧ ∃ before, Checked start details before db.history

/-- What holds of transaction `t` at each stage. -/
def At (start : Book) (t : T) (db : CampaignDb T) : Stage T → Prop
  | .idle => Outlying t db ∧ Fresh t db
  | .saw id status => (Outlying t db ∧ Fresh t db) ∧ Seen start db.history id status
  | .held id c => (db.rows.pending t = ∅ ∧ (∀ k, db.rows.owner k = some t ↔ k = id) ∧ db.event t = none) ∧
      Fresh t db ∧ db.rows.rows.lookup id = some c
  | .locked => (Clean t db ∧ db.lock = some t ∧ db.event t = none) ∧ Fresh t db
  | .checked details before => (Clean t db ∧ db.lock = some t ∧ db.event t = none) ∧ Fresh t db ∧
      Checked start details before db.history
  | .wrote e => Wrote start e t db
  | .lost id status => (Outlying t db ∧ Fresh t db) ∧
      ∃ u target, (u, .moved id status target) ∈ db.history
  | .done e => Outlying t db ∧ (t, e) ∈ db.history

/-- The rows are what a legal history makes of the first ones; each transaction has at most one event in it,
and each creation was checked. -/
structure Consistent (start : Book) (base : List (T × Event)) (db : CampaignDb T) : Prop where
  rows : ∀ id, db.rows.rows.lookup id = play start db.history id
  legal : LegalHistory start db.history
  once : (db.history.map Prod.fst).Nodup
  checked : ∀ earlier t id details later, db.history = earlier ++ (t, .created id details) :: later →
    ∃ before, Checked start details before earlier
  grows : base <+: db.history

/-- What transaction `u` may rely on is left alone. -/
structure Leaves (start : Book) (u : T) (db db' : CampaignDb T) : Prop where
  pending : db'.rows.pending u = db.rows.pending u
  owner : ∀ k, db'.rows.owner k = some u ↔ db.rows.owner k = some u
  rows : ∀ k, db.rows.owner k = some u → db'.rows.rows.lookup k = db.rows.rows.lookup k
  lock : db'.lock = some u ↔ db.lock = some u
  event : db'.event u = db.event u
  fresh : Fresh u db → Fresh u db'
  history : ∃ later, db'.history = db.history ++ later ∧
    (db.lock = some u → ∀ v id details, (v, .created id details) ∉ later)
  seen : ∀ id status, Seen start db.history id status → Seen start db'.history id status

variable {start : Book} {base : List (T × Event)} {t u : T} {db db' : CampaignDb T}

theorem Leaves.of_history (hhistory : db'.history = db.history)
    (hpending : db'.rows.pending u = db.rows.pending u)
    (howner : ∀ k, db'.rows.owner k = some u ↔ db.rows.owner k = some u)
    (hrows : db'.rows.rows = db.rows.rows) (hlock : db'.lock = some u ↔ db.lock = some u)
    (hevent : db'.event u = db.event u) : Leaves start u db db' where
  pending := hpending
  owner := howner
  rows k _ := by rw [hrows]
  lock := hlock
  event := hevent
  fresh h e := by
    rw [hhistory]
    exact h e
  history := ⟨[], by rw [hhistory, List.append_nil], fun _ _ _ _ => List.not_mem_nil⟩
  seen id status h := by
    rw [hhistory]
    exact h

theorem Leaves.refl (u : T) (db : CampaignDb T) : Leaves start u db db :=
  .of_history rfl rfl (fun _ => Iff.rfl) rfl Iff.rfl rfl

theorem Leaves.clean (h : Leaves start u db db') (hclean : Clean u db) : Clean u db' :=
  ⟨h.pending.trans hclean.pending, fun k => (h.owner k).not.mpr (hclean.owner k)⟩

theorem Leaves.outlying (h : Leaves start u db db') (hout : Outlying u db) : Outlying u db' :=
  ⟨h.clean hout.clean, h.lock.not.mpr hout.lock, h.event.trans hout.event⟩

theorem Leaves.mem (h : Leaves start u db db') {entry : T × Event} (hmem : entry ∈ db.history) :
    entry ∈ db'.history := by
  obtain ⟨later, hlater, -⟩ := h.history
  rw [hlater]
  exact List.mem_append_left _ hmem

theorem Leaves.checked (h : Leaves start u db db') (hlock : db.lock = some u) {details : Details}
    {before : List (T × Event)} (hchecked : Checked start details before db.history) :
    Checked start details before db'.history := by
  obtain ⟨later, hlater, hnew⟩ := h.history
  obtain ⟨since, hsince, hnone, hcreated⟩ := hchecked
  refine ⟨since ++ later, by rw [hlater, hsince, List.append_assoc], hnone, fun v id details' hmem => ?_⟩
  rcases List.mem_append.mp hmem with hmem | hmem
  · exact hcreated v id details' hmem
  · exact hnew hlock v id details' hmem

theorem Event.Legal.congr {e : Event} {book book' : Book} (h : e.Legal book)
    (hsame : book' e.id = book e.id) : e.Legal book' := by
  cases e with
  | created id details => exact ⟨hsame.trans h.1, h.2⟩
  | edited id details =>
      obtain ⟨⟨c, hc, hdraft⟩, hordered⟩ := h
      exact ⟨⟨c, hsame.trans hc, hdraft⟩, hordered⟩
  | moved id source target =>
      obtain ⟨⟨c, hc, hsource⟩, hedge⟩ := h
      exact ⟨⟨c, hsame.trans hc, hsource⟩, hedge⟩

theorem At.leaves {stage : Stage T} (hat : At start u db stage) (h : Leaves start u db db') :
    At start u db' stage := by
  cases stage with
  | idle => exact ⟨h.outlying hat.1, h.fresh hat.2⟩
  | saw id status => exact ⟨⟨h.outlying hat.1.1, h.fresh hat.1.2⟩, h.seen id status hat.2⟩
  | held id c =>
      obtain ⟨⟨hpending, howner, hevent⟩, hfresh, hrow⟩ := hat
      refine ⟨⟨h.pending.trans hpending, fun k => (h.owner k).trans (howner k), h.event.trans hevent⟩,
        h.fresh hfresh, ?_⟩
      rw [h.rows id ((howner id).mpr rfl), hrow]
  | locked =>
      obtain ⟨⟨hclean, hlock, hevent⟩, hfresh⟩ := hat
      exact ⟨⟨h.clean hclean, h.lock.mpr hlock, h.event.trans hevent⟩, h.fresh hfresh⟩
  | checked details before =>
      obtain ⟨⟨hclean, hlock, hevent⟩, hfresh, hchecked⟩ := hat
      exact ⟨⟨h.clean hclean, h.lock.mpr hlock, h.event.trans hevent⟩, h.fresh hfresh,
        h.checked hlock hchecked⟩
  | wrote e =>
      have hwrote : Wrote start e u db := hat
      have hrow : db'.rows.rows.lookup e.id = db.rows.rows.lookup e.id :=
        h.rows e.id ((hwrote.owner e.id).mpr rfl)
      refine ⟨?_, ?_, fun k => (h.owner k).trans (hwrote.owner k), h.event.trans hwrote.event,
        hwrote.legal.congr hrow, h.fresh hwrote.fresh, fun id details heq => ?_⟩
      · rw [h.pending, hrow, hwrote.pending]
      · rw [h.pending]
        exact hwrote.others
      · obtain ⟨hlock, before, hchecked⟩ := hwrote.creates id details heq
        exact ⟨h.lock.mpr hlock, before, h.checked hlock hchecked⟩
  | lost id status =>
      obtain ⟨⟨hout, hfresh⟩, v, target, hmem⟩ := hat
      exact ⟨⟨h.outlying hout, h.fresh hfresh⟩, v, target, h.mem hmem⟩
  | done e => exact ⟨h.outlying hat.1, h.mem hat.2⟩

/-! ### Workflow -/

namespace Stage

def after : Stage T → Stage T
  | wrote e => done e
  | stage => stage

def undone : Stage T → Stage T
  | saw id status => saw id status
  | lost id status => lost id status
  | done e => done e
  | _ => idle

end Stage

/-- What a transaction of either writer may do at each stage, and where the answers lead. -/
def writing (T : Type) : Workflow Statement Result DbError (Stage T) where
  may statement stage := match statement, stage with
    | .setConfig _, .idle => True
    | .lockCreate, .idle => True
    | .duplicateDraft _, .locked => True
    | .insert details, .checked details' _ => details = details'
    | .get _, .idle => True
    | .getForUpdate _, .idle => True
    | .updateDraft id _, .saw id' status => id = id' ∧ status = .draft
    | .updateDraft id _, .held id' c => id = id' ∧ c.status = .draft
    | .readStatus _, .idle => True
    | .changeStatus _ id source target, .saw id' status =>
      id = id' ∧ source = status ∧ target ∈ source.transitions
    | .currentDate, .saw _ _ => True
    | .groupCounts _, .saw _ _ => True
    | _, _ => False
  next statement v stage stage' := match statement, v, stage with
    | .setConfig _, _, _ => stage' = .idle
    | .lockCreate, _, _ => stage' = .locked
    | .duplicateDraft details, duplicate, _ =>
      (duplicate = true ∧ stage' = .locked) ∨ duplicate = false ∧ ∃ before, stage' = .checked details before
    | .insert details, (id, c), _ => c = ⟨details, .draft⟩ ∧ stage' = .wrote (.created id details)
    | .get id, c, _ => (c = none ∧ stage' = .idle) ∨ ∃ c', c = some c' ∧ stage' = .saw id c'.status
    | .getForUpdate id, c, _ => (c = none ∧ stage' = .idle) ∨ ∃ c', c = some c' ∧ stage' = .held id c'
    | .updateDraft id details, row, .saw _ _ =>
      (row = none ∧ stage' = .lost id .draft) ∨
        row = some ⟨details, .draft⟩ ∧ stage' = .wrote (.edited id details)
    | .updateDraft id details, row, .held _ _ =>
      row = some ⟨details, .draft⟩ ∧ stage' = .wrote (.edited id details)
    | .readStatus id, found, _ =>
      (found = none ∧ stage' = .idle) ∨ ∃ status ended, found = some (status, ended) ∧ stage' = .saw id status
    | .changeStatus _ id source target, row, _ =>
      (row = none ∧ stage' = .lost id source) ∨
        ∃ c, row = some c ∧ c.status = target ∧ stage' = .wrote (.moved id source target)
    | .currentDate, _, stage => stage' = stage
    | .groupCounts _, _, stage => stage' = stage
    | _, _, _ => False
  fails statement _ _ := match statement with
    | .insert _ => True
    | .updateDraft _ _ => True
    | .changeStatus _ _ _ _ => True
    | _ => False
  aborts := IsAbort
  commits stage := match stage with
    | .wrote _ => True
    | _ => False
  after := Stage.after
  undone := Stage.undone
  losesReplies := False

variable (start base) in
def campaignContract : Contract T (Request Statement) (Reply Result DbError) (CampaignDb T) (Stage T) where
  inv := Consistent start base
  at_ t stage db := At start t db stage
  guar _ _ _ _ _ := True

end Runs

section Obligations

variable {T : Type} [DecidableEq T] {start : Book} {base : List (T × Event)} {t u : T}
  {db db' : CampaignDb T}

omit [DecidableEq T] in
theorem keeps_of_leaves (hinv : Consistent start base db') (hleaves : ∀ u ≠ t, Leaves start u db db') :
    (campaignContract start base).Keeps t db db' :=
  ⟨hinv, fun u hu _ hat => At.leaves hat (hleaves u hu)⟩

omit [DecidableEq T] in
theorem keeps_self (hinv : Consistent start base db) : (campaignContract start base).Keeps t db db :=
  keeps_of_leaves hinv fun u _ => .refl u db

omit [DecidableEq T] in
theorem Consistent.of_same (hinv : Consistent start base db) (hrows : db'.rows.rows = db.rows.rows)
    (hhistory : db'.history = db.history) : Consistent start base db' := by
  refine ⟨fun id => ?_, ?_, ?_, ?_, ?_⟩
  · rw [hrows, hhistory, hinv.rows]
  · rw [hhistory]
    exact hinv.legal
  · rw [hhistory]
    exact hinv.once
  · rw [hhistory]
    exact hinv.checked
  · rw [hhistory]
    exact hinv.grows

/-! ### Rollback and commit -/

theorem rollback_leaves (hu : u ≠ t) (db : CampaignDb T) : Leaves start u db (db.rollback t) :=
  .of_history rfl (Table.rollback_pending_other t hu) (Table.rollback_owner_other t hu) rfl
    (release_other hu db.lock) (Function.update_of_ne hu _ _)

theorem rollback_outlying (t : T) (db : CampaignDb T) : Outlying t (db.rollback t) :=
  ⟨⟨Table.rollback_pending_self t, Table.rollback_owner_self t⟩, release_self t db.lock,
    Function.update_self _ _ _⟩

theorem commit_outlying (t : T) (db : CampaignDb T) : Outlying t (db.commit t) :=
  ⟨⟨Table.commit_pending_self t, Table.commit_owner_self t⟩, release_self t db.lock,
    Function.update_self _ _ _⟩

theorem campaign_rollsBack (vocabulary : Vocabulary) :
    RollsBack (campaignContract start base) (campaignServer T vocabulary) fun _ => writing T := by
  intro t stage db hinv hat
  refine ⟨keeps_of_leaves (hinv.of_same rfl rfl) fun u hu => rollback_leaves hu db, ?_, fun _ _ => trivial⟩
  have hout := rollback_outlying t db
  cases stage with
  | idle => exact ⟨hout, hat.2⟩
  | saw id status => exact ⟨⟨hout, hat.1.2⟩, hat.2⟩
  | held id c => exact ⟨hout, hat.2.1⟩
  | locked => exact ⟨hout, hat.2⟩
  | checked details before => exact ⟨hout, hat.2.1⟩
  | wrote e =>
      have hwrote : Wrote start e t db := hat
      exact ⟨hout, hwrote.fresh⟩
  | lost id status => exact ⟨⟨hout, hat.1.2⟩, hat.2⟩
  | done e => exact ⟨hout, hat.2⟩

theorem Wrote.commit_rows {e : Event} (hwrote : Wrote start e t db) (k : ℤ) :
    (db.commit t).rows.rows.lookup k = e.apply (bookOf db.rows.rows) k := by
  have hget : (db.commit t).rows.rows.lookup k = db.rows.get t k := Table.commit_rows t k
  rw [hget, Table.get]
  by_cases hk : k = e.id
  · subst hk
    rw [hwrote.pending, Event.apply_self]
    rfl
  · rw [hwrote.others k hk, Event.apply_of_ne hk]
    rfl

theorem Wrote.commit_history {e : Event} (hwrote : Wrote start e t db) :
    (db.commit t).history = db.history ++ [(t, e)] := by
  change db.history ++ ((db.event t).map fun e => (t, e)).toList = _
  rw [hwrote.event]
  rfl

theorem Wrote.commit_consistent {e : Event} (hinv : Consistent start base db)
    (hwrote : Wrote start e t db) : Consistent start base (db.commit t) := by
  have hhistory := hwrote.commit_history
  have hbook : bookOf db.rows.rows = play start db.history := funext hinv.rows
  have hlegal : e.Legal (play start db.history) := hbook ▸ hwrote.legal
  refine ⟨fun id => ?_, ?_, ?_, ?_, ?_⟩
  · rw [hwrote.commit_rows, hhistory, play_snoc, hbook]
  · rw [hhistory]
    exact hinv.legal.snoc t hlegal
  · rw [hhistory, List.map_append, List.nodup_append]
    refine ⟨hinv.once, List.nodup_singleton t, fun v hv w hw => ?_⟩
    obtain rfl := List.mem_singleton.mp hw
    rintro rfl
    obtain ⟨⟨u, e'⟩, hmem, rfl⟩ := List.mem_map.mp hv
    exact hwrote.fresh e' hmem
  · rw [hhistory]
    intro earlier u id details later heq
    rcases List.eq_nil_or_concat later with rfl | ⟨later', last, rfl⟩
    · obtain ⟨rfl, hlast⟩ := List.append_inj' heq rfl
      obtain ⟨rfl, rfl⟩ := Prod.mk.inj (List.singleton_inj.mp hlast)
      exact (hwrote.creates id details rfl).2
    · rw [List.concat_eq_append, ← List.cons_append, ← List.append_assoc] at heq
      exact hinv.checked earlier u id details later' (List.append_inj' heq rfl).1
  · rw [hhistory]
    exact hinv.grows.trans (List.prefix_append _ _)

theorem Wrote.commit_leaves {e : Event} (hinv : Consistent start base db) (hwrote : Wrote start e t db)
    (hu : u ≠ t) : Leaves start u db (db.commit t) where
  pending := Table.commit_pending_other t hu
  owner := Table.commit_owner_other t hu
  rows k hk := by
    rw [hwrote.commit_rows, Event.apply_of_ne]
    · rfl
    · rintro rfl
      exact hu (Option.some.inj (hk.symm.trans ((hwrote.owner e.id).mpr rfl)))
  lock := release_other hu db.lock
  event := Function.update_of_ne hu _ _
  fresh hfresh e' hmem := by
    rw [hwrote.commit_history] at hmem
    rcases List.mem_append.mp hmem with hold | hnew
    · exact hfresh e' hold
    · exact hu (Prod.mk.inj (List.mem_singleton.mp hnew)).1
  history := by
    refine ⟨[(t, e)], hwrote.commit_history, fun hlock v id details hmem => ?_⟩
    obtain ⟨-, rfl⟩ := Prod.mk.inj (List.mem_singleton.mp hmem)
    have hmine := (hwrote.creates id details rfl).1
    exact hu (Option.some.inj (hlock.symm.trans hmine))
  seen id status hseen := by
    have hbook : bookOf db.rows.rows = play start db.history := funext hinv.rows
    rw [hwrote.commit_history]
    exact hseen.snoc t (hbook ▸ hwrote.legal)

theorem campaign_commits (vocabulary : Vocabulary) :
    Commits (campaignContract start base) (campaignServer T vocabulary) fun _ => writing T := by
  intro t stage db hinv hat hcommits
  cases stage with
  | wrote e =>
      have hwrote : Wrote start e t db := hat
      refine ⟨keeps_of_leaves (hwrote.commit_consistent hinv) fun u hu => hwrote.commit_leaves hinv hu, ?_,
        fun _ => trivial⟩
      refine ⟨commit_outlying t db, ?_⟩
      change (t, e) ∈ (db.commit t).history
      rw [hwrote.commit_history]
      exact List.mem_append_right _ (List.mem_singleton_self _)
  | _ => exact hcommits.elim

/-! ### Statements -/

theorem CampaignDb.write_eq {e : Event} {c : Campaign} (hwrite : db.write t e c = some db') :
    ∃ hfree : db.rows.Free t e.id, db' = { db with
      rows := db.rows.put t e.id (some c) hfree
      event := Function.update db.event t (some e) } := by
  unfold CampaignDb.write at hwrite
  split_ifs at hwrite with hfree
  exact ⟨hfree, (Option.some.inj hwrite).symm⟩

theorem CampaignDb.update_cases {id : ℤ} {source : Status} {e : Event} {change : Campaign → Campaign}
    {refusal : Option DbError} {v : Option Campaign}
    (hupdate : db.update t id source e change refusal = some (v, db')) :
    (v = none ∧ db' = db ∧ ∀ c, db.rows.get t id = some c → c.status ≠ source) ∨
      ∃ c, db.rows.get t id = some c ∧ c.status = source ∧ db.write t e (change c) = some db' ∧
        refusal = none ∧ v = some (change c) := by
  unfold CampaignDb.update at hupdate
  split at hupdate
  · rename_i hget
    obtain ⟨rfl, rfl⟩ := Prod.mk.inj (Option.some.inj hupdate)
    exact .inl ⟨rfl, rfl, fun c hc => absurd (hget.symm.trans hc) nofun⟩
  · rename_i c hget
    split_ifs at hupdate with hsource hrefusal
    · obtain ⟨after, hwrite, heq⟩ := Option.map_eq_some_iff.mp hupdate
      obtain ⟨rfl, rfl⟩ := Prod.mk.inj heq
      exact .inr ⟨c, hget, hsource, hwrite, hrefusal, rfl⟩
    · obtain ⟨rfl, rfl⟩ := Prod.mk.inj (Option.some.inj hupdate)
      refine .inl ⟨rfl, rfl, fun c' hc' => ?_⟩
      obtain rfl := Option.some.inj (hget.symm.trans hc')
      exact hsource

theorem write_keeps {e : Event} {c : Campaign} (hinv : Consistent start base db)
    (hpending : db.rows.pending t = ∅) (howner : ∀ k, db.rows.owner k = some t → k = e.id)
    (hfresh : Fresh t db) (hlegal : e.Legal (bookOf db.rows.rows))
    (hrow : e.row (db.rows.rows.lookup e.id) = some c)
    (hcreates : ∀ id details, e = .created id details →
      db.lock = some t ∧ ∃ before, Checked start details before db.history)
    (hwrite : db.write t e c = some db') :
    (campaignContract start base).Keeps t db db' ∧ At start t db' (.wrote e) := by
  obtain ⟨hfree, rfl⟩ := CampaignDb.write_eq hwrite
  refine ⟨keeps_of_leaves (hinv.of_same rfl rfl) fun u hu => ?_, ?_⟩
  · exact .of_history rfl (Table.put_pending_other hfree _ hu) (Table.put_owner_other hfree _ hu) rfl Iff.rfl
      (Function.update_of_ne hu _ _)
  · refine ⟨?_, fun k hk => ?_, fun k => ?_, Function.update_self _ _ _, hlegal, hfresh, hcreates⟩
    · change ((db.rows.put t e.id (some c) hfree).pending t).lookup e.id = some (e.row (db.rows.rows.lookup e.id))
      rw [Table.put_pending_self, AList.lookup_insert, hrow]
    · change ((db.rows.put t e.id (some c) hfree).pending t).lookup k = none
      rw [Table.put_pending_self, AList.lookup_insert_ne hk, hpending]
      rfl
    · change (db.rows.put t e.id (some c) hfree).owner k = some t ↔ k = e.id
      by_cases hk : k = e.id
      · rw [hk]
        exact iff_of_true (Table.put_owner_self hfree _) rfl
      · rw [Table.put_owner_of_ne hfree _ hk]
        exact iff_of_false (fun h => hk (howner k h)) hk

/-- An UPDATE outside of any lock writes the row in the status it expects, or was outlasted by a move. -/
theorem update_answers {id : ℤ} {source : Status} {e : Event} {change : Campaign → Campaign}
    {refusal : Option DbError} {v : Option Campaign} (hinv : Consistent start base db)
    (hout : Outlying t db) (hfresh : Fresh t db) (hseen : Seen start db.history id source)
    (hid : e.id = id) (hnot : ∀ id details, e ≠ .created id details)
    (hrow : ∀ c, c.status = source → e.row (some c) = some (change c))
    (hlegal : ∀ c, db.rows.rows.lookup id = some c → c.status = source → refusal = none →
      e.Legal (bookOf db.rows.rows))
    (hupdate : db.update t id source e change refusal = some (v, db')) :
    (campaignContract start base).Keeps t db db' ∧ ((v = none ∧ At start t db' (.lost id source)) ∨
      ∃ c, c.status = source ∧ v = some (change c) ∧ At start t db' (.wrote e)) := by
  have hget : ∀ k, db.rows.get t k = db.rows.rows.lookup k := Table.get_of_empty hout.clean.pending
  rcases CampaignDb.update_cases hupdate with ⟨rfl, rfl, hother⟩ | ⟨c, hc, hstatus, hwrite, hrefusal, rfl⟩
  · refine ⟨keeps_self hinv, .inl ⟨rfl, ⟨hout, hfresh⟩, ?_⟩⟩
    apply hseen.moved
    intro c hc
    apply hother c
    rw [hget, hinv.rows, hc]
  · rw [hget] at hc
    obtain ⟨hkeeps, hwrote⟩ := write_keeps hinv hout.clean.pending
      (fun k hk => absurd hk (hout.clean.owner k)) hfresh (hlegal c hc hstatus hrefusal)
      (by rw [hid, hc, hrow c hstatus]) (fun id details heq => absurd heq (hnot id details)) hwrite
    exact ⟨hkeeps, .inr ⟨c, hstatus, rfl, hwrote⟩⟩

theorem rowRefusal_ordered {vocabulary : Vocabulary} {details : Details}
    (h : CampaignDb.rowRefusal vocabulary details = none) : details.Ordered := by
  unfold CampaignDb.rowRefusal at h
  split_ifs at h with _ hordered
  exact hordered

omit [DecidableEq T] in
theorem insertRefusal_none {vocabulary : Vocabulary} {details : Details}
    (h : db.insertRefusal vocabulary t details = none) : details.Ordered ∧
      db.rows.get t (CampaignDb.nextId (db.rows.view t).keys) = none := by
  unfold CampaignDb.insertRefusal at h
  dsimp only at h
  split_ifs at h with hrange hsome
  · split at h <;> cases h
  · split at h
    · cases h
    · cases h
    · rename_i hrow
      exact ⟨rowRefusal_ordered hrow, by simpa using hsome⟩

theorem insert_answers {vocabulary : Vocabulary} {outside : Outside} {details : Details}
    {before : List (T × Event)} {v : ℤ × Campaign} (hinv : Consistent start base db)
    (hat : At start t db (.checked details before))
    (hanswer : CampaignDb.answer vocabulary outside t (.insert details) db = some (v, db')) :
    (campaignContract start base).Keeps t db db' ∧ v.2 = ⟨details, .draft⟩ ∧
      At start t db' (.wrote (.created v.1 details)) := by
  simp only [CampaignDb.answer] at hanswer
  split_ifs at hanswer with hrefusal
  obtain ⟨after, hwrite, heq⟩ := Option.map_eq_some_iff.mp hanswer
  obtain ⟨rfl, rfl⟩ := Prod.mk.inj heq
  obtain ⟨⟨hclean, hlock, -⟩, hfresh, hchecked⟩ := hat
  obtain ⟨hordered, habsent⟩ := insertRefusal_none hrefusal
  rw [Table.get_of_empty hclean.pending] at habsent
  have hlegal : (Event.created (CampaignDb.nextId (db.rows.view t).keys) details).Legal
      (bookOf db.rows.rows) := ⟨habsent, hordered⟩
  obtain ⟨hkeeps, hwrote⟩ := write_keeps hinv hclean.pending (fun k hk => absurd hk (hclean.owner k)) hfresh
    hlegal rfl (fun id details' heq => by
      injection heq with _ hsame
      exact hsame ▸ ⟨hlock, before, hchecked⟩) hwrite
  exact ⟨hkeeps, rfl, hwrote⟩

theorem updateDraft_answers {vocabulary : Vocabulary} {outside : Outside} {id : ℤ} {details : Details}
    {stage : Stage T} {v : Option Campaign} (hinv : Consistent start base db) (hat : At start t db stage)
    (hmay : (writing T).may (.updateDraft id details) stage)
    (hanswer : CampaignDb.answer vocabulary outside t (.updateDraft id details) db = some (v, db')) :
    (campaignContract start base).Keeps t db db' ∧ ∃ stage', At start t db' stage' ∧
      (writing T).next (.updateDraft id details) v stage stage' := by
  have hrow : ∀ c : Campaign, c.status = .draft →
      (Event.edited id details).row (some c) = some { c with details } := fun _ _ => rfl
  have hwritten : ∀ c : Campaign, c.status = .draft → ({ c with details } : Campaign) = ⟨details, .draft⟩ := by
    rintro ⟨_, _⟩ rfl
    rfl
  cases stage with
  | saw id' status =>
      obtain ⟨rfl, rfl⟩ : id = id' ∧ status = .draft := hmay
      obtain ⟨⟨hout, hfresh⟩, hseen⟩ := hat
      obtain ⟨hkeeps, ⟨rfl, hlost⟩ | ⟨c, hstatus, rfl, hwrote⟩⟩ := update_answers hinv hout hfresh hseen
        (e := .edited id details) rfl (fun _ _ => nofun) hrow
        (fun c hc hdraft hrefusal => ⟨⟨c, hc, hdraft⟩, rowRefusal_ordered hrefusal⟩) hanswer
      · exact ⟨hkeeps, .lost id .draft, hlost, .inl ⟨rfl, rfl⟩⟩
      · exact ⟨hkeeps, .wrote (.edited id details), hwrote, .inr ⟨by rw [hwritten c hstatus], rfl⟩⟩
  | held id' c =>
      obtain ⟨rfl, hdraft⟩ : id = id' ∧ c.status = .draft := hmay
      obtain ⟨⟨hpending, howner, -⟩, hfresh, hc⟩ := hat
      have hget : db.rows.get t id = some c := (Table.get_of_empty hpending id).trans hc
      rcases CampaignDb.update_cases hanswer with ⟨-, -, hother⟩ | ⟨c', hc', -, hwrite, hrefusal, rfl⟩
      · exact absurd hdraft (hother c hget)
      · obtain rfl := Option.some.inj (hget.symm.trans hc')
        have hlegal : (Event.edited id details).Legal (bookOf db.rows.rows) :=
          ⟨⟨c, hc, hdraft⟩, rowRefusal_ordered hrefusal⟩
        have hedited : (Event.edited id details).row (db.rows.rows.lookup id) = some { c with details } := by
          rw [hc]
          rfl
        have honly : ∀ k, db.rows.owner k = some t → k = (Event.edited id details).id :=
          fun k hk => (howner k).mp hk
        obtain ⟨hkeeps, hwrote⟩ := write_keeps hinv hpending honly hfresh hlegal
          hedited (fun _ _ => nofun) hwrite
        exact ⟨hkeeps, .wrote (.edited id details), hwrote, by rw [hwritten c hdraft], rfl⟩
  | _ => exact hmay.elim

theorem changeStatus_answers {vocabulary : Vocabulary} {outside : Outside} {writer : Writer} {id : ℤ}
    {source target : Status} {stage : Stage T} {v : Option Campaign} (hinv : Consistent start base db)
    (hat : At start t db stage) (hmay : (writing T).may (.changeStatus writer id source target) stage)
    (hanswer : CampaignDb.answer vocabulary outside t (.changeStatus writer id source target) db =
      some (v, db')) : (campaignContract start base).Keeps t db db' ∧ ∃ stage', At start t db' stage' ∧
      (writing T).next (.changeStatus writer id source target) v stage stage' := by
  cases stage with
  | saw id' status =>
      obtain ⟨rfl, rfl, hedge⟩ : id = id' ∧ source = status ∧ target ∈ source.transitions := hmay
      obtain ⟨⟨hout, hfresh⟩, hseen⟩ := hat
      obtain ⟨hkeeps, ⟨rfl, hlost⟩ | ⟨c, -, rfl, hwrote⟩⟩ := update_answers hinv hout hfresh hseen
        (e := .moved id source target) rfl (fun _ _ => nofun) (fun _ _ => rfl)
        (fun c hc hstatus _ => ⟨⟨c, hc, hstatus⟩, hedge⟩) hanswer
      · exact ⟨hkeeps, .lost id source, hlost, .inl ⟨rfl, rfl⟩⟩
      · exact ⟨hkeeps, .wrote (.moved id source target), hwrote, .inr ⟨_, rfl, rfl, rfl⟩⟩
  | _ => exact hmay.elim

omit [DecidableEq T] in
theorem saw_of_get {id : ℤ} {c : Campaign} (hinv : Consistent start base db) (hout : Outlying t db)
    (hfresh : Fresh t db) (hget : db.rows.get t id = some c) : At start t db (.saw id c.status) := by
  rw [Table.get_of_empty hout.clean.pending, hinv.rows] at hget
  exact ⟨⟨hout, hfresh⟩, .inl ⟨c, hget, rfl⟩⟩

theorem campaign_answers (vocabulary : Vocabulary) :
    Answers (campaignContract start base) (campaignServer T vocabulary) (fun _ => writing T)
      fun _ _ _ => True := by
  intro t statement stage db v db' hinv hat hmay _ hanswer
  obtain ⟨outside, hanswer⟩ := hanswer
  refine ⟨trivial, ?_⟩
  cases statement with
  | setConfig sub =>
      cases stage with
      | idle =>
          obtain ⟨-, rfl⟩ := Prod.mk.inj (Option.some.inj hanswer)
          exact ⟨keeps_self hinv, .idle, hat, rfl⟩
      | _ => exact hmay.elim
  | lockCreate =>
      cases stage with
      | idle =>
          simp only [CampaignDb.answer] at hanswer
          split_ifs at hanswer with hfree
          obtain ⟨-, rfl⟩ := Prod.mk.inj (Option.some.inj hanswer)
          obtain ⟨hout, hfresh⟩ := hat
          refine ⟨keeps_of_leaves (hinv.of_same rfl rfl) fun u hu => ?_, .locked,
            ⟨⟨⟨hout.clean.pending, hout.clean.owner⟩, rfl, hout.event⟩, hfresh⟩, rfl⟩
          refine .of_history rfl rfl (fun _ => Iff.rfl) rfl ?_ rfl
          refine iff_of_false (fun h => hu (Option.some.inj h).symm) ?_
          rcases hfree with h | h <;> rw [h]
          · exact fun h' => Option.some_ne_none u h'.symm
          · exact fun h' => hu (Option.some.inj h').symm
      | _ => exact hmay.elim
  | duplicateDraft details =>
      cases stage with
      | locked =>
          obtain ⟨hv, rfl⟩ := Prod.mk.inj (Option.some.inj hanswer)
          obtain ⟨⟨hclean, hlock, hevent⟩, hfresh⟩ := hat
          cases v with
          | true => exact ⟨keeps_self hinv, .locked, ⟨⟨hclean, hlock, hevent⟩, hfresh⟩, .inl ⟨rfl, rfl⟩⟩
          | false =>
              refine ⟨keeps_self hinv, .checked details db.history, ⟨⟨hclean, hlock, hevent⟩, hfresh, [],
                (List.append_nil _).symm, fun id hid => ?_, fun _ _ _ => List.not_mem_nil⟩,
                .inr ⟨rfl, _, rfl⟩⟩
              rw [Table.view_of_empty hclean.pending] at hv
              rw [← hinv.rows] at hid
              have hmem : ⟨id, ⟨details, .draft⟩⟩ ∈ db.rows.rows.entries := AList.mem_lookup_iff.mp hid
              exact absurd (List.any_eq_false.mp hv _ hmem) (by simp)
      | _ => exact hmay.elim
  | insert details =>
      cases stage with
      | checked details' before =>
          obtain rfl : details = details' := hmay
          obtain ⟨hkeeps, hrow, hwrote⟩ := insert_answers hinv hat hanswer
          exact ⟨hkeeps, .wrote (.created v.1 details), hwrote, hrow, rfl⟩
      | _ => exact hmay.elim
  | get id =>
      cases stage with
      | idle =>
          obtain ⟨rfl, rfl⟩ := Prod.mk.inj (Option.some.inj hanswer)
          refine ⟨keeps_self hinv, ?_⟩
          cases hget : db.rows.get t id with
          | none => exact ⟨.idle, hat, .inl ⟨rfl, rfl⟩⟩
          | some c => exact ⟨.saw id c.status, saw_of_get hinv hat.1 hat.2 hget, .inr ⟨c, rfl, rfl⟩⟩
      | _ => exact hmay.elim
  | getForUpdate id =>
      cases stage with
      | idle =>
          obtain ⟨hout, hfresh⟩ := hat
          simp only [CampaignDb.answer] at hanswer
          split at hanswer
          · obtain ⟨rfl, rfl⟩ := Prod.mk.inj (Option.some.inj hanswer)
            exact ⟨keeps_self hinv, .idle, ⟨hout, hfresh⟩, .inl ⟨rfl, rfl⟩⟩
          · rename_i c hget
            split_ifs at hanswer with hfree
            obtain ⟨rfl, rfl⟩ := Prod.mk.inj (Option.some.inj hanswer)
            rw [Table.get_of_empty hout.clean.pending] at hget
            refine ⟨keeps_of_leaves (hinv.of_same rfl rfl) fun u hu => ?_, .held id c,
              ⟨⟨hout.clean.pending, fun k => ?_, hout.event⟩, hfresh, hget⟩, .inr ⟨c, rfl, rfl⟩⟩
            · exact .of_history rfl rfl (Table.lock_owner_other hfree hu) rfl Iff.rfl rfl
            · change (db.rows.lock t id hfree).owner k = some t ↔ k = id
              by_cases hk : k = id
              · rw [hk]
                exact iff_of_true (Table.lock_owner_self hfree) rfl
              · rw [Table.lock_owner_of_ne hfree hk]
                exact iff_of_false (hout.clean.owner k) hk
      | _ => exact hmay.elim
  | updateDraft id details => exact updateDraft_answers hinv hat hmay hanswer
  | readStatus id =>
      cases stage with
      | idle =>
          obtain ⟨rfl, rfl⟩ := Prod.mk.inj (Option.some.inj hanswer)
          refine ⟨keeps_self hinv, ?_⟩
          cases hget : db.rows.get t id with
          | none => exact ⟨.idle, hat, .inl ⟨rfl, rfl⟩⟩
          | some c => exact ⟨.saw id c.status, saw_of_get hinv hat.1 hat.2 hget, .inr ⟨_, _, rfl, rfl⟩⟩
      | _ => exact hmay.elim
  | changeStatus writer id source target => exact changeStatus_answers hinv hat hmay hanswer
  | currentDate =>
      cases stage with
      | saw id status =>
          obtain ⟨-, rfl⟩ := Prod.mk.inj (Option.some.inj hanswer)
          exact ⟨keeps_self hinv, .saw id status, hat, rfl⟩
      | _ => exact hmay.elim
  | groupCounts id' =>
      cases stage with
      | saw id status =>
          obtain ⟨-, rfl⟩ := Prod.mk.inj (Option.some.inj hanswer)
          exact ⟨keeps_self hinv, .saw id status, hat, rfl⟩
      | _ => exact hmay.elim

theorem campaign_refuses (vocabulary : Vocabulary) :
    Refuses (campaignContract start base) (campaignServer T vocabulary) fun _ => writing T := by
  refine ⟨fun t statement stage db e hinv hat hmay hrefuse => ?_, fun _ _ h => h, fun _ h => h.elim⟩
  obtain ⟨outside, hrefuse⟩ := hrefuse
  cases statement with
  | insert details => trivial
  | updateDraft id details => trivial
  | changeStatus writer id source target => trivial
  | _ => cases hrefuse

end Obligations

end RetailSegmentation.Campaigns
