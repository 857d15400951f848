import Mathlib.Logic.Relation
import RetailSegmentation.UsersService

/-! Every interleaving of the transactions of users-service: the seat is held by one active user in every
committed state, and no transactions wait for each other's rows in a circle. -/

namespace RetailSegmentation.Users.Service

open Program Transactions

/-! ### Stages -/

/-- How far a transaction has come: it has locked nothing, one row, or the ADMIN row and a successor's, has
moved the seat away from the incumbent, or has written what it may commit. -/
inductive Stage where
  | idle
  | held (id : UserId) (user : User)
  | both (x y : UserId) (user : User)
  | moved (y : UserId)
  | wrote (id : UserId) (user : User)

section Runs

variable {T : Type}

/-- Transaction `t` has locked row `id`, and written nothing yet. -/
structure Locked (t : T) (db : UserDb T) (id : UserId) (user : User) : Prop where
  pending : db.users.pending t = ∅
  owner : db.users.owner id = some t
  row : db.users.rows.lookup id = some user

/-- What holds of transaction `t` at each stage. -/
def At (t : T) (db : UserDb T) : Stage → Prop
  | .idle => db.users.pending t = ∅ ∧ ∀ k, db.users.owner k ≠ some t
  | .held id user => Locked t db id user
  | .both x y user => (∃ admin, Locked t db x admin ∧ admin.roleId = adminRoleId) ∧ Locked t db y user
  | .moved y => (∃ seat, Seat.At db.users t seat) ∧ db.users.owner y = some t ∧
      ∃ user, db.users.get t y = some user ∧ user.isActive = true
  | .wrote id user => (∃ seat, seat ≠ .vacant ∧ Seat.At db.users t seat) ∧ db.users.owner id = some t ∧
      db.users.get t id = some user

/-- What a transaction may do at each stage, and where the answers lead. -/
def working (setting : Setting) : Workflow Statement Result DbError Stage where
  may s stage := match s, stage with
    | .setConfig _, .idle => True
    | .roleId _, _ => True
    | .getUser _, _ => True
    | .administrator, .idle => True
    | .lockUser _ _, .idle => True
    | .lockUser _ _, .held _ user => user.roleId = adminRoleId
    | .lockAdministrator _, .idle => True
    | .administratorCount, .held _ _ => True
    | .administratorCount, .wrote _ _ => True
    | .insertUser roleId _ _ _, .idle => roleId ≠ adminRoleId
    | .updateNameAndEmail id _ _, .held id' _ => id = id'
    | .updateRole id roleId, .wrote id' user =>
      id = id' ∧ user.roleId ≠ adminRoleId ∧ roleId ≠ adminRoleId
    | .updateRole id roleId, .both x _ user => id = x ∧ roleId = user.roleId ∧ user.isActive = true
    | .updateRole id roleId, .moved y => id = y ∧ roleId = adminRoleId
    | .updateActive id isActive, .held id' user =>
      id = id' ∧ (isActive = false → user.roleId ≠ adminRoleId)
    | .updatePasswordHash id _, .held id' _ => id = id'
    | _, _ => False
  next s v stage stage' := match s, v, stage with
    | .roleId code, v, _ => v = setting.roles.idOf code ∧ stage' = stage
    | .lockUser id _, v, .idle =>
      v = none ∨ ∃ user shown, v = some shown ∧ appUser setting id user = some shown ∧ stage' = .held id user
    | .lockUser id _, v, .held x _ =>
      v = none ∨ ∃ user shown, v = some shown ∧ appUser setting id user = some shown ∧ stage' = .both x id user
    | .lockAdministrator id, v, _ =>
      v = none ∨ ∃ user, v = some id ∧ user.roleId = adminRoleId ∧ stage' = .held id user
    | .administratorCount, n, _ => n = 1 ∧ stage' = stage
    | .insertUser roleId name email passwordHash, id, _ =>
      stage' = .wrote id ⟨roleId, name, email, passwordHash, true⟩
    | .updateNameAndEmail id name email, _, .held _ user => stage' = .wrote id { user with name, email }
    | .updateRole id roleId, _, .wrote _ user => stage' = .wrote id { user with roleId }
    | .updateRole _ _, _, .both _ y _ => stage' = .moved y
    | .updateRole _ _, _, .moved y => ∃ user, stage' = .wrote y user
    | .updateActive id isActive, _, .held _ user => stage' = .wrote id { user with isActive }
    | .updatePasswordHash id passwordHash, _, .held _ user => stage' = .wrote id { user with passwordHash }
    | _, _, _ => stage' = stage
  fails _ _ _ := True
  aborts := IsAbort
  commits stage := match stage with
    | .both _ _ _ => False
    | .moved _ => False
    | _ => True
  after _ := .idle
  undone _ := .idle
  losesReplies := True

def serviceContract (T : Type) : Contract T (Request Statement) (Reply Result DbError) (UserDb T) Stage where
  inv db := OneAdmin db.users.rows.lookup
  at_ t stage db := At t db stage
  guar _ _ _ _ _ := True

variable {setting : Setting} {t u : T} {db db' : UserDb T}

theorem Locked.leaves {id : UserId} {user : User} (hlocked : Locked u db id user) (h : Leaves u db db') :
    Locked u db' id user :=
  ⟨h.pending.trans hlocked.pending, (h.owner id).mpr hlocked.owner, (h.rows id hlocked.owner).trans hlocked.row⟩

theorem At.leaves {stage : Stage} (hat : At u db stage) (h : Leaves u db db') : At u db' stage := by
  cases stage with
  | idle => exact ⟨h.pending.trans hat.1, fun k => (h.owner k).not.mpr (hat.2 k)⟩
  | held id user => exact Locked.leaves hat h
  | both x y user =>
      obtain ⟨⟨admin, hx, hrole⟩, hy⟩ := hat
      exact ⟨⟨admin, hx.leaves h, hrole⟩, hy.leaves h⟩
  | moved y =>
      obtain ⟨⟨seat, hseat⟩, howner, user, hget, hactive⟩ := hat
      exact ⟨⟨seat, h.seat hseat⟩, (h.owner y).mpr howner, user, (h.get howner).trans hget, hactive⟩
  | wrote id user =>
      obtain ⟨⟨seat, hne, hseat⟩, howner, hget⟩ := hat
      exact ⟨⟨seat, hne, h.seat hseat⟩, (h.owner id).mpr howner, (h.get howner).trans hget⟩

theorem keeps_of_leaves (hinv : OneAdmin db'.users.rows.lookup) (hleaves : ∀ u ≠ t, Leaves u db db') :
    (serviceContract T).Keeps t db db' :=
  ⟨hinv, fun u hu _ hat => At.leaves hat (hleaves u hu)⟩

theorem keeps_self (hinv : OneAdmin db.users.rows.lookup) : (serviceContract T).Keeps t db db :=
  keeps_of_leaves hinv fun u _ => .refl u db

end Runs

section Obligations

variable {T : Type} [DecidableEq T] {setting : Setting} {t u : T} {db db' : UserDb T}

/-! ### Rollback and commit -/

theorem service_rollsBack (setting : Setting) :
    RollsBack (serviceContract T) (userServer T setting) fun _ => working setting := by
  intro t stage db hinv hat
  exact ⟨keeps_of_leaves hinv fun u hu => leaves_rollback hu db,
    ⟨Table.rollback_pending_self t, Table.rollback_owner_self t⟩, fun _ _ => trivial⟩

omit [DecidableEq T] in
theorem At.view {stage : Stage} (hinv : OneAdmin db.users.rows.lookup) (hat : At t db stage)
    (hcommits : (working setting).commits stage) : OneAdmin (db.users.get t) := by
  cases stage with
  | idle => rwa [funext (Table.get_of_empty hat.1)]
  | held id user =>
      have hlocked : Locked t db id user := hat
      rwa [funext (Table.get_of_empty hlocked.pending)]
  | both x y user => exact hcommits.elim
  | moved y => exact hcommits.elim
  | wrote id user =>
      obtain ⟨⟨seat, hne, hseat⟩, -⟩ := hat
      exact hseat.view hinv hne

theorem service_commits (setting : Setting) :
    Commits (serviceContract T) (userServer T setting) fun _ => working setting := by
  intro t stage db hinv hat hcommits
  have hview := At.view hinv hat hcommits
  rw [← commit_lookup] at hview
  exact ⟨keeps_of_leaves hview fun u hu => leaves_commit hu db,
    ⟨Table.commit_pending_self t, Table.commit_owner_self t⟩, fun _ => trivial⟩

/-! ### Statements -/

omit [DecidableEq T] in
theorem count_eq_one (hview : OneAdmin (db.users.get t)) :
    ((db.users.view t).entries.filter fun e => e.2.roleId = adminRoleId).length = 1 := by
  obtain ⟨id, hseat⟩ := hview
  rw [← funext (Table.lookup_view t)] at hseat
  exact hseat.count (p := fun user => user.roleId = adminRoleId) fun user => decide_eq_true_iff

theorem wrote_of_write {seat : Seat} {id : UserId} {user : User} (hinv : OneAdmin db.users.rows.lookup)
    (hat : Seat.At db.users t seat) (hwrite : db.write setting t id user = .ok db')
    (hactive : user.roleId = adminRoleId → user.isActive = true)
    (hplain : user.roleId ≠ adminRoleId → seat ≠ .vacant ∧
      ∀ old, db.users.get t id = some old → old.roleId ≠ adminRoleId) :
    (serviceContract T).Keeps t db db' ∧ At t db' (.wrote id user) := by
  obtain ⟨hfree, hdb, hothers⟩ := write_ok hwrite
  have hinv' : OneAdmin db'.users.rows.lookup := by
    rw [hdb]
    exact hinv
  refine ⟨keeps_of_leaves hinv' fun u hu => leaves_put hu hfree hdb, ?_, ?_, ?_⟩
  · rw [hdb]
    by_cases hrole : user.roleId = adminRoleId
    · exact ⟨.held, by decide, Seat.held_put hfree hinv hrole (hactive hrole) (hothers hrole)⟩
    · obtain ⟨hne, hold⟩ := hplain hrole
      exact ⟨seat, hne, hat.put_plain hfree hrole hold⟩
  · rw [hdb, Table.put_owner_self]
  · rw [hdb, Table.put_get_self]

theorem Locked.update {id : UserId} {user : User} {change : User → User} (hlocked : Locked t db id user)
    (hupdate : db.update setting t id change = .ok db') : db.write setting t id (change user) = .ok db' := by
  have hget : db.users.get t id = some user := (Table.get_of_empty hlocked.pending id).trans hlocked.row
  rcases update_ok hupdate with ⟨hnone, -⟩ | ⟨old, hold, hwrite⟩
  · cases hnone.symm.trans hget
  · rwa [Option.some.inj (hget.symm.trans hold)]

theorem wrote_of_locked {id : UserId} {user : User} {change : User → User}
    (hinv : OneAdmin db.users.rows.lookup) (hlocked : Locked t db id user)
    (hupdate : db.update setting t id change = .ok db') (hrole : (change user).roleId = user.roleId)
    (hactive : user.roleId = adminRoleId → user.isActive = true → (change user).isActive = true) :
    (serviceContract T).Keeps t db db' ∧ At t db' (.wrote id (change user)) := by
  have hquiet : Seat.At db.users t .quiet := Seat.at_empty hlocked.pending
  have hget : db.users.get t id = some user := (Table.get_of_empty hlocked.pending id).trans hlocked.row
  refine wrote_of_write hinv hquiet (hlocked.update hupdate) (fun hadmin => ?_) fun hplain => ?_
  · rw [hrole] at hadmin
    exact hactive hadmin (hquiet.active hinv hget hadmin)
  · refine ⟨by decide, fun old hold => ?_⟩
    rw [← Option.some.inj (hget.symm.trans hold), ← hrole]
    exact hplain

omit [DecidableEq T] in
theorem locked_of_lock {id : UserId} {user : User} (hpending : db.users.pending t = ∅)
    (hget : db.users.get t id = some user) (hfree : db.users.Free t id) :
    Locked t { db with users := db.users.lock t id hfree } id user :=
  ⟨hpending, Table.lock_owner_self hfree, (Table.get_of_empty hpending id).symm.trans hget⟩

omit [DecidableEq T] in
theorem Locked.lock {x id : UserId} {user : User} (hlocked : Locked t db x user) (hfree : db.users.Free t id) :
    Locked t { db with users := db.users.lock t id hfree } x user := by
  refine ⟨hlocked.pending, ?_, hlocked.row⟩
  change (db.users.lock t id hfree).owner x = some t
  by_cases hx : x = id
  · rw [hx, Table.lock_owner_self]
  · rw [Table.lock_owner_of_ne hfree hx, hlocked.owner]

theorem updateRole_answers {id : UserId} {roleId : ℤ} {stage : Stage} (hinv : OneAdmin db.users.rows.lookup)
    (hat : At t db stage) (hmay : (working setting).may (.updateRole id roleId) stage)
    (hupdate : (db.update setting t id fun user => { user with roleId }) = .ok db') :
    (serviceContract T).Keeps t db db' ∧ ∃ stage', At t db' stage' ∧
      (working setting).next (.updateRole id roleId) () stage stage' := by
  cases stage with
  | wrote id' user =>
      obtain ⟨rfl, hplain, hrole⟩ : id = id' ∧ user.roleId ≠ adminRoleId ∧ roleId ≠ adminRoleId := hmay
      obtain ⟨⟨seat, hne, hseat⟩, -, hget⟩ := hat
      rcases update_ok hupdate with ⟨hnone, -⟩ | ⟨old, hold, hwrite⟩
      · cases hnone.symm.trans hget
      obtain rfl := Option.some.inj (hget.symm.trans hold)
      obtain ⟨hkeeps, hwrote⟩ := wrote_of_write hinv hseat hwrite (fun h => absurd h hrole) fun _ =>
        ⟨hne, fun old hold => by rwa [← Option.some.inj (hget.symm.trans hold)]⟩
      exact ⟨hkeeps, _, hwrote, rfl⟩
  | both x y user =>
      obtain ⟨rfl, rfl, hactive⟩ : id = x ∧ roleId = user.roleId ∧ user.isActive = true := hmay
      obtain ⟨⟨admin, hx, hadmin⟩, hy⟩ := hat
      have hquiet : Seat.At db.users t .quiet := Seat.at_empty hx.pending
      have hgetx : db.users.get t id = some admin := (Table.get_of_empty hx.pending id).trans hx.row
      obtain ⟨hfree, hdb, hothers⟩ := write_ok (hx.update hupdate)
      have hinv' : OneAdmin db'.users.rows.lookup := by
        rw [hdb]
        exact hinv
      refine ⟨keeps_of_leaves hinv' fun u hu => leaves_put hu hfree hdb, .moved y, ⟨?_, ?_, ?_⟩, rfl⟩
      · rw [hdb]
        by_cases hrole : user.roleId = adminRoleId
        · have hstays : admin.isActive = true := hquiet.active hinv hgetx hadmin
          exact ⟨.held, Seat.held_put hfree hinv hrole hstays (hothers hrole)⟩
        · exact ⟨.vacant, hquiet.put_demoted hfree hinv hgetx hadmin hrole⟩
      · rw [hdb]
        by_cases hxy : y = id
        · rw [hxy, Table.put_owner_self]
        · rw [Table.put_owner_of_ne hfree _ hxy, hy.owner]
      · rw [hdb]
        by_cases hxy : y = id
        · subst hxy
          obtain rfl := Option.some.inj (hx.row.symm.trans hy.row)
          exact ⟨_, Table.put_get_self hfree _, hactive⟩
        · refine ⟨user, ?_, hactive⟩
          rw [Table.put_get_of_ne hfree _ hxy, Table.get_of_empty hy.pending, hy.row]
  | moved y =>
      obtain ⟨rfl, rfl⟩ : id = y ∧ roleId = adminRoleId := hmay
      obtain ⟨⟨seat, hseat⟩, -, user, hget, hactive⟩ := hat
      rcases update_ok hupdate with ⟨hnone, -⟩ | ⟨old, hold, hwrite⟩
      · cases hnone.symm.trans hget
      obtain rfl := Option.some.inj (hget.symm.trans hold)
      obtain ⟨hkeeps, hwrote⟩ := wrote_of_write hinv hseat hwrite (fun _ => hactive) fun h => absurd rfl h
      exact ⟨hkeeps, _, hwrote, _, rfl⟩
  | _ => exact hmay.elim

theorem lockUser_answers {id : UserId} {roleId : ℤ} {stage : Stage} {drawn : UserId} {v : Option AppUser}
    (hinv : OneAdmin db.users.rows.lookup) (hat : At t db stage)
    (hmay : (working setting).may (.lockUser id roleId) stage)
    (hanswer : UserDb.answer setting drawn t (.lockUser id roleId) db = some (v, db')) :
    (serviceContract T).Keeps t db db' ∧ ∃ stage', At t db' stage' ∧
      (working setting).next (.lockUser id roleId) v stage stage' := by
  simp only [UserDb.answer] at hanswer
  split at hanswer
  · obtain ⟨rfl, rfl⟩ := Prod.mk.inj (Option.some.inj hanswer)
    refine ⟨keeps_self hinv, stage, hat, ?_⟩
    cases stage with
    | idle => exact .inl rfl
    | held x admin => exact .inl rfl
    | _ => exact hmay.elim
  · rename_i user hget
    split_ifs at hanswer with hfree hrole
    · obtain ⟨rfl, rfl⟩ := Prod.mk.inj (Option.some.inj hanswer)
      refine ⟨keeps_of_leaves hinv fun u hu => leaves_lock hu hfree, ?_⟩
      cases stage with
      | idle =>
          refine ⟨.held id user, locked_of_lock hat.1 hget hfree, ?_⟩
          cases hshown : appUser setting id user with
          | none => exact .inl rfl
          | some shown => exact .inr ⟨user, shown, rfl, hshown, rfl⟩
      | held x admin =>
          have hlocked : Locked t db x admin := hat
          refine ⟨.both x id user, ⟨⟨admin, hlocked.lock hfree, hmay⟩,
            locked_of_lock hlocked.pending hget hfree⟩, ?_⟩
          cases hshown : appUser setting id user with
          | none => exact .inl rfl
          | some shown => exact .inr ⟨user, shown, rfl, hshown, rfl⟩
      | _ => exact hmay.elim
    · obtain ⟨rfl, rfl⟩ := Prod.mk.inj (Option.some.inj hanswer)
      refine ⟨keeps_of_leaves hinv fun u hu => leaves_lock hu hfree, ?_⟩
      cases stage with
      | idle => exact ⟨.held id user, locked_of_lock hat.1 hget hfree, .inl rfl⟩
      | held x admin =>
          have hlocked : Locked t db x admin := hat
          exact ⟨.both x id user, ⟨⟨admin, hlocked.lock hfree, hmay⟩,
            locked_of_lock hlocked.pending hget hfree⟩, .inl rfl⟩
      | _ => exact hmay.elim

theorem lockAdministrator_answers {id : UserId} {stage : Stage} {drawn : UserId} {v : Option UserId}
    (hinv : OneAdmin db.users.rows.lookup) (hat : At t db stage)
    (hmay : (working setting).may (.lockAdministrator id) stage)
    (hanswer : UserDb.answer setting drawn t (.lockAdministrator id) db = some (v, db')) :
    (serviceContract T).Keeps t db db' ∧ ∃ stage', At t db' stage' ∧
      (working setting).next (.lockAdministrator id) v stage stage' := by
  cases stage with
  | idle =>
      simp only [UserDb.answer] at hanswer
      split at hanswer
      · obtain ⟨rfl, rfl⟩ := Prod.mk.inj (Option.some.inj hanswer)
        exact ⟨keeps_self hinv, .idle, hat, .inl rfl⟩
      · rename_i user hget
        split_ifs at hanswer with hfree hrole
        · obtain ⟨rfl, rfl⟩ := Prod.mk.inj (Option.some.inj hanswer)
          exact ⟨keeps_of_leaves hinv fun u hu => leaves_lock hu hfree, .held id user,
            locked_of_lock hat.1 hget hfree, .inr ⟨user, rfl, hrole, rfl⟩⟩
        · obtain ⟨rfl, rfl⟩ := Prod.mk.inj (Option.some.inj hanswer)
          exact ⟨keeps_of_leaves hinv fun u hu => leaves_lock hu hfree, .held id user,
            locked_of_lock hat.1 hget hfree, .inl rfl⟩
  | _ => exact hmay.elim

theorem service_answers (setting : Setting) :
    Answers (serviceContract T) (userServer T setting) (fun _ => working setting) fun _ _ _ => True := by
  intro t statement stage db v db' hinv hat hmay _ hanswer
  obtain ⟨drawn, hanswer⟩ := hanswer
  refine ⟨trivial, ?_⟩
  cases statement with
  | setConfig sub =>
      cases stage with
      | idle =>
          obtain ⟨-, rfl⟩ := Prod.mk.inj (Option.some.inj hanswer)
          exact ⟨keeps_self hinv, .idle, hat, rfl⟩
      | _ => exact hmay.elim
  | roleId code =>
      obtain ⟨rfl, rfl⟩ := Prod.mk.inj (Option.some.inj hanswer)
      exact ⟨keeps_self hinv, stage, hat, rfl, rfl⟩
  | getUser id =>
      obtain ⟨-, rfl⟩ := Prod.mk.inj (Option.some.inj hanswer)
      exact ⟨keeps_self hinv, stage, hat, by cases stage <;> rfl⟩
  | lockUser id roleId => exact lockUser_answers hinv hat hmay hanswer
  | administratorCount =>
      obtain ⟨rfl, rfl⟩ := Prod.mk.inj (Option.some.inj hanswer)
      refine ⟨keeps_self hinv, stage, hat, ?_, rfl⟩
      cases stage with
      | held id user =>
          have hheld : At t db (.held id user) := hat
          exact count_eq_one (hheld.view hinv (show (working setting).commits _ from trivial))
      | wrote id user =>
          have hwrote : At t db (.wrote id user) := hat
          exact count_eq_one (hwrote.view hinv (show (working setting).commits _ from trivial))
      | _ => exact hmay.elim
  | administrator =>
      cases stage with
      | idle =>
          obtain ⟨-, rfl⟩ := Prod.mk.inj (Option.some.inj hanswer)
          exact ⟨keeps_self hinv, .idle, hat, rfl⟩
      | _ => exact hmay.elim
  | lockAdministrator id => exact lockAdministrator_answers hinv hat hmay hanswer
  | insertUser roleId name email passwordHash =>
      cases stage with
      | idle =>
          obtain ⟨rfl, hinsert⟩ := written_some hanswer
          obtain ⟨hnone, hwrite⟩ := insert_ok hinsert
          obtain ⟨hkeeps, hwrote⟩ := wrote_of_write hinv (Seat.at_empty hat.1) hwrite (fun h => absurd h hmay)
            fun _ => ⟨by decide, fun old hold => by cases hnone.symm.trans hold⟩
          exact ⟨hkeeps, .wrote _ _, hwrote, rfl⟩
      | _ => exact hmay.elim
  | updateNameAndEmail id name email =>
      cases stage with
      | held id' user =>
          obtain rfl : id = id' := hmay
          obtain ⟨-, hupdate⟩ := written_some hanswer
          obtain ⟨hkeeps, hwrote⟩ := wrote_of_locked hinv hat hupdate rfl fun _ h => h
          exact ⟨hkeeps, .wrote _ _, hwrote, rfl⟩
      | _ => exact hmay.elim
  | updateRole id roleId => exact updateRole_answers hinv hat hmay (written_some hanswer).2
  | updateActive id isActive =>
      cases stage with
      | held id' user =>
          obtain ⟨rfl, hplain⟩ : id = id' ∧ (isActive = false → user.roleId ≠ adminRoleId) := hmay
          obtain ⟨-, hupdate⟩ := written_some hanswer
          obtain ⟨hkeeps, hwrote⟩ := wrote_of_locked hinv hat hupdate rfl fun hrole _ => by
            by_contra h
            exact hplain (Bool.eq_false_iff.mpr h) hrole
          exact ⟨hkeeps, .wrote _ _, hwrote, rfl⟩
      | _ => exact hmay.elim
  | updatePasswordHash id passwordHash =>
      cases stage with
      | held id' user =>
          obtain rfl : id = id' := hmay
          obtain ⟨-, hupdate⟩ := written_some hanswer
          obtain ⟨hkeeps, hwrote⟩ := wrote_of_locked hinv hat hupdate rfl fun _ h => h
          exact ⟨hkeeps, .wrote _ _, hwrote, rfl⟩
      | _ => exact hmay.elim
  | _ => exact hmay.elim

theorem service_refuses (setting : Setting) :
    Refuses (serviceContract T) (userServer T setting) fun _ => working setting :=
  ⟨fun _ _ _ _ _ _ _ _ _ => trivial, fun _ _ h => h, fun _ _ => trivial⟩

end Obligations

end RetailSegmentation.Users.Service
