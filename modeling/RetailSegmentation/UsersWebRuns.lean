import RetailSegmentation.UsersWeb

/-! Every interleaving of user administration in the web application. The seat stays with one active user
as long as no check has gone stale when its write finds the row: a role or an activity changed by a check of
a user that was not ADMIN finds a row that is not ADMIN, and a promotion finds an active one. -/

namespace RetailSegmentation.Users.Web

open Program Transactions

/-! ### Stages -/

/-- What a transaction has made of the seat, and the active user it has created. -/
structure Stage where
  seat : Seat
  own : Option UserId

section Runs

variable {T : Type}

structure At (t : T) (db : UserDb T) (stage : Stage) : Prop where
  seat : Seat.At db.users t stage.seat
  own : ∀ id, stage.own = some id → db.users.owner id = some t ∧
    ∃ user, db.users.get t id = some user ∧ user.isActive = true

/-- Whether the row as it is read is not ADMIN. -/
def readsPlain (t : T) (db : UserDb T) (id : UserId) : Bool :=
  (db.users.get t id).all fun user => user.roleId ≠ adminRoleId

/-- Whether there is a row as it is read, and it is active. -/
def readsActive (t : T) (db : UserDb T) (id : UserId) : Bool := (db.users.get t id).any User.isActive

/-- The condition on a step: the UPDATE of `change_role`, inside `update_user` too, and of a deactivation
finds a row that is not ADMIN, and the promotion of a transfer an active one. -/
def meets (call : Call) (t : T) (c : Request Statement) (db : UserDb T) : Bool :=
  match call, c with
  | .changeRole _ _, .execute (.updateRole id _) => readsPlain t db id
  | .updateUser _ _ _ _, .execute (.updateRole id _) => readsPlain t db id
  | .setActive _ false, .execute (.updateActive id _) => readsPlain t db id
  | .transferAdministrator _ toUserId, .execute (.updateRole id _) =>
    id ≠ toUserId || readsActive t db id
  | _, _ => true

/-- Whether a call promotes user `id` when it writes a role to it. -/
def Call.Promotes : Call → UserId → Stage → Prop
  | transferAdministrator _ toUserId, id, _ => id = toUserId
  | installAdministrator _ _ _, id, stage => stage.own = some id
  | _, _, _ => False

/-- The calls that move the seat. -/
def Call.Moves : Call → Prop
  | transferAdministrator _ _ => True
  | installAdministrator _ _ _ => True
  | _ => False

/-- What a call may do at each stage, and where the answers lead. -/
def administering (setting : Setting) (call : Call) : Workflow Statement Result DbError Stage where
  may s stage := match s with
    | .roleId _ => True
    | .getUser _ => True
    | .countAdministrators => stage.seat ≠ .vacant
    | .soleAdministrator => True
    | .insertUser roleId _ _ _ => roleId ≠ adminRoleId ∧ stage = ⟨.quiet, none⟩
    | .updateNameAndEmail _ _ _ => stage = ⟨.quiet, none⟩
    | .updateRole id roleId =>
      (call.Promotes id stage ∧ roleId = adminRoleId) ∨
        (call.Moves ∧ ¬ call.Promotes id stage ∧ stage.seat = .quiet) ∨
        (((∃ userId roleCode, call = .changeRole userId roleCode) ∨
          ∃ userId name email roleCode, call = .updateUser userId name email roleCode) ∧
          roleId ≠ adminRoleId ∧ stage.seat ≠ .vacant)
    | .updateActive _ isActive => stage.seat ≠ .vacant ∧ stage.own = none ∧ ∃ userId, call = .setActive userId isActive
    | .revokeUserSessions _ => True
    | .notifyUserDeactivated _ => True
    | _ => False
  next s v stage stage' := match s, v with
    | .roleId code, v => v = setting.roles.idOf code ∧ stage' = stage
    | .getUser id, v => stage' = stage ∧
      ∀ shown, v = some shown → ∃ user, appUser setting id user = some shown
    | .countAdministrators, n => n = 1 ∧ stage' = stage
    | .insertUser _ _ _ _, id => stage' = ⟨.quiet, some id⟩
    | .updateNameAndEmail _ _ _, _ => stage'.seat ≠ .vacant ∧ stage'.own = none
    | .updateRole id _, _ => stage'.own = stage.own ∧ (call.Promotes id stage → stage'.seat = .held) ∧
      (¬ call.Moves → stage'.seat ≠ .vacant)
    | .updateActive _ _, _ => stage'.seat ≠ .vacant
    | _, _ => stage' = stage
  fails _ _ _ := True
  aborts := IsAbort
  commits stage := stage.seat ≠ .vacant
  after _ := ⟨.quiet, none⟩
  undone _ := ⟨.quiet, none⟩
  losesReplies := True

def webContract (T : Type) : Contract T (Request Statement) (Reply Result DbError) (UserDb T) Stage where
  inv db := OneAdmin db.users.rows.lookup
  at_ t stage db := At t db stage
  guar _ _ _ _ _ := True

variable {setting : Setting} {calls : T → Call} {t u : T} {db db' : UserDb T} {stage : Stage}

theorem At.leaves (hat : At u db stage) (h : Leaves u db db') : At u db' stage := by
  refine ⟨h.seat hat.seat, fun id hid => ?_⟩
  obtain ⟨howner, user, hget, hactive⟩ := hat.own id hid
  exact ⟨(h.owner id).mpr howner, user, (h.get howner).trans hget, hactive⟩

theorem keeps_of_leaves (hinv : OneAdmin db'.users.rows.lookup) (hleaves : ∀ u ≠ t, Leaves u db db') :
    (webContract T).Keeps t db db' :=
  ⟨hinv, fun u hu _ hat => At.leaves hat (hleaves u hu)⟩

theorem keeps_self (hinv : OneAdmin db.users.rows.lookup) : (webContract T).Keeps t db db :=
  keeps_of_leaves hinv fun u _ => .refl u db

theorem at_quiet (hpending : db.users.pending t = ∅) : At t db ⟨.quiet, none⟩ :=
  ⟨Seat.at_empty hpending, fun _ h => by cases h⟩

end Runs

section Obligations

variable {T : Type} [DecidableEq T] {setting : Setting} {calls : T → Call} {t u : T} {db db' : UserDb T}
  {stage : Stage}

theorem web_rollsBack (setting : Setting) (calls : T → Call) :
    RollsBack (webContract T) (userServer T setting) fun t => administering setting (calls t) := by
  intro t stage db hinv hat
  exact ⟨keeps_of_leaves hinv fun u hu => leaves_rollback hu db,
    at_quiet (Table.rollback_pending_self t), fun _ _ => trivial⟩

theorem web_commits (setting : Setting) (calls : T → Call) :
    Commits (webContract T) (userServer T setting) fun t => administering setting (calls t) := by
  intro t stage db hinv hat hcommits
  have hat : At t db stage := hat
  have hview := hat.seat.view hinv hcommits
  rw [← commit_lookup] at hview
  exact ⟨keeps_of_leaves hview fun u hu => leaves_commit hu db,
    at_quiet (Table.commit_pending_self t), fun _ => trivial⟩

/-! ### Statements -/

omit [DecidableEq T] in
theorem count_eq_one (hview : OneAdmin (db.users.get t)) :
    ((db.users.view t).entries.filter fun e => UserDb.holdsAdminCode setting e.2).length = 1 := by
  obtain ⟨id, hseat⟩ := hview
  rw [← funext (Table.lookup_view t)] at hseat
  exact hseat.count fun user => holdsAdminCode_iff

theorem keeps_of_write {id : UserId} {user : User} {own : Option UserId} {seat : Seat}
    (hinv : OneAdmin db.users.rows.lookup) (hat : At t db stage) (hfree : db.users.Free t id)
    (hdb : db'.users = db.users.put t id (some user) hfree)
    (hseat : Seat.At (db.users.put t id (some user) hfree) t seat)
    (hown : ∀ k, own = some k → (k = id ∧ user.isActive = true) ∨ k ≠ id ∧ stage.own = some k) :
    (webContract T).Keeps t db db' ∧ At t db' ⟨seat, own⟩ := by
  have hinv' : OneAdmin db'.users.rows.lookup := by
    rw [hdb]
    exact hinv
  refine ⟨keeps_of_leaves hinv' fun u hu => leaves_put hu hfree hdb, ⟨?_, fun k hk => ?_⟩⟩
  · change Seat.At db'.users t seat
    rw [hdb]
    exact hseat
  · rw [hdb]
    rcases hown k hk with ⟨rfl, hactive⟩ | ⟨hne, hk⟩
    · exact ⟨Table.put_owner_self hfree _, user, Table.put_get_self hfree _, hactive⟩
    · obtain ⟨howner, old, hget, hactive⟩ := hat.own k hk
      refine ⟨?_, old, ?_, hactive⟩
      · rw [Table.put_owner_of_ne hfree _ hne, howner]
      · rw [Table.put_get_of_ne hfree _ hne, hget]

omit [DecidableEq T] in
theorem active_of_alone {seat : Seat} {id : UserId} (hinv : OneAdmin db.users.rows.lookup)
    (hat : Seat.At db.users t seat) (hseat : seat ≠ .vacant)
    (hothers : ∀ id' ≠ id, ∀ other, db.users.get t id' = some other → other.roleId ≠ adminRoleId) :
    ∀ old, db.users.get t id = some old → old.isActive = true := by
  intro old hold
  obtain ⟨x, ⟨xuser, hx, hrole, hactive⟩, -⟩ := hat.view hinv hseat
  by_cases hne : x = id
  · subst hne
    rwa [Option.some.inj (hold.symm.trans hx)]
  · exact absurd hrole (hothers x hne xuser hx)

omit [DecidableEq T] in
theorem readsPlain_iff {id : UserId} : readsPlain t db id = true ↔
    ∀ old, db.users.get t id = some old → old.roleId ≠ adminRoleId := by
  unfold readsPlain
  cases db.users.get t id with
  | none => simp
  | some user => simp

omit [DecidableEq T] in
theorem readsActive_iff {id : UserId} : readsActive t db id = true ↔
    ∃ old, db.users.get t id = some old ∧ old.isActive = true := by
  unfold readsActive
  cases db.users.get t id with
  | none => simp
  | some user => simp

theorem keeps_of_role {id : UserId} {old : User} {roleId : ℤ} {seat : Seat}
    (hinv : OneAdmin db.users.rows.lookup) (hat : At t db stage) (hget : db.users.get t id = some old)
    (hfree : db.users.Free t id)
    (hdb : db'.users = db.users.put t id (some { old with roleId }) hfree)
    (hseat : Seat.At (db.users.put t id (some { old with roleId }) hfree) t seat) :
    (webContract T).Keeps t db db' ∧ At t db' ⟨seat, stage.own⟩ := by
  apply keeps_of_write hinv hat hfree hdb hseat
  intro k hk
  by_cases hne : k = id
  · subst hne
    obtain ⟨-, user, huser, hactive⟩ := hat.own k hk
    obtain rfl := Option.some.inj (hget.symm.trans huser)
    exact .inl ⟨rfl, hactive⟩
  · exact .inr ⟨hne, hk⟩

theorem updateRole_answers {id : UserId} {roleId : ℤ} (hinv : OneAdmin db.users.rows.lookup)
    (hat : At t db stage) (hmay : (administering setting (calls t)).may (.updateRole id roleId) stage)
    (hmeets : meets (calls t) t (.execute (.updateRole id roleId)) db = true)
    (hupdate : (db.update setting t id fun user => { user with roleId }) = .ok db') :
    (webContract T).Keeps t db db' ∧ ∃ stage', At t db' stage' ∧
      (administering setting (calls t)).next (.updateRole id roleId) () stage stage' := by
  rcases hmay with ⟨hpromotes, rfl⟩ | ⟨hmoves, hnot, hquiet⟩ | ⟨hcall, hrole, hne⟩
  · have hactive : ∃ old, db.users.get t id = some old ∧ old.isActive = true := by
      cases hcall : calls t with
      | transferAdministrator fromUserId toUserId =>
          rw [hcall] at hpromotes hmeets
          obtain rfl : id = toUserId := hpromotes
          rcases Bool.or_eq_true_iff.mp hmeets with h | h
          · exact absurd rfl (of_decide_eq_true h)
          · exact readsActive_iff.mp h
      | installAdministrator name email password =>
          rw [hcall] at hpromotes
          exact (hat.own id hpromotes).2
      | _ =>
          rw [hcall] at hpromotes
          exact hpromotes.elim
    obtain ⟨old, hget, hactive⟩ := hactive
    rcases update_ok hupdate with ⟨hnone, -⟩ | ⟨old', hold, hwrite⟩
    · cases hnone.symm.trans hget
    obtain rfl := Option.some.inj (hget.symm.trans hold)
    obtain ⟨hfree, hdb, hothers⟩ := write_ok hwrite
    obtain ⟨hkeeps, hat'⟩ := keeps_of_role hinv hat hget hfree hdb
      (Seat.held_put hfree hinv rfl hactive (hothers rfl))
    exact ⟨hkeeps, _, hat', rfl, fun _ => rfl, fun _ => by simp⟩
  · rcases update_ok hupdate with ⟨-, rfl⟩ | ⟨old, hget, hwrite⟩
    · exact ⟨keeps_self hinv, stage, hat, rfl, fun h => absurd h hnot, fun h => absurd hmoves h⟩
    obtain ⟨hfree, hdb, hothers⟩ := write_ok hwrite
    have hseat : ∃ seat, Seat.At (db.users.put t id (some { old with roleId }) hfree) t seat := by
      by_cases hrole : roleId = adminRoleId
      · have hactive : old.isActive = true :=
          active_of_alone hinv hat.seat (by simp [hquiet]) (hothers hrole) old hget
        exact ⟨.held, Seat.held_put hfree hinv hrole hactive (hothers hrole)⟩
      · by_cases hadmin : old.roleId = adminRoleId
        · exact ⟨.vacant, hat.seat.put_demoted hfree hinv hget hadmin hrole⟩
        · refine ⟨stage.seat, hat.seat.put_plain hfree hrole fun user huser => ?_⟩
          rwa [← Option.some.inj (hget.symm.trans huser)]
    obtain ⟨seat, hseat⟩ := hseat
    obtain ⟨hkeeps, hat'⟩ := keeps_of_role hinv hat hget hfree hdb hseat
    exact ⟨hkeeps, _, hat', rfl, fun h => absurd h hnot, fun h => absurd hmoves h⟩
  · have hplain : readsPlain t db id = true ∧ ¬ (calls t).Promotes id stage := by
      rcases hcall with ⟨userId, roleCode, hcall⟩ | ⟨userId, name, email, roleCode, hcall⟩
      · rw [hcall] at hmeets ⊢
        exact ⟨hmeets, fun h => h⟩
      · rw [hcall] at hmeets ⊢
        exact ⟨hmeets, fun h => h⟩
    obtain ⟨hplain, hnot⟩ := hplain
    rcases update_ok hupdate with ⟨-, rfl⟩ | ⟨old, hget, hwrite⟩
    · exact ⟨keeps_self hinv, stage, hat, rfl, fun h => absurd h hnot, fun _ => hne⟩
    obtain ⟨hfree, hdb, -⟩ := write_ok hwrite
    obtain ⟨hkeeps, hat'⟩ := keeps_of_role hinv hat hget hfree hdb
      (hat.seat.put_plain hfree hrole (readsPlain_iff.mp hplain))
    exact ⟨hkeeps, _, hat', rfl, fun h => absurd h hnot, fun _ => hne⟩

theorem updateActive_answers {id : UserId} {isActive : Bool} (hinv : OneAdmin db.users.rows.lookup)
    (hat : At t db stage) (hmay : (administering setting (calls t)).may (.updateActive id isActive) stage)
    (hmeets : meets (calls t) t (.execute (.updateActive id isActive)) db = true)
    (hupdate : (db.update setting t id fun user => { user with isActive }) = .ok db') :
    (webContract T).Keeps t db db' ∧ ∃ stage', At t db' stage' ∧
      (administering setting (calls t)).next (.updateActive id isActive) () stage stage' := by
  obtain ⟨hne, hown, userId, hcall⟩ := hmay
  rcases update_ok hupdate with ⟨-, rfl⟩ | ⟨old, hget, hwrite⟩
  · exact ⟨keeps_self hinv, stage, hat, hne⟩
  obtain ⟨hfree, hdb, hothers⟩ := write_ok hwrite
  have hnone : ∀ k, stage.own = some k → (k = id ∧ isActive = true) ∨ k ≠ id ∧ stage.own = some k := by
    intro k hk
    cases hown.symm.trans hk
  by_cases hadmin : old.roleId = adminRoleId
  · have hactive : isActive = true := by
      by_contra h
      obtain rfl : isActive = false := Bool.eq_false_iff.mpr h
      rw [hcall] at hmeets
      exact readsPlain_iff.mp hmeets old hget hadmin
    obtain ⟨hkeeps, hat'⟩ := keeps_of_write hinv hat hfree hdb
      (Seat.held_put hfree hinv hadmin hactive (hothers hadmin)) hnone
    have hheld : Seat.held ≠ .vacant := by decide
    exact ⟨hkeeps, ⟨.held, stage.own⟩, hat', hheld⟩
  · obtain ⟨hkeeps, hat'⟩ := keeps_of_write hinv hat hfree hdb
      (hat.seat.put_plain hfree hadmin fun user huser => by rwa [← Option.some.inj (hget.symm.trans huser)])
      hnone
    exact ⟨hkeeps, _, hat', hne⟩

theorem updateNameAndEmail_answers {id : UserId} {name email : String} (hinv : OneAdmin db.users.rows.lookup)
    (hat : At t db ⟨.quiet, none⟩)
    (hupdate : (db.update setting t id fun user => { user with name, email }) = .ok db') :
    (webContract T).Keeps t db db' ∧ ∃ stage', At t db' stage' ∧
      (administering setting (calls t)).next (.updateNameAndEmail id name email) () ⟨.quiet, none⟩ stage' := by
  have hquiet : Seat.quiet ≠ .vacant := by decide
  have hheld : Seat.held ≠ .vacant := by decide
  rcases update_ok hupdate with ⟨-, rfl⟩ | ⟨old, hget, hwrite⟩
  · exact ⟨keeps_self hinv, ⟨.quiet, none⟩, hat, hquiet, rfl⟩
  obtain ⟨hfree, hdb, hothers⟩ := write_ok hwrite
  have hnone : ∀ k, none = some k → (k = id ∧ old.isActive = true) ∨ k ≠ id ∧ none = some k :=
    fun _ h => by cases h
  by_cases hadmin : old.roleId = adminRoleId
  · have hactive : old.isActive = true := hat.seat.active hinv hget hadmin
    obtain ⟨hkeeps, hat'⟩ := keeps_of_write hinv hat hfree hdb
      (Seat.held_put hfree hinv hadmin hactive (hothers hadmin)) hnone
    exact ⟨hkeeps, ⟨.held, none⟩, hat', hheld, rfl⟩
  · obtain ⟨hkeeps, hat'⟩ := keeps_of_write hinv hat hfree hdb
      (hat.seat.put_plain hfree hadmin fun user huser => by rwa [← Option.some.inj (hget.symm.trans huser)])
      hnone
    exact ⟨hkeeps, ⟨.quiet, none⟩, hat', hquiet, rfl⟩

theorem web_answers (setting : Setting) (calls : T → Call) :
    Answers (webContract T) (userServer T setting) (fun t => administering setting (calls t))
      fun t c db => meets (calls t) t c db = true := by
  intro t statement stage db v db' hinv hat hmay hmeets hanswer
  obtain ⟨drawn, hanswer⟩ := hanswer
  refine ⟨trivial, ?_⟩
  cases statement with
  | roleId code =>
      obtain ⟨rfl, rfl⟩ := Prod.mk.inj (Option.some.inj hanswer)
      exact ⟨keeps_self hinv, stage, hat, rfl, rfl⟩
  | getUser id =>
      obtain ⟨rfl, rfl⟩ := Prod.mk.inj (Option.some.inj hanswer)
      refine ⟨keeps_self hinv, stage, hat, rfl, fun shown hshown => ?_⟩
      obtain ⟨user, -, hshown⟩ := Option.bind_eq_some_iff.mp hshown
      exact ⟨user, hshown⟩
  | countAdministrators =>
      obtain ⟨rfl, rfl⟩ := Prod.mk.inj (Option.some.inj hanswer)
      have hat : At t db stage := hat
      exact ⟨keeps_self hinv, stage, hat, count_eq_one (hat.seat.view hinv hmay), rfl⟩
  | soleAdministrator =>
      obtain ⟨-, rfl⟩ := Prod.mk.inj (Option.some.inj hanswer)
      exact ⟨keeps_self hinv, stage, hat, rfl⟩
  | insertUser roleId name email passwordHash =>
      obtain ⟨hrole, rfl⟩ := hmay
      obtain ⟨rfl, hinsert⟩ := written_some hanswer
      obtain ⟨hnone, hwrite⟩ := insert_ok hinsert
      obtain ⟨hfree, hdb, -⟩ := write_ok hwrite
      have hat : At t db ⟨.quiet, none⟩ := hat
      obtain ⟨hkeeps, hat'⟩ := keeps_of_write hinv hat hfree hdb
        (hat.seat.put_plain hfree hrole fun old hold => by cases hnone.symm.trans hold)
        fun k hk => .inl ⟨(Option.some.inj hk).symm, rfl⟩
      exact ⟨hkeeps, _, hat', rfl⟩
  | updateNameAndEmail id name email =>
      obtain rfl : stage = ⟨.quiet, none⟩ := hmay
      exact updateNameAndEmail_answers hinv hat (written_some hanswer).2
  | updateRole id roleId => exact updateRole_answers hinv hat hmay hmeets (written_some hanswer).2
  | updateActive id isActive => exact updateActive_answers hinv hat hmay hmeets (written_some hanswer).2
  | revokeUserSessions id =>
      obtain ⟨-, rfl⟩ := Prod.mk.inj (Option.some.inj hanswer)
      exact ⟨keeps_self hinv, stage, hat, rfl⟩
  | notifyUserDeactivated id =>
      obtain ⟨-, rfl⟩ := Prod.mk.inj (Option.some.inj hanswer)
      exact ⟨keeps_self hinv, stage, hat, rfl⟩
  | _ => exact hmay.elim

theorem web_refuses (setting : Setting) (calls : T → Call) :
    Refuses (webContract T) (userServer T setting) fun t => administering setting (calls t) :=
  ⟨fun _ _ _ _ _ _ _ _ _ => trivial, fun _ _ h => h, fun _ _ => trivial⟩

end Obligations
end RetailSegmentation.Users.Web
