import RetailSegmentation.UsersWebRuns

/-! One active administrator in the web application, in the interleavings where no check has gone stale
when its write finds the row. -/

namespace RetailSegmentation.Users.Web

open Program Transactions

/-! ### Programs -/

section Programs

variable {setting : Setting} {call : Call} {stage : Stage}

abbrev Fails (_ : UserFailure) (_ : Stage) : Prop := True

theorem follows_roleId (roleCode : String) (stage : Stage) :
    (roleId roleCode).Follows (administering setting call).protocol stage
      (Contract.Ends (fun id stage' => setting.roles.idOf roleCode = some id ∧ stage' = stage) Fails) := by
  apply Workflow.follows_step
  · trivial
  · rintro found stage' ⟨hfound, rfl⟩
    split
    · trivial
    · exact ⟨hfound.symm, rfl⟩
  · exact fun _ _ => trivial

theorem follows_user (id : UserId) (stage : Stage) :
    (user id).Follows (administering setting call).protocol stage
      (Contract.Ends (fun shown stage' => shown.userId = id ∧ stage' = stage) Fails) := by
  apply Workflow.follows_step
  · trivial
  · rintro found stage' ⟨rfl, hfound⟩
    split
    · trivial
    · rename_i shown
      obtain ⟨row, hshown⟩ := hfound shown rfl
      exact ⟨(appUser_eq hshown).1, rfl⟩
  · exact fun _ _ => trivial

/-- There is one administrator wherever a transaction counts, so there is always one too many. -/
theorem follows_refuseASecondAdministrator (hseat : stage.seat ≠ .vacant) :
    refuseASecondAdministrator.Follows (administering setting call).protocol stage
      (Contract.Ends (fun _ _ => False) Fails) := by
  apply Workflow.follows_step
  · exact hseat
  · rintro count stage' ⟨rfl, rfl⟩
    exact trivial
  · exact fun _ _ => trivial

/-- There is one administrator wherever a transaction counts, so there is never one to spare. -/
theorem follows_refuseLeavingNobody (hseat : stage.seat ≠ .vacant) :
    refuseLeavingNobody.Follows (administering setting call).protocol stage
      (Contract.Ends (fun _ _ => False) Fails) := by
  apply Workflow.follows_step
  · exact hseat
  · rintro count stage' ⟨rfl, rfl⟩
    exact trivial
  · exact fun _ _ => trivial

theorem follows_checkNewRole (roleCode : String) (hseat : stage.seat ≠ .vacant) :
    (checkNewRole roleCode).Follows (administering setting call).protocol stage
      (Contract.Ends (fun _ stage' => roleCode ≠ adminRoleCode ∧ stage' = stage) Fails) := by
  unfold checkNewRole
  split_ifs with hadmin
  · exact (follows_refuseASecondAdministrator hseat).weaken (fun _ _ h => h.elim) fun _ _ h => h
  · exact ⟨hadmin, rfl⟩

theorem follows_createUser (name email password roleCode : String) :
    (createUser setting name email password roleCode).Follows (administering setting call).protocol
      ⟨.quiet, none⟩ (Contract.Ends (fun id stage => stage = ⟨.quiet, some id⟩) Fails) := by
  apply (follows_roleId roleCode _).bind
  rintro newRole stage ⟨hfound, rfl⟩
  apply (follows_checkNewRole roleCode (by simp)).bind
  rintro - stage ⟨hplain, rfl⟩
  apply Prog.Follows.tryCatch (F := Fails)
  · refine Workflow.follows_execute ⟨fun h => ?_, rfl⟩ (fun _ _ h => h) fun _ _ => trivial
    exact hplain (Roles.idOf_admin (h ▸ hfound))
  · exact fun _ _ _ => trivial

theorem follows_checkRole (shown : AppUser) (roleCode : String) (hseat : stage.seat ≠ .vacant) :
    (checkRole shown roleCode).Follows (administering setting call).protocol stage
      (Contract.Ends (fun _ stage' => roleCode ≠ adminRoleCode ∧ stage' = stage) Fails) := by
  unfold checkRole
  split_ifs with hadmin
  · exact (follows_refuseASecondAdministrator hseat).weaken (fun _ _ h => h.elim) fun _ _ h => h
  · exact (follows_refuseLeavingNobody hseat).weaken (fun _ _ h => h.elim) fun _ _ h => h
  · exact ⟨hadmin, rfl⟩

theorem follows_changeRole (userId : UserId) (roleCode : String) (hseat : stage.seat ≠ .vacant)
    (hcall : (∃ userId roleCode, call = .changeRole userId roleCode) ∨
      ∃ userId name email roleCode, call = .updateUser userId name email roleCode) :
    (changeRole userId roleCode).Follows (administering setting call).protocol stage
      (Contract.Ends (fun _ stage' => stage'.seat ≠ .vacant) Fails) := by
  have hmoves : ¬ call.Moves := by
    rcases hcall with ⟨_, _, rfl⟩ | ⟨_, _, _, _, rfl⟩
    · exact fun h => h
    · exact fun h => h
  apply (follows_user userId stage).bind
  rintro shown stage' ⟨-, rfl⟩
  apply (follows_roleId roleCode stage').bind
  rintro newRole stage ⟨hfound, rfl⟩
  split_ifs
  · exact hseat
  · apply (follows_checkRole shown roleCode hseat).bind
    rintro - stage' ⟨hplain, rfl⟩
    apply Prog.Follows.tryCatch (F := Fails)
    · refine Workflow.follows_execute (.inr (.inr ⟨hcall, fun h => ?_, hseat⟩)) (fun _ _ h => h.2.2 hmoves)
        fun _ _ => trivial
      exact hplain (Roles.idOf_admin (h ▸ hfound))
    · exact fun _ _ _ => trivial

theorem follows_updateUser (userId : UserId) (name email roleCode : String) :
    (updateUser setting userId name email roleCode).Follows
      (administering setting (.updateUser userId name email roleCode)).protocol ⟨.quiet, none⟩
      (Contract.Ends (fun _ stage => stage.seat ≠ .vacant) Fails) := by
  apply Prog.Follows.bind (P := fun _ stage => stage.seat ≠ .vacant)
  · apply Prog.Follows.tryCatch (F := Fails)
    · exact Workflow.follows_execute rfl (fun _ _ h => h.1) fun _ _ => trivial
    · exact fun _ _ _ => trivial
  · exact fun _ _ hseat => follows_changeRole userId roleCode hseat (.inr ⟨_, _, _, _, rfl⟩)

theorem follows_announce (shown : AppUser) (stage : Stage) :
    (announce shown).Follows (administering setting call).protocol stage
      (Contract.Ends (fun _ stage' => stage' = stage) Fails) := by
  apply Workflow.follows_step
  · trivial
  · rintro - stage' rfl
    split_ifs
    · exact Workflow.follows_execute trivial (fun _ _ h => h) fun _ _ => trivial
    · rfl
  · exact fun _ _ => trivial

theorem follows_checkDeactivation (shown : AppUser) (isActive : Bool) (hseat : stage.seat ≠ .vacant) :
    (checkDeactivation shown isActive).Follows (administering setting call).protocol stage
      (Contract.Ends (fun _ stage' => stage' = stage) Fails) := by
  unfold checkDeactivation
  split_ifs
  · exact (follows_refuseLeavingNobody hseat).weaken (fun _ _ h => h.elim) fun _ _ h => h
  · rfl

theorem follows_setActive (userId : UserId) (isActive : Bool) :
    (setActive userId isActive).Follows (administering setting (.setActive userId isActive)).protocol
      ⟨.quiet, none⟩ (Contract.Ends (fun _ stage => stage.seat ≠ .vacant) Fails) := by
  apply (follows_user userId _).bind
  rintro shown stage ⟨-, rfl⟩
  apply (follows_checkDeactivation shown isActive (by simp)).bind
  rintro - stage rfl
  apply Workflow.follows_step
  · exact ⟨by simp, rfl, userId, rfl⟩
  · intro _ stage hseat
    split_ifs
    · apply (follows_announce shown stage).weaken _ fun _ _ h => h
      rintro _ _ rfl
      exact hseat
    · exact hseat
  · exact fun _ _ => trivial

theorem follows_transferAdministrator (fromUserId toUserId : UserId) (hquiet : stage.seat = .quiet)
    (hmoves : call.Moves)
    (hpromotes : ∀ stage' : Stage, stage'.own = stage.own → ∀ id, call.Promotes id stage' ↔ id = toUserId) :
    (transferAdministrator fromUserId toUserId).Follows (administering setting call).protocol stage
      (Contract.Ends (fun _ stage' => stage'.seat ≠ .vacant) Fails) := by
  have hseat : stage.seat ≠ .vacant := by simp [hquiet]
  apply (follows_user fromUserId stage).bind
  rintro incumbent _ ⟨-, rfl⟩
  apply (follows_user toUserId _).bind
  rintro successor _ ⟨rfl, rfl⟩
  split_ifs with hholds hsame
  · trivial
  · exact hseat
  · apply (follows_roleId adminRoleCode _).bind
    rintro administrator _ ⟨hfound, rfl⟩
    apply Workflow.follows_step
    · refine .inr (.inl ⟨hmoves, fun h => ?_, hquiet⟩)
      exact hsame ((hpromotes _ rfl _).mp h)
    · rintro - demoted ⟨hown, -⟩
      have hself : call.Promotes successor.userId demoted := (hpromotes demoted hown _).mpr rfl
      apply Prog.Follows.tryCatch (F := Fails)
      · refine Workflow.follows_execute (.inl ⟨hself, setting.roles.reserved _ (Roles.lookup_idOf hfound)⟩)
          (fun _ stage' h => ?_) fun _ _ => trivial
        have hheld : stage'.seat = .held := h.2.1 hself
        simp [hheld]
      · exact fun _ _ _ => trivial
    · exact fun _ _ => trivial

theorem follows_soleAdministrator (stage : Stage) :
    soleAdministrator.Follows (administering setting call).protocol stage
      (Contract.Ends (fun _ stage' => stage' = stage) Fails) := by
  apply Workflow.follows_step
  · trivial
  · rintro found stage' rfl
    split
    · trivial
    · apply Workflow.follows_step
      · trivial
      · rintro shown stage ⟨rfl, -⟩
        split
        · trivial
        · rfl
      · exact fun _ _ => trivial
  · exact fun _ _ => trivial

/-- The seat is never empty, so that a successor is created and the role moved onto it. -/
theorem follows_installAdministrator (name email password : String) :
    (installAdministrator setting name email password).Follows
      (administering setting (.installAdministrator name email password)).protocol ⟨.quiet, none⟩
      (Contract.Ends (fun _ stage => stage.seat ≠ .vacant) Fails) := by
  apply Workflow.follows_step
  · exact nofun
  · rintro count stage ⟨rfl, rfl⟩
    apply (follows_soleAdministrator _).bind
    rintro incumbent stage rfl
    apply (follows_createUser name email password placeholderRoleCode).bind
    rintro successor stage rfl
    have hmoves : (Call.installAdministrator name email password).Moves := trivial
    have hpromotes : ∀ stage : Stage, stage.own = some successor →
        ∀ id, (Call.installAdministrator name email password).Promotes id stage ↔ id = successor := by
      intro stage hown id
      change stage.own = some id ↔ id = successor
      rw [hown]
      exact ⟨fun h => (Option.some.inj h).symm, fun h => congrArg some h.symm⟩
    exact (follows_transferAdministrator incumbent.userId successor rfl hmoves hpromotes).bind
      fun _ _ h => h
  · exact fun _ _ => trivial

theorem follows_body : (call.body setting).Follows (administering setting call).protocol ⟨.quiet, none⟩
    (Contract.Ends (fun _ stage => stage.seat ≠ .vacant) Fails) := by
  cases call with
  | createUser name email password roleCode =>
      apply (follows_createUser name email password roleCode).bind
      rintro id stage rfl
      exact nofun
  | changeRole userId roleCode => exact follows_changeRole userId roleCode (by simp) (.inl ⟨_, _, rfl⟩)
  | updateUser userId name email roleCode => exact follows_updateUser userId name email roleCode
  | setActive userId isActive => exact follows_setActive userId isActive
  | transferAdministrator fromUserId toUserId =>
      exact follows_transferAdministrator fromUserId toUserId rfl trivial fun _ _ _ => Iff.rfl
  | installAdministrator name email password =>
      exact (follows_installAdministrator name email password).bind fun _ _ h => h

theorem follows_program : (call.program setting).Follows (administering setting call).protocol ⟨.quiet, none⟩
    (Contract.Ends (fun _ _ => True) Fails) := by
  apply Workflow.follows_atomic (P := fun _ stage => stage.seat ≠ .vacant) (F := Fails) follows_body
  · exact fun _ _ h => ⟨h, trivial, fun _ _ => ⟨trivial, fun _ => trivial⟩⟩
  · exact fun _ _ _ => ⟨trivial, fun _ _ => trivial⟩

end Programs

/-! ### Runs -/

section Runs

variable {T : Type} [DecidableEq T]

abbrev UserConfig (T : Type) : Type :=
  Config T (Request Statement) (Reply Result DbError) UserFailure Unit (UserDb T)

def initial (setting : Setting) (calls : T → Call) (rows : AList fun _ : UserId => User) : UserConfig T :=
  Config.initial (fun t => (calls t).program setting) (.ofRows rows)

/-- The interleavings in which every step meets the condition on it. -/
def heeding (setting : Setting) (calls : T → Call) :
    Machine T (Request Statement) (Reply Result DbError) (UserDb T) :=
  (userServer T setting).machine.guard fun t c db => meets (calls t) t c db = true

theorem webContract_implements (setting : Setting) (calls : T → Call) :
    (webContract T).Implements (heeding setting calls) fun t => (administering setting (calls t)).protocol :=
  implements_workflow (fun _ _ _ _ _ h => h) (web_answers setting calls) (web_refuses setting calls)
    (web_commits setting calls) (web_rollsBack setting calls)

theorem webContract_closed (setting : Setting) (calls : T → Call) :
    (webContract T).Closed (heeding setting calls) := by
  apply closed_of_rollsBack _ (fun _ _ _ h => h) fun _ _ h => h
  exact fun t db hinv => keeps_of_leaves hinv fun u hu => leaves_rollback hu db

/-- **One active administrator, where no check is stale.** Where one active user holds ADMIN, one active user
does in every committed state of the interleavings whose steps all meet the condition. -/
theorem web_administrator (setting : Setting) (calls : T → Call) (rows : AList fun _ : UserId => User)
    (hadmin : OneAdmin rows.lookup) {cfg : UserConfig T}
    (hrun : (heeding setting calls).Reaches (initial setting calls rows) cfg) :
    OneAdmin cfg.state.users.rows.lookup := by
  have hobeys : (webContract T).Obeys (fun t => (administering setting (calls t)).protocol)
      (fun _ => Contract.Ends (fun _ _ => True) Fails) cfg := by
    apply Contract.Obeys.reaches (webContract_implements setting calls) (webContract_closed setting calls) _ hrun
    apply Contract.Obeys.initial hadmin
    exact fun t => ⟨⟨.quiet, none⟩, at_quiet rfl, follows_program⟩
  exact hobeys.inv

end Runs

/-! ### A transfer, and a change of role in the middle of it -/

/-- `true` hands the seat from user 1 to user 2, to whom `false` gives another role. -/
def raceCalls : Bool → Call
  | true => .transferAdministrator 1 2
  | false => .changeRole 2 "STORE_MANAGER"

def raceTurn : (t : Bool) → (r : Request Statement) → UserDb Bool →
    Option (Reply Result DbError r × UserDb Bool) :=
  (userServer Bool .plain).respond (UserDb.answer .plain 3) (UserDb.refusal .plain 3)

theorem step_of_raceTurn {t : Bool} {r : Request Statement} {db db' : UserDb Bool}
    {v : Reply Result DbError r} (h : raceTurn t r db = some (v, db')) :
    (userServer Bool .plain).machine.step t r db v db' := by
  have hanswer : ∀ t s db v db', UserDb.answer .plain 3 t s db = some (v, db') →
      (userServer Bool .plain).answers t s db v db' := fun _ _ _ _ _ h => ⟨3, h⟩
  have hrefuse : ∀ t s db e, UserDb.refusal .plain 3 t s db = some e →
      (userServer Bool .plain).refuses t s db e := fun _ _ _ _ h => ⟨3, h⟩
  exact Server.step_of_respond hanswer hrefuse h

/-- A turn, where its step meets the condition. -/
def heedingTurn (t : Bool) (r : Request Statement) (db : UserDb Bool) :
    Option (Reply Result DbError r × UserDb Bool) :=
  if meets (raceCalls t) t r db = true then raceTurn t r db else none

theorem step_of_heedingTurn {t : Bool} {r : Request Statement} {db db' : UserDb Bool}
    {v : Reply Result DbError r} (h : heedingTurn t r db = some (v, db')) :
    (heeding .plain raceCalls).step t r db v db' := by
  unfold heedingTurn at h
  split_ifs at h with hmeets
  exact ⟨hmeets, step_of_raceTurn h⟩

/-- The change of role first, and then the transfer, from their first statements to their commits. -/
theorem web_administrator_corner : ∃ cfg : UserConfig Bool,
    (heeding .plain raceCalls).Reaches (initial .plain raceCalls twoUsers) cfg ∧
    OneAdmin cfg.state.users.rows.lookup ∧
    cfg.state.users.rows.lookup 2 = some { analyst with roleId := adminRoleId } := by
  have hrun : ((schedule heedingTurn (List.replicate 4 false ++ List.replicate 6 true)
      (initial .plain raceCalls twoUsers)).any
      fun cfg => cfg.state.users.rows.lookup 2 = some { analyst with roleId := adminRoleId }) = true := by
    decide +kernel
  obtain ⟨cfg, hcfg, hrow⟩ := (Option.any_eq_true _ _).mp hrun
  have hturn : ∀ t (r : Request Statement) db v db', heedingTurn t r db = some (v, db') →
      (heeding .plain raceCalls).step t r db v db' := fun _ _ _ _ _ h => step_of_heedingTurn h
  have hreaches := Machine.reaches_of_schedule _ hturn _ hcfg
  exact ⟨cfg, hreaches, web_administrator .plain raceCalls twoUsers twoUsers_oneAdmin hreaches,
    of_decide_eq_true hrow⟩

/-- The change of role reads its user before the transfer, and writes after it. -/
theorem transfer_undone : OneAdmin twoUsers.lookup ∧ ∃ cfg : UserConfig Bool,
    (userServer Bool .plain).machine.Reaches (initial .plain raceCalls twoUsers) cfg ∧
    (∀ t, cfg.threads t = some (.ret ())) ∧ ¬ OneAdmin cfg.state.users.rows.lookup := by
  have hrun : ((schedule raceTurn (List.replicate 2 false ++ List.replicate 6 true ++ List.replicate 2 false)
      (initial .plain raceCalls twoUsers)).any fun cfg =>
        outcome (cfg.threads true) = some (.ok ()) ∧ outcome (cfg.threads false) = some (.ok ()) ∧
        cfg.state.users.rows.entries.all fun e => e.2.roleId ≠ adminRoleId) = true := by
    decide +kernel
  obtain ⟨cfg, hcfg, hrow⟩ := (Option.any_eq_true _ _).mp hrun
  obtain ⟨htrue, hfalse, hnone⟩ := of_decide_eq_true hrow
  have hturn : ∀ t (r : Request Statement) db v db', raceTurn t r db = some (v, db') →
      (userServer Bool .plain).machine.step t r db v db' := fun _ _ _ _ _ h => step_of_raceTurn h
  refine ⟨twoUsers_oneAdmin, cfg, Machine.reaches_of_schedule _ hturn _ hcfg, fun t => ?_, fun hadmin => ?_⟩
  · cases t with
    | true => exact ret_of_outcome htrue
    | false => exact ret_of_outcome hfalse
  · obtain ⟨id, ⟨user, hrow, hrole, -⟩, -⟩ := hadmin
    have hmem : (⟨id, user⟩ : Sigma fun _ : UserId => User) ∈ cfg.state.users.rows.entries :=
      AList.mem_lookup_iff.mp hrow
    exact of_decide_eq_true (List.all_eq_true.mp hnone _ hmem) hrole

end RetailSegmentation.Users.Web
