import RetailSegmentation.UsersServiceRuns

/-! One active administrator in users-service, whatever the interleaving. -/

namespace RetailSegmentation.Users.Service

open Program Transactions

/-! ### Programs -/

section Programs

variable {setting : Setting}

abbrev Fails (_ : Failure) (_ : Stage) : Prop := True

theorem follows_requireUser (id : UserId) (stage : Stage) :
    (requireUser id).Follows (working setting).protocol stage
      (Contract.Ends (fun _ stage' => stage' = stage) Fails) := by
  apply Workflow.follows_step
  · trivial
  · intro found stage' hsame
    obtain rfl : stage' = stage := by cases stage <;> exact hsame
    split
    · trivial
    · rfl
  · exact fun _ _ => trivial

theorem follows_roleId (roleCode : String) (stage : Stage) :
    (roleId roleCode).Follows (working setting).protocol stage
      (Contract.Ends (fun id stage' => setting.roles.idOf roleCode = some id ∧ stage' = stage) Fails) := by
  apply Workflow.follows_step
  · trivial
  · rintro found stage' ⟨hfound, rfl⟩
    split
    · trivial
    · exact ⟨hfound.symm, rfl⟩
  · exact fun _ _ => trivial

theorem follows_lockUser (id : UserId) : (lockUser id).Follows (working setting).protocol .idle
    (Contract.Ends (fun found stage => found = none ∨ ∃ user shown, found = some shown ∧
      appUser setting id user = some shown ∧ stage = .held id user) Fails) := by
  apply Workflow.follows_step
  · trivial
  · rintro found stage rfl
    split
    · exact .inl rfl
    · exact Workflow.follows_execute trivial (fun _ _ h => h) fun _ _ => trivial
  · exact fun _ _ => trivial

theorem follows_lockSuccessor (successorId : String) {x : UserId} {admin : User}
    (hadmin : admin.roleId = adminRoleId) :
    (lockSuccessor setting successorId).Follows (working setting).protocol (.held x admin)
      (Contract.Ends (fun found stage => found = none ∨ ∃ id user shown, found = some shown ∧
        appUser setting id user = some shown ∧ stage = .both x id user) Fails) := by
  unfold lockSuccessor
  split
  · trivial
  · rename_i id hid
    apply Workflow.follows_step
    · trivial
    · rintro found stage rfl
      split
      · exact .inl rfl
      · exact Workflow.follows_execute hadmin (fun _ _ h => h.imp_right fun h => ⟨id, h⟩) fun _ _ => trivial
    · exact fun _ _ => trivial

theorem follows_createUser (name email passwordHash roleCode : String) :
    (createUser setting name email passwordHash roleCode).Follows (working setting).protocol .idle
      (Contract.Ends (fun _ stage => (working setting).commits stage) Fails) := by
  unfold createUser
  apply Prog.Follows.bind (P := fun _ stage => stage = .idle)
  · unfold cleanName
    split_ifs
    · trivial
    · rfl
  · rintro name stage rfl
    split_ifs with hadmin
    · trivial
    apply (follows_roleId roleCode .idle).bind
    rintro newRole stage ⟨hfound, rfl⟩
    apply Prog.Follows.bind (P := fun id stage => ∃ user, stage = .wrote id user)
    · apply Prog.Follows.tryCatch (F := Fails)
      · refine Workflow.follows_execute (fun h => ?_) (fun _ _ h => ⟨_, h⟩) fun _ _ => trivial
        exact hadmin (Roles.idOf_admin (h ▸ hfound))
      · exact fun _ _ _ => trivial
    · rintro userId stage ⟨user, rfl⟩
      apply (follows_requireUser userId _).weaken _ fun _ _ h => h
      rintro _ _ rfl
      trivial

theorem follows_newRoleId (roleCode : Option String) {id : UserId} {user : User} {shown : AppUser}
    (hshown : appUser setting id user = some shown) (stage : Stage) :
    (newRoleId shown roleCode).Follows (working setting).protocol stage
      (Contract.Ends (fun newRole stage' => stage' = stage ∧
        (newRole ≠ shown.roleId → user.roleId ≠ adminRoleId ∧ newRole ≠ adminRoleId)) Fails) := by
  unfold newRoleId
  obtain ⟨-, -, -, hcode⟩ := appUser_eq hshown
  split
  · exact ⟨rfl, fun h => absurd rfl h⟩
  · split_ifs with hsame hadmin
    · exact ⟨rfl, fun h => absurd rfl h⟩
    · trivial
    · apply (follows_roleId _ stage).weaken _ fun _ _ h => h
      rintro newRole stage' ⟨hfound, rfl⟩
      obtain ⟨hnew, hold⟩ := not_or.mp hadmin
      exact ⟨rfl, fun _ => ⟨fun h => hold (hcode.mpr h), fun h => hnew (Roles.idOf_admin (h ▸ hfound))⟩⟩

theorem follows_editUser (name email : Option String) {id : UserId} {user : User} {shown : AppUser} {newRole : ℤ}
    (hshown : appUser setting id user = some shown)
    (hnew : newRole ≠ shown.roleId → user.roleId ≠ adminRoleId ∧ newRole ≠ adminRoleId) :
    (editUser setting shown name email newRole).Follows (working setting).protocol (.held id user)
      (Contract.Ends (fun _ stage => ∃ user, stage = .wrote id user) Fails) := by
  obtain ⟨rfl, -⟩ := appUser_eq hshown
  apply Prog.Follows.tryCatch (F := Fails)
  · apply Workflow.follows_step
    · rfl
    · rintro - stage rfl
      split_ifs with hrole
      · obtain ⟨hplain, hplain'⟩ := hnew hrole
        exact Workflow.follows_execute ⟨rfl, hplain, hplain'⟩ (fun _ _ h => ⟨_, h⟩) fun _ _ => trivial
      · exact ⟨_, rfl⟩
    · exact fun _ _ => trivial
  · exact fun _ _ _ => trivial

theorem follows_updateUser (userId : UserId) (name email roleCode : Option String) :
    (updateUser setting userId name email roleCode).Follows (working setting).protocol .idle
      (Contract.Ends (fun _ stage => (working setting).commits stage) Fails) := by
  unfold updateUser
  apply Prog.Follows.bind (P := fun _ stage => stage = .idle)
  · cases name with
    | none => rfl
    | some name =>
        unfold cleanName
        simp only [Option.elim_some]
        split_ifs
        · trivial
        · rfl
  · rintro name stage rfl
    apply (follows_lockUser userId).bind
    rintro _ stage (rfl | ⟨user, shown, rfl, hshown, rfl⟩)
    · trivial
    · apply (follows_newRoleId roleCode hshown _).bind
      rintro newRole stage ⟨rfl, hnew⟩
      apply (follows_editUser name email hshown hnew).bind
      rintro - stage ⟨edited, rfl⟩
      apply (follows_requireUser userId _).weaken _ fun _ _ h => h
      rintro _ _ rfl
      trivial

theorem follows_setActive (userId : UserId) (isActive : Bool) :
    (setActive userId isActive).Follows (working setting).protocol .idle
      (Contract.Ends (fun _ stage => (working setting).commits stage) Fails) := by
  unfold setActive
  apply (follows_lockUser userId).bind
  rintro _ stage (rfl | ⟨user, shown, rfl, hshown, rfl⟩)
  · trivial
  obtain ⟨rfl, -, -, hcode⟩ := appUser_eq hshown
  apply Prog.Follows.bind (P := fun _ stage => stage = .held shown.userId user ∧
    (isActive = false → user.roleId ≠ adminRoleId))
  · unfold checkDeactivation
    split_ifs with hlast
    · apply Workflow.follows_step
      · trivial
      · rintro count stage ⟨rfl, rfl⟩
        exact trivial
      · exact fun _ _ => trivial
    · exact ⟨rfl, fun hinactive hrole => hlast ⟨hinactive, hcode.mpr hrole⟩⟩
  · rintro - stage ⟨rfl, hplain⟩
    apply Prog.Follows.bind (P := fun _ stage => (working setting).commits stage)
    · unfold changeActive
      split_ifs
      · refine Workflow.follows_execute ⟨rfl, hplain⟩ (fun _ stage h => ?_) fun _ _ => trivial
        obtain rfl := h
        trivial
      · trivial
    · intro _ stage hcommits
      apply (follows_requireUser shown.userId stage).weaken _ fun _ _ h => h
      rintro _ _ rfl
      exact hcommits

theorem follows_setPasswordHash (userId : UserId) (passwordHash : String) :
    (setPasswordHash userId passwordHash).Follows (working setting).protocol .idle
      (Contract.Ends (fun _ stage => (working setting).commits stage) Fails) := by
  unfold setPasswordHash
  apply (follows_lockUser userId).bind
  rintro _ stage (rfl | ⟨user, shown, rfl, -, rfl⟩)
  · trivial
  · refine Workflow.follows_execute rfl (fun _ stage h => ?_) fun _ _ => trivial
    obtain rfl := h
    trivial

theorem follows_swap {x y : UserId} {user : User} {shown : AppUser}
    (hshown : appUser setting y user = some shown) (hactive : shown.isActive ≠ false) :
    (swap x shown).Follows (working setting).protocol (.both x y user)
      (Contract.Ends (fun _ stage => ∃ user, stage = .wrote y user) Fails) := by
  obtain ⟨rfl, hrole, hsame, -⟩ := appUser_eq hshown
  apply Prog.Follows.tryCatch (F := Fails)
  · apply Workflow.follows_step
    · exact ⟨rfl, hrole, by rw [← hsame]; exact Bool.not_eq_false _ ▸ hactive⟩
    · rintro - stage rfl
      exact Workflow.follows_execute ⟨rfl, rfl⟩ (fun _ _ h => h) fun _ _ => trivial
    · exact fun _ _ => trivial
  · exact fun _ _ _ => trivial

theorem follows_transferAdministrator (caller successorId : String) :
    (transferAdministrator setting caller successorId).Follows (working setting).protocol .idle
      (Contract.Ends (fun _ stage => (working setting).commits stage) Fails) := by
  unfold transferAdministrator
  apply Prog.Follows.bind (P := fun found stage => found = none ∨ ∃ id admin, found = some id ∧
    admin.roleId = adminRoleId ∧ stage = .held id admin)
  · apply Workflow.follows_step
    · trivial
    · rintro found stage rfl
      split
      · exact .inl rfl
      · exact Workflow.follows_execute trivial
          (fun _ _ h => h.imp_right fun ⟨admin, h⟩ => ⟨_, admin, h⟩) fun _ _ => trivial
    · exact fun _ _ => trivial
  · rintro _ stage (rfl | ⟨incumbent, admin, rfl, hadmin, rfl⟩)
    · trivial
    dsimp only
    split_ifs
    · trivial
    · trivial
    apply (follows_lockSuccessor successorId hadmin).bind
    rintro _ stage (rfl | ⟨y, user, shown, rfl, hshown, rfl⟩)
    · trivial
    dsimp only
    split_ifs with hactive
    · trivial
    apply (follows_swap hshown hactive).bind
    rintro - stage ⟨moved, rfl⟩
    apply Workflow.follows_step
    · trivial
    · rintro count stage ⟨rfl, rfl⟩
      exact trivial
    · exact fun _ _ => trivial

theorem follows_discard {α : Type} {p : UserProg α} (hp : p.Follows (working setting).protocol .idle
    (Contract.Ends (fun _ stage => (working setting).commits stage) Fails)) :
    (discard p).Follows (working setting).protocol .idle
      (Contract.Ends (fun _ stage => (working setting).commits stage) Fails) :=
  hp.bind fun _ _ h => h

theorem follows_program (sub : String) (call : Call) :
    (call.program setting sub).Follows (working setting).protocol .idle
      (Contract.Ends (fun _ _ => True) Fails) := by
  apply Workflow.follows_transaction (P := fun _ stage => (working setting).commits stage) (F := Fails)
  · apply Workflow.follows_step
    · trivial
    · rintro - stage rfl
      cases call with
      | createUser name email passwordHash roleCode =>
          exact follows_discard (follows_createUser name email passwordHash roleCode)
      | updateUser userId name email roleCode =>
          exact follows_discard (follows_updateUser userId name email roleCode)
      | setActive userId isActive => exact follows_discard (follows_setActive userId isActive)
      | setPasswordHash userId passwordHash => exact follows_setPasswordHash userId passwordHash
      | transferAdministrator caller successorId => exact follows_transferAdministrator caller successorId
    · exact fun _ _ => trivial
  · exact fun _ _ h => ⟨h, trivial, fun _ _ => ⟨trivial, fun _ => trivial⟩⟩
  · exact fun _ _ _ => trivial

end Programs

/-! ### Runs -/

section Runs

variable {T : Type} [DecidableEq T]

abbrev UserConfig (T : Type) : Type :=
  Config T (Request Statement) (Reply Result DbError) Failure Unit (UserDb T)

/-- All calls at their beginning, each in the name of its caller. -/
def initial (setting : Setting) (calls : T → String × Call) (rows : AList fun _ : UserId => User) :
    UserConfig T :=
  Config.initial (fun t => (calls t).2.program setting (calls t).1) (.ofRows rows)

def rowLocked : Statement → Option UserId
  | .lockUser id _ => some id
  | .lockAdministrator id => some id
  | .updateNameAndEmail id _ _ => some id
  | .updateRole id _ => some id
  | .updateActive id _ => some id
  | .updatePasswordHash id _ => some id
  | _ => none

/-- The next statement of `t` has to lock a row that another transaction `u` holds. -/
def WaitsFor (cfg : UserConfig T) (t u : T) : Prop :=
  u ≠ t ∧ ∃ (s : Statement) (k : Reply Result DbError (.execute s) → UserProg Unit) (id : UserId),
    cfg.threads t = some (.call (.execute s) k) ∧ rowLocked s = some id ∧
      cfg.state.users.owner id = some u

variable {setting : Setting} {cfg : UserConfig T} {t u v : T}

theorem serviceContract_implements : (serviceContract T).Implements (userServer T setting).machine
    fun _ => (working setting).protocol :=
  implements_workflow (fun _ _ _ _ _ h => ⟨trivial, h⟩) (service_answers setting)
    (service_refuses setting) (service_commits setting) (service_rollsBack setting)

theorem serviceContract_closed : (serviceContract T).Closed (userServer T setting).machine := by
  apply closed_of_rollsBack _ (fun _ _ _ h => h) fun _ _ h => h
  exact fun t db hinv => keeps_of_leaves hinv fun u hu => leaves_rollback hu db

omit [DecidableEq T] in
theorem holds_admin_of_waits {Q : T → Except Failure Unit → Stage → Prop}
    (hobeys : (serviceContract T).Obeys (fun _ => (working setting).protocol) Q cfg) (htu : WaitsFor cfg t u)
    (hvt : WaitsFor cfg v t) : ∃ x admin, cfg.state.users.rows.lookup x = some admin ∧
      admin.roleId = adminRoleId ∧ cfg.state.users.owner x = some t := by
  obtain ⟨hut, s, k, id, hthread, hlocked, howner⟩ := htu
  obtain ⟨-, -, -, held, -, -, hheld⟩ := hvt
  obtain ⟨stage, hat, hmay⟩ := hobeys.issues hthread
  have hat : At t cfg.state stage := hat
  have hmay : (working setting).may s stage := hmay
  have hother : cfg.state.users.owner id ≠ some t := by
    rw [howner]
    exact fun h => hut (Option.some.inj h)
  cases stage with
  | idle => exact absurd hheld (hat.2 held)
  | held x user =>
      have hx : Locked t cfg.state x user := hat
      cases s with
      | lockUser id' roleId => exact ⟨x, user, hx.row, hmay, hx.owner⟩
      | updateNameAndEmail id' name email =>
          obtain rfl := Option.some.inj hlocked
          obtain rfl : id' = x := hmay
          exact absurd hx.owner hother
      | updateActive id' isActive =>
          obtain rfl := Option.some.inj hlocked
          obtain ⟨rfl, -⟩ := hmay
          exact absurd hx.owner hother
      | updatePasswordHash id' passwordHash =>
          obtain rfl := Option.some.inj hlocked
          obtain rfl : id' = x := hmay
          exact absurd hx.owner hother
      | lockAdministrator id' => exact hmay.elim
      | updateRole id' roleId => exact hmay.elim
      | _ => cases hlocked
  | both x y user =>
      obtain ⟨⟨admin, hx, -⟩, -⟩ := hat
      cases s with
      | updateRole id' roleId =>
          obtain rfl := Option.some.inj hlocked
          obtain ⟨rfl, -⟩ := hmay
          exact absurd hx.owner hother
      | roleId code => cases hlocked
      | getUser id' => cases hlocked
      | _ => exact hmay.elim
  | moved y =>
      obtain ⟨-, hy, -⟩ := hat
      cases s with
      | updateRole id' roleId =>
          obtain rfl := Option.some.inj hlocked
          obtain ⟨rfl, -⟩ := hmay
          exact absurd hy hother
      | roleId code => cases hlocked
      | getUser id' => cases hlocked
      | _ => exact hmay.elim
  | wrote x user =>
      obtain ⟨-, hx, -⟩ := hat
      cases s with
      | updateRole id' roleId =>
          obtain rfl := Option.some.inj hlocked
          obtain ⟨rfl, -⟩ := hmay
          exact absurd hx hother
      | roleId code => cases hlocked
      | getUser id' => cases hlocked
      | administratorCount => cases hlocked
      | _ => exact hmay.elim

omit [DecidableEq T] in
/-- Two transactions cannot both hold the one ADMIN row, so no circle of waits closes. -/
theorem no_circle {Q : T → Except Failure Unit → Stage → Prop}
    (hobeys : (serviceContract T).Obeys (fun _ => (working setting).protocol) Q cfg) (t : T) :
    ¬ Relation.TransGen (WaitsFor cfg) t t := by
  intro hcircle
  obtain ⟨u, htu, hrest⟩ := Relation.TransGen.head'_iff.mp hcircle
  obtain ⟨v, -, hvt⟩ := Relation.TransGen.tail'_iff.mp hcircle
  obtain ⟨w, huw⟩ : ∃ w, WaitsFor cfg u w := by
    rcases Relation.ReflTransGen.cases_head hrest with hsame | ⟨w, huw, -⟩
    · exact absurd hsame htu.1
    · exact ⟨w, huw⟩
  obtain ⟨x, admin, hx, hadmin, hxt⟩ := holds_admin_of_waits hobeys htu hvt
  obtain ⟨y, admin', hy, hadmin', hyu⟩ := holds_admin_of_waits hobeys huw htu
  obtain ⟨id, -, honly⟩ := hobeys.inv
  have hxy : x = y := (honly x admin hx hadmin).trans (honly y admin' hy hadmin').symm
  exact htu.1 (Option.some.inj (hyu.symm.trans (hxy ▸ hxt)))

end Runs

/-! ### A transfer -/

def transferCall : Unit → String × Call := fun _ => ("1", .transferAdministrator "1" "2")

def transferTurn : (t : Unit) → (r : Request Statement) → UserDb Unit →
    Option (Reply Result DbError r × UserDb Unit) :=
  (userServer Unit .plain).respond (UserDb.answer .plain 3) (UserDb.refusal .plain 3)

theorem reaches_of_transferTurn {turns : List Unit} {cfg cfg' : UserConfig Unit}
    (hrun : schedule transferTurn turns cfg = some cfg') :
    (userServer Unit .plain).machine.Reaches cfg cfg' := by
  have hanswer : ∀ t s db v db', UserDb.answer .plain 3 t s db = some (v, db') →
      (userServer Unit .plain).answers t s db v db' := fun _ _ _ _ _ h => ⟨3, h⟩
  have hrefuse : ∀ t s db e, UserDb.refusal .plain 3 t s db = some e →
      (userServer Unit .plain).refuses t s db e := fun _ _ _ _ h => ⟨3, h⟩
  have hturn : ∀ t (r : Request Statement) db v db', transferTurn t r db = some (v, db') →
      (userServer Unit .plain).machine.step t r db v db' :=
    fun _ _ _ _ _ h => Server.step_of_respond hanswer hrefuse h
  exact Machine.reaches_of_schedule _ hturn turns hrun

end RetailSegmentation.Users.Service
