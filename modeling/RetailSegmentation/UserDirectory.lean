import Mathlib.Data.Int.Notation
import Mathlib.Data.Nat.Notation
import RetailSegmentation.KitErrors
import RetailSegmentation.TransactionServer
import RetailSegmentation.TransactionTables

/-! The accounts (`app_user`), which the web application and users-service both write. Exactly one of them
is to hold the role ADMIN: a partial unique index forbids two, and nothing in the schema forbids none. -/

namespace RetailSegmentation.Users

open Program Transactions

abbrev UserId := BitVec 128

/-! ### Roles and users -/

def adminRoleId : ℤ := 1

def adminRoleCode : String := "ADMIN"

/-- The rows of `role`: ADMIN is role 1, and no other (`role_admin_code_bound_to_reserved_id`). -/
structure Roles where
  codes : AList fun _ : ℤ => String
  admin : codes.lookup adminRoleId = some adminRoleCode
  reserved : ∀ id, codes.lookup id = some adminRoleCode → id = adminRoleId

/-- `SELECT role_id FROM role WHERE code = %s`. -/
def Roles.idOf (roles : Roles) (code : String) : Option ℤ :=
  (roles.codes.entries.find? fun e => e.2 = code).map Sigma.fst

theorem Roles.lookup_idOf {roles : Roles} {code : String} {id : ℤ} (h : roles.idOf code = some id) :
    roles.codes.lookup id = some code := by
  obtain ⟨⟨id', code'⟩, hfound, rfl⟩ := Option.map_eq_some_iff.mp h
  have hcode := List.find?_some hfound
  obtain rfl : code' = code := of_decide_eq_true hcode
  exact AList.mem_lookup_iff.mpr (List.mem_of_find?_eq_some hfound)

theorem Roles.idOf_admin {roles : Roles} {code : String} (h : roles.idOf code = some adminRoleId) :
    code = adminRoleCode :=
  Option.some.inj ((Roles.lookup_idOf h).symm.trans roles.admin)

/-- The roles a database starts with. -/
def Roles.seed : Roles where
  codes := ⟨[⟨1, "ADMIN"⟩, ⟨2, "ANALYST"⟩, ⟨3, "STORE_MANAGER"⟩, ⟨4, "MARKETING"⟩, ⟨5, "INVENTORY_PLANNER"⟩,
    ⟨6, "AUDITOR"⟩, ⟨7, "CUSTOMER"⟩], show List.Nodup _ from by decide⟩
  admin := rfl
  reserved id h := by
    have hmem := AList.mem_lookup_iff.mp h
    simpa [adminRoleCode, adminRoleId] using hmem

/-- A row of `app_user`. -/
structure User where
  roleId : ℤ
  name : String
  email : String
  passwordHash : String
  isActive : Bool
  deriving DecidableEq, Repr

/-- A row of `app_user` joined with the code of its role. -/
structure AppUser where
  userId : UserId
  roleId : ℤ
  roleCode : String
  name : String
  email : String
  passwordHash : String
  isActive : Bool
  deriving DecidableEq, Repr

/-- What the accounts rest on: the roles, the functions of Python and of PostgreSQL on texts, and what the
column types and checks of a row refuse. -/
structure Setting where
  roles : Roles
  strip : String → String
  lower : String → String
  sqlLower : String → String
  hashPassword : String → String
  uuidText : UserId → String
  uuid : String → Option UserId
  columnRefusal : User → Option DbError

/-- The setting of texts that need no trimming and no lower-casing, the UUIDs being those up to 2. -/
def Setting.plain : Setting where
  roles := .seed
  strip := id
  lower := id
  sqlLower := id
  hashPassword := id
  uuidText id := if id = 1 then "1" else "2"
  uuid text := if text = "1" then some 1 else if text = "2" then some 2 else none
  columnRefusal _ := none

/-- One spelling per mailbox: trimmed and lower-cased. -/
def normalizeEmail (setting : Setting) (email : String) : String := setting.lower (setting.strip email)

/-- `JOIN role AS r ON r.role_id = u.role_id`. -/
def appUser (setting : Setting) (id : UserId) (user : User) : Option AppUser :=
  (setting.roles.codes.lookup user.roleId).map fun code =>
    ⟨id, user.roleId, code, user.name, user.email, user.passwordHash, user.isActive⟩

/-- What the unique indexes of a row hold, apart from its primary key. -/
inductive Entry where
  | seat
  | email (key : String)
  deriving DecidableEq, Repr

namespace Entry

def index : Entry → String
  | seat => "ux_app_user_single_administrator"
  | email _ => "ux_app_user_email_lower"

end Entry

/-- The entries of a row, in the order its indexes were created. -/
def User.entries (setting : Setting) (user : User) : List Entry :=
  (if user.roleId = adminRoleId then [.seat] else []) ++ [.email (setting.sqlLower user.email)]

/-! ### Tables -/

/-- The accounts, and the open transaction that has touched each index entry. -/
structure UserDb (T : Type) where
  users : Table T UserId User
  touched : Entry → Option T

inductive Statement where
  | setConfig (sub : String)
  | roleId (code : String)
  | getUser (id : UserId)
  | lockUser (id : UserId) (roleId : ℤ)
  | countAdministrators
  | administratorCount
  | soleAdministrator
  | administrator
  | lockAdministrator (id : UserId)
  | insertUser (roleId : ℤ) (name email passwordHash : String)
  | updateNameAndEmail (id : UserId) (name email : String)
  | updateRole (id : UserId) (roleId : ℤ)
  | updateActive (id : UserId) (isActive : Bool)
  | updatePasswordHash (id : UserId) (passwordHash : String)
  | revokeUserSessions (id : UserId)
  | notifyUserDeactivated (id : UserId)
  deriving DecidableEq, Repr

abbrev Result : Statement → Type
  | .setConfig _ => Unit
  | .roleId _ => Option ℤ
  | .getUser _ => Option AppUser
  | .lockUser _ _ => Option AppUser
  | .countAdministrators => ℕ
  | .administratorCount => ℕ
  | .soleAdministrator => Option UserId
  | .administrator => Option UserId
  | .lockAdministrator _ => Option UserId
  | .insertUser _ _ _ _ => UserId
  | .updateNameAndEmail _ _ _ => Unit
  | .updateRole _ _ => Unit
  | .updateActive _ _ => Unit
  | .updatePasswordHash _ _ => Unit
  | .revokeUserSessions _ => Unit
  | .notifyUserDeactivated _ => Unit

namespace UserDb

variable {T : Type} [DecidableEq T]

def ofRows (rows : AList fun _ : UserId => User) : UserDb T := ⟨.ofRows rows, fun _ => none⟩

def holdsAdminCode (setting : Setting) (user : User) : Bool :=
  setting.roles.codes.lookup user.roleId = some adminRoleCode

/-- Try the entries of a new version of row `id` in turn: one that another open transaction has touched is
waited for (`none`), and one that another row has is a violation. -/
def tryEntries (setting : Setting) (t : T) (db : UserDb T) (id : UserId) :
    List Entry → Except (Option DbError) Unit
  | [] => .ok ()
  | entry :: rest =>
    if db.touched entry ≠ none ∧ db.touched entry ≠ some t then .error none
    else if (db.users.view t).entries.any (fun e => e.1 ≠ id ∧ entry ∈ e.2.entries setting) then
      .error (some (.uniqueViolation entry.index))
    else db.tryEntries setting t id rest

/-- Write a version of row `id`, touching the entries of the old version and of the new one. -/
def write (setting : Setting) (t : T) (db : UserDb T) (id : UserId) (user : User) :
    Except (Option DbError) (UserDb T) :=
  match setting.columnRefusal user with
  | some e => .error (some e)
  | none =>
    if hfree : db.users.Free t id then
      match db.tryEntries setting t id (user.entries setting) with
      | .error e => .error e
      | .ok _ =>
        if (setting.roles.codes.lookup user.roleId).isNone then
          .error (some (.foreignKeyViolation "app_user_role_id_fkey"))
        else
          let entries := ((db.users.get t id).elim [] (User.entries setting)) ++ user.entries setting
          .ok {
            users := db.users.put t id (some user) hfree
            touched := fun entry =>
              if entry ∈ entries ∧ db.touched entry = none then some t else db.touched entry }
    else .error none

/-- `UPDATE app_user SET … WHERE user_id = %s`. -/
def update (setting : Setting) (t : T) (db : UserDb T) (id : UserId) (change : User → User) :
    Except (Option DbError) (UserDb T) :=
  match db.users.get t id with
  | none => .ok db
  | some user => db.write setting t id (change user)

/-- `INSERT INTO app_user …`, under the id drawn for it. -/
def insert (setting : Setting) (t : T) (db : UserDb T) (id : UserId) (user : User) :
    Except (Option DbError) (UserDb T) :=
  match setting.columnRefusal user with
  | some e => .error (some e)
  | none =>
    if (db.users.get t id).isSome then .error (some (.uniqueViolation "app_user_pkey"))
    else db.write setting t id user

/-- What a write makes of the tables: `.error none` while it waits for a lock. -/
def writes (setting : Setting) (drawn : UserId) (t : T) (db : UserDb T) :
    Statement → Except (Option DbError) (UserDb T)
  | .insertUser roleId name email passwordHash =>
    db.insert setting t drawn ⟨roleId, name, email, passwordHash, true⟩
  | .updateNameAndEmail id name email => db.update setting t id fun user => { user with name, email }
  | .updateRole id roleId => db.update setting t id fun user => { user with roleId }
  | .updateActive id isActive => db.update setting t id fun user => { user with isActive }
  | .updatePasswordHash id passwordHash => db.update setting t id fun user => { user with passwordHash }
  | _ => .ok db

/-- The tables after a write, where it neither waits nor is refused. -/
def written (setting : Setting) (drawn : UserId) (t : T) (db : UserDb T) (s : Statement) (v : Result s) :
    Option (Result s × UserDb T) :=
  match db.writes setting drawn t s with
  | .ok db' => some (v, db')
  | .error _ => none

/-- The answer to a statement and the tables after it; `none` while it waits, or where it is refused. A
`SELECT … FOR UPDATE` is two statements: the snapshot it finds its row in, and the lock, under which its
conditions are evaluated again. The role it was joined with is not locked, so that the join with it fails
where the row has meanwhile taken another role. -/
def answer (setting : Setting) (drawn : UserId) (t : T) :
    (s : Statement) → UserDb T → Option (Result s × UserDb T)
  | .setConfig _, db => some ((), db)
  | .roleId code, db => some (setting.roles.idOf code, db)
  | .getUser id, db => some ((db.users.get t id).bind (appUser setting id), db)
  | .lockUser id roleId, db =>
    match db.users.get t id with
    | none => some (none, db)
    | some user =>
      if hfree : db.users.Free t id then
        some (if user.roleId = roleId then appUser setting id user else none,
          { db with users := db.users.lock t id hfree })
      else none
  | .countAdministrators, db =>
    some (((db.users.view t).entries.filter fun e => holdsAdminCode setting e.2).length, db)
  | .administratorCount, db =>
    some (((db.users.view t).entries.filter fun e => e.2.roleId = adminRoleId).length, db)
  | .soleAdministrator, db =>
    some (((db.users.view t).entries.find? fun e => holdsAdminCode setting e.2).map Sigma.fst, db)
  | .administrator, db =>
    some (((db.users.view t).entries.find? fun e => e.2.roleId = adminRoleId).map Sigma.fst, db)
  | .lockAdministrator id, db =>
    match db.users.get t id with
    | none => some (none, db)
    | some user =>
      if hfree : db.users.Free t id then
        some (if user.roleId = adminRoleId then some id else none,
          { db with users := db.users.lock t id hfree })
      else none
  | .insertUser roleId name email passwordHash, db =>
    db.written setting drawn t (.insertUser roleId name email passwordHash) drawn
  | .updateNameAndEmail id name email, db =>
    db.written setting drawn t (.updateNameAndEmail id name email) ()
  | .updateRole id roleId, db => db.written setting drawn t (.updateRole id roleId) ()
  | .updateActive id isActive, db => db.written setting drawn t (.updateActive id isActive) ()
  | .updatePasswordHash id passwordHash, db =>
    db.written setting drawn t (.updatePasswordHash id passwordHash) ()
  | .revokeUserSessions _, db => some ((), db)
  | .notifyUserDeactivated _, db => some ((), db)

def refusal (setting : Setting) (drawn : UserId) (t : T) (s : Statement) (db : UserDb T) : Option DbError :=
  match db.writes setting drawn t s with
  | .error e => e
  | .ok _ => none

def release (t : T) (db : UserDb T) (entry : Entry) : Option T :=
  if db.touched entry = some t then none else db.touched entry

def commit (t : T) (db : UserDb T) : UserDb T := ⟨db.users.commit t, db.release t⟩

def rollback (t : T) (db : UserDb T) : UserDb T := ⟨db.users.rollback t, db.release t⟩

end UserDb

/-- The reply of a commit may be lost. -/
def userServer (T : Type) [DecidableEq T] (setting : Setting) :
    Server T Statement Result DbError (UserDb T) where
  answers t s db v db' := ∃ drawn, UserDb.answer setting drawn t s db = some (v, db')
  refuses t s db e := ∃ drawn, UserDb.refusal setting drawn t s db = some e
  aborts := IsAbort
  commit := UserDb.commit
  rollback := UserDb.rollback
  losesReplies := True

end RetailSegmentation.Users
