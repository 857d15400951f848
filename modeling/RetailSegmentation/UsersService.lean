import RetailSegmentation.AdministratorSeat

/-! users-service (`services/users`). Every operation judges the row it has locked; the seat moves only
through a transfer, which locks the ADMIN row first and the successor's next. -/

namespace RetailSegmentation.Users.Service

open Program Transactions

/-! ### Errors -/

def singleAdministrator : ApiError :=
  ⟨409, "single_administrator",
    "This system has exactly one administrator, and the role is already taken.", []⟩

def userNotFound : ApiError := ⟨404, "user_not_found", "The user does not exist.", []⟩

def invalidSuccessor (message : String) : ApiError :=
  ⟨422, "invalid_successor", message, [⟨"successor_user_id", "invalid"⟩]⟩

def emailTaken : ApiError :=
  ⟨409, "email_taken", "A user with that email already exists.", [⟨"email", "not_unique"⟩]⟩

def unknownRole : ApiError :=
  ⟨422, "unknown_role", "No role has that code.", [⟨"role_code", "unknown"⟩]⟩

def blankName : ApiError :=
  ⟨422, "invalid_body", "The request body violates its schema.", [⟨"name", "too_short"⟩]⟩

def useAdministratorTransfer : ApiError :=
  ⟨409, "use_administrator_transfer",
    "The administrator role moves only through an administrator transfer.", []⟩

def administratorRequired : ApiError :=
  ⟨409, "administrator_required",
    "This is the only administrator, and the system may not be left without one.", []⟩

def successorInactive : ApiError :=
  ⟨409, "successor_inactive", "The successor is inactive.", [⟨"successor_user_id", "inactive"⟩]⟩

def unavailable : ApiError := ⟨503, "database_unavailable", "The service database is unavailable.", []⟩

/-- What leaves the kit's connection: an `OperationalError` as 503. -/
def kitFailure : DbError → Failure
  | .deadlockDetected => .api unavailable
  | .serializationFailure => .api unavailable
  | .operationalError => .api unavailable
  | e => .database e

/-- The index's refusal in the rule's words, by constraint name. -/
def translate : Failure → Failure
  | .database (.uniqueViolation "ux_app_user_single_administrator") => .api singleAdministrator
  | .database (.uniqueViolation "ux_app_user_email_lower") => .api emailTaken
  | e => e

/-! ### Rules -/

abbrev UserProg (α : Type) : Type := SqlProg Result DbError Failure α

def execute (s : Statement) : UserProg (Result s) := Transactions.execute kitFailure s

section Rules

variable (setting : Setting)

/-- The name as stored: trimmed, and refused when nothing is left. -/
def cleanName (name : String) : UserProg String :=
  if setting.strip name = "" then .raise (.api blankName) else .ret (setting.strip name)

/-- `get_user(…, lock=True)`. -/
def lockUser (id : UserId) : UserProg (Option AppUser) := do
  match ← execute (.getUser id) with
  | none => .ret none
  | some seen => execute (.lockUser id seen.roleId)

def requireUser (id : UserId) : UserProg AppUser := do
  match ← execute (.getUser id) with
  | none => .raise (.api userNotFound)
  | some user => .ret user

def roleId (roleCode : String) : UserProg ℤ := do
  match ← execute (.roleId roleCode) with
  | none => .raise (.api unknownRole)
  | some id => .ret id

/-- Create an account; an ADMIN is never created here, only transferred. -/
def createUser (name email passwordHash roleCode : String) : UserProg AppUser := do
  let name ← cleanName setting name
  if roleCode = adminRoleCode then .raise (.api singleAdministrator)
  else do
    let newRole ← roleId roleCode
    let userId ← (execute (.insertUser newRole name (normalizeEmail setting email) passwordHash)).tryCatch
      fun e => .raise (translate e)
    requireUser userId

/-- The role an edit asks for, which is never given or taken as ADMIN. -/
def newRoleId (user : AppUser) : Option String → UserProg ℤ
  | none => .ret user.roleId
  | some roleCode =>
    if roleCode = user.roleCode then .ret user.roleId
    else if roleCode = adminRoleCode ∨ user.roleCode = adminRoleCode then .raise (.api useAdministratorTransfer)
    else roleId roleCode

def editUser (user : AppUser) (name email : Option String) (newRole : ℤ) : UserProg Unit :=
  (do
    execute (.updateNameAndEmail user.userId (name.getD user.name)
      (email.elim user.email (normalizeEmail setting)))
    if newRole ≠ user.roleId then execute (.updateRole user.userId newRole) else .ret ()).tryCatch
    fun e => .raise (translate e)

def updateUser (userId : UserId) (name email roleCode : Option String) : UserProg AppUser := do
  let name ← name.elim (.ret none) fun name => cleanName setting name >>= fun name => .ret (some name)
  match ← lockUser userId with
  | none => .raise (.api userNotFound)
  | some user => do
    let newRole ← newRoleId user roleCode
    editUser setting user name email newRole
    requireUser userId

def checkDeactivation (user : AppUser) (isActive : Bool) : UserProg Unit :=
  if isActive = false ∧ user.roleCode = adminRoleCode then do
    let count ← execute .administratorCount
    if count ≤ 1 then .raise (.api administratorRequired) else .ret ()
  else .ret ()

def changeActive (user : AppUser) (isActive : Bool) : UserProg Unit :=
  if user.isActive ≠ isActive then execute (.updateActive user.userId isActive) else .ret ()

/-- Deactivate or reactivate; never deactivate the only ADMIN. -/
def setActive (userId : UserId) (isActive : Bool) : UserProg AppUser := do
  match ← lockUser userId with
  | none => .raise (.api userNotFound)
  | some user => do
    checkDeactivation user isActive
    changeActive user isActive
    requireUser userId

/-- The transaction of a password change. -/
def setPasswordHash (userId : UserId) (passwordHash : String) : UserProg Unit := do
  match ← lockUser userId with
  | none => .raise (.api userNotFound)
  | some _ => execute (.updatePasswordHash userId passwordHash)

/-- `SELECT user_id FROM app_user WHERE role_id = 1 FOR UPDATE`. -/
def lockAdministrator : UserProg (Option UserId) := do
  match ← execute .administrator with
  | none => .ret none
  | some id => execute (.lockAdministrator id)

/-- The successor's row, locked; a text that PostgreSQL reads no UUID in is an error of the statement. -/
def lockSuccessor (successorId : String) : UserProg (Option AppUser) :=
  match setting.uuid successorId with
  | none => .raise (.database (.dataError .invalidTextRepresentation))
  | some id => lockUser id

/-- The incumbent takes the successor's role before the successor is promoted. -/
def swap (incumbent : UserId) (successor : AppUser) : UserProg Unit :=
  (do
    execute (.updateRole incumbent successor.roleId)
    execute (.updateRole successor.userId adminRoleId)).tryCatch fun e => .raise (translate e)

def transferAdministrator (caller successorId : String) : UserProg Unit := do
  match ← lockAdministrator with
  | none => .raise (.api singleAdministrator)
  | some incumbent =>
    if setting.uuidText incumbent ≠ caller then .raise (.api singleAdministrator)
    else if successorId = setting.uuidText incumbent then
      .raise (.api (invalidSuccessor "The successor is already the administrator."))
    else do
      match ← lockSuccessor setting successorId with
      | none => .raise (.api (invalidSuccessor "The successor does not exist."))
      | some successor =>
        if successor.isActive = false then .raise (.api successorInactive)
        else do
          swap incumbent successor
          let count ← execute .administratorCount
          if count ≠ 1 then .raise (.api singleAdministrator) else .ret ()

end Rules

/-! ### Operations -/

inductive Call where
  | createUser (name email passwordHash roleCode : String)
  | updateUser (userId : UserId) (name email roleCode : Option String)
  | setActive (userId : UserId) (isActive : Bool)
  | setPasswordHash (userId : UserId) (passwordHash : String)
  | transferAdministrator (caller successorId : String)

def discard {α : Type} (p : UserProg α) : UserProg Unit := p >>= fun _ => .ret ()

def Call.rule (setting : Setting) : Call → UserProg Unit
  | createUser name email passwordHash roleCode =>
    discard (Service.createUser setting name email passwordHash roleCode)
  | updateUser userId name email roleCode => discard (Service.updateUser setting userId name email roleCode)
  | setActive userId isActive => discard (Service.setActive userId isActive)
  | setPasswordHash userId passwordHash => Service.setPasswordHash userId passwordHash
  | transferAdministrator caller successorId => Service.transferAdministrator setting caller successorId

/-- `with kit.db.transaction()`, in the name of `sub`. -/
def Call.program (setting : Setting) (sub : String) (call : Call) : UserProg Unit :=
  transaction kitFailure (execute (.setConfig sub) >>= fun _ => call.rule setting)

end RetailSegmentation.Users.Service
