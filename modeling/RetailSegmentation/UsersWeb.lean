import RetailSegmentation.AdministratorSeat

/-! User administration in the web application (`web/services/users.py`). Its checks read the user and the
number of administrators without locking anything; its writes name a row by its id alone. -/

namespace RetailSegmentation.Users.Web

open Program Transactions

/-! ### Errors -/

def secondAdministrator : String :=
  "This system has exactly one administrator, and the role is already taken. " ++
    "Move the current administrator to another role first, or choose a different role for this user."

def lastAdministrator : String :=
  "This is the only administrator, and the system may not be left without one. " ++
    "Appoint another administrator first."

inductive UserFailure where
  | singleAdministrator (message : String)
  | duplicateEmail (message : String)
  | unknownRole (roleCode : String)
  | unknownUser (userId : UserId)
  | database (error : DbError)
  deriving DecidableEq, Repr

/-- The index's refusal in the words of the application's check. -/
def translateUniqueViolation : UserFailure → UserFailure
  | .database (.uniqueViolation "ux_app_user_single_administrator") =>
    .singleAdministrator secondAdministrator
  | .database (.uniqueViolation _) => .duplicateEmail "A user with that email already exists."
  | e => e

abbrev UserProg (α : Type) : Type := SqlProg Result DbError UserFailure α

def execute (s : Statement) : UserProg (Result s) := Transactions.execute .database s

def translated (s : Statement) : UserProg (Result s) :=
  (execute s).tryCatch fun e => .raise (translateUniqueViolation e)

/-! ### Operations -/

section Operations

variable (setting : Setting)

def roleId (roleCode : String) : UserProg ℤ := do
  match ← execute (.roleId roleCode) with
  | none => .raise (.unknownRole roleCode)
  | some id => .ret id

def user (userId : UserId) : UserProg AppUser := do
  match ← execute (.getUser userId) with
  | none => .raise (.unknownUser userId)
  | some user => .ret user

def refuseASecondAdministrator : UserProg Unit := do
  let count ← execute .countAdministrators
  if count > 0 then .raise (.singleAdministrator secondAdministrator) else .ret ()

/-- Refuse a write that would take the last administrator away. -/
def refuseLeavingNobody : UserProg Unit := do
  let count ← execute .countAdministrators
  if count ≤ 1 then .raise (.singleAdministrator lastAdministrator) else .ret ()

def checkNewRole (roleCode : String) : UserProg Unit :=
  if roleCode = adminRoleCode then refuseASecondAdministrator else .ret ()

/-- Create a user, refusing a second administrator. -/
def createUser (name email password roleCode : String) : UserProg UserId := do
  let roleId ← roleId roleCode
  checkNewRole roleCode
  translated (.insertUser roleId name (normalizeEmail setting email) (setting.hashPassword password))

def checkRole (user : AppUser) (roleCode : String) : UserProg Unit :=
  if roleCode = adminRoleCode then refuseASecondAdministrator
  else if user.roleCode = adminRoleCode then refuseLeavingNobody
  else .ret ()

def changeRole (userId : UserId) (roleCode : String) : UserProg Unit := do
  let user ← user userId
  let roleId ← roleId roleCode
  if roleCode = user.roleCode then .ret ()
  else do
    checkRole user roleCode
    translated (.updateRole user.userId roleId)

/-- Correct an existing account's name, email and role. -/
def updateUser (userId : UserId) (name email roleCode : String) : UserProg Unit := do
  translated (.updateNameAndEmail userId (setting.strip name) (normalizeEmail setting email))
  changeRole userId roleCode

/-- What follows a deactivation: its sessions end, and the holders of `user.write` are told of a change. -/
def announce (user : AppUser) : UserProg Unit := do
  execute (.revokeUserSessions user.userId)
  if user.isActive then execute (.notifyUserDeactivated user.userId) else .ret ()

def checkDeactivation (user : AppUser) (isActive : Bool) : UserProg Unit :=
  if isActive = false ∧ user.roleCode = adminRoleCode then refuseLeavingNobody else .ret ()

/-- Activate or deactivate a user, never the sole administrator. -/
def setActive (userId : UserId) (isActive : Bool) : UserProg Unit := do
  let user ← user userId
  checkDeactivation user isActive
  execute (.updateActive user.userId isActive)
  if isActive = false then announce user else .ret ()

/-- Hand the administrator role from one user to another: demote, and then promote. -/
def transferAdministrator (fromUserId toUserId : UserId) : UserProg Unit := do
  let incumbent ← user fromUserId
  let successor ← user toUserId
  if incumbent.roleCode ≠ adminRoleCode then
    .raise (.singleAdministrator
      (incumbent.email ++ " is not the administrator, so there is nothing to transfer."))
  else if incumbent.userId = successor.userId then .ret ()
  else do
    let administrator ← roleId adminRoleCode
    execute (.updateRole incumbent.userId successor.roleId)
    translated (.updateRole successor.userId administrator)

/-- The account that holds the role: its id, and then its row. -/
def soleAdministrator : UserProg AppUser := do
  match ← execute .soleAdministrator with
  | none => .raise (.singleAdministrator "There is no administrator to replace.")
  | some id => do
    match ← execute (.getUser id) with
    | none => .raise (.singleAdministrator "There is no administrator to replace.")
    | some user => .ret user

/-- What a successor is created as for the moment before the role moves onto it. -/
def placeholderRoleCode : String := "ANALYST"

/-- Make a new account the one administrator, whoever holds the role now. -/
def installAdministrator (name email password : String) : UserProg UserId := do
  let count ← execute .countAdministrators
  if count = 0 then createUser setting name email password adminRoleCode
  else do
    let incumbent ← soleAdministrator
    let successor ← createUser setting name email password placeholderRoleCode
    transferAdministrator incumbent.userId successor
    .ret successor

end Operations

inductive Call where
  | createUser (name email password roleCode : String)
  | changeRole (userId : UserId) (roleCode : String)
  | updateUser (userId : UserId) (name email roleCode : String)
  | setActive (userId : UserId) (isActive : Bool)
  | transferAdministrator (fromUserId toUserId : UserId)
  | installAdministrator (name email password : String)

/-- What a call runs inside its one transaction. -/
def Call.body (setting : Setting) : Call → UserProg Unit
  | createUser name email password roleCode =>
    Web.createUser setting name email password roleCode >>= fun _ => .ret ()
  | changeRole userId roleCode => Web.changeRole userId roleCode
  | updateUser userId name email roleCode => Web.updateUser setting userId name email roleCode
  | setActive userId isActive => Web.setActive userId isActive
  | transferAdministrator fromUserId toUserId => Web.transferAdministrator fromUserId toUserId
  | installAdministrator name email password =>
    Web.installAdministrator setting name email password >>= fun _ => .ret ()

/-- An operation commits what it has written, and rolls back on an exception. -/
def Call.program (setting : Setting) (call : Call) : UserProg Unit := atomic .database (call.body setting)

end RetailSegmentation.Users.Web
