import Mathlib.Data.List.Sort
import RetailSegmentation.KitErrors
import RetailSegmentation.ProgramProtocol
import RetailSegmentation.RedisStore

/-! The sessions of auth-service (`services/auth`): sign-in, refresh rotation, revocation and reconciliation,
over the keys it keeps in Redis. Every command is one step, a MULTI block is one step, and a pipeline without
MULTI is as many steps as it has commands. -/

namespace RetailSegmentation.Sessions

open Program Redis

/-! ### Keys -/

abbrev Sid := String

abbrev UserId := String

abbrev Fingerprint := String

/-- `auth:session:{sid}`. -/
structure Session where
  userId : UserId
  role : String
  expiresAt : ℕ
  passwordFingerprint : String
  deriving DecidableEq, Repr

inductive RefreshState where
  | current | rotated
  deriving DecidableEq, Repr

/-- `auth:refresh:{sha256}`, of whose fields any may be missing. -/
structure RefreshEntry where
  sid : Option Sid
  state : Option RefreshState
  deriving DecidableEq, Repr

inductive SetKey where
  | userSids (userId : UserId)
  | family (sid : Sid)
  | sessionUsers
  deriving DecidableEq, Repr

inductive Key where
  | session (sid : Sid)
  | refresh (fingerprint : Fingerprint)
  | live (sid : Sid)
  | members (set : SetKey)
  deriving DecidableEq, Repr

abbrev Value : Key → Type
  | .session _ => Session
  | .refresh _ => RefreshEntry
  | .live _ => String
  | .members _ => List String

/-- Refresh entries and their family outlive the session by this much. -/
def expiredRefreshGraceSeconds : ℕ := 86400

/-- The commands that change keys. -/
inductive Write where
  | hsetSession (sid : Sid) (session : Session)
  | hsetRefresh (fingerprint : Fingerprint) (sid : Sid)
  | hsetState (fingerprint : Fingerprint) (state : RefreshState)
  | setLive (sid : Sid)
  | sadd (set : SetKey) (member : String)
  | srem (set : SetKey) (member : String)
  | expireAt (key : Key) (seconds : ℕ)
  | del (keys : List Key)
  deriving DecidableEq, Repr

section Writes

variable {T : Type}

/-- What is left of a set is gone with its last member. -/
def sremove (store : Store T Key Value) (set : SetKey) (member : String) : Store T Key Value :=
  match store.get (.members set) with
  | none => store
  | some members =>
    if members.filter (· ≠ member) = [] then store.del (.members set)
    else store.write (.members set) (members.filter (· ≠ member))

def Write.apply (store : Store T Key Value) : Write → Store T Key Value
  | hsetSession sid session => store.write (.session sid) session
  | hsetRefresh fingerprint sid => store.write (.refresh fingerprint) ⟨some sid, some .current⟩
  | hsetState fingerprint state =>
    store.write (.refresh fingerprint) ⟨(store.get (.refresh fingerprint)).bind RefreshEntry.sid, some state⟩
  | setLive sid => store.set (.live sid) (some ⟨"1", none⟩)
  | sadd set member => store.write (.members set) (((store.get (.members set)).getD []).insert member)
  | srem set member => sremove store set member
  | expireAt key seconds => store.expireAt key (seconds * 1000)
  | del keys => store.dels keys

def applyAll (store : Store T Key Value) (writes : List Write) : Store T Key Value :=
  writes.foldl Write.apply store

end Writes

/-! ### Commands -/

/-- A row of the published view `api_users.credential_v1`. -/
structure Credential where
  userId : UserId
  passwordHash : String
  isActive : Bool
  roleCode : String
  deriving DecidableEq, Repr

/-- Clock, random draws, the credential view, and Redis. -/
inductive Command where
  | time
  | uuid
  | token
  | credentialByEmail (emailLower : String)
  | credentialByUser (userId : UserId)
  | credentialsByUser (userIds : List UserId)
  | hgetallRefresh (fingerprint : Fingerprint)
  | hgetallSession (sid : Sid)
  | smembers (set : SetKey)
  | write (write : Write)
  | watch (key : Key)
  | unwatch
  | exec (writes : List Write)
  | waitAof
  deriving DecidableEq, Repr

def Command.viewed : Command → Bool
  | credentialByEmail _ | credentialByUser _ | credentialsByUser _ => true
  | _ => false

/-- Whether a command goes to Redis. -/
def Command.sent : Command → Bool
  | time | uuid | token | credentialByEmail _ | credentialByUser _ | credentialsByUser _ => false
  | _ => true

abbrev Answer : Command → Type
  | .time => ℕ
  | .uuid => String
  | .token => String
  | .credentialByEmail _ => Option Credential
  | .credentialByUser _ => Option Credential
  | .credentialsByUser _ => List Credential
  | .hgetallRefresh _ => Option RefreshEntry
  | .hgetallSession _ => Option Session
  | .smembers _ => List String
  | .write _ => Unit
  | .watch _ => Unit
  | .unwatch => Unit
  | .exec _ => Unit
  | .waitAof => ℕ

/-- `ApiError` of the kit's database, `RedisError`, and the `WatchError` among them. -/
inductive Trouble where
  | database | redis | watch
  deriving DecidableEq, Repr

abbrev Reply (c : Command) : Type := Except Trouble (Answer c)

def databaseUnavailable : ApiError :=
  ⟨503, "database_unavailable", "The service database is unavailable.", []⟩

def authUnavailable : ApiError := ⟨503, "auth_unavailable", "Session state is temporarily unavailable.", []⟩

def unavailable : Trouble → ApiError
  | .database => databaseUnavailable
  | _ => authUnavailable

/-- `unfinished`: still retrying after the attempts it has been given. -/
inductive AuthFailure where
  | api (error : ApiError)
  | unfinished
  deriving DecidableEq, Repr

abbrev AuthProg (α : Type) : Type := Prog Command Reply AuthFailure α

def ask (c : Command) : AuthProg (Answer c) :=
  .call c fun r => match r with
    | .ok v => .ret v
    | .error e => .raise (.api (unavailable e))

/-- What auth-service is configured with, and the functions of its libraries. -/
structure Setting where
  lower : String → String
  verifyPassword : String → String → Bool
  dummyHash : String
  passwordFingerprint : String → String
  refreshFingerprint : String → Fingerprint
  issuer : String
  accessTtl : ℕ
  sessionTtl : ℕ

/-! ### Store -/

/-- The MULTI block of a sign-in: all session keys with one absolute expiry. -/
def creation (sid : Sid) (userId : UserId) (role : String) (expiresAt : ℕ) (passwordFingerprint : String)
    (refreshHash : Fingerprint) : List Write :=
  [.hsetSession sid ⟨userId, role, expiresAt, passwordFingerprint⟩,
    .expireAt (.session sid) expiresAt,
    .sadd (.userSids userId) sid,
    .expireAt (.members (.userSids userId)) expiresAt,
    .hsetRefresh refreshHash sid,
    .expireAt (.refresh refreshHash) (expiresAt + expiredRefreshGraceSeconds),
    .sadd (.family sid) refreshHash,
    .expireAt (.members (.family sid)) (expiresAt + expiredRefreshGraceSeconds),
    .setLive sid,
    .expireAt (.live sid) expiresAt,
    .sadd .sessionUsers userId,
    .expireAt (.members .sessionUsers) expiresAt]

def createSession (setting : Setting) (sid : Sid) (userId : UserId) (role : String) (expiresAt : ℕ)
    (passwordHash : String) (refreshHash : Fingerprint) : AuthProg Unit :=
  ask (.exec (creation sid userId role expiresAt (setting.passwordFingerprint passwordHash) refreshHash))

/-- The MULTI block of a rotation. -/
def rotation (oldHash newHash : Fingerprint) (sid : Sid) (expiresAt : ℕ) : List Write :=
  [.hsetState oldHash .rotated,
    .hsetRefresh newHash sid,
    .expireAt (.refresh newHash) (expiresAt + expiredRefreshGraceSeconds),
    .sadd (.family sid) newHash,
    .expireAt (.members (.family sid)) (expiresAt + expiredRefreshGraceSeconds)]

inductive Rotation where
  | success | missing | rotated
  deriving DecidableEq, Repr

/-- Rotate atomically, trying again as often as another write to the entry gets in between. -/
def rotateRefresh (oldHash newHash : Fingerprint) (sid : Sid) (expiresAt : ℕ) : ℕ → AuthProg Rotation
  | 0 => .raise .unfinished
  | attempts + 1 => do
    ask (.watch (.refresh oldHash))
    match ← ask (.hgetallRefresh oldHash) with
    | none => do
      ask .unwatch
      .ret .missing
    | some current =>
      if current.state ≠ some .current then do
        ask .unwatch
        .ret .rotated
      else if current.sid ≠ some sid then do
        ask .unwatch
        .ret .missing
      else .call (.exec (rotation oldHash newHash sid expiresAt)) fun r => match r with
        | .ok _ => .ret .success
        | .error .watch => rotateRefresh oldHash newHash sid expiresAt attempts
        | .error e => .raise (.api (unavailable e))

/-- The keys of a session that one `DEL` deletes. -/
def revoked (sid : Sid) (family : List Fingerprint) : List Key :=
  [.live sid, .session sid, .members (.family sid)] ++ family.map .refresh

def requireAof (acknowledged : ℕ) : AuthProg Unit :=
  if acknowledged < 1 then .raise (.api authUnavailable) else .ret ()

def readSessions : List Sid → AuthProg (List (Sid × Option Session))
  | [] => .ret []
  | sid :: rest => do
    let session ← ask (.hgetallSession sid)
    let others ← readSessions rest
    .ret ((sid, session) :: others)

def readFamilies : List Sid → AuthProg (List (Sid × List Fingerprint))
  | [] => .ret []
  | sid :: rest => do
    let family ← ask (.smembers (.family sid))
    let others ← readFamilies rest
    .ret ((sid, family) :: others)

/-- The commands that end one session. -/
def revocation (families : List (Sid × List Fingerprint)) : Sid × Option Session → List Write
  | (sid, session) =>
    .del (revoked sid ((families.lookup sid).getD [])) ::
      match session with
      | none => []
      | some session => if session.userId = "" then [] else [.srem (.userSids session.userId) sid]

/-- The commands that drop the index of one user. -/
def unindexing (userId : UserId) : List Write :=
  [.del [.members (.userSids userId)], .srem .sessionUsers userId]

/-- A pipeline without MULTI. -/
def pipeline : List Write → AuthProg Unit
  | [] => .ret ()
  | write :: rest => do
    ask (.write write)
    pipeline rest

/-- Delete sessions and their indexed refresh families, never scanning. -/
def revokeSessions (sids : List Sid) (deleteUserSets : List UserId) : AuthProg Unit :=
  let uniqueSids := sids.eraseDups
  let usersToDelete := deleteUserSets.eraseDups
  if uniqueSids = [] ∧ usersToDelete = [] then .ret ()
  else do
    let sessions ← readSessions uniqueSids
    let families ← readFamilies uniqueSids
    pipeline (sessions.flatMap (revocation families) ++ usersToDelete.flatMap unindexing)
    let _ ← ask .waitAof
    let acknowledged ← ask .waitAof
    requireAof acknowledged

def revokeSession (sid : Sid) : AuthProg Unit := revokeSessions [sid] []

def userSids : List UserId → AuthProg (List Sid)
  | [] => .ret []
  | user :: rest => do
    let sids ← ask (.smembers (.userSids user))
    let others ← userSids rest
    .ret (sids ++ others)

/-- End every session of these users behind one durability wait. -/
def revokeUsers (userIds : List UserId) : AuthProg Unit :=
  let users := userIds.eraseDups
  if users = [] then .ret ()
  else do
    let sids ← userSids users
    revokeSessions sids users

/-- `d[k] = v`. -/
def setItem {α : Type} (d : List (String × α)) (k : String) (v : α) : List (String × α) :=
  if d.any (fun e => e.1 = k) then d.map fun e => if e.1 = k then (k, v) else e else d ++ [(k, v)]

def snapshotSids (result : List (Sid × Session)) : List Sid → AuthProg (List (Sid × Session))
  | [] => .ret result
  | sid :: rest => do
    match ← ask (.hgetallSession sid) with
    | none => snapshotSids result rest
    | some session => snapshotSids (setItem result sid session) rest

def snapshotUsers (result : List (Sid × Session)) : List UserId → AuthProg (List (Sid × Session))
  | [] => .ret result
  | user :: rest => do
    let sids ← ask (.smembers (.userSids user))
    let result ← snapshotSids result sids
    snapshotUsers result rest

/-- The indexed live sessions. -/
def sessionSnapshot : AuthProg (List (Sid × Session)) := do
  let users ← ask (.smembers .sessionUsers)
  snapshotUsers [] users

/-! ### Service -/

def invalidCredentials : ApiError := ⟨401, "invalid_credentials", "The email or password is invalid.", []⟩

def invalidRefresh : ApiError := ⟨401, "invalid_refresh", "The refresh token is invalid.", []⟩

def sessionRevoked : ApiError := ⟨401, "session_revoked", "The session is no longer live.", []⟩

def sessionExpired : ApiError := ⟨401, "session_expired", "The session reached its absolute end.", []⟩

def refreshReused : ApiError :=
  ⟨401, "refresh_reused", "The refresh token was already used; the session was revoked.", []⟩

/-- What an access token says. -/
structure Claims where
  iss : String
  aud : String
  sub : UserId
  sid : Sid
  role : String
  jti : String
  iat : ℕ
  exp : ℕ
  deriving DecidableEq, Repr

structure TokenResult where
  accessToken : Claims
  refreshToken : String
  tokenType : String
  expiresIn : ℕ
  expiresAt : ℕ
  deriving DecidableEq, Repr

def audience : String := "mosaiq-api"

section Service

variable (setting : Setting)

def tokenResult (userId : UserId) (sid : Sid) (role : String) (sessionExpiresAt : ℕ) (refreshToken : String) :
    AuthProg TokenResult := do
  let now ← ask .time
  let jti ← ask .uuid
  let tokenExpiresAt := min (now + setting.accessTtl) sessionExpiresAt
  .ret {
    accessToken := ⟨setting.issuer, audience, userId, sid, role, jti, now, tokenExpiresAt⟩
    refreshToken
    tokenType := "Bearer"
    expiresIn := setting.accessTtl
    expiresAt := tokenExpiresAt }

def credentialMatchesSession (credential : Option Credential) (session : Session) : Bool :=
  credential.any fun credential => credential.isActive && credential.roleCode = session.role &&
    setting.passwordFingerprint credential.passwordHash = session.passwordFingerprint

def signIn (email password : String) : AuthProg TokenResult := do
  let credential ← ask (.credentialByEmail (setting.lower email))
  let passwordHash := (credential.map Credential.passwordHash).getD setting.dummyHash
  let passwordValid := setting.verifyPassword passwordHash password
  match credential with
  | none => .raise (.api invalidCredentials)
  | some credential =>
    if passwordValid = false ∨ credential.isActive = false then .raise (.api invalidCredentials)
    else do
      let now ← ask .time
      let sid ← ask .uuid
      let expiresAt := now + setting.sessionTtl
      let refreshToken ← ask .token
      createSession setting sid credential.userId credential.roleCode expiresAt credential.passwordHash
        (setting.refreshFingerprint refreshToken)
      tokenResult setting credential.userId sid credential.roleCode expiresAt refreshToken

/-- `if sid: revoke_session(sid)`. -/
def revokeNamed (sid : Sid) : AuthProg Unit := if sid = "" then .ret () else revokeSession sid

/-- What follows a rotation, or the failure of one. -/
def settle (session : Session) (sid : Sid) (newToken : String) : Rotation → AuthProg TokenResult
  | .rotated => do
    revokeSession sid
    .raise (.api refreshReused)
  | .missing => do
    let now ← ask .time
    if session.expiresAt ≤ now then .raise (.api sessionExpired) else .raise (.api invalidRefresh)
  | .success => tokenResult setting session.userId sid session.role session.expiresAt newToken

/-- The account check and the rotation of a refresh whose session is there. -/
def renew (oldHash : Fingerprint) (sid : Sid) (session : Session) (attempts : ℕ) : AuthProg TokenResult := do
  let credential ← ask (.credentialByUser session.userId)
  if credentialMatchesSession setting credential session = false then do
    revokeSession sid
    .raise (.api sessionRevoked)
  else do
    let newToken ← ask .token
    let outcome ← rotateRefresh oldHash (setting.refreshFingerprint newToken) sid session.expiresAt attempts
    settle setting session sid newToken outcome

def refresh (token : String) (attempts : ℕ) : AuthProg TokenResult := do
  let oldHash := setting.refreshFingerprint token
  match ← ask (.hgetallRefresh oldHash) with
  | none => .raise (.api invalidRefresh)
  | some entry =>
    let sid := entry.sid.getD ""
    if entry.state ≠ some .current then do
      revokeNamed sid
      .raise (.api refreshReused)
    else do
      match ← ask (.hgetallSession sid) with
      | none => do
        revokeNamed sid
        .raise (.api sessionExpired)
      | some session => do
        let now ← ask .time
        if session.expiresAt ≤ now then do
          revokeNamed sid
          .raise (.api sessionExpired)
        else renew setting oldHash sid session attempts

/-! ### Background -/

def credentialsByUser (userIds : List UserId) : AuthProg (List Credential) :=
  if userIds = [] then .ret [] else ask (.credentialsByUser userIds)

/-- What a pass compares: the indexed sessions, and the published credentials of their users. -/
def comparison : AuthProg (List (Sid × Session) × List Credential) := do
  let sessions ← sessionSnapshot
  let users := (sessions.map fun e => e.2.userId).eraseDups.insertionSort (· ≤ ·)
  let credentials ← credentialsByUser users
  .ret (sessions, credentials)

/-- The sessions whose user's credential does not match them. -/
def unmatched (sessions : List (Sid × Session)) (credentials : List Credential) : List Sid :=
  (sessions.filter fun e => ¬ credentialMatchesSession setting
    (credentials.reverse.find? fun credential => credential.userId = e.2.userId) e.2).map Prod.fst

/-- `except ApiError: return 0`. -/
def orZero (p : AuthProg ℕ) : AuthProg ℕ :=
  p.tryCatch fun e => match e with
    | .api _ => .ret 0
    | .unfinished => .raise .unfinished

/-- End the sessions of a pass, and count them. -/
def revokeUnmatched (sids : List Sid) : AuthProg ℕ :=
  if sids = [] then .ret 0
  else orZero do
    revokeSessions sids []
    .ret sids.length

/-- One pass of the reconciler. -/
def runOnce : AuthProg ℕ := do
  let found ← (comparison >>= fun found => .ret (some found)).tryCatch fun e => match e with
    | .api _ => .ret none
    | .unfinished => .raise .unfinished
  match found with
  | none => .ret 0
  | some (sessions, credentials) => revokeUnmatched (unmatched setting sessions credentials)

inductive Call where
  | signIn (email password : String)
  | refresh (token : String) (attempts : ℕ)
  | signOut (sid : Sid)
  | revokeUsers (userIds : List UserId)
  | reconcile

/-- What a call ends with. -/
inductive Done where
  | tokens (result : TokenResult)
  | ended
  | reconciled (count : ℕ)

def Call.program : Call → AuthProg Done
  | signIn email password => Sessions.signIn setting email password >>= fun result => .ret (.tokens result)
  | refresh token attempts => Sessions.refresh setting token attempts >>= fun result => .ret (.tokens result)
  | signOut sid => revokeSession sid >>= fun _ => .ret .ended
  | revokeUsers userIds => Sessions.revokeUsers userIds >>= fun _ => .ret .ended
  | reconcile => runOnce setting >>= fun count => .ret (.reconciled count)

end Service

/-! ### Redis -/

/-- The keys, what has been drawn by whom, and which MULTI blocks have been executed for whom. -/
structure AuthDb (T : Type) where
  store : Store T Key Value
  sids : List (Sid × T)
  tokens : List (Fingerprint × T)
  executed : List (T × List Write)

section Server

variable {T : Type} [DecidableEq T]

namespace AuthDb

omit [DecidableEq T] in
def empty (now : ℕ) : AuthDb T := ⟨⟨now, fun _ => none, fun _ => [], fun _ => false⟩, [], [], []⟩

/-- A connection is given up, with what it watches. -/
def abandon (t : T) (db : AuthDb T) : AuthDb T := { db with store := db.store.unwatch t }

omit [DecidableEq T] in
def written (db : AuthDb T) (write : Write) : AuthDb T := { db with store := write.apply db.store }

def execute (t : T) (db : AuthDb T) (writes : List Write) : AuthDb T :=
  { db with
    store := (applyAll db.store writes).unwatch t
    executed := (t, writes) :: db.executed }

/-- What Redis answers. -/
inductive Answers (t : T) (db : AuthDb T) : (c : Command) → Answer c → AuthDb T → Prop where
  | hgetallRefresh (fingerprint : Fingerprint) :
      Answers t db (.hgetallRefresh fingerprint) (db.store.get (.refresh fingerprint)) db
  | hgetallSession (sid : Sid) : Answers t db (.hgetallSession sid) (db.store.get (.session sid)) db
  | smembers (set : SetKey) (members : List String)
      (hperm : members.Perm ((db.store.get (.members set)).getD [])) : Answers t db (.smembers set) members db
  | write (write : Write) : Answers t db (.write write) () (db.written write)
  | watch (key : Key) : Answers t db (.watch key) () { db with store := db.store.watch t key }
  | unwatch : Answers t db .unwatch () (db.abandon t)
  | exec (writes : List Write) (hclean : db.store.dirty t = false) :
      Answers t db (.exec writes) () (db.execute t writes)
  | waitAof (acknowledged : ℕ) : Answers t db .waitAof acknowledged db

/-- A command of connection `t`. Draws are fresh, the credential view may say anything at any time, and a
command to Redis may fail before it is executed or after. -/
inductive Step (setting : Setting) (t : T) (db : AuthDb T) : (c : Command) → Reply c → AuthDb T → Prop where
  | time : Step setting t db .time (.ok (db.store.now / 1000)) db
  | uuid (sid : Sid) (hne : sid ≠ "") (hfresh : ∀ u, (sid, u) ∉ db.sids) :
      Step setting t db .uuid (.ok sid) { db with sids := (sid, t) :: db.sids }
  | token (token : String) (hfresh : ∀ u, (setting.refreshFingerprint token, u) ∉ db.tokens) :
      Step setting t db .token (.ok token)
        { db with tokens := (setting.refreshFingerprint token, t) :: db.tokens }
  | credentialByEmail (emailLower : String) (found : Option Credential) :
      Step setting t db (.credentialByEmail emailLower) (.ok found) db
  | credentialByUser (userId : UserId) (found : Option Credential) :
      Step setting t db (.credentialByUser userId) (.ok found) db
  | credentialsByUser (userIds : List UserId) (found : List Credential) :
      Step setting t db (.credentialsByUser userIds) (.ok found) db
  | unreachable (c : Command) (hviewed : c.viewed = true) : Step setting t db c (.error .database) db
  | answered {c : Command} {v : Answer c} {db' : AuthDb T} (hanswer : db.Answers t c v db') :
      Step setting t db c (.ok v) db'
  | failed (c : Command) (hsent : c.sent = true) : Step setting t db c (.error .redis) (db.abandon t)
  | lost {c : Command} {v : Answer c} {db' : AuthDb T} (hanswer : db.Answers t c v db') :
      Step setting t db c (.error .redis) (db'.abandon t)
  | touched (writes : List Write) (hdirty : db.store.dirty t = true) :
      Step setting t db (.exec writes) (.error .watch) (db.abandon t)

end AuthDb

/-- Time passes between commands, and a call may die. -/
def authMachine (T : Type) [DecidableEq T] (setting : Setting) : Machine T Command Reply (AuthDb T) where
  step t c db r db' := db.Step setting t c r db'
  env db db' := ∃ now, db.store.now ≤ now ∧ db' = { db with store := db.store.tick now }
  halt t db db' := db' = db.abandon t

end Server
end RetailSegmentation.Sessions
