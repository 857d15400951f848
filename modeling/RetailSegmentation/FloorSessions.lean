import Mathlib.Algebra.Group.Int.Defs
import RetailSegmentation.FloorPhone

/-! The phone's HTTP client, with the headers it adds and the refresh it runs, and its sign-in, profile read
and sign-out. -/

namespace RetailSegmentation.Floor

open Program

/-! ### Errors -/

def ApiError.unreachable (correlationId : Option String) : ApiError :=
  ⟨0, "unreachable", "The service could not be reached. Check the connection and try again.", correlationId, none⟩

/-- Kotlin's `toLongOrNull`: an optional sign, then ASCII digits, within 64 bits. -/
def toLongOrNull (text : String) : Option ℤ :=
  let digits (chars : List Char) : Option ℕ :=
    if chars = [] ∨ chars.any (!·.isDigit) then none
    else some (chars.foldl (fun n c => n * 10 + (c.toNat - '0'.toNat)) 0)
  let value : Option ℤ := match text.toList with
    | '-' :: rest => (digits rest).map fun n => -(n : ℤ)
    | '+' :: rest => (digits rest).map fun n => (n : ℤ)
    | chars => (digits chars).map fun n => (n : ℤ)
  value.filter fun n => -2 ^ 63 ≤ n ∧ n < 2 ^ 63

section Client

variable (world : World)

/-- `ApiError.from(response)`. -/
def ApiError.from (a : Answer) : ApiError :=
  world.apiError a.status (some a.body) a.correlationId
    (a.retryAfter.bind fun text => toLongOrNull text.trimAscii.copy)

/-! ### One call of the HTTP client -/

def Endpoint.unauthenticated : Endpoint → Bool
  | .createSession .. => true
  | .refreshSession _ => true
  | .deleteCurrentSession => false
  | .getCurrentUser => false
  | .post _ url _ _ => url.endsWith "/sessions" || url.endsWith "/sessions/refresh"
  | .read url => url.endsWith "/sessions" || url.endsWith "/sessions/refresh"

/-- `HeadersInterceptor.intercept`, up to the request it goes on with. -/
def intercept (endpoint : Endpoint) : PhoneProg Request :=
  if endpoint.unauthenticated then .ret ⟨endpoint, none⟩
  else .call .readTokens fun tokens => .ret ⟨endpoint, tokens.map Tokens.accessToken⟩

def terminal : List String := ["invalid_refresh", "refresh_reused", "session_expired", "session_revoked"]

/-- `TokenAuthenticator.endSession`, for an answer to a request with `sent`. -/
def endSession (sent : String) : PhoneProg Unit := .call (.clearTokens (.ended sent)) .ret

def Request.retry (request : Request) (tokens : Tokens) : Request :=
  { request with authorization := some tokens.accessToken }

/-- `refresh`, for the answer to a request that presented `current`. -/
def rotated (current : Tokens) (a : Answer) : PhoneProg (Option Tokens) :=
  if a.status = 200 then
    match world.tokenResult a.body with
    | none => .raise .serialization
    | some tokens =>
      .call (.writeTokens (.refresh current) tokens) fun _ =>
      .call (.writeLastFailure none) fun _ => .ret (some tokens)
  else
    let error := ApiError.from world a
    .call (.writeLastFailure (some error)) fun _ =>
    if a.status = 401 ∧ error.code ∈ terminal then
      endSession current.accessToken >>= fun _ => .ret none
    else .ret none

/-- The client that refreshes adds no token to this request. -/
def refresh (current : Tokens) : PhoneProg (Option Tokens) :=
  match world.resolve "api/auth/v1/sessions/refresh" with
  | none => .call (.writeLastFailure (some (.unreachable none))) fun _ => .ret none
  | some _ => .call (.send ⟨.refreshSession current.refreshToken, none⟩) fun response =>
    match response with
    | none => .call (.writeLastFailure (some (.unreachable none))) fun _ => .ret none
    | some a => rotated world current a

/-- What `authenticate` does while it holds the lock. -/
def authenticateLocked (request : Request) (sent : String) : PhoneProg (Option Request) :=
  .call .readTokens fun tokens =>
  match tokens with
  | none => .ret none
  | some current =>
    if current.accessToken ≠ sent then .ret (some (request.retry current))
    else refresh world current >>= fun refreshed => .ret (refreshed.map request.retry)

/-- A block that holds the lock, and leaves it however it ends. -/
def synchronized {α : Type} (block : PhoneProg α) : PhoneProg α :=
  .call .acquire fun _ =>
    (block.tryCatch fun e => .call .release fun _ => .raise e) >>= fun a => .call .release fun _ => .ret a

/-- The envelope's code, as `authenticate` peeks at it. -/
def peekedCode (a : Answer) : String := (world.apiError a.status (some a.body) none none).code

/-- `TokenAuthenticator.authenticate`: `prior` is whether the answer is to a retry. -/
def authenticate (request : Request) (a : Answer) (prior : Bool) : PhoneProg (Option Request) :=
  match request.authorization with
  | none => .ret none
  | some sent =>
    if peekedCode world a = "session_revoked" then endSession sent >>= fun _ => .ret none
    else if prior then .ret none
    else if peekedCode world a ≠ "invalid_token" then .ret none
    else synchronized (authenticateLocked world request sent)

/-- The answer to a retry goes back to the authenticator, which does not retry again. -/
def followRetry (request : Request) : PhoneProg Response :=
  .call (.send request) fun response =>
  match response with
  | none => .ret none
  | some a =>
    if a.status = 401 then authenticate world request a true >>= fun _ => .ret (some a)
    else .ret (some a)

/-- A request, with the one retry the authenticator may ask for. -/
def follow (request : Request) : PhoneProg Response :=
  .call (.send request) fun response =>
  match response with
  | none => .ret none
  | some a =>
    if a.status = 401 then
      authenticate world request a false >>= fun retry =>
      match retry with
      | none => .ret (some a)
      | some again => followRetry world again
    else .ret (some a)

/-- Work that is marked as under way until it ends. -/
def during {α : Type} (work : Work) (block : PhoneProg α) : PhoneProg α :=
  .call (.begin work) fun _ =>
    (block.tryCatch fun e => .call (.finish work) fun _ => .raise e) >>= fun a =>
      .call (.finish work) fun _ => .ret a

/-- `client.newCall(request).execute()`. -/
def execute (endpoint : Endpoint) : PhoneProg Response :=
  during .call (intercept endpoint >>= follow world)

/-! ### Sign-in, profile and sign-out -/

inductive SessionResult where
  | signedIn (user : CurrentUser)
  | roleRefused (role : String)
  | failed (error : ApiError)
  deriving DecidableEq, Repr

def ApiError.friendly (error : ApiError) : ApiError :=
  match error.code, error.retryAfterSeconds with
  | "rate_limited", some seconds =>
    { error with message := s!"Too many attempts. Try again in {seconds} seconds." }
  | "auth_unavailable", _ => { error with message := "Authentication is unavailable. Try again." }
  | "database_unavailable", _ => { error with message := "The service is unavailable. Try again." }
  | _, _ => error

/-- The converter's reading of a 2xx answer; an answer of another status, and 204 and 205, have no body. -/
def bodyOf {α : Type} (read : String → Option α) (a : Answer) : PhoneProg (Option α) :=
  if a.isSuccessful ∧ a.status ≠ 204 ∧ a.status ≠ 205 then
    match read a.body with
    | some value => .ret (some value)
    | none => .raise .serialization
  else .ret none

def floorRoles : List String := ["STORE_MANAGER", "ADMIN"]

/-- `SessionRepository.signOut`. -/
def signOut : PhoneProg Unit :=
  .call .readTokens fun tokens =>
  (if tokens = none then .ret none else execute world .deleteCurrentSession) >>= fun _ =>
  .call (.clearTokens .signOut) fun _ => .call .signedOut fun _ => .ret ()

/-- `offline`: no answer from users-service. -/
def offline : PhoneProg SessionResult :=
  .call .readProfile fun known =>
  .call .readTokens fun tokens =>
  match tokens, known with
  | some _, some profile => .ret (.signedIn ⟨profile.userId, profile.name, profile.role⟩)
  | _, _ => .ret (.failed (.unreachable none))

/-- Erase what is left of a session that is over. -/
def forget : PhoneProg Unit :=
  .call (.clearTokens .refused) fun _ => .call .signedOut fun _ => .ret ()

/-- `currentUser`, where the answer holds no user: a 401 after a refresh is the refresh's story. -/
def profileRefused (a : Answer) : PhoneProg SessionResult :=
  let error := ApiError.from world a
  (if error.status = 401 then .call .readLastFailure fun last => .ret (last.getD error)
    else (.ret error : PhoneProg ApiError)) >>= fun shown =>
  .call .readTokens fun tokens =>
  (if tokens = none ∨ shown.code ∈ terminal then forget else .ret ()) >>= fun _ =>
  .ret (.failed shown.friendly)

/-- `currentUser`, where users-service named the user. -/
def profileRead (user : CurrentUser) : PhoneProg SessionResult :=
  if user.roleCode ∈ floorRoles then
    .call (.signedIn ⟨user.userId, user.name, user.roleCode⟩) fun _ => .ret (.signedIn user)
  else signOut world >>= fun _ => .ret (.roleRefused user.roleCode)

/-- `SessionRepository.currentUser`. -/
def currentUser : PhoneProg SessionResult :=
  execute world .getCurrentUser >>= fun response =>
  match response with
  | none => offline
  | some a =>
    bodyOf world.currentUser a >>= fun user =>
    match user with
    | none => profileRefused world a
    | some user => profileRead world user

/-- `SessionRepository.signIn`, where the answer has come. -/
def signInAnswered (a : Answer) : PhoneProg SessionResult :=
  bodyOf world.tokenResult a >>= fun result =>
  match result with
  | none => .ret (.failed (ApiError.from world a).friendly)
  | some tokens =>
    if a.status ≠ 201 then .ret (.failed (ApiError.from world a).friendly)
    else .call (.writeTokens .signIn tokens) fun _ => currentUser world

def signIn (email password deviceLabel : String) : PhoneProg SessionResult :=
  execute world (.createSession email.trimAscii.copy password deviceLabel) >>= fun response =>
  match response with
  | none => .ret (.failed (.unreachable none))
  | some a => signInAnswered world a

end Client
end RetailSegmentation.Floor
