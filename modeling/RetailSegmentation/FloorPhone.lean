import Mathlib.Data.Int.Notation
import Mathlib.Data.Nat.Notation
import Mathlib.Tactic.Common
import RetailSegmentation.ProgramInterference

/-! The floor phone as its threads see it: the token file, who is signed in, the queue of floor writes, the
lock around the refresh, and the requests that reach the services. Every read or write of one of these, and
every request with its answer, is one command. -/

namespace RetailSegmentation.Floor

open Program

/-! ### What the phone keeps -/

/-- The session's two tokens, as auth-service issued them. -/
structure Tokens where
  accessToken : String
  refreshToken : String
  deriving DecidableEq, Repr

/-- Who signed in. -/
structure Profile where
  userId : String
  name : String
  role : String
  deriving DecidableEq, Repr

/-- The fields of users' `User` the app shows. -/
structure CurrentUser where
  userId : String
  name : String
  roleCode : String
  deriving DecidableEq, Repr

inductive Operation where
  | checkIn
  | qrScan
  | sale
  | recoClick
  deriving DecidableEq, Repr

inductive RowState where
  | pending
  | done
  | refused
  deriving DecidableEq, Repr

/-- A row as it is inserted: `id` is the table's, the rest of the row takes its defaults. -/
structure NewRow where
  operation : Operation
  path : String
  body : String
  clientId : String
  userId : String
  createdAt : ℤ
  deriving DecidableEq, Repr

/-- One floor write: `write` was fixed at the tap, the rest is where it stands. -/
structure OutboxRow where
  id : ℕ
  write : NewRow
  state : RowState
  attempts : ℕ
  status : Option ℕ
  code : Option String
  message : Option String
  correlationId : Option String
  responseBody : Option String
  deriving DecidableEq, Repr

def NewRow.row (write : NewRow) (id : ℕ) : OutboxRow := ⟨id, write, .pending, 0, none, none, none, none, none⟩

/-! ### Requests and answers -/

/-- `row` says which row of the queue a floor write is sent for; it is not part of what is sent. -/
inductive Endpoint where
  | createSession (email password deviceLabel : String)
  | refreshSession (refreshToken : String)
  | deleteCurrentSession
  | getCurrentUser
  | post (row : ℕ) (url body : String) (idempotencyKey : Option String)
  | read (url : String)
  deriving DecidableEq, Repr

/-- `authorization` is the access token of the header `Authorization: Bearer`. -/
structure Request where
  endpoint : Endpoint
  authorization : Option String
  deriving DecidableEq, Repr

structure Answer where
  status : ℕ
  body : String
  correlationId : Option String := none
  retryAfter : Option String := none
  idempotentReplayed : Option String := none
  deriving DecidableEq, Repr

/-- A call reaches an answer, or ends in an `IOException`. -/
abbrev Response := Option Answer

def Answer.isSuccessful (a : Answer) : Bool := 200 ≤ a.status && a.status ≤ 299

/-- The key under which sales-service would record what the request asks. -/
def Request.saleKey (r : Request) : Option String :=
  match r.endpoint with
  | .post _ _ _ key => key
  | _ => none

/-- What one request came to; `held` is whether sales-service held its sale then. -/
structure Exchange where
  request : Request
  response : Response
  held : Bool
  deriving DecidableEq, Repr

/-- The error envelope's fields that are read. -/
structure ErrorEnvelope where
  code : String
  message : String
  correlationId : Option String
  deriving DecidableEq, Repr

structure ApiError where
  status : ℕ
  code : String
  message : String
  correlationId : Option String
  retryAfterSeconds : Option ℤ := none
  deriving DecidableEq, Repr

/-! ### Commands -/

/-- Whose write of the token file it is. -/
inductive Origin where
  | signIn
  | refresh (current : Tokens)
  deriving DecidableEq, Repr

/-- Why the token file is erased: the answer to a request with `sent`, or the user. -/
inductive Ending where
  | ended (sent : String)
  | refused
  | signOut
  deriving DecidableEq, Repr

/-- A call of the HTTP client, or a pass over the queue. -/
inductive Work where
  | call
  | pass
  deriving DecidableEq, Repr

inductive Command where
  | readTokens
  | writeTokens (origin : Origin) (tokens : Tokens)
  | clearTokens (ending : Ending)
  | readUserId
  | readProfile
  | signedIn (profile : Profile)
  | signedOut
  | readLastFailure
  | writeLastFailure (error : Option ApiError)
  | acquire
  | release
  | begin (work : Work)
  | finish (work : Work)
  | send (request : Request)
  | randomUuid
  | schedule
  | insert (row : NewRow)
  | pendingFor (userId : String)
  | countAttempt (id : ℕ)
  | markDone (id status : ℕ) (body correlationId code : Option String)
  | markRefused (id status : ℕ) (code message : String) (correlationId : Option String)
  | dismiss (id : ℕ)

abbrev Reply : Command → Type
  | .readTokens => Option Tokens
  | .readUserId => Option String
  | .readProfile => Option Profile
  | .readLastFailure => Option ApiError
  | .send _ => Response
  | .randomUuid => String
  | .insert _ => ℕ
  | .pendingFor _ => List OutboxRow
  | .dismiss _ => ℕ
  | _ => Unit

/-- What is thrown besides an `IOException`. -/
inductive Thrown where
  | illegalState (message : String)
  | illegalArgument (message : String)
  | serialization
  deriving DecidableEq, Repr

abbrev PhoneProg := Prog Command Reply Thrown

/-! ### The services -/

/-- What is not the phone's: the readers of the JSON library, the URL parser, which session each token is of
and whose it is, and which refusals of sales-service say that the sale is not recorded. -/
structure World where
  envelope : String → Option ErrorEnvelope
  tokenResult : String → Option Tokens
  currentUser : String → Option CurrentUser
  resolve : String → Option String
  session : String → ℕ
  user : ℕ → String
  settles : Answer → Bool

def World.owner (world : World) (accessToken : String) : String := world.user (world.session accessToken)

/-- `ApiError.from`. -/
def World.apiError (world : World) (status : ℕ) (body : Option String) (correlationHeader : Option String)
    (retryAfterSeconds : Option ℤ) : ApiError :=
  let envelope := body.bind world.envelope
  { status := status
    code := (envelope.map ErrorEnvelope.code).getD s!"http_{status}"
    message := (envelope.map ErrorEnvelope.message).getD s!"The service answered {status}."
    correlationId := (envelope.bind ErrorEnvelope.correlationId).or correlationHeader
    retryAfterSeconds := retryAfterSeconds }

/-- A final refusal: 4xx, but neither 401 nor 429. -/
def Answer.FinalRefusal (a : Answer) : Prop := 400 ≤ a.status ∧ a.status ≤ 499 ∧ a.status ≠ 401 ∧ a.status ≠ 429

instance (a : Answer) : Decidable a.FinalRefusal := inferInstanceAs (Decidable (_ ∧ _ ∧ _ ∧ _))

/-! ### The state -/

/-- `wire` is every exchange so far, newest first; `recorded` and `issued` are the keys sales-service has
recorded and the tokens auth-service has issued. -/
structure Phone (T : Type) where
  tokens : Option Tokens
  session : Option Profile
  lastFailure : Option ApiError
  lock : Option T
  under : Work → T → Bool
  outbox : List OutboxRow
  lastId : ℕ
  uuids : List String
  wire : List Exchange
  recorded : List String
  issued : List String

namespace Phone

variable {T : Type} [DecidableEq T]

omit [DecidableEq T] in
def installed : Phone T := ⟨none, none, none, none, fun _ _ => false, [], 0, [], [], [], []⟩

def setUnder (s : Phone T) (work : Work) (t : T) (under : Bool) : Phone T :=
  { s with under := Function.update s.under work (Function.update (s.under work) t under) }

@[simp] theorem setUnder_self (s : Phone T) (work : Work) (t : T) (under : Bool) :
    (s.setUnder work t under).under work t = under := by
  simp [setUnder]

@[simp] theorem setUnder_of_ne (s : Phone T) (work : Work) {t u : T} (hne : u ≠ t) (under : Bool) :
    (s.setUnder work t under).under work u = s.under work u := by
  simp [setUnder, hne]

@[simp] theorem setUnder_other (s : Phone T) {work work' : Work} (hne : work' ≠ work) (t : T) (under : Bool) :
    (s.setUnder work t under).under work' = s.under work' := by
  simp [setUnder, hne]

omit [DecidableEq T] in
def push (s : Phone T) (write : NewRow) : Phone T :=
  { s with outbox := s.outbox ++ [write.row (s.lastId + 1)], lastId := s.lastId + 1 }

omit [DecidableEq T] in
def pending (s : Phone T) (userId : String) : List OutboxRow :=
  s.outbox.filter fun row => row.state = .pending ∧ row.write.userId = userId

omit [DecidableEq T] in
/-- `UPDATE outbox SET … WHERE id = :id`. -/
def update (s : Phone T) (id : ℕ) (set : OutboxRow → OutboxRow) : Phone T :=
  { s with outbox := s.outbox.map fun row => if row.id = id then set row else row }

omit [DecidableEq T] in
/-- `DELETE FROM outbox WHERE id = :id AND state = 'REFUSED'`. -/
def remove (s : Phone T) (id : ℕ) : Phone T :=
  { s with outbox := s.outbox.filter fun row => ¬(row.id = id ∧ row.state = .refused) }

omit [DecidableEq T] in
def exchange (s : Phone T) (request : Request) (response : Response) (recorded : List String) : Phone T :=
  { s with
    wire := ⟨request, response, (request.saleKey.map fun key => decide (key ∈ recorded)).getD false⟩ :: s.wire
    recorded := recorded }

end Phone

def OutboxRow.attempted (row : OutboxRow) : OutboxRow := { row with attempts := row.attempts + 1 }

/-- `SET state = 'DONE' … WHERE … state = 'PENDING'`. -/
def OutboxRow.done (row : OutboxRow) (status : ℕ) (body correlationId code : Option String) : OutboxRow :=
  if row.state = .pending then
    { row with state := .done, status := some status, responseBody := body, correlationId, code }
  else row

/-- `SET state = 'REFUSED' … WHERE … state = 'PENDING'`. -/
def OutboxRow.refused (row : OutboxRow) (status : ℕ) (code message : String) (correlationId : Option String) :
    OutboxRow :=
  if row.state = .pending then
    { row with
      state := .refused, status := some status, code := some code, message := some message, correlationId }
  else row

section Steps

variable {T : Type} [DecidableEq T]

/-- A pair never issued before, of the session `id`. -/
def World.Issues (world : World) (s : Phone T) (tokens : Tokens) (id : ℕ) : Prop :=
  tokens.accessToken ∉ s.issued ∧ tokens.refreshToken ∉ s.issued ∧
    tokens.accessToken ≠ tokens.refreshToken ∧
    world.session tokens.accessToken = id ∧ world.session tokens.refreshToken = id

/-- What the services may answer. A sign-in issues a new session, a refresh a new pair of the session it
presents, and users-service names the user of the session; a floor write may be answered anything. -/
inductive World.Answers (world : World) (s : Phone T) :
    Endpoint → Option String → Answer → List String → Prop where
  | signedIn (email password deviceLabel : String) (bearer : Option String) (a : Answer) (tokens : Tokens)
      (hread : world.tokenResult a.body = some tokens)
      (hissues : world.Issues s tokens (world.session tokens.accessToken))
      (hnew : ∀ token ∈ s.issued, world.session token ≠ world.session tokens.accessToken) :
      World.Answers world s (.createSession email password deviceLabel) bearer a
        [tokens.accessToken, tokens.refreshToken]
  | notSignedIn (email password deviceLabel : String) (bearer : Option String) (a : Answer)
      (hread : a.isSuccessful = true → world.tokenResult a.body = none) :
      World.Answers world s (.createSession email password deviceLabel) bearer a []
  | refreshed (refreshToken : String) (bearer : Option String) (a : Answer) (tokens : Tokens)
      (hread : world.tokenResult a.body = some tokens)
      (hissues : world.Issues s tokens (world.session refreshToken)) :
      World.Answers world s (.refreshSession refreshToken) bearer a [tokens.accessToken, tokens.refreshToken]
  | notRefreshed (refreshToken : String) (bearer : Option String) (a : Answer)
      (hread : a.status = 200 → world.tokenResult a.body = none) :
      World.Answers world s (.refreshSession refreshToken) bearer a []
  | deleted (bearer : Option String) (a : Answer) : World.Answers world s .deleteCurrentSession bearer a []
  | user (bearer : Option String) (a : Answer)
      (hread : a.isSuccessful = true → ∀ user, world.currentUser a.body = some user →
        ∃ token, bearer = some token ∧ user.userId = world.owner token) :
      World.Answers world s .getCurrentUser bearer a []
  | posted (row : ℕ) (url body : String) (key bearer : Option String) (a : Answer) :
      World.Answers world s (.post row url body key) bearer a []
  | shown (url : String) (bearer : Option String) (a : Answer) : World.Answers world s (.read url) bearer a []

/-- What a request may leave recorded. Only its own sale is added, a refusal adds nothing, and recordSale says
that a sale is not recorded only where it is not. -/
structure World.Records (world : World) (s : Phone T) (request : Request) (response : Response)
    (recorded : List String) : Prop where
  grows : s.recorded ⊆ recorded
  own : ∀ key ∈ recorded, key ∈ s.recorded ∨ request.saleKey = some key
  accepted : ∀ a, response = some a → a.isSuccessful = true → ∀ key, request.saleKey = some key → key ∈ recorded
  refused : ∀ a, response = some a → a.FinalRefusal → recorded = s.recorded
  settled : ∀ a, response = some a → a.FinalRefusal → world.settles a = true →
    ∀ key, request.saleKey = some key → key ∉ s.recorded

/-- One command of thread `t`. -/
inductive Phone.Step (world : World) (t : T) (s : Phone T) : (c : Command) → Reply c → Phone T → Prop where
  | readTokens : Step world t s .readTokens s.tokens s
  | writeTokens (origin : Origin) (tokens : Tokens) :
      Step world t s (.writeTokens origin tokens) () { s with tokens := some tokens }
  | clearTokens (ending : Ending) : Step world t s (.clearTokens ending) () { s with tokens := none }
  | readUserId : Step world t s .readUserId (s.session.map Profile.userId) s
  | readProfile : Step world t s .readProfile s.session s
  | signedIn (profile : Profile) : Step world t s (.signedIn profile) () { s with session := some profile }
  | signedOut : Step world t s .signedOut () { s with session := none }
  | readLastFailure : Step world t s .readLastFailure s.lastFailure s
  | writeLastFailure (error : Option ApiError) :
      Step world t s (.writeLastFailure error) () { s with lastFailure := error }
  | acquire (hfree : s.lock = none) : Step world t s .acquire () { s with lock := some t }
  | release : Step world t s .release () { s with lock := none }
  | begin (work : Work) : Step world t s (.begin work) () (s.setUnder work t true)
  | finish (work : Work) : Step world t s (.finish work) () (s.setUnder work t false)
  | answered (request : Request) (a : Answer) (issued recorded : List String)
      (hanswers : world.Answers s request.endpoint request.authorization a issued)
      (hrecords : world.Records s request (some a) recorded) :
      Step world t s (.send request) (some a)
        { s.exchange request (some a) recorded with issued := issued ++ s.issued }
  | unanswered (request : Request) (issued recorded : List String) (hissued : s.issued ⊆ issued)
      (hrecords : world.Records s request none recorded) :
      Step world t s (.send request) none { s.exchange request none recorded with issued := issued }
  | randomUuid (uuid : String) (hfresh : uuid ∉ s.uuids) :
      Step world t s .randomUuid uuid { s with uuids := uuid :: s.uuids }
  | schedule : Step world t s .schedule () s
  | insert (write : NewRow) : Step world t s (.insert write) (s.lastId + 1) (s.push write)
  | pendingFor (userId : String) : Step world t s (.pendingFor userId) (s.pending userId) s
  | countAttempt (id : ℕ) : Step world t s (.countAttempt id) () (s.update id OutboxRow.attempted)
  | markDone (id status : ℕ) (body correlationId code : Option String) :
      Step world t s (.markDone id status body correlationId code) ()
        (s.update id fun row => row.done status body correlationId code)
  | markRefused (id status : ℕ) (code message : String) (correlationId : Option String) :
      Step world t s (.markRefused id status code message correlationId) ()
        (s.update id fun row => row.refused status code message correlationId)
  | dismiss (id : ℕ) : Step world t s (.dismiss id) (s.outbox.length - (s.remove id).outbox.length) (s.remove id)

omit [DecidableEq T] in
/-- What goes on without the phone's threads: a request that was cut is carried out late, and a new process
has no last failure. -/
inductive Phone.Env (s : Phone T) : Phone T → Prop where
  | late (e : Exchange) (key : String) (hsent : e ∈ s.wire) (hkey : e.request.saleKey = some key) :
      Env s { s with recorded := key :: s.recorded }
  | restarted : Env s { s with lastFailure := none }

/-- A thread that dies leaves the lock, and what it was at. -/
def Phone.abandon (t : T) (s : Phone T) : Phone T :=
  { ((s.setUnder .call t false).setUnder .pass t false) with
    lock := if s.lock = some t then none else s.lock }

/-- The phone's threads over one state; `dies` is whether the process may be killed. -/
def phoneMachine (T : Type) [DecidableEq T] (world : World) (dies : Prop) :
    Machine T Command Reply (Phone T) where
  step t c s r s' := s.Step world t c r s'
  env s s' := s.Env s'
  halt t s s' := dies ∧ s' = s.abandon t

end Steps
end RetailSegmentation.Floor
