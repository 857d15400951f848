import RetailSegmentation.FloorSessions

/-! The queue of floor writes: what a tap stores, what a pass over the queue sends, and what it makes of each
answer. -/

namespace RetailSegmentation.Floor

open Program

/-! ### What a tap stores -/

/-- `java.time.Instant`. -/
structure Instant where
  epochSecond : ℤ
  nano : ℕ
  hnano : nano < 1000000000
  deriving DecidableEq

/-- `Instant.EPOCH`. -/
def Instant.epoch : Instant := ⟨0, 0, by decide⟩

def Instant.toEpochMilli (i : Instant) : ℤ := i.epochSecond * 1000 + i.nano / 1000000

/-- `java.time.OffsetDateTime`: an instant, and the offset from UTC it is read at. -/
structure OffsetDateTime where
  instant : Instant
  offsetSeconds : ℤ
  deriving DecidableEq

/-- What the phone measured; `D` is the type of its doubles. -/
structure Fix (D : Type) where
  latitude : D
  longitude : D
  accuracyM : D

structure CheckInRequest (D : Type) where
  clientCheckInId : String
  storeId : ℤ
  occurredAt : String
  latitude : Option D
  longitude : Option D
  accuracyM : Option D

structure EngagementEventRequest where
  clientEventId : String
  type : String
  storeId : ℤ
  productId : ℤ
  occurredAt : String
  customerId : Option String := none
  labelCode : Option String := none
  rank : Option ℤ := none

structure SaleLineRequest where
  productId : ℤ
  quantity : ℤ
  unitPrice : String

structure SaleRequest where
  customerId : String
  storeId : ℤ
  channelId : ℤ
  occurredAt : String
  lines : List SaleLineRequest

/-- The text forms of the platform: `toString` of the two times, and `json.encodeToString` of each request. -/
structure Encoding (D : Type) where
  instant : Instant → String
  offsetDateTime : OffsetDateTime → String
  checkIn : CheckInRequest D → String
  engagementEvent : EngagementEventRequest → String
  sale : SaleRequest → String

/-- One decoded code; its id was drawn when the code was decoded. -/
structure Scan where
  clientEventId : String
  occurredAt : Instant

section Writes

variable {D : Type} (encoding : Encoding D)

/-- `checkNotNull(session.userId.value)`. -/
def signedInUser : PhoneProg String :=
  .call .readUserId fun userId =>
  match userId with
  | some userId => .ret userId
  | none => .raise (.illegalState "No user is signed in.")

def enqueue (write : NewRow) : PhoneProg ℕ := .call (.insert write) fun id => .call .schedule fun _ => .ret id

def queueCheckIn (storeId : ℤ) (fix : Option (Fix D)) (now : Instant) : PhoneProg ℕ :=
  signedInUser >>= fun userId =>
  .call .randomUuid fun uuid =>
  let request : CheckInRequest D :=
    { clientCheckInId := uuid
      storeId := storeId
      occurredAt := encoding.instant now
      latitude := fix.map Fix.latitude
      longitude := fix.map Fix.longitude
      accuracyM := fix.map Fix.accuracyM }
  enqueue
    { operation := .checkIn
      path := "api/check-ins/v1/check-ins"
      body := encoding.checkIn request
      clientId := request.clientCheckInId
      userId := userId
      createdAt := now.toEpochMilli }

def queueQrScan (scan : Scan) (productId storeId : ℤ) (customerId : Option String) : PhoneProg ℕ :=
  signedInUser >>= fun userId =>
  let request : EngagementEventRequest :=
    { clientEventId := scan.clientEventId
      type := "QR_SCAN"
      storeId := storeId
      productId := productId
      occurredAt := encoding.instant scan.occurredAt
      customerId := customerId }
  enqueue
    { operation := .qrScan
      path := "api/engagement/v1/engagement-events"
      body := encoding.engagementEvent request
      clientId := request.clientEventId
      userId := userId
      createdAt := scan.occurredAt.toEpochMilli }

def queueRecoClick (customerId : String) (storeId productId : ℤ) (labelCode : String) (rank : ℤ) (now : Instant) :
    PhoneProg ℕ :=
  signedInUser >>= fun userId =>
  if rank < 1 then .raise (.illegalArgument "A rank is 1-based.")
  else .call .randomUuid fun uuid =>
    let request : EngagementEventRequest :=
      { clientEventId := uuid
        type := "RECO_CLICK"
        storeId := storeId
        productId := productId
        occurredAt := encoding.instant now
        customerId := some customerId
        labelCode := some labelCode
        rank := some rank }
    enqueue
      { operation := .recoClick
        path := "api/engagement/v1/engagement-events"
        body := encoding.engagementEvent request
        clientId := request.clientEventId
        userId := userId
        createdAt := now.toEpochMilli }

def queueSale (customerId : String) (storeId channelId : ℤ) (lines : List SaleLineRequest) (now : OffsetDateTime) :
    PhoneProg ℕ :=
  signedInUser >>= fun userId =>
  .call .randomUuid fun uuid =>
  let request : SaleRequest := ⟨customerId, storeId, channelId, encoding.offsetDateTime now, lines⟩
  enqueue
    { operation := .sale
      path := "api/sales/v1/sales"
      body := encoding.sale request
      clientId := uuid.toLower
      userId := userId
      createdAt := now.instant.toEpochMilli }

end Writes

/-! ### A pass over the queue -/

/-- What one attempt at a queued write came to. -/
inductive Attempt where
  | done (status : ℕ) (body correlationId : Option String) (replayed : Bool)
  | refused (error : ApiError)
  | retry
  | waitForSession
  deriving DecidableEq

inductive WorkResult where
  | success
  | retry
  deriving DecidableEq, Repr

def resend : List ℕ := [429, 502, 503, 504]

/-- The request a row is sent as. -/
def OutboxRow.endpoint (row : OutboxRow) (url : String) : Endpoint :=
  .post row.id url row.write.body (if row.write.operation = .sale then some row.write.clientId else none)

section Pass

variable (world : World)

/-- `Attempt.of`, with the header `Idempotent-Replayed`. -/
def Attempt.of (a : Answer) : Attempt :=
  if a.isSuccessful then
    .done a.status (some a.body) a.correlationId (decide (a.idempotentReplayed = some "true"))
  else if a.status = 401 then .waitForSession
  else if a.status ∈ resend then .retry
  else .refused (ApiError.from world a)

def Attempt.ofResponse (response : Response) : Attempt :=
  match response with
  | some a => .of world a
  | none => .retry

/-- Mark the row as its attempt says; the pass goes on where this ends with `none`. -/
def mark (row : OutboxRow) : Attempt → PhoneProg (Option WorkResult)
  | .done status body correlationId replayed =>
    .call (.markDone row.id status body correlationId (if replayed then some "idempotent_replayed" else none))
      fun _ => .ret none
  | .refused error =>
    .call (.markRefused row.id error.status error.code error.message error.correlationId) fun _ => .ret none
  | .retry => .ret (some .retry)
  | .waitForSession => .ret (some .success)

/-- The row is sent to its URL; a path that is no URL never becomes one. -/
def sendTo (row : OutboxRow) : Option String → PhoneProg (Option WorkResult)
  | none =>
    .call (.markRefused row.id 0 "invalid_path" "The request path is not a valid URL." none) fun _ => .ret none
  | some url => execute world (row.endpoint url) >>= fun response => mark row (.ofResponse world response)

/-- One turn of the loop of `drain`. -/
def sendRow (row : OutboxRow) : PhoneProg (Option WorkResult) :=
  .call (.countAttempt row.id) fun _ => sendTo world row (world.resolve row.write.path)

def sendRows : List OutboxRow → PhoneProg WorkResult
  | [] => .ret .success
  | row :: rows => sendRow world row >>= fun stop =>
    match stop with
    | some result => .ret result
    | none => sendRows rows

/-- `OutboxWorker.drain`. -/
def drain : PhoneProg WorkResult :=
  .call .readUserId fun userId =>
  match userId with
  | none => .ret .success
  | some userId => .call .readTokens fun tokens =>
    if tokens = none then .ret .success
    else .call (.pendingFor userId) fun rows => sendRows world rows

def doWork : PhoneProg WorkResult := during .pass (drain world)

end Pass

/-! ### Calls -/

/-- Everything that runs on the phone. -/
inductive Call (D : Type) where
  | queueCheckIn (storeId : ℤ) (fix : Option (Fix D)) (now : Instant)
  | queueQrScan (scan : Scan) (productId storeId : ℤ) (customerId : Option String)
  | queueRecoClick (customerId : String) (storeId productId : ℤ) (labelCode : String) (rank : ℤ) (now : Instant)
  | queueSale (customerId : String) (storeId channelId : ℤ) (lines : List SaleLineRequest) (now : OffsetDateTime)
  | doWork
  | dismiss (id : ℕ)
  | signIn (email password deviceLabel : String)
  | currentUser
  | signOut
  | read (url : String)

inductive Done where
  | queued (id : ℕ)
  | worked (result : WorkResult)
  | dismissed (count : ℕ)
  | session (result : SessionResult)
  | signedOut
  | shown (response : Response)

def Call.program {D : Type} (world : World) (encoding : Encoding D) : Call D → PhoneProg Done
  | .queueCheckIn storeId fix now => Floor.queueCheckIn encoding storeId fix now >>= fun id => .ret (.queued id)
  | .queueQrScan scan productId storeId customerId =>
    Floor.queueQrScan encoding scan productId storeId customerId >>= fun id => .ret (.queued id)
  | .queueRecoClick customerId storeId productId labelCode rank now =>
    Floor.queueRecoClick encoding customerId storeId productId labelCode rank now >>= fun id => .ret (.queued id)
  | .queueSale customerId storeId channelId lines now =>
    Floor.queueSale encoding customerId storeId channelId lines now >>= fun id => .ret (.queued id)
  | .doWork => Floor.doWork world >>= fun result => .ret (.worked result)
  | .dismiss id => .call (.dismiss id) fun count => .ret (.dismissed count)
  | .signIn email password deviceLabel =>
    Floor.signIn world email password deviceLabel >>= fun result => .ret (.session result)
  | .currentUser => Floor.currentUser world >>= fun result => .ret (.session result)
  | .signOut => Floor.signOut world >>= fun _ => .ret .signedOut
  | .read url => execute world (.read url) >>= fun response => .ret (.shown response)

end RetailSegmentation.Floor
