import RetailSegmentation.CampaignHistory
import RetailSegmentation.KitErrors
import RetailSegmentation.TransactionServer
import RetailSegmentation.TransactionTables

/-! The two writers of campaigns: campaigns-service (`services/campaigns`) and the web application
(`web/services/campaigns.py`, `web/db/campaigns.py`). They share the table, the advisory lock of a create
and the status predicates of their updates. -/

namespace RetailSegmentation.Campaigns

open Program Transactions

/-! ### Tables -/

inductive Writer where
  | service | web
  deriving DecidableEq, Repr

/-- The label vocabulary, which no call changes. -/
structure Vocabulary where
  hasLabel : String → Bool

/-- The counts of one experiment's groups. -/
structure GroupCounts where
  experimentId : ℤ
  name : String
  controlGroups : ℕ
  treatmentGroups : ℕ
  deriving DecidableEq, Repr

/-- What a statement reads beside the campaigns: the date, and the experiments of a campaign. -/
structure Outside where
  today : Date
  counts : ℤ → List GroupCounts

/-- The campaigns, the holder of the create lock, and what nothing reads: the event each open transaction
has written, and the events committed. -/
structure CampaignDb (T : Type) where
  rows : Table T ℤ Campaign
  lock : Option T
  event : T → Option Event
  history : List (T × Event)

/-! ### Statements -/

inductive Statement where
  | setConfig (sub : String)
  | lockCreate
  | duplicateDraft (details : Details)
  | insert (details : Details)
  | get (id : ℤ)
  | getForUpdate (id : ℤ)
  | updateDraft (id : ℤ) (details : Details)
  | readStatus (id : ℤ)
  | changeStatus (writer : Writer) (id : ℤ) (source target : Status)
  | currentDate
  | groupCounts (id : ℤ)
  deriving DecidableEq, Repr

/-- An update answers with the row it wrote, if one matched. -/
abbrev Result : Statement → Type
  | .setConfig _ => Unit
  | .lockCreate => Unit
  | .duplicateDraft _ => Bool
  | .insert _ => ℤ × Campaign
  | .get _ => Option Campaign
  | .getForUpdate _ => Option Campaign
  | .updateDraft _ _ => Option Campaign
  | .readStatus _ => Option (Status × Bool)
  | .changeStatus _ _ _ _ => Option Campaign
  | .currentDate => Date
  | .groupCounts _ => List GroupCounts

/-- An experiment is ready with a treatment group and a control, or with two treatment groups. -/
def GroupCounts.Ready (counts : GroupCounts) : Prop :=
  counts.treatmentGroups ≠ 0 ∧ (counts.controlGroups ≠ 0 ∨ counts.treatmentGroups = 2)

instance (counts : GroupCounts) : Decidable counts.Ready := inferInstanceAs (Decidable (_ ∧ _))

namespace CampaignDb

variable {T : Type} [DecidableEq T]

def ofRows (rows : AList fun _ : ℤ => Campaign) : CampaignDb T := ⟨.ofRows rows, none, fun _ => none, []⟩

/-- `COALESCE(max(campaign_id), 0) + 1`. -/
def nextId (ids : List ℤ) : ℤ := (ids.max?.getD 0) + 1

def rowRefusal (vocabulary : Vocabulary) (details : Details) : Option DbError :=
  if 120 < details.name.length ∨ 40 < details.labelCode.length then
    some (.dataError .stringDataRightTruncation)
  else if ¬ details.Ordered then some (.checkViolation "campaign_check")
  else if !vocabulary.hasLabel details.labelCode then some (.foreignKeyViolation "campaign_label_code_fkey")
  else none

def insertRefusal (vocabulary : Vocabulary) (db : CampaignDb T) (t : T) (details : Details) :
    Option DbError :=
  let id := nextId (db.rows.view t).keys
  if 2147483647 < id then some (.dataError .numericValueOutOfRange)
  else match rowRefusal vocabulary details with
    | some (.foreignKeyViolation name) =>
      if (db.rows.get t id).isSome then some (.uniqueViolation "campaign_pkey")
      else some (.foreignKeyViolation name)
    | some e => some e
    | none => if (db.rows.get t id).isSome then some (.uniqueViolation "campaign_pkey") else none

/-- `trg_campaign_activation_guard`, which fires for the service's sessions. -/
def guardRefusal (outside : Outside) (writer : Writer) (id : ℤ) (target : Status) : Option DbError :=
  if writer = .service ∧ target = .active ∧ ¬ ∀ counts ∈ outside.counts id, counts.Ready then
    some (.checkViolation "experiment_not_ready")
  else none

def write (t : T) (db : CampaignDb T) (e : Event) (c : Campaign) : Option (CampaignDb T) :=
  if hfree : db.rows.Free t e.id then
    some { db with
      rows := db.rows.put t e.id (some c) hfree
      event := Function.update db.event t (some e) }
  else none

/-- An UPDATE of the row `id`, where it is in status `source`. -/
def update (t : T) (db : CampaignDb T) (id : ℤ) (source : Status) (e : Event) (change : Campaign → Campaign)
    (refusal : Option DbError) : Option (Option Campaign × CampaignDb T) :=
  match db.rows.get t id with
  | none => some (none, db)
  | some c =>
    if c.status = source then
      if refusal = none then (db.write t e (change c)).map fun db' => (some (change c), db') else none
    else some (none, db)

def updateRefusal (t : T) (db : CampaignDb T) (id : ℤ) (source : Status) (refusal : Option DbError) :
    Option DbError :=
  match db.rows.get t id with
  | none => none
  | some c => if c.status = source ∧ db.rows.Free t id then refusal else none

/-- The answer to a statement and the tables after it; `none` while it waits, or where it is refused. -/
def answer (vocabulary : Vocabulary) (outside : Outside) (t : T) :
    (s : Statement) → CampaignDb T → Option (Result s × CampaignDb T)
  | .setConfig _, db => some ((), db)
  | .lockCreate, db =>
    if db.lock = none ∨ db.lock = some t then some ((), { db with lock := some t }) else none
  | .duplicateDraft details, db =>
    some ((db.rows.view t).entries.any fun e => e.2 = ⟨details, .draft⟩, db)
  | .insert details, db =>
    let id := nextId (db.rows.view t).keys
    if db.insertRefusal vocabulary t details = none then
      (db.write t (.created id details) ⟨details, .draft⟩).map fun db' => ((id, ⟨details, .draft⟩), db')
    else none
  | .get id, db => some (db.rows.get t id, db)
  | .getForUpdate id, db =>
    match db.rows.get t id with
    | none => some (none, db)
    | some c =>
      if hfree : db.rows.Free t id then some (some c, { db with rows := db.rows.lock t id hfree }) else none
  | .updateDraft id details, db =>
    db.update t id .draft (.edited id details) (fun c => { c with details }) (rowRefusal vocabulary details)
  | .readStatus id, db =>
    some ((db.rows.get t id).map fun c => (c.status, decide (c.details.endsOn.Before outside.today)), db)
  | .changeStatus writer id source target, db =>
    db.update t id source (.moved id source target) (fun c => { c with status := target })
      (guardRefusal outside writer id target)
  | .currentDate, db => some (outside.today, db)
  | .groupCounts id, db => some (outside.counts id, db)

def refusal (vocabulary : Vocabulary) (outside : Outside) (t : T) (s : Statement) (db : CampaignDb T) :
    Option DbError :=
  match s with
  | .insert details => db.insertRefusal vocabulary t details
  | .updateDraft id details => db.updateRefusal t id .draft (rowRefusal vocabulary details)
  | .changeStatus writer id source target =>
    db.updateRefusal t id source (guardRefusal outside writer id target)
  | _ => none

def commit (t : T) (db : CampaignDb T) : CampaignDb T where
  rows := db.rows.commit t
  lock := if db.lock = some t then none else db.lock
  event := Function.update db.event t none
  history := db.history ++ ((db.event t).map fun e => (t, e)).toList

def rollback (t : T) (db : CampaignDb T) : CampaignDb T where
  rows := db.rows.rollback t
  lock := if db.lock = some t then none else db.lock
  event := Function.update db.event t none
  history := db.history

end CampaignDb

/-- A commit that is not answered has not happened. -/
def campaignServer (T : Type) [DecidableEq T] (vocabulary : Vocabulary) :
    Server T Statement Result DbError (CampaignDb T) where
  answers t s db v db' := ∃ outside, CampaignDb.answer vocabulary outside t s db = some (v, db')
  refuses t s db e := ∃ outside, CampaignDb.refusal vocabulary outside t s db = some e
  aborts := IsAbort
  commit := CampaignDb.commit
  rollback := CampaignDb.rollback
  losesReplies := False

/-! ### Outcomes -/

inductive CampaignFailure where
  | api (error : ApiError)
  | notFound (id : ℤ)
  | invalidTransition (message : String)
  | refused (field message : String)
  | database (error : DbError)
  deriving DecidableEq, Repr

abbrev CampaignProg (α : Type) : Type := SqlProg Result DbError CampaignFailure α

def Status.text : Status → String
  | draft => "DRAFT"
  | active => "ACTIVE"
  | finished => "FINISHED"
  | cancelled => "CANCELLED"

/-- `status.lower()`. -/
def Status.lower : Status → String
  | draft => "draft"
  | active => "active"
  | finished => "finished"
  | cancelled => "cancelled"

def pad (width n : ℕ) : String :=
  String.ofList (List.replicate (width - (toString n).length) '0') ++ toString n

def Date.isoformat (d : Date) : String := pad 4 d.year ++ "-" ++ pad 2 d.month ++ "-" ++ pad 2 d.day

/-! ### campaigns-service -/

namespace Service

def campaignNotFound : ApiError :=
  ⟨404, "campaign_not_found", "No campaign has the requested campaign_id.", []⟩

def endsBeforeStart : ApiError :=
  ⟨422, "ends_before_start", "ends_on cannot be before starts_on.", [⟨"ends_on", "before_start"⟩]⟩

def unknownLabel : ApiError :=
  ⟨422, "unknown_label", "label_code is absent from the segment label vocabulary.",
    [⟨"label_code", "unknown"⟩]⟩

def campaignNotDraft : ApiError := ⟨409, "campaign_not_draft", "Only a DRAFT campaign may be edited.", []⟩

def duplicateDraft : ApiError :=
  ⟨409, "duplicate_draft",
    "A DRAFT campaign with the same name, label_code, starts_on and ends_on already exists.", []⟩

def statusChanged : ApiError :=
  ⟨409, "status_changed",
    "The campaign status no longer matches expected_status; reload it before retrying.", []⟩

def campaignEnded : ApiError :=
  ⟨409, "campaign_ended", "A campaign whose ends_on date has passed cannot move to ACTIVE.", []⟩

def experimentNotReady : ApiError :=
  ⟨409, "experiment_not_ready",
    "Every attached experiment must have a valid treatment design before activation.", []⟩

def illegalTransition (status target : Status) : ApiError :=
  let tail := if status.transitions = [] then "it is terminal and cannot move."
    else "it may move only to " ++ " or ".intercalate (status.transitions.map Status.text) ++ "."
  ⟨409, "illegal_transition",
    "A " ++ status.text ++ " campaign cannot move to " ++ target.text ++ "; " ++ tail, []⟩

def invalidBody (field code : String) : ApiError :=
  ⟨422, "invalid_body", "The request body violates its schema.", [⟨field, code⟩]⟩

/-- `database_unavailable`, for a database that cannot be reached and for an id that is not found. -/
def unavailable (message : String) : ApiError := ⟨503, "database_unavailable", message, []⟩

/-- What leaves the kit's connection: an `OperationalError` as 503. -/
def kitFailure : DbError → CampaignFailure
  | .deadlockDetected => .api (unavailable "The service database is unavailable.")
  | .serializationFailure => .api (unavailable "The service database is unavailable.")
  | .operationalError => .api (unavailable "The service database is unavailable.")
  | e => .database e

/-- A database refusal in the rule's words, by constraint name. -/
def translate : CampaignFailure → CampaignFailure
  | .database (.checkViolation "campaign_check") => .api endsBeforeStart
  | .database (.checkViolation "experiment_not_ready") => .api experimentNotReady
  | .database (.foreignKeyViolation "campaign_label_code_fkey") => .api unknownLabel
  | e => e

def execute (s : Statement) : CampaignProg (Result s) := Transactions.execute kitFailure s

/-- `with refusals(), kit.db.transaction()`. -/
def inTransaction {α : Type} (sub : String) (body : CampaignProg α) : CampaignProg α :=
  (transaction kitFailure (execute (.setConfig sub) >>= fun _ => body)).tryCatch fun e =>
    .raise (translate e)

structure Representation where
  campaignId : ℤ
  name : String
  labelCode : String
  startsOn : String
  endsOn : String
  status : Status
  allowedTransitions : List Status
  deriving DecidableEq, Repr

def representation (id : ℤ) (c : Campaign) : Representation where
  campaignId := id
  name := c.details.name
  labelCode := c.details.labelCode
  startsOn := c.details.startsOn.isoformat
  endsOn := c.details.endsOn.isoformat
  status := c.status
  allowedTransitions := c.status.transitions

/-- The name once stripped; `none` where nothing is left. -/
def cleanName : Option String → CampaignProg String
  | none => .raise (.api (invalidBody "name" "too_short"))
  | some name => .ret name

/-- What `date.fromisoformat` reads; `none` where it reads no date. -/
def parseDate (value : Option Date) (field : String) : CampaignProg Date :=
  match value with
  | none => .raise (.api (invalidBody field "invalid_format"))
  | some date => .ret date

def createAttempts : ℕ := 3

/-- One attempt: lock, reject an identical draft, then allocate and insert. -/
def createCampaignOnce (details : Details) : CampaignProg Representation :=
  if details.endsOn.Before details.startsOn then .raise (.api endsBeforeStart)
  else do
    execute .lockCreate
    let duplicate ← execute (.duplicateDraft details)
    if duplicate then .raise (.api duplicateDraft)
    else do
      let (id, c) ← execute (.insert details)
      .ret (representation id c)

def attempt (sub : String) (details : Details) : ℕ → CampaignProg Representation
  | 0 => .raise (.api (unavailable "A campaign id could not be allocated; retry the request."))
  | n + 1 => (inTransaction sub (createCampaignOnce details)).tryCatch fun e =>
    if e = .database (.uniqueViolation "campaign_pkey") then attempt sub details n else .raise e

/-- A `createCampaign` body, its name stripped and its dates read. -/
structure CreateBody where
  name : Option String
  labelCode : String
  startsOn : Option Date
  endsOn : Option Date
  deriving DecidableEq, Repr

def createCampaign (sub : String) (body : CreateBody) : CampaignProg Representation := do
  let name ← cleanName body.name
  let startsOn ← parseDate body.startsOn "starts_on"
  let endsOn ← parseDate body.endsOn "ends_on"
  attempt sub ⟨name, body.labelCode, startsOn, endsOn⟩ createAttempts

/-- The members an edit names. -/
structure Changes where
  name : Option (Option String)
  labelCode : Option String
  startsOn : Option (Option Date)
  endsOn : Option (Option Date)
  deriving DecidableEq, Repr

def Changes.apply (changes : Changes) (details : Details) : CampaignProg Details := do
  let name ← match changes.name with
    | some name => cleanName name
    | none => .ret details.name
  let startsOn ← match changes.startsOn with
    | some startsOn => parseDate startsOn "starts_on"
    | none => .ret details.startsOn
  let endsOn ← match changes.endsOn with
    | some endsOn => parseDate endsOn "ends_on"
    | none => .ret details.endsOn
  .ret ⟨name, changes.labelCode.getD details.labelCode, startsOn, endsOn⟩

def updateDraft (id : ℤ) (changes : Changes) : CampaignProg Representation := do
  match ← execute (.getForUpdate id) with
  | none => .raise (.api campaignNotFound)
  | some current =>
    if current.status ≠ .draft then .raise (.api campaignNotDraft)
    else do
      let details ← changes.apply current.details
      if details.endsOn.Before details.startsOn then .raise (.api endsBeforeStart)
      else do
        match ← execute (.updateDraft id details) with
        | none => .raise (.api campaignNotDraft)
        | some row => .ret (representation id row)

def transition (id : ℤ) (target expectedStatus : Status) : CampaignProg Representation := do
  match ← execute (.readStatus id) with
  | none => .raise (.api campaignNotFound)
  | some (status, ended) =>
    if status ≠ expectedStatus then .raise (.api statusChanged)
    else if target ∉ status.transitions then .raise (.api (illegalTransition status target))
    else if target = .active ∧ ended then .raise (.api campaignEnded)
    else do
      match ← execute (.changeStatus .service id status target) with
      | none => .raise (.api statusChanged)
      | some row => .ret (representation id row)

end Service

/-! ### The web application -/

namespace Web

def execute (s : Statement) : CampaignProg (Result s) := Transactions.execute .database s

/-- What a form button says. -/
inductive Action where
  | activate | complete | cancel
  deriving DecidableEq, Repr

def Action.target : Action → Status
  | activate => .active
  | complete => .finished
  | cancel => .cancelled

/-- A database refusal as a message the form can show; what is no `IntegrityError` passes. -/
def refusal : CampaignFailure → CampaignFailure
  | .database (.foreignKeyViolation _) => .refused "label_code" "That label is not in the vocabulary."
  | .database (.checkViolation _) => .refused "ends_on" "End date cannot be before the start date."
  | .database (.uniqueViolation _) => .refused "" "That campaign was refused by a database constraint."
  | e => e

def prefixed (id : ℤ) (message : String) : String := "Campaign " ++ toString id ++ message

def notADraft (id : ℤ) (status : Status) : String :=
  prefixed id (" is " ++ status.lower ++ "; only a draft can be edited.")

def createCampaign (details : Details) : CampaignProg ℤ :=
  (atomic .database (do
    execute .lockCreate
    let duplicate ← execute (.duplicateDraft details)
    if duplicate then .raise (.refused "" "A draft with this name, label and dates already exists.")
    else do
      let (id, _) ← execute (.insert details)
      .ret id)).tryCatch fun e => .raise (refusal e)

def leftDraft (id : ℤ) : String :=
  prefixed id " left draft while you were editing it; reload to see its current state."

def updateDraft (id : ℤ) (details : Details) : CampaignProg Unit :=
  (atomic .database (do
    match ← execute (.get id) with
    | none => .raise (.notFound id)
    | some current =>
      if current.status ≠ .draft then .raise (.invalidTransition (notADraft id current.status))
      else do
        match ← execute (.updateDraft id details) with
        | none => .raise (.invalidTransition (leftDraft id))
        | some _ => .ret ())).tryCatch fun e => .raise (refusal e)

/-- `sorted(TRANSITIONS[status])`. -/
def sortedTransitions : Status → List Status
  | .draft => [.active, .cancelled]
  | .active => [.cancelled, .finished]
  | .finished => []
  | .cancelled => []

def refuseMove (id : ℤ) (status target : Status) : CampaignFailure :=
  .invalidTransition <|
    if sortedTransitions status = [] then
      prefixed id (" is " ++ status.lower ++ "; no further transition is permitted.")
    else prefixed id (" is " ++ status.lower ++ " and cannot become " ++ target.lower ++ "; from " ++
      status.lower ++ " it can only become " ++
      " or ".intercalate ((sortedTransitions status).map Status.lower) ++ ".")

/-- Why the campaign cannot be activated yet, if it cannot: the first experiment that is not ready. -/
def activationRefusal (id : ℤ) : List GroupCounts → Option String
  | [] => none
  | counts :: rest =>
    let named := prefixed id (" cannot be activated: experiment " ++ toString counts.experimentId ++ " (" ++
      counts.name ++ ")")
    if counts.controlGroups = 0 ∧ counts.treatmentGroups ≠ 2 then
      some (named ++ " has no control group and must have exactly two treatment groups.")
    else if counts.treatmentGroups < 1 then some (named ++ " has no treatment group.")
    else activationRefusal id rest

def changedMeanwhile (id : ℤ) : String :=
  prefixed id " changed while you were working; reload to see its current state."

def activationChecks (id : ℤ) (current : Campaign) (today : Option Date) : CampaignProg Unit := do
  let today ← match today with
    | some today => .ret today
    | none => execute .currentDate
  if current.details.endsOn.Before today then
    .raise (.invalidTransition (prefixed id (" ended on " ++ current.details.endsOn.isoformat ++
      ", so it cannot be activated; edit the draft's dates first.")))
  else do
    match activationRefusal id (← execute (.groupCounts id)) with
    | some message => .raise (.invalidTransition message)
    | none => .ret ()

def transition (id : ℤ) (action : Action) (today : Option Date) : CampaignProg Status :=
  atomic .database (do
    match ← execute (.get id) with
    | none => .raise (.notFound id)
    | some current =>
      if action.target ∉ current.status.transitions then .raise (refuseMove id current.status action.target)
      else do
        if action.target = .active then activationChecks id current today else .ret ()
        match ← execute (.changeStatus .web id current.status action.target) with
        | none => .raise (.invalidTransition (changedMeanwhile id))
        | some _ => .ret action.target)

end Web

/-! ### Calls -/

inductive Call where
  | serviceCreate (sub : String) (body : Service.CreateBody)
  | serviceUpdate (sub : String) (id : ℤ) (changes : Service.Changes)
  | serviceTransition (sub : String) (id : ℤ) (target expectedStatus : Status)
  | webCreate (details : Details)
  | webUpdate (id : ℤ) (details : Details)
  | webTransition (id : ℤ) (action : Web.Action) (today : Option Date)

inductive Done where
  | represented (campaign : Service.Representation)
  | created (id : ℤ)
  | edited
  | moved (target : Status)
  deriving DecidableEq, Repr

def Call.program : Call → CampaignProg Done
  | serviceCreate sub body => Service.createCampaign sub body >>= fun c => .ret (.represented c)
  | serviceUpdate sub id changes =>
    Service.inTransaction sub (Service.updateDraft id changes) >>= fun c => .ret (.represented c)
  | serviceTransition sub id target expectedStatus =>
    Service.inTransaction sub (Service.transition id target expectedStatus) >>= fun c =>
      .ret (.represented c)
  | webCreate details => Web.createCampaign details >>= fun id => .ret (.created id)
  | webUpdate id details => Web.updateDraft id details >>= fun _ => .ret .edited
  | webTransition id action today => Web.transition id action today >>= fun target => .ret (.moved target)

end RetailSegmentation.Campaigns
