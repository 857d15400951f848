import RetailSegmentation.DatabaseErrors
import RetailSegmentation.GroupedRows
import RetailSegmentation.TransactionServer

/-! The segmentation pipeline (`web/services/segmentation.py`, `web/db/segments.py`): a run reads, decides and records
its assignments in one transaction, under the advisory lock of the runs. `U`, `I` and `D` are the types of `uuid`, of
`timestamptz` and of the totals of money. -/

namespace RetailSegmentation.SegmentRuns

open Program Transactions Grouping

/-- A `uuid` has one text that PostgreSQL writes, and may have others that it reads. -/
structure Uuids (U : Type) where
  text : U → String
  parse : String → Option U
  parse_text : ∀ id, parse (text id) = some id

inductive Raised where
  | unknownMethod (message : String)
  | methodUnavailable (message : String)
  | adapterMismatch (message : String)
  | invalidAssignment (message : String)
  | valueError
  | adapter (reason : String)
  | database (e : DbError)
  deriving DecidableEq, Repr

/-- The columns of an assignment that a run writes as they are. -/
structure Columns (I D : Type) where
  segmentId : Option ℤ
  labelCode : Option String
  recencyLastPurchaseAt : Option I
  frequencyCount : Option ℤ
  monetaryTotal : Option D
  rScore : Option ℤ
  fScore : Option ℤ
  mScore : Option ℤ
  deriving DecidableEq, Repr

/-- What is compared of two assignments. -/
def Columns.pair {I D : Type} (columns : Columns I D) : Option ℤ × Option String :=
  (columns.segmentId, columns.labelCode)

/-- One customer's result, as it crosses the pipeline boundary. -/
structure Assignment (I D : Type) where
  customerId : String
  labelCode : Option String
  segmentId : Option ℤ
  lastPurchaseAt : Option I
  frequency : Option ℤ
  monetary : Option D
  rScore : Option ℤ
  fScore : Option ℤ
  mScore : Option ℤ
  viaFallback : Bool
  deriving DecidableEq, Repr

structure MethodOutput (I D P : Type) where
  assignments : List (Assignment I D)
  parameters : P

structure RunCounts where
  processed : ℕ
  assigned : ℕ
  unmatched : ℕ
  reassigned : ℕ
  cleared : ℕ
  fallback : ℕ
  deriving DecidableEq, Repr

structure RunResult where
  windowDays : ℤ
  processed : ℕ
  assigned : ℕ
  unmatched : ℕ
  reassigned : ℕ
  cleared : ℕ
  runId : ℕ
  method : String
  fallback : ℕ
  dataOrigin : String
  deriving DecidableEq, Repr

def RunResult.noSegmentChanged (result : RunResult) : Bool := result.reassigned = 0 && result.cleared = 0

variable {I D P : Type}

namespace Assignment

def measuredUnlabelled (customerId : String) : Raised :=
  .invalidAssignment s!"Customer {customerId} was measured but is not labelled. Only a customer with no sales in the window may be left unassigned."

def labelledUnmeasured (customerId : String) : Raised :=
  .invalidAssignment s!"Customer {customerId} is labelled but does not carry all raw recency, frequency and monetary values."

/-- Refuse a customer who was measured but left unlabelled. -/
def validate (a : Assignment I D) : Except Raised Unit := do
  if a.labelCode.isNone && (a.lastPurchaseAt.isSome || a.frequency.isSome || a.monetary.isSome || a.rScore.isSome ||
      a.fScore.isSome || a.mScore.isSome) then
    throw (measuredUnlabelled a.customerId)
  if a.labelCode.isSome && (a.lastPurchaseAt.isNone || a.frequency.isNone || a.monetary.isNone) then
    throw (labelledUnmeasured a.customerId)

/-- The values `insert_assignments` writes. -/
def asRow (a : Assignment I D) : String × Columns I D :=
  (a.customerId, ⟨a.segmentId, a.labelCode, a.lastPurchaseAt, a.frequency, a.monetary, a.rScore, a.fScore, a.mScore⟩)

end Assignment

/-- The loop of `_validated`, from the ids it has seen. -/
def validatedFrom : List String → List (Assignment I D) → Except Raised Unit
  | _, [] => return
  | seen, a :: rest => do
    a.validate
    if a.customerId ∈ seen then
      throw (.invalidAssignment s!"Customer {a.customerId} appears twice in one run.")
    validatedFrom (a.customerId :: seen) rest

/-- Every assignment, checked, before any row is written. -/
def validated (output : MethodOutput I D P) : Except Raised (List (Assignment I D)) := do
  validatedFrom [] output.assignments
  return output.assignments

/-- The customer had this open assignment before. -/
def unchanged (prior : Dict String (Option ℤ × Option String)) (a : Assignment I D) : Bool :=
  prior.lookup a.customerId = some (a.segmentId, a.labelCode)

/-- `reassigned` and `cleared`, as the loop of `summarise` counts them. -/
def changes (prior : Dict String (Option ℤ × Option String)) : List (Assignment I D) → ℕ × ℕ → ℕ × ℕ
  | [], counts => counts
  | a :: rest, (reassigned, cleared) =>
    if unchanged prior a then changes prior rest (reassigned, cleared)
    else if a.labelCode.isNone then changes prior rest (reassigned, cleared + 1)
    else changes prior rest (reassigned + 1, cleared)

def summarise (assignments : List (Assignment I D)) (prior : Dict String (Option ℤ × Option String)) : RunCounts :=
  let assigned := assignments.countP fun a => a.labelCode.isSome
  let (reassigned, cleared) := changes prior assignments (0, 0)
  { processed := assignments.length
    assigned := assigned
    unmatched := assignments.length - assigned
    reassigned := reassigned
    cleared := cleared
    fallback := assignments.countP fun a => a.viaFallback }

/-! ### Statements -/

inductive Statement (I D : Type) where
  | advisoryLock
  | clockTimestamp
  | readOpen
  | createRun (method : String) (windowDays : ℤ) (parameters : String) (customerCount : ℕ) (runAt : I)
  | close (at_ : I) (customerIds : List String)
  | insert (runId : ℕ) (rows : List (String × Columns I D)) (at_ : I)
  | notify (runId : ℕ)

abbrev Result (U I D : Type) : Statement I D → Type
  | .advisoryLock => Unit
  | .clockTimestamp => I
  | .readOpen => List (U × Option ℤ × Option String)
  | .createRun _ _ _ _ _ => ℕ × String
  | .close _ _ => Unit
  | .insert _ _ _ => Unit
  | .notify _ => Unit

/-! ### Programs -/

section Programs

variable {U : Type}

abbrev RunProg (U I D α : Type) : Type := SqlProg (Result U I D) DbError Raised α

def execute (s : Statement I D) : RunProg U I D (Result U I D s) := Transactions.execute .database s

def orRaise {α : Type} : Except Raised α → RunProg U I D α
  | .ok a => .ret a
  | .error e => .raise e

/-- Serialize runs, and return the instant this run is recorded at. -/
def lockForRun : RunProg U I D I := do
  execute .advisoryLock
  execute .clockTimestamp

/-- Each customer's open assignment, under the text of the id. -/
def readOpenAssignments (uuids : Uuids U) : RunProg U I D (Dict String (Option ℤ × Option String)) := do
  let rows : List (U × Option ℤ × Option String) ← execute .readOpen
  return rows.foldl (fun prior row => prior.put (uuids.text row.1) row.2) []

/-- `json.dumps` refuses NaN and Infinity. -/
def createRun (dumps : P → Option String) (method : String) (windowDays : ℤ) (parameters : P) (customerCount : ℕ)
    (runAt : I) : RunProg U I D (ℕ × String) :=
  match dumps parameters with
  | none => .raise .valueError
  | some snapshot => execute (.createRun method windowDays snapshot customerCount runAt)

def closeOpenAssignments (customerIds : List String) (at_ : I) : RunProg U I D Unit :=
  if customerIds = [] then return else execute (.close at_ customerIds)

def insertAssignments (runId : ℕ) (rows : List (String × Columns I D)) (at_ : I) : RunProg U I D Unit :=
  match rows with
  | [] => return
  | rows => execute (.insert runId rows at_)

structure MethodAdapter (I D P : Type) where
  method : String
  decide : ℤ → Except Raised (MethodOutput I D P)

variable (uuids : Uuids U) (dumps : P → Option String)

def recordBody (method : String) (windowDays : ℤ) (adapter : MethodAdapter I D P) : RunProg U I D RunResult := do
  let recordedAt ← lockForRun
  let output ← orRaise (adapter.decide windowDays)
  let assignments ← orRaise (validated output)
  let prior ← readOpenAssignments uuids
  let (runId, dataOrigin) ← createRun dumps method windowDays output.parameters assignments.length recordedAt
  closeOpenAssignments (assignments.map Assignment.customerId) recordedAt
  insertAssignments runId (assignments.map Assignment.asRow) recordedAt
  execute (.notify runId)
  let counts := summarise assignments prior
  return {
    windowDays := windowDays
    processed := counts.processed
    assigned := counts.assigned
    unmatched := counts.unmatched
    reassigned := counts.reassigned
    cleared := counts.cleared
    runId := runId
    method := method
    fallback := counts.fallback
    dataOrigin := dataOrigin }

/-- Read, decide, write, and commit, as one unit of work. -/
def record (method : String) (windowDays : ℤ) (adapter : MethodAdapter I D P) : RunProg U I D RunResult :=
  atomic .database (recordBody uuids dumps method windowDays adapter)

def methods : List String := ["RFM_RULES", "KMEANS"]

/-- `run_method`; `repr` is Python's, and `rfmRules` the one adapter that is registered. -/
def runMethod (repr : String → String) (rfmRules : ℤ → Except Raised (MethodOutput I D P)) (method : String)
    (windowDays : ℤ) (adapter : Option (MethodAdapter I D P)) : RunProg U I D RunResult :=
  let known := String.intercalate ", " methods
  if method ∉ methods then
    .raise (.unknownMethod (repr method ++ " is not a segmentation method; use one of " ++ known ++ "."))
  else
    match adapter <|> (if method = "RFM_RULES" then some ⟨"RFM_RULES", rfmRules⟩ else none) with
    | none => .raise (.methodUnavailable ("No adapter is available to run " ++ method ++ " yet."))
    | some chosen =>
      if chosen.method ≠ method then
        .raise (.adapterMismatch
          ("The " ++ chosen.method ++ " adapter cannot run the requested " ++ method ++ " method."))
      else record uuids dumps method windowDays chosen

end Programs

end RetailSegmentation.SegmentRuns
