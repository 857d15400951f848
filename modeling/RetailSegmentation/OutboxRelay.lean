import RetailSegmentation.ProgramSyntax
import RetailSegmentation.OldestFirst

/-! One pass of the outbox relay of both kits (`mosaiq_kit/streams.py`, `kit-rs/src/streams.rs`): the oldest
unrelayed rows are appended to their streams and marked relayed, in one transaction; old relayed rows are
purged. -/

namespace RetailSegmentation.Outbox

open Program OldestFirst

/-- A row of `<suffix>_events.outbox`; `T` is `timestamptz`. -/
structure Row (T : Type) where
  eventId : ℕ
  stream : String
  eventType : String
  entityId : String
  occurredAt : T
  relayedAt : Option T
  deriving DecidableEq, Repr

/-- What is appended to a stream. -/
structure Entry where
  stream : String
  eventId : ℕ
  v : ℕ
  eventType : String
  entityId : String
  occurredAt : String
  deriving DecidableEq, Repr

def Row.entry {T : Type} (row : Row T) (occurredAt : String) : Entry where
  stream := row.stream
  eventId := row.eventId
  v := 1
  eventType := row.eventType
  entityId := row.entityId
  occurredAt := occurredAt

inductive Failure where
  | database
  | redis
  | value
  deriving DecidableEq, Repr

/-- What a pass asks of PostgreSQL, of Redis and of the relay's own clock. -/
inductive Command where
  | connect
  | notifies
  | begin
  | select (limit : ℕ)
  | xadd (entry : Entry) (maxlen : ℕ)
  | waitAof (numlocal numreplicas timeout : ℕ)
  | mark (eventIds : List ℕ)
  | commit
  | rollback
  | purgeDue (seconds : ℕ)
  | purge (days : ℕ)
  | notePurge
  deriving DecidableEq, Repr

abbrev Reply (T : Type) : Command → Type
  | .connect => Except Failure Unit
  | .notifies => Except Failure Unit
  | .begin => Except Failure Unit
  | .select _ => Except Failure (List (Row T))
  | .xadd _ _ => Except Failure Unit
  | .waitAof _ _ _ => Except Failure (List ℤ)
  | .mark _ => Except Failure Unit
  | .commit => Except Failure Unit
  | .rollback => Except Failure Unit
  | .purgeDue _ => Bool
  | .purge _ => Except Failure Unit
  | .notePurge => Unit

abbrev RelayProg (T α : Type) := Prog Command (Reply T) Failure α

section Passes

variable {T : Type}

def orRaise {α : Type} : Except Failure α → RelayProg T α
  | .ok a => .ret a
  | .error e => .raise e

/-- The streams a relay is configured with, and how it writes a time (`none`: it cannot). -/
structure Relay (T : Type) where
  streams : List String
  timestamp : T → Option String

variable (relay : Relay T)

/-! ### `mosaiq_kit.streams` -/

namespace Py

/-- The loop over the batch, and the ids of what it has appended. -/
def deliver : List (Row T) → List ℕ → RelayProg T (List ℕ)
  | [], eventIds => .ret eventIds
  | row :: rows, eventIds =>
    if row.stream ∉ relay.streams then deliver rows eventIds
    else match relay.timestamp row.occurredAt with
    | none => .raise .value
    | some occurredAt => do
      orRaise (← Prog.send (Command.xadd (row.entry occurredAt) 10000))
      deliver rows (eventIds ++ [row.eventId])

/-- `durability and int(durability[0]) >= 1`, or an exception. -/
def confirmed : List ℤ → RelayProg T Unit
  | [] => .raise .redis
  | n :: _ => if n < 1 then .raise .redis else .ret ()

def relayBatch : RelayProg T ℕ := do
  let rows ← orRaise (← Prog.send (.select 100))
  let eventIds ← deliver relay rows []
  if eventIds = [] then return 0
  confirmed (← orRaise (← Prog.send (Command.waitAof 1 0 2000)))
  orRaise (← Prog.send (.mark eventIds))
  return eventIds.length

/-- `with connection.transaction()`. -/
def transaction {α : Type} (body : RelayProg T α) : RelayProg T α := do
  orRaise (← Prog.send .begin)
  let value ← body.tryCatch fun e => do
    let _ ← Prog.send .rollback
    .raise e
  orRaise (← Prog.send .commit)
  return value

def purgeStale : RelayProg T Unit := do
  if ← Prog.send (.purgeDue 3600) then
    transaction do orRaise (← Prog.send (.purge 7))
    Prog.send Command.notePurge

/-- `OutboxRelay.run_once`. -/
def runOnce (wait : Bool) : RelayProg T ℕ := do
  orRaise (← Prog.send .connect)
  if wait then orRaise (← Prog.send .notifies)
  let relayed ← Prog.tryCatch (do return some (← transaction (relayBatch relay))) fun e =>
    if e = .redis then .ret none else .raise e
  match relayed with
  | none => return 0
  | some relayed => do
    purgeStale
    return relayed

end Py

/-! ### `kit-rs` -/

namespace Rs

/-- The loop over the batch: it breaks off when Redis fails. -/
def deliver : List (Row T) → List ℕ → RelayProg T (Except Failure (List ℕ))
  | [], eventIds => .ret (.ok eventIds)
  | row :: rows, eventIds =>
    if row.stream ∉ relay.streams then deliver rows eventIds
    else match relay.timestamp row.occurredAt with
    | none => .raise .database
    | some occurredAt => do
      let reply : Except Failure Unit ← Prog.send (Command.xadd (row.entry occurredAt) 10000)
      match reply with
      | .error e => .ret (.error e)
      | .ok () => deliver rows (eventIds ++ [row.eventId])

def confirm : List ℕ → RelayProg T (Except Failure (List ℕ))
  | [] => .ret (.ok [])
  | eventId :: eventIds => do
    let reply : Except Failure (List ℤ) ← Prog.send (Command.waitAof 1 0 2000)
    match reply with
    | .error e => .ret (.error e)
    | .ok reply => .ret (if 1 ≤ reply.headD 0 then .ok (eventId :: eventIds) else .error .redis)

def purgeStale : RelayProg T Unit := do
  if ← Prog.send (.purgeDue 3600) then
    orRaise (← Prog.send (.purge 7))
    Prog.send Command.notePurge

/-- The end of `run_once`: nothing is marked unless everything was delivered. -/
def finish : Except Failure (List ℕ) → RelayProg T ℕ
  | .error _ => do
    orRaise (← Prog.send .rollback)
    return 0
  | .ok eventIds => do
    if 0 < eventIds.length then orRaise (← Prog.send (.mark eventIds))
    orRaise (← Prog.send .commit)
    purgeStale
    return eventIds.length

/-- `OutboxRelay::run_once`; a transaction that is not committed is dropped. -/
def runOnce (wait : Bool) : RelayProg T ℕ := do
  orRaise (← Prog.send .connect)
  if wait then orRaise (← Prog.send .notifies)
  orRaise (← Prog.send .begin)
  let rows ← orRaise (← Prog.send (.select 100))
  match ← deliver relay rows [] with
  | .error e => finish (.error e)
  | .ok eventIds => do finish (← confirm eventIds)

end Rs

end Passes

end RetailSegmentation.Outbox
