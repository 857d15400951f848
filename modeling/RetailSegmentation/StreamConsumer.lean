import RetailSegmentation.AccessChanges
import RetailSegmentation.RecentMemory

/-! The stream consumers of both kits (`mosaiq_kit/streams.py`, `kit-rs/src/streams.rs`). A pass handles what was
delivered to the consumer before it started, what others have kept for too long, and what is new. -/

namespace RetailSegmentation.StreamConsumer

open Program
open AccessChanges (Fields eventId)

/-- An entry as it is read: a trimmed one has no fields. Identifiers are the positions in the stream. -/
structure Entry where
  id : ℕ
  fields : Option Fields

inductive Marker where
  | own
  | new
  deriving DecidableEq, Repr

/-- The consumer's own attributes, its handler, and what is asked of the stream. The handler is given the fields; the
entry's identifier is for the record. -/
inductive Command where
  | groupReady
  | setGroupReady (ready : Bool)
  | started
  | setStarted (started : Bool)
  | handled (eventId : String)
  | remember (eventId : String)
  | handler (id : ℕ) (fields : Fields)
  | xgroupCreate
  | xreadgroup (marker : Marker) (count : ℕ)
  | xpendingIdle (count : ℕ)
  | xclaim (ids : List ℕ)
  | xpendingRange (id : ℕ)
  | xack (id : ℕ)

/-- An error of Redis: its code, or a lost connection. -/
inductive Failure where
  | noGroup
  | busyGroup
  | outage
  | other
  deriving DecidableEq, Repr

/-- The handler says whether it has not failed; `xpending_range` gives the deliveries of the entry, if it is pending. -/
abbrev Reply : Command → Type
  | .groupReady => Bool
  | .setGroupReady _ => Unit
  | .started => Bool
  | .setStarted _ => Unit
  | .handled _ => Bool
  | .remember _ => Unit
  | .handler _ _ => Bool
  | .xgroupCreate => Except Failure Unit
  | .xreadgroup _ _ => Except Failure (List Entry)
  | .xpendingIdle _ => Except Failure (List ℕ)
  | .xclaim _ => Except Failure (List Entry)
  | .xpendingRange _ => Except Failure (Option ℕ)
  | .xack _ => Except Failure Unit

abbrev ConsumerProg (α : Type) := Prog Command Reply Failure α

def orRaise {α : Type} : Except Failure α → ConsumerProg α
  | .ok a => .ret a
  | .error e => .raise e

/-! ### A pass -/

def ensureGroup : ConsumerProg Unit := do
  if ← Prog.send Command.groupReady then return ()
  else
    Prog.tryCatch (do orRaise (← Prog.send Command.xgroupCreate)) fun e =>
      if e = .busyGroup then .ret () else .raise e
    Prog.send (Command.setGroupReady true)

def deliveryCount (id : ℕ) : ConsumerProg ℕ := do
  let pending ← orRaise (← Prog.send (Command.xpendingRange id))
  return pending.getD 1

/-- Whether an event is in the memory; one without an identifier is not looked for. -/
def isHandled (event : String) : ConsumerProg Bool :=
  if event = "" then .ret false else Prog.send (Command.handled event)

def rememberEvent (event : String) : ConsumerProg Unit :=
  if event = "" then .ret () else Prog.send (Command.remember event)

def ack (id : ℕ) : ConsumerProg Unit := do orRaise (← Prog.send (Command.xack id))

/-- The loop of `_handle_entries`, `handle_entries`. -/
def handleEntries : List Entry → ℕ → ConsumerProg ℕ
  | [], processed => .ret processed
  | entry :: rest, processed =>
    match entry.fields with
    | none => do
      ack entry.id
      handleEntries rest (processed + 1)
    | some fields => do
      if ← isHandled (eventId fields) then
        ack entry.id
        handleEntries rest (processed + 1)
      else if ← Prog.send (Command.handler entry.id fields) then
        rememberEvent (eventId fields)
        ack entry.id
        handleEntries rest (processed + 1)
      else
        let deliveries ← deliveryCount entry.id
        if 5 ≤ deliveries then
          ack entry.id
          handleEntries rest (processed + 1)
        else
          handleEntries rest processed

def read (marker : Marker) : ConsumerProg (List Entry) := do
  orRaise (← Prog.send (Command.xreadgroup marker 100))

/-- What was delivered to this consumer before it started. -/
def handleOwn : ConsumerProg ℕ := do
  if ← Prog.send Command.started then return 0
  else
    let processed ← handleEntries (← read .own) 0
    Prog.send (Command.setStarted true)
    return processed

/-- What has been pending for a minute, of any consumer. -/
def handleIdle (processed : ℕ) : ConsumerProg ℕ := do
  let ids ← orRaise (← Prog.send (Command.xpendingIdle 100))
  if ids = [] then return processed
  else
    let claimed ← orRaise (← Prog.send (Command.xclaim ids))
    handleEntries claimed processed

def runPass : ConsumerProg ℕ := do
  let processed ← handleOwn
  let processed ← handleIdle processed
  handleEntries (← read .new) processed

def forgetGroup : ConsumerProg Unit := do
  Prog.send (Command.setGroupReady false)
  Prog.send (Command.setStarted false)

def runOnce : ConsumerProg ℕ := do
  ensureGroup
  Prog.tryCatch runPass fun e =>
    if e = .noGroup then do
      forgetGroup
      ensureGroup
      runPass
    else .raise e

/-! ### Passes -/

/-- A number of passes, between which a consumer recovers from the error that has ended one. -/
def passes (recover : Failure → ConsumerProg Unit) : ℕ → ConsumerProg Unit
  | 0 => .ret ()
  | n + 1 => do
    Prog.tryCatch (do
      let _ ← runOnce
      return ()) recover
    passes recover n

namespace Py

/-- `StreamConsumer._remember`. -/
def remember (capacity : ℕ) (handled : List String) (event : String) : List String :=
  Recent.forget capacity ((if event ∈ handled then handled else handled ++ [event]).erase event ++ [event])

/-- `StreamConsumer.run_forever`, which waits after an error. -/
def runForever : ℕ → ConsumerProg Unit := passes fun _ => .ret ()

end Py

namespace Rs

/-- `StreamConsumer::remember`. -/
def remember (capacity : ℕ) (handled : List String) (event : String) : List String :=
  Recent.forget capacity (handled.erase event ++ [event])

/-- `StreamConsumer::run_forever`. -/
def runForever : ℕ → ConsumerProg Unit := passes fun _ => .ret ()

/-- `StreamConsumer::run_with_reconnect`, which starts over on a new connection after an outage. -/
def runWithReconnect : ℕ → ConsumerProg Unit := passes fun e => if e = .outage then forgetGroup else .ret ()

end Rs

inductive Kit where
  | py
  | rs
  | rsReconnect
  deriving DecidableEq, Repr

namespace Kit

def run : Kit → ℕ → ConsumerProg Unit
  | py => Py.runForever
  | rs => Rs.runForever
  | rsReconnect => Rs.runWithReconnect

def remember : Kit → ℕ → List String → String → List String
  | py => Py.remember
  | rs => Rs.remember
  | rsReconnect => Rs.remember

theorem remember_eq (kit : Kit) (capacity : ℕ) (handled : List String) (event : String) :
    kit.remember capacity handled event = Recent.remember capacity handled event := by
  have hrs : Rs.remember capacity handled event = Recent.remember capacity handled event := Recent.forget_eq _ _
  cases kit with
  | py =>
      refine Eq.trans (congrArg (fun kept => Recent.forget capacity (kept ++ [event])) ?_) hrs
      split_ifs with hmem
      · rfl
      · rw [List.erase_append_right _ hmem, List.erase_cons_head, List.append_nil, List.erase_of_not_mem hmem]
  | rs => exact hrs
  | rsReconnect => exact hrs

end Kit

end RetailSegmentation.StreamConsumer
