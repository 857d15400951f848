import RetailSegmentation.StreamConsumer

/-! A stream and a consumer group of it, with any number of consumer processes. Meanwhile entries are added and
trimmed, and the group may be lost. -/

namespace RetailSegmentation.StreamConsumer

open Program
open AccessChanges (Fields eventId)

/-- An entry that was delivered and not acknowledged: to whom, and how often. -/
structure Pending where
  id : ℕ
  owner : String
  deliveries : ℕ
  deriving DecidableEq, Repr

/-- A group: the first entry after it was created, the next one to deliver, and what is pending. -/
structure Group where
  created : ℕ
  next : ℕ
  pending : List Pending
  deriving DecidableEq, Repr

namespace Group

def ids (group : Group) : List ℕ := group.pending.map Pending.id

/-- The entries that `>` reads. -/
def fresh (group : Group) (present : List ℕ) (count : ℕ) : List ℕ :=
  (present.filter fun id => group.next ≤ id).take count

def deliver (group : Group) (host : String) (ids : List ℕ) : Group :=
  { group with
    next := (ids.getLast?.map (· + 1)).getD group.next
    pending := group.pending ++ ids.map fun id => ⟨id, host, 1⟩ }

/-- The entries that `0` reads: those that are pending for a host. -/
def own (group : Group) (host : String) (count : ℕ) : List ℕ :=
  ((group.pending.filter fun p => p.owner = host).map Pending.id).take count

def redeliver (group : Group) (host : String) (ids : List ℕ) : Group :=
  { group with
    pending := group.pending.map fun p =>
      if p.id ∈ ids then { p with owner := host, deliveries := p.deliveries + 1 } else p }

def remove (group : Group) (ids : List ℕ) : Group :=
  { group with pending := group.pending.filter fun p => p.id ∉ ids }

def deliveries (group : Group) (id : ℕ) : Option ℕ := (group.pending.find? fun p => p.id = id).map Pending.deliveries

end Group

/-- The attributes of a consumer. -/
structure Consumer where
  handled : List String
  groupReady : Bool
  started : Bool

/-- A consumer process: its kit, its host, and how many events it remembers. -/
structure Process where
  kit : Kit
  host : String
  capacity : ℕ

/-- The stream, its group and the consumers; and of the past: what was added, what was delivered, whose handler has
succeeded and failed with which entry, and who has acknowledged what. -/
structure World (T : Type) where
  added : List Fields
  present : List ℕ
  group : Option Group
  consumers : T → Consumer
  delivered : List ℕ
  succeeded : List (T × ℕ × Fields)
  failed : List (T × ℕ)
  acked : List (T × ℕ)

namespace World

variable {T : Type}

def entry (w : World T) (id : ℕ) : Entry := ⟨id, if id ∈ w.present then w.added[id]? else none⟩

/-- The errors that Redis may answer with. -/
def Fails (w : World T) : Failure → Prop
  | .noGroup => w.group = none
  | .busyGroup => w.group ≠ none
  | .outage => True
  | .other => True

def kept (w : World T) (ids : List ℕ) : List ℕ := ids.filter fun id => id ∈ w.present

def trimmed (w : World T) (ids : List ℕ) : List ℕ := ids.filter fun id => id ∉ w.present

variable [DecidableEq T]

def set (w : World T) (t : T) (consumer : Consumer) : World T :=
  { w with consumers := Function.update w.consumers t consumer }

end World

/-- A command was carried out, and its reply may have been lost. -/
def CarriedOut {α : Type} (a : α) (r : Except Failure α) : Prop := r = .ok a ∨ r = .error .outage

section Machine

variable {T : Type} [DecidableEq T] (process : T → Process)

/-- What the commands of process `t` do. How long an entry has been pending is not told: any may be idle. -/
inductive Answers (t : T) : (c : Command) → World T → Reply c → World T → Prop
  | groupReady {w : World T} : Answers t .groupReady w (w.consumers t).groupReady w
  | setGroupReady {w : World T} {ready : Bool} : Answers t (.setGroupReady ready) w ()
      (w.set t { w.consumers t with groupReady := ready })
  | started {w : World T} : Answers t .started w (w.consumers t).started w
  | setStarted {w : World T} {started : Bool} : Answers t (.setStarted started) w ()
      (w.set t { w.consumers t with started })
  | handled {w : World T} {event : String} : Answers t (.handled event) w (event ∈ (w.consumers t).handled) w
  | remember {w : World T} {event : String} : Answers t (.remember event) w ()
      (w.set t { w.consumers t with
        handled := (process t).kit.remember (process t).capacity (w.consumers t).handled event })
  | succeeded {w : World T} {id : ℕ} {fields : Fields} : Answers t (.handler id fields) w true
      { w with succeeded := w.succeeded ++ [(t, id, fields)] }
  | failed {w : World T} {id : ℕ} {fields : Fields} : Answers t (.handler id fields) w false
      { w with failed := w.failed ++ [(t, id)] }
  | created {w : World T} {r : Except Failure Unit} (hgroup : w.group = none) (hr : CarriedOut () r) :
      Answers t .xgroupCreate w r { w with group := some ⟨w.added.length, w.added.length, []⟩ }
  | notCreated {w : World T} {e : Failure} (he : w.Fails e) : Answers t .xgroupCreate w (.error e) w
  | readNew {w : World T} {count : ℕ} {group : Group} {r : Except Failure (List Entry)} (hgroup : w.group = some group)
      (hr : CarriedOut ((group.fresh w.present count).map w.entry) r) : Answers t (.xreadgroup .new count) w r
      { w with
        group := some (group.deliver (process t).host (group.fresh w.present count))
        delivered := w.delivered ++ group.fresh w.present count }
  | readOwn {w : World T} {count : ℕ} {group : Group} {r : Except Failure (List Entry)} (hgroup : w.group = some group)
      (hr : CarriedOut ((group.own (process t).host count).map w.entry) r) : Answers t (.xreadgroup .own count) w r
      { w with
        group := some (group.redeliver (process t).host (w.kept (group.own (process t).host count)))
        delivered := w.delivered ++ w.kept (group.own (process t).host count) }
  | notRead {w : World T} {marker : Marker} {count : ℕ} {e : Failure} (he : w.Fails e) :
      Answers t (.xreadgroup marker count) w (.error e) w
  | idle {w : World T} {count : ℕ} {group : Group} {ids : List ℕ} (hgroup : w.group = some group)
      (hids : ids.Sublist group.ids) (hcount : ids.length ≤ count) : Answers t (.xpendingIdle count) w (.ok ids) w
  | notIdle {w : World T} {count : ℕ} {e : Failure} (he : w.Fails e) : Answers t (.xpendingIdle count) w (.error e) w
  | claimed {w : World T} {ids claimed : List ℕ} {group : Group} {r : Except Failure (List Entry)}
      (hgroup : w.group = some group) (hclaimed : claimed.Sublist ids) (hpending : ∀ id ∈ claimed, id ∈ group.ids)
      (hr : CarriedOut ((w.kept claimed).map w.entry) r) : Answers t (.xclaim ids) w r
      { w with
        group := some ((group.redeliver (process t).host (w.kept claimed)).remove (w.trimmed claimed))
        delivered := w.delivered ++ w.kept claimed }
  | notClaimed {w : World T} {ids : List ℕ} {e : Failure} (he : w.Fails e) : Answers t (.xclaim ids) w (.error e) w
  | counted {w : World T} {id : ℕ} {group : Group} (hgroup : w.group = some group) :
      Answers t (.xpendingRange id) w (.ok (group.deliveries id)) w
  | notCounted {w : World T} {id : ℕ} {e : Failure} (he : w.Fails e) : Answers t (.xpendingRange id) w (.error e) w
  | acked {w : World T} {id : ℕ} {r : Except Failure Unit} (hr : CarriedOut () r) : Answers t (.xack id) w r
      { w with
        group := w.group.map fun group => group.remove [id]
        acked := w.acked ++ [(t, id)] }
  | notAcked {w : World T} {id : ℕ} {e : Failure} (he : w.Fails e) : Answers t (.xack id) w (.error e) w

/-- What happens meanwhile. -/
inductive Meanwhile : World T → World T → Prop
  | xadd {w : World T} (fields : Fields) : Meanwhile w
      { w with added := w.added ++ [fields], present := w.present ++ [w.added.length] }
  | trim {w : World T} {present : List ℕ} (hpresent : present.Sublist w.present) : Meanwhile w { w with present }
  | lost {w : World T} : Meanwhile w { w with group := none }

def machine : Machine T Command Reply (World T) where
  step := Answers process
  env := Meanwhile
  halt _ w w' := w' = w

/-- Every process before its first pass, and a stream that no one has read. -/
def consuming (passes : T → ℕ) (stream : List Fields) : Config T Command Reply Failure Unit (World T) :=
  .initial (fun t => (process t).kit.run (passes t))
    ⟨stream, List.range stream.length, none, fun _ => ⟨[], false, false⟩, [], [], [], []⟩

end Machine

end RetailSegmentation.StreamConsumer
