import RetailSegmentation.OrderedDict
import RetailSegmentation.ProgramInterference

/-! The consumer of access changes (`services/auth/app/background.py`), which handles the entries of a read
together, and the kit's consumer (`packages/kit-py/src/mosaiq_kit/streams.py`), which handles them one at a
time. -/

namespace RetailSegmentation.AccessChanges

open Program Grouping

/-! ### Entries -/

/-- The fields of an entry, by name. -/
abbrev Fields := String → Option String

/-- An entry of the stream; a trimmed one has no fields. -/
structure Entry where
  id : String
  fields : Option Fields

def eventId (fields : Fields) : String := (fields "event_id").getD ""

/-- `entity_id`, where there is one that is not empty. -/
def entityId (fields : Fields) : Option String := (fields "entity_id").filter (· ≠ "")

/-! ### Commands -/

/-- The memory of handled events, `SessionStore.revoke_users`, and what is asked of the stream. -/
inductive Command where
  | handled (eventId : String)
  | remember (eventId : String)
  | revokeUsers (users : List String)
  | xpendingRange (id : String)
  | xack (ids : List String)

inductive Failure where
  | authUnavailable
  | redis
  deriving DecidableEq, Repr

/-- `xpending_range` gives the deliveries of the entry, if it is pending. -/
abbrev Reply : Command → Type
  | .handled _ => Bool
  | .remember _ => Unit
  | .revokeUsers _ => Except Failure Unit
  | .xpendingRange _ => Except Failure (Option ℕ)
  | .xack _ => Except Failure Unit

abbrev ConsumerProg (α : Type) := Prog Command Reply Failure α

def orRaise {α : Type} : Except Failure α → ConsumerProg α
  | .ok a => .ret a
  | .error e => .raise e

def deliveryCount (id : String) : ConsumerProg ℕ := do
  let pending ← orRaise (← Prog.send (Command.xpendingRange id))
  return pending.getD 1

/-- Whether an event is in the memory; one without an identifier is not looked for. -/
def isHandled (event : String) : ConsumerProg Bool :=
  if event = "" then .ret false else Prog.send (Command.handled event)

def rememberEvent (event : String) : ConsumerProg Unit :=
  if event = "" then .ret () else Prog.send (Command.remember event)

/-- The handler has not raised. -/
def succeeds (users : List String) : ConsumerProg Bool :=
  Prog.tryCatch (do
    orRaise (← Prog.send (Command.revokeUsers users))
    return true) fun _ => .ret false

/-! ### The kit -/

namespace Kit

/-- The handler, `AccessChangedConsumer._one`. -/
def one (fields : Fields) : ConsumerProg Bool := succeeds (entityId fields).toList

/-- The loop of `StreamConsumer._handle_entries`. -/
def handleEntries : List Entry → ℕ → ConsumerProg ℕ
  | [], processed => .ret processed
  | entry :: rest, processed =>
    match entry.fields with
    | none => do
      orRaise (← Prog.send (Command.xack [entry.id]))
      handleEntries rest (processed + 1)
    | some fields => do
      if ← isHandled (eventId fields) then
        orRaise (← Prog.send (Command.xack [entry.id]))
        handleEntries rest (processed + 1)
      else if ← one fields then
        rememberEvent (eventId fields)
        orRaise (← Prog.send (Command.xack [entry.id]))
        handleEntries rest (processed + 1)
      else
        let deliveries ← deliveryCount entry.id
        if 5 ≤ deliveries then
          orRaise (← Prog.send (Command.xack [entry.id]))
          handleEntries rest (processed + 1)
        else
          handleEntries rest processed

end Kit

/-! ### `AccessChangedConsumer` -/

/-- What the loop over the entries has collected. -/
structure Sorted where
  acknowledged : List String
  batch : List (String × String)
  users : List String
  seen : List String

namespace Sorted

def empty : Sorted := ⟨[], [], [], []⟩

def acknowledge (sorted : Sorted) (id : String) : Sorted :=
  { sorted with acknowledged := sorted.acknowledged ++ [id] }

def take (sorted : Sorted) (id : String) (fields : Fields) : Sorted where
  acknowledged := sorted.acknowledged
  batch := sorted.batch ++ [(id, eventId fields)]
  users := sorted.users ++ (entityId fields).toList
  seen := if eventId fields = "" then sorted.seen else sorted.seen ++ [eventId fields]

end Sorted

/-- Whether an event is in the memory, or of an earlier entry of the batch. -/
def isDuplicate (event : String) (seen : List String) : ConsumerProg Bool := do
  if ← isHandled event then
    return true
  else
    return event ≠ "" ∧ event ∈ seen

def sortEntries : List Entry → Sorted → ConsumerProg Sorted
  | [], sorted => .ret sorted
  | entry :: rest, sorted =>
    match entry.fields with
    | none => sortEntries rest (sorted.acknowledge entry.id)
    | some fields => do
      if ← isDuplicate (eventId fields) sorted.seen then
        sortEntries rest (sorted.acknowledge entry.id)
      else
        sortEntries rest (sorted.take entry.id fields)

/-- Entries that have been delivered five times are given up. -/
def giveUp : List (String × String) → List String → ConsumerProg (List String)
  | [], acknowledged => .ret acknowledged
  | (id, _) :: rest, acknowledged => do
    let deliveries ← deliveryCount id
    giveUp rest (if 5 ≤ deliveries then acknowledged ++ [id] else acknowledged)

def rememberAll : List (String × String) → List String → ConsumerProg (List String)
  | [], acknowledged => .ret acknowledged
  | (id, event) :: rest, acknowledged => do
    rememberEvent event
    rememberAll rest (acknowledged ++ [id])

def revokeBatch (sorted : Sorted) : ConsumerProg (List String) :=
  if sorted.batch = [] then .ret sorted.acknowledged
  else do
    if ← succeeds sorted.users then rememberAll sorted.batch sorted.acknowledged
    else giveUp sorted.batch sorted.acknowledged

/-- `AccessChangedConsumer._handle_entries`. -/
def handleEntries (entries : List Entry) : ConsumerProg ℕ := do
  let sorted ← sortEntries entries .empty
  let acknowledged ← revokeBatch sorted
  if acknowledged = [] then return 0
  else
    orRaise (← Prog.send (Command.xack acknowledged))
    return acknowledged.length

/-! ### The memory and the store -/

def remember (capacity : ℕ) (handled : Dict String Unit) (event : String) : Dict String Unit :=
  ((handled.put event ()).moveToEnd event).trim capacity

/-- The memory of handled events; and of the past: the users that were revoked, the deliveries that were
counted and what was acknowledged, by batch. -/
structure World (T : Type) where
  handled : Dict String Unit
  revocations : List (T × List String)
  counts : List (T × String × ℕ)
  acks : List (T × String)

section Machine

variable {T : Type}

/-- What a command may be answered with: `revoke_users` may fail when there are users, and Redis at any command. -/
inductive Answers (capacity : ℕ) (t : T) : (c : Command) → World T → Reply c → World T → Prop where
  | handled {w : World T} {event : String} : Answers capacity t (.handled event) w (event ∈ w.handled.keys) w
  | remember {w : World T} {event : String} : Answers capacity t (.remember event) w ()
      { w with handled := remember capacity w.handled event }
  | revoked {w : World T} {users : List String} : Answers capacity t (.revokeUsers users) w (.ok ())
      { w with revocations := w.revocations ++ [(t, users)] }
  | refused {w : World T} {users : List String} {e : Failure} (husers : users ≠ []) :
      Answers capacity t (.revokeUsers users) w (.error e) w
  | pending {w : World T} {id : String} {count : Option ℕ} : Answers capacity t (.xpendingRange id) w (.ok count)
      { w with counts := w.counts ++ [(t, id, count.getD 1)] }
  | pendingFailed {w : World T} {id : String} {e : Failure} : Answers capacity t (.xpendingRange id) w (.error e) w
  | acknowledged {w : World T} {ids : List String} {r : Except Failure Unit} : Answers capacity t (.xack ids) w r
      { w with acks := w.acks ++ ids.map fun id => (t, id) }

/-- A consumer may die at any command. -/
def machine (T : Type) (capacity : ℕ) : Machine T Command Reply (World T) where
  step := Answers capacity
  env _ _ := False
  halt _ w w' := w' = w

/-- Every batch at its start, and an empty memory. -/
def initial (batch : T → List Entry) : Config T Command Reply Failure ℕ (World T) :=
  .initial (fun t => handleEntries (batch t)) ⟨[], [], [], []⟩

end Machine

/-! ### What is acknowledged -/

section Acknowledged

variable {T : Type} (batch : T → List Entry)

/-- `revoke_users` has returned for a batch with the user of these fields. -/
def Revoked (w : World T) (t : T) (fields : Fields) : Prop :=
  ∃ users, (t, users) ∈ w.revocations ∧ ∀ user, entityId fields = some user → user ∈ users

def Handled (w : World T) (event : String) : Prop :=
  ∃ u, ∃ entry ∈ batch u, ∃ fields, entry.fields = some fields ∧ eventId fields = event ∧ Revoked w u fields

/-- Why an entry may be acknowledged: its fields are gone, its event has been handled or is that of an earlier
entry of the batch, its user has been revoked, or it has been delivered five times. -/
inductive May (w : World T) (t : T) (before : List Entry) (entry : Entry) : Prop where
  | trimmed (hfields : entry.fields = none)
  | handled {fields : Fields} (hfields : entry.fields = some fields) (hhandled : Handled batch w (eventId fields))
      (hevent : eventId fields ≠ "")
  | earlier {fields : Fields} {other : Entry} {fields' : Fields} (hfields : entry.fields = some fields)
      (hother : other ∈ before) (hfields' : other.fields = some fields') (hsame : eventId fields' = eventId fields)
      (hevent : eventId fields ≠ "")
  | revoked {fields : Fields} (hfields : entry.fields = some fields) (hrevoked : Revoked w t fields)
  | exhausted {count : ℕ} (hcount : (t, entry.id, count) ∈ w.counts) (hfive : 5 ≤ count)

def Justified (w : World T) (t : T) (id : String) : Prop :=
  ∃ before entry after, batch t = before ++ entry :: after ∧ entry.id = id ∧ May batch w t before entry

structure Sound (w : World T) : Prop where
  handled : ∀ event ∈ w.handled.keys, Handled batch w event
  nodup : w.handled.keys.Nodup
  acks : ∀ ack ∈ w.acks, Justified batch w ack.1 ack.2

/-- What has been is not lost. -/
structure Grows (w w' : World T) : Prop where
  revocations : ∀ x ∈ w.revocations, x ∈ w'.revocations
  counts : ∀ x ∈ w.counts, x ∈ w'.counts

variable {batch} {w w' w'' : World T} {t : T}

theorem Grows.refl (w : World T) : Grows w w := ⟨fun _ h => h, fun _ h => h⟩

theorem Grows.trans (h : Grows w w') (h' : Grows w' w'') : Grows w w'' :=
  ⟨fun x hx => h'.revocations x (h.revocations x hx), fun x hx => h'.counts x (h.counts x hx)⟩

theorem Revoked.mono {fields : Fields} (hrevoked : Revoked w t fields) (h : Grows w w') : Revoked w' t fields := by
  obtain ⟨users, hmem, husers⟩ := hrevoked
  exact ⟨users, h.revocations _ hmem, husers⟩

theorem Handled.mono {event : String} (hhandled : Handled batch w event) (h : Grows w w') :
    Handled batch w' event := by
  obtain ⟨u, entry, hentry, fields, hfields, hevent, hrevoked⟩ := hhandled
  exact ⟨u, entry, hentry, fields, hfields, hevent, hrevoked.mono h⟩

theorem Justified.mono {id : String} (hjustified : Justified batch w t id) (h : Grows w w') :
    Justified batch w' t id := by
  obtain ⟨before, entry, after, hbatch, hid, hmay⟩ := hjustified
  refine ⟨before, entry, after, hbatch, hid, ?_⟩
  cases hmay with
  | trimmed hfields => exact .trimmed hfields
  | handled hfields hhandled hevent => exact .handled hfields (hhandled.mono h) hevent
  | earlier hfields hother hfields' hsame hevent => exact .earlier hfields hother hfields' hsame hevent
  | revoked hfields hrevoked => exact .revoked hfields (hrevoked.mono h)
  | exhausted hcount hfive => exact .exhausted (h.counts _ hcount) hfive

theorem Sound.mono (hsound : Sound batch w) (h : Grows w w') (hhandled : w'.handled = w.handled)
    (hacks : w'.acks = w.acks) :
    Sound batch w' :=
  ⟨fun event hevent => (hsound.handled event (hhandled ▸ hevent)).mono h, hhandled ▸ hsound.nodup,
    fun ack hack => (hsound.acks ack (hacks ▸ hack)).mono h⟩

/-! ### Commands -/

def contract (batch : T → List Entry) : Contract T Command Reply (World T) (World T) where
  inv := Sound batch
  at_ _ w w' := Grows w w'
  guar _ _ _ _ _ := True

theorem keys_remember (capacity : ℕ) {handled : Dict String Unit} (hkeys : handled.keys.Nodup) (event : String) :
    (remember capacity handled event).keys =
      (handled.keys.filter (· ≠ event) ++ [event]).drop ((handled.keys.filter (· ≠ event)).length + 1 - capacity) := by
  have hput := keys_put handled event ()
  have hmem : event ∈ (handled.put event ()).keys := by
    rw [hput]
    exact mem_append_new.mpr (.inl rfl)
  have hnodup : (handled.put event ()).keys.Nodup := hput ▸ nodup_append_new hkeys event
  have hfilter : ((handled.put event ()).keys.filter fun key => key ≠ event) = handled.keys.filter (· ≠ event) := by
    rw [hput]
    split_ifs
    · rfl
    · simp
  unfold remember
  rw [keys_trim, keys_moveToEnd hnodup hmem, hfilter, List.length_append]
  rfl

theorem mem_remember {capacity : ℕ} {handled : Dict String Unit} (hkeys : handled.keys.Nodup)
    {event event' : String}
    (hmem : event' ∈ (remember capacity handled event).keys) : event' = event ∨ event' ∈ handled.keys := by
  rw [keys_remember capacity hkeys] at hmem
  rcases List.mem_append.mp (List.mem_of_mem_drop hmem) with hold | hnew
  · exact .inr (List.mem_of_mem_filter hold)
  · exact .inl (List.mem_singleton.mp hnew)

theorem nodup_remember (capacity : ℕ) {handled : Dict String Unit} (hkeys : handled.keys.Nodup) (event : String) :
    (remember capacity handled event).keys.Nodup := by
  rw [keys_remember capacity hkeys]
  refine List.Nodup.sublist (List.drop_sublist _ _)
    (List.nodup_append.mpr ⟨hkeys.filter _, List.nodup_singleton _, ?_⟩)
  intro key hkey event' hevent' heq
  obtain rfl := List.mem_singleton.mp hevent'
  exact absurd heq (of_decide_eq_true (List.mem_filter.mp hkey).2)

variable {capacity : ℕ}

theorem keeps (hsound : Sound batch w') (h : Grows w w') : (contract batch).Keeps t w w' :=
  ⟨hsound, fun _ _ _ hat => Grows.trans hat h⟩

theorem closed : (contract batch).Closed (machine T capacity) where
  env _ _ _ henv := henv.elim
  halt t w w' hinv hhalt := by
    obtain rfl : w' = w := hhalt
    exact keeps hinv (.refl w')

theorem handled_spec (s : World T) (event : String) :
    (contract batch).CmdSpec (machine T capacity) t (.handled event) s fun found s' =>
      Grows s s' ∧ (found = true → Handled batch s' event) := by
  intro w r w' hinv hat hstep
  change Answers capacity t (.handled event) w r w' at hstep
  cases hstep with
  | handled =>
      exact ⟨trivial, keeps hinv (.refl w), w, .refl w, hat,
        fun hfound => hinv.handled event (of_decide_eq_true hfound)⟩

theorem remember_spec {s : World T} {event : String} (hevent : Handled batch s event) :
    (contract batch).CmdSpec (machine T capacity) t (.remember event) s fun _ s' => Grows s s' := by
  intro w r w' hinv hat hstep
  change Answers capacity t (.remember event) w r w' at hstep
  cases hstep with
  | remember =>
      have hsame : Grows w { w with handled := remember capacity w.handled event } := ⟨fun _ h => h, fun _ h => h⟩
      refine ⟨trivial, keeps ⟨fun event' hmem => ?_, nodup_remember capacity hinv.nodup event, fun ack hack => ?_⟩ hsame,
        _, .refl _, Grows.trans hat hsame⟩
      · rcases mem_remember hinv.nodup hmem with rfl | hold
        · exact (hevent.mono hat).mono hsame
        · exact (hinv.handled event' hold).mono hsame
      · exact (hinv.acks ack hack).mono hsame

theorem revokeUsers_spec (s : World T) (users : List String) :
    (contract batch).CmdSpec (machine T capacity) t (.revokeUsers users) s fun r s' =>
      Grows s s' ∧ ∀ u, r = .ok u → (t, users) ∈ s'.revocations := by
  intro w r w' hinv hat hstep
  change Answers capacity t (.revokeUsers users) w r w' at hstep
  cases hstep with
  | revoked =>
      have hgrows : Grows w { w with revocations := w.revocations ++ [(t, users)] } :=
        ⟨fun _ h => List.mem_append_left _ h, fun _ h => h⟩
      exact ⟨trivial, keeps (hinv.mono hgrows rfl rfl) hgrows, _, .refl _, Grows.trans hat hgrows,
        fun _ _ => List.mem_append_right _ (List.mem_singleton_self _)⟩
  | refused => exact ⟨trivial, keeps hinv (.refl w), w, .refl w, hat, nofun⟩

theorem xpendingRange_spec (s : World T) (id : String) :
    (contract batch).CmdSpec (machine T capacity) t (.xpendingRange id) s fun r s' =>
      Grows s s' ∧ ∀ count, r = .ok count → (t, id, count.getD 1) ∈ s'.counts := by
  intro w r w' hinv hat hstep
  change Answers capacity t (.xpendingRange id) w r w' at hstep
  cases hstep with
  | @pending _ _ count =>
      have hgrows : Grows w { w with counts := w.counts ++ [(t, id, count.getD 1)] } :=
        ⟨fun _ h => h, fun _ h => List.mem_append_left _ h⟩
      refine ⟨trivial, keeps (hinv.mono hgrows rfl rfl) hgrows, _, .refl _, Grows.trans hat hgrows,
        fun count' hcount => ?_⟩
      obtain rfl := Except.ok.inj hcount
      exact List.mem_append_right _ (List.mem_singleton_self _)
  | pendingFailed => exact ⟨trivial, keeps hinv (.refl w), w, .refl w, hat, nofun⟩

theorem xack_spec {s : World T} {ids : List String} (hids : ∀ id ∈ ids, Justified batch s t id) :
    (contract batch).CmdSpec (machine T capacity) t (.xack ids) s fun _ s' => Grows s s' := by
  intro w r w' hinv hat hstep
  change Answers capacity t (.xack ids) w r w' at hstep
  cases hstep with
  | acknowledged =>
      have hsame : Grows w { w with acks := w.acks ++ ids.map fun id => (t, id) } := ⟨fun _ h => h, fun _ h => h⟩
      refine ⟨trivial, keeps ⟨fun event hmem => (hinv.handled event hmem).mono hsame, hinv.nodup, fun ack hack => ?_⟩ hsame,
        _, .refl _, Grows.trans hat hsame⟩
      rcases List.mem_append.mp hack with hold | hnew
      · exact (hinv.acks ack hold).mono hsame
      · obtain ⟨id, hid, rfl⟩ := List.mem_map.mp hnew
        exact ((hids id hid).mono hat).mono hsame

/-! ### Programs -/

abbrev Gives {α : Type} (capacity : ℕ) (batch : T → List Entry) (t : T) (p : ConsumerProg α) (s : World T)
    (P : α → World T → Prop) : Prop :=
  (contract batch).Safe (machine T capacity) t p s (Contract.Ends (fun a s' => Grows s s' ∧ P a s') fun _ s' => Grows s s')

variable {s : World T}

theorem Gives.seq {α β : Type} {p : ConsumerProg α} {f : α → ConsumerProg β} {P : α → World T → Prop}
    {P' : β → World T → Prop} (hp : Gives capacity batch t p s P)
    (hf : ∀ a s', Grows s s' → P a s' → Gives capacity batch t (f a) s' P') :
      Gives capacity batch t (p >>= f) s P' := by
  refine Contract.safe_seq hp fun a s' ⟨hgrows, ha⟩ => (hf a s' hgrows ha).mono ?_
  rintro (e | b) s'' h
  · exact hgrows.trans h
  · exact ⟨hgrows.trans h.1, h.2⟩

theorem Gives.of_ret {α : Type} {a : α} {P : α → World T → Prop} (ha : P a s) :
    Gives capacity batch t (.ret a) s P :=
  ⟨.refl s, ha⟩

theorem Gives.of_command {c : Command} {P : Reply c → World T → Prop}
    (h : (contract batch).CmdSpec (machine T capacity) t c s fun r s' => Grows s s' ∧ P r s') :
    Gives capacity batch t (Prog.send c) s P := h

theorem gives_orRaise {α : Type} {P : α → World T → Prop} (r : Except Failure α) (hr : ∀ a, r = .ok a → P a s) :
    Gives capacity batch t (orRaise r) s P := by
  cases r with
  | ok a => exact ⟨.refl s, hr a rfl⟩
  | error e => exact Grows.refl s

theorem gives_isHandled (s : World T) (event : String) :
    Gives capacity batch t (isHandled event) s fun found s' => found = true →
      event ≠ "" ∧ Handled batch s' event := by
  unfold isHandled
  split_ifs with hevent
  · exact .of_ret nofun
  · exact (handled_spec s event).mono fun found s' h => ⟨h.1, fun hfound => ⟨hevent, h.2 hfound⟩⟩

theorem gives_rememberEvent {event : String} (hevent : event ≠ "" → Handled batch s event) :
    Gives capacity batch t (rememberEvent event) s fun _ _ => True := by
  unfold rememberEvent
  split_ifs with hempty
  · exact .of_ret trivial
  · exact (remember_spec (hevent hempty)).mono fun _ _ h => ⟨h, trivial⟩

theorem gives_succeeds (s : World T) (users : List String) :
    Gives capacity batch t (succeeds users) s fun ok s' => ok = true → (t, users) ∈ s'.revocations := by
  refine Contract.safe_handle (F := fun _ s' => Grows s s') ?_ fun e s' h => ⟨h, nofun⟩
  refine Gives.seq (.of_command (revokeUsers_spec s users)) fun r s' _ hr => ?_
  exact Gives.seq (gives_orRaise (P := fun _ s' => (t, users) ∈ s'.revocations) r hr) fun _ _ _ hmem =>
    .of_ret fun _ => hmem

theorem gives_deliveryCount (s : World T) (id : String) :
    Gives capacity batch t (deliveryCount id) s fun count s' => (t, id, count) ∈ s'.counts := by
  refine Gives.seq (.of_command (xpendingRange_spec s id)) fun r s' _ hr => ?_
  exact Gives.seq (gives_orRaise (P := fun count s' => (t, id, count.getD 1) ∈ s'.counts) r hr) fun _ _ _ hmem =>
    .of_ret hmem

theorem gives_isDuplicate (s : World T) (event : String) (seen : List String) :
    Gives capacity batch t (isDuplicate event seen) s fun duplicate s' =>
      duplicate = true → event ≠ "" ∧ (Handled batch s' event ∨ event ∈ seen) := by
  refine Gives.seq (gives_isHandled s event) fun found s' _ hfound => ?_
  cases found with
  | true => exact .of_ret fun _ => ⟨(hfound rfl).1, .inl (hfound rfl).2⟩
  | false =>
      refine .of_ret fun hseen => ?_
      obtain ⟨hevent, hmem⟩ := of_decide_eq_true hseen
      exact ⟨hevent, .inr hmem⟩

/-- What the loop over the entries has collected of those before some point. -/
structure Collected (batch : T → List Entry) (s : World T) (t : T) (before : List Entry)
    (sorted : Sorted) : Prop where
  acknowledged : ∀ id ∈ sorted.acknowledged, Justified batch s t id
  batch : ∀ x ∈ sorted.batch, ∃ entry ∈ before, ∃ fields, entry.id = x.1 ∧ entry.fields = some fields ∧
    eventId fields = x.2 ∧ ∀ user, entityId fields = some user → user ∈ sorted.users
  seen : ∀ event ∈ sorted.seen, ∃ entry ∈ before, ∃ fields, entry.fields = some fields ∧ eventId fields = event

theorem Collected.empty (s : World T) (t : T) : Collected batch s t [] .empty := ⟨nofun, nofun, nofun⟩

theorem Collected.acknowledge {s' : World T} {before rest : List Entry} {sorted : Sorted} {entry : Entry}
    (h : Collected batch s t before sorted) (hgrows : Grows s s') (hbatch : batch t = before ++ entry :: rest)
    (hmay : May batch s' t before entry) :
    Collected batch s' t (before ++ [entry]) (sorted.acknowledge entry.id) := by
  refine ⟨fun id hid => ?_, fun x hx => ?_, fun event hevent => ?_⟩
  · rcases List.mem_append.mp hid with hold | hnew
    · exact (h.acknowledged id hold).mono hgrows
    · exact ⟨before, entry, rest, hbatch, (List.mem_singleton.mp hnew).symm, hmay⟩
  · obtain ⟨entry', hentry', hrest⟩ := h.batch x hx
    exact ⟨entry', List.mem_append_left _ hentry', hrest⟩
  · obtain ⟨entry', hentry', hrest⟩ := h.seen event hevent
    exact ⟨entry', List.mem_append_left _ hentry', hrest⟩

theorem Collected.take {s' : World T} {before : List Entry} {sorted : Sorted} {entry : Entry} {fields : Fields}
    (h : Collected batch s t before sorted) (hgrows : Grows s s') (hfields : entry.fields = some fields) :
    Collected batch s' t (before ++ [entry]) (sorted.take entry.id fields) := by
  have hlast : entry ∈ before ++ [entry] := List.mem_append_right _ (List.mem_singleton_self entry)
  refine ⟨fun id hid => (h.acknowledged id hid).mono hgrows, fun x hx => ?_, fun event hevent => ?_⟩
  · rcases List.mem_append.mp hx with hold | hnew
    · obtain ⟨entry', hentry', fields', hid, hfields', hevent, husers⟩ := h.batch x hold
      exact ⟨entry', List.mem_append_left _ hentry', fields', hid, hfields', hevent,
        fun user huser => List.mem_append_left _ (husers user huser)⟩
    · obtain rfl := List.mem_singleton.mp hnew
      exact ⟨entry, hlast, fields, rfl, hfields, rfl, fun user huser =>
        List.mem_append_right _ (Option.mem_toList.mpr huser)⟩
  · have hor : event ∈ sorted.seen ∨ event = eventId fields := by
      unfold Sorted.take at hevent
      split_ifs at hevent
      · exact .inl hevent
      · exact (List.mem_append.mp hevent).imp_right List.mem_singleton.mp
    rcases hor with hold | rfl
    · obtain ⟨entry', hentry', hrest⟩ := h.seen event hold
      exact ⟨entry', List.mem_append_left _ hentry', hrest⟩
    · exact ⟨entry, hlast, fields, hfields, rfl⟩

theorem gives_sortEntries (rest : List Entry) {before : List Entry} {sorted : Sorted} (s : World T)
    (hbatch : batch t = before ++ rest) (hcollected : Collected batch s t before sorted) :
    Gives capacity batch t (sortEntries rest sorted) s fun sorted' s' =>
      Collected batch s' t (batch t) sorted' := by
  induction rest generalizing before sorted s with
  | nil =>
      rw [List.append_nil] at hbatch
      exact .of_ret (hbatch ▸ hcollected)
  | cons entry rest ih =>
      have hnext : batch t = (before ++ [entry]) ++ rest := by rw [hbatch, List.append_assoc,
        List.singleton_append]
      rw [sortEntries]
      cases hfields : entry.fields with
      | none => exact ih s hnext (hcollected.acknowledge (.refl s) hbatch (.trimmed hfields))
      | some fields =>
          refine Gives.seq (gives_isDuplicate s (eventId fields) sorted.seen) fun duplicate s' hgrows hduplicate => ?_
          cases duplicate with
          | false => exact ih s' hnext (hcollected.take hgrows hfields)
          | true =>
              obtain ⟨hevent, hhandled | hseen⟩ := hduplicate rfl
              · exact ih s' hnext (hcollected.acknowledge hgrows hbatch (.handled hfields hhandled hevent))
              · obtain ⟨other, hother, fields', hfields', hsame⟩ := hcollected.seen _ hseen
                exact ih s' hnext
                  (hcollected.acknowledge hgrows hbatch (.earlier hfields hother hfields' hsame hevent))

theorem Justified.of_mem {entry : Entry} (hentry : entry ∈ batch t) (hmay : ∀ before, May batch s t before entry) :
    Justified batch s t entry.id := by
  obtain ⟨before, after, hbatch⟩ := List.append_of_mem hentry
  exact ⟨before, entry, after, hbatch, rfl, hmay before⟩

theorem gives_giveUp (entries : List (String × String)) {acknowledged : List String} (s : World T)
    (hentries : ∀ x ∈ entries, ∃ entry ∈ batch t, entry.id = x.1)
    (hacknowledged : ∀ id ∈ acknowledged, Justified batch s t id) :
    Gives capacity batch t (giveUp entries acknowledged) s fun ids s' => ∀ id ∈ ids, Justified batch s' t id := by
  induction entries generalizing acknowledged s with
  | nil => exact .of_ret hacknowledged
  | cons x entries ih =>
      obtain ⟨id, event⟩ := x
      refine Gives.seq (gives_deliveryCount s id) fun count s' hgrows hcount => ih s' (fun x hx => hentries x
        (List.mem_cons_of_mem _ hx)) fun id' hid' => ?_
      split_ifs at hid' with hfive
      · rcases List.mem_append.mp hid' with hold | hnew
        · exact (hacknowledged id' hold).mono hgrows
        · obtain ⟨entry, hentry, hid⟩ := hentries _ List.mem_cons_self
          obtain rfl : id' = entry.id := (List.mem_singleton.mp hnew).trans hid.symm
          exact .of_mem hentry fun _ => .exhausted (hid ▸ hcount) hfive
      · exact (hacknowledged id' hid').mono hgrows

theorem gives_rememberAll (entries : List (String × String)) {acknowledged : List String} (s : World T)
    (hentries : ∀ x ∈ entries, ∃ entry ∈ batch t, ∃ fields, entry.id = x.1 ∧ entry.fields = some fields ∧
      eventId fields = x.2 ∧ Revoked s t fields) (hacknowledged : ∀ id ∈ acknowledged, Justified batch s t id) :
    Gives capacity batch t (rememberAll entries acknowledged) s fun ids s' => ∀ id ∈ ids,
      Justified batch s' t id := by
  induction entries generalizing acknowledged s with
  | nil => exact .of_ret hacknowledged
  | cons x entries ih =>
      obtain ⟨id, event⟩ := x
      obtain ⟨entry, hentry, fields, hid, hfields, hevent, hrevoked⟩ := hentries _ List.mem_cons_self
      refine Gives.seq (gives_rememberEvent fun _ => ⟨t, entry, hentry, fields, hfields, hevent, hrevoked⟩) ?_
      intro _ s' hgrows _
      refine ih s' (fun x hx => ?_) fun id' hid' => ?_
      · obtain ⟨entry', hentry', fields', hid', hfields', hevent', hrevoked'⟩ :=
          hentries x (List.mem_cons_of_mem _ hx)
        exact ⟨entry', hentry', fields', hid', hfields', hevent', hrevoked'.mono hgrows⟩
      · rcases List.mem_append.mp hid' with hold | hnew
        · exact (hacknowledged id' hold).mono hgrows
        · obtain rfl : id' = entry.id := (List.mem_singleton.mp hnew).trans hid.symm
          exact .of_mem hentry fun _ => .revoked hfields (hrevoked.mono hgrows)

theorem gives_revokeBatch {sorted : Sorted} (hcollected : Collected batch s t (batch t) sorted) :
    Gives capacity batch t (revokeBatch sorted) s fun ids s' => ∀ id ∈ ids, Justified batch s' t id := by
  unfold revokeBatch
  split_ifs
  · exact .of_ret hcollected.acknowledged
  · refine Gives.seq (gives_succeeds s sorted.users) fun ok s' hgrows hok => ?_
    have hacknowledged : ∀ id ∈ sorted.acknowledged, Justified batch s' t id := fun id hid =>
      (hcollected.acknowledged id hid).mono hgrows
    cases ok with
    | true =>
        refine gives_rememberAll sorted.batch s' (fun x hx => ?_) hacknowledged
        obtain ⟨entry, hentry, fields, hid, hfields, hevent, husers⟩ := hcollected.batch x hx
        exact ⟨entry, hentry, fields, hid, hfields, hevent, sorted.users, hok rfl, husers⟩
    | false =>
        refine gives_giveUp sorted.batch s' (fun x hx => ?_) hacknowledged
        obtain ⟨entry, hentry, -, hid, -⟩ := hcollected.batch x hx
        exact ⟨entry, hentry, hid⟩

theorem gives_handleEntries (t : T) (s : World T) :
    Gives capacity batch t (handleEntries (batch t)) s fun _ _ => True := by
  refine Gives.seq (gives_sortEntries (batch t) s rfl (.empty s t)) fun sorted s' _ hcollected => ?_
  refine Gives.seq (gives_revokeBatch hcollected) fun ids s'' _ hids => ?_
  split_ifs
  · exact .of_ret trivial
  · refine Gives.seq (.of_command ((xack_spec hids).mono fun _ _ h => ⟨h, trivial⟩)) fun r s' _ _ => ?_
    exact Gives.seq (gives_orRaise (P := fun _ _ => True) r fun _ _ => trivial) fun _ _ _ _ => .of_ret trivial

theorem sound_of_reaches [DecidableEq T] {cfg : Config T Command Reply Failure ℕ (World T)}
    (hrun : (machine T capacity).Reaches (initial batch) cfg) : Sound batch cfg.state := by
  have hgood : (contract batch).Good (machine T capacity) (fun _ _ _ => True) (initial batch) := by
    refine Contract.Good.initial ⟨nofun, .nil, nofun⟩ fun t => ⟨_, Grows.refl _, ?_⟩
    exact Contract.Safe.mono (gives_handleEntries t _) fun _ _ _ => trivial
  exact (hgood.reaches closed hrun).inv

end Acknowledged

end RetailSegmentation.AccessChanges
