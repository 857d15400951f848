import Mathlib.Data.Int.Notation
import RetailSegmentation.ProgramInterference

/-! The key sets of the two kits (`packages/kit-py/src/mosaiq_kit/auth.py`, `packages/kit-rs/src/auth.rs`):
lookups by any number of threads, each under the lock of the store, while the file of keys is replaced and
reloads are requested. -/

namespace RetailSegmentation.JwksStore

open Program

/-! ### The file -/

/-- JSON; of members of one name the last counts. -/
inductive Json where
  | null
  | bool (flag : Bool)
  | number (text : String)
  | string (text : String)
  | array (items : List Json)
  | object (members : List (String × Json))

namespace Json

def get : Json → String → Option Json
  | .object members, name => (members.reverse.find? fun member => member.1 = name).map (·.2)
  | _, _ => none

def str : Json → Option String
  | .string text => some text
  | _ => none

/-- What a loop of Python goes through, where every item is asked for its members. -/
def entries : Json → Option (List Json)
  | .array items => some items
  | .object [] => some []
  | .string text => if text = "" then some [] else none
  | _ => none

end Json

abbrev Keys (Key : Type) := String → Option Key

/-- `jwt.PyJWK.from_dict` and `DecodingKey::from_rsa_components`; `none` where they fail. -/
structure Libs (Key : Type) where
  fromDict : Json → Option Key
  fromRsaComponents : String → String → Option Key

section Parse

variable {Key : Type} (libs : Libs Key)

/-- One item of `_reload`. -/
def itemPy (keys : Keys Key) : Json → Option (Keys Key)
  | .object members =>
    match ((Json.object members).get "kid").bind Json.str with
    | some kid => (libs.fromDict (.object members)).map fun key => Function.update keys kid (some key)
    | none => some keys
  | _ => none

/-- The keys of a text that was read, in kit-py; `none` where `_reload` raises. -/
def keysPy : Option Json → Option (Keys Key)
  | some (.object members) =>
    (((Json.object members).get "keys").getD (.array [])).entries.bind fun items =>
      items.foldlM (itemPy libs) fun _ => none
  | _ => none

/-- One item of `reload`. -/
def itemRs (keys : Keys Key) (item : Json) : Keys Key :=
  let field := fun name => (item.get name).bind Json.str
  match field "kid" with
  | none => keys
  | some kid =>
    if field "kty" ≠ some "RSA" ∨ (field "alg").any (· ≠ "RS256") then keys
    else
      match field "n", field "e" with
      | some n, some e =>
        match libs.fromRsaComponents n e with
        | some key => Function.update keys kid (some key)
        | none => keys
      | _, _ => keys

/-- The keys of a text that was read, in kit-rs. -/
def keysRs : Option Json → Option (Keys Key)
  | some document =>
    match document.get "keys" with
    | some (.array items) => some (items.foldl (itemRs libs) fun _ => none)
    | _ => some fun _ => none
  | none => none

end Parse

/-! ### Lookups -/

inductive Kit where
  | py
  | rs
  deriving DecidableEq, Repr

/-- A file is opened and then read: what is read, `none` where there is no file or no JSON. -/
inductive Command (Key : Type) where
  | acquire
  | release
  | now
  | reloadRequested
  | clearReloadRequested
  | loaded
  | setLoaded
  | generation
  | reloadGeneration
  | setGeneration (generation : ℕ)
  | openFile
  | readText
  | setKeys (keys : Keys Key)
  | getKey (kid : String)
  | unknownReloadAt
  | setUnknownReloadAt (now : ℤ)

abbrev Reply {Key : Type} : Command Key → Type
  | .acquire => Unit
  | .release => Unit
  | .now => ℤ
  | .reloadRequested => Bool
  | .clearReloadRequested => Unit
  | .loaded => Bool
  | .setLoaded => Unit
  | .generation => ℕ
  | .reloadGeneration => ℕ
  | .setGeneration _ => Unit
  | .openFile => Unit
  | .readText => Option Json
  | .setKeys _ => Unit
  | .getKey _ => Option Key
  | .unknownReloadAt => Option ℤ
  | .setUnknownReloadAt _ => Unit

/-- `KeyError`, what `_reload` raises, and `UnknownKey`. -/
inductive Failure where
  | keyError (kid : String)
  | reload
  | unknownKey
  deriving DecidableEq, Repr

abbrev JwksProg (Key α : Type) := Prog (Command Key) Reply Failure α

/-- 30 seconds; times are nanoseconds of a clock that does not go back. -/
def unknownKidReload : ℤ := 30000000000

section Lookups

variable {Key : Type} (libs : Libs Key)

/-- `with self._lock`, and the guard of a `Mutex`. -/
def withLock {α : Type} (body : JwksProg Key α) : JwksProg Key α := do
  Prog.send Command.acquire
  let value ← body.tryCatch fun e => do
    Prog.send Command.release
    .raise e
  Prog.send Command.release
  return value

/-- `JwksStore._reload`. -/
def reloadPy : JwksProg Key Unit := do
  Prog.send Command.openFile
  match keysPy libs (← Prog.send Command.readText) with
  | none => .raise .reload
  | some keys =>
    Prog.send (Command.setKeys keys)
    Prog.send Command.clearReloadRequested

def duePy (unknownReloadAt : Option ℤ) (now : ℤ) : Bool :=
  unknownReloadAt.all fun at_ => unknownKidReload ≤ now - at_

/-- `JwksStore.key` when it has not found the key. -/
def missedPy (kid : String) (reloaded : Bool) : JwksProg Key (Option Key) := do
  let now ← Prog.send Command.now
  if reloaded then
    Prog.send (Command.setUnknownReloadAt now)
    return none
  else
    let unknownReloadAt ← Prog.send Command.unknownReloadAt
    if duePy unknownReloadAt now then
      Prog.send (Command.setUnknownReloadAt now)
      reloadPy libs
      Prog.send (Command.getKey kid)
    else
      return none

/-- `JwksStore.key` before it looks: whether it has reloaded. -/
def refreshPy : JwksProg Key Bool := do
  let requested ← Prog.send Command.reloadRequested
  if requested then
    reloadPy libs
    return true
  else
    return false

/-- `JwksStore.key` under its lock. -/
def lookupPy (kid : String) : JwksProg Key Key := do
  let reloaded ← refreshPy libs
  match ← Prog.send (Command.getKey kid) with
  | some key => return key
  | none =>
    match ← missedPy libs kid reloaded with
    | some key => return key
    | none => .raise (.keyError kid)

/-- `JwksStore.key`. -/
def keyPy (kid : String) : JwksProg Key Key := withLock (lookupPy libs kid)

/-- `JwksStore::reload`. -/
def reloadRs : JwksProg Key Unit := do
  Prog.send Command.setLoaded
  let generation ← Prog.send Command.reloadGeneration
  Prog.send (Command.setGeneration generation)
  Prog.send Command.openFile
  match keysRs libs (← Prog.send Command.readText) with
  | none => .raise .unknownKey
  | some keys => Prog.send (Command.setKeys keys)

/-- The condition of `key_at`, which reads the counter of requests only when keys have been loaded. -/
def requestedRs : JwksProg Key Bool := do
  let loaded ← Prog.send Command.loaded
  if loaded then
    let generation ← Prog.send Command.generation
    let reloadGeneration ← Prog.send Command.reloadGeneration
    return generation ≠ reloadGeneration
  else
    return true

/-- `key_at` before it looks: whether it has reloaded. -/
def refreshRs : JwksProg Key Bool := do
  let requested ← requestedRs
  if requested then
    reloadRs libs
    return true
  else
    return false

/-- `saturating_duration_since` is zero for a time that is earlier. -/
def dueRs (unknownReloadAt : Option ℤ) (now : ℤ) : Bool :=
  unknownReloadAt.all fun at_ => unknownKidReload ≤ max 0 (now - at_)

/-- `key_at` when it has not found the key. -/
def missedRs (now : ℤ) (reloaded : Bool) : JwksProg Key Unit := do
  if reloaded then
    Prog.send (Command.setUnknownReloadAt now)
  else
    let unknownReloadAt ← Prog.send Command.unknownReloadAt
    if dueRs unknownReloadAt now then
      Prog.send (Command.setUnknownReloadAt now)
      reloadRs libs

/-- `key_at` under its lock. -/
def lookupRs (kid : String) (now : ℤ) : JwksProg Key Key := do
  let reloaded ← refreshRs libs
  match ← Prog.send (Command.getKey kid) with
  | some key => return key
  | none =>
    missedRs libs now reloaded
    match ← Prog.send (Command.getKey kid) with
    | some key => return key
    | none => .raise .unknownKey

/-- `JwksStore::key`. -/
def keyRs (kid : String) : JwksProg Key Key := do
  let now ← Prog.send Command.now
  withLock (lookupRs libs kid now)

def Kit.keys : Kit → Option Json → Option (Keys Key)
  | .py => keysPy libs
  | .rs => keysRs libs

def Kit.key : Kit → String → JwksProg Key Key
  | .py => keyPy libs
  | .rs => keyRs libs

end Lookups

/-! ### The store and what is around it -/

/-- What the lock protects, of both kits; and of the past: every set of keys that has been loaded, how many
requests had been made when the last reload began, when the one before it did, and when the file was last
opened, and the times at which lookups of unknown kids have had it opened. -/
structure JwksState (Key : Type) where
  keys : Keys Key
  loaded : Bool
  generation : ℕ
  unknownReloadAt : Option ℤ
  loads : List (Keys Key)
  begun : ℕ
  before : ℕ
  covered : ℕ
  unknownReads : List ℤ

/-- `requests` is `RELOAD_GENERATION`; `marked` is the time that a lookup has set `unknown_reload_at` to. -/
structure World (T Key : Type) where
  state : JwksState Key
  holder : Option T
  reloadRequested : Bool
  requests : ℕ
  clock : ℤ
  marked : T → Option ℤ

namespace JwksState

variable {Key : Type}

def begin (s : JwksState Key) (requests : ℕ) : JwksState Key := { s with begun := requests, before := s.begun }

def load (s : JwksState Key) (requests : ℕ) : JwksState Key := { s.begin requests with loaded := true }

def openFile (s : JwksState Key) (requests : ℕ) (mark : Option ℤ) : JwksState Key :=
  { s with covered := requests, unknownReads := s.unknownReads ++ mark.toList }

/-- A reload of kit-py begins when it opens the file. -/
def opened (kit : Kit) (s : JwksState Key) (requests : ℕ) (mark : Option ℤ) : JwksState Key :=
  match kit with
  | .py => (s.begin requests).openFile requests mark
  | .rs => s.openFile requests mark

def setKeys (s : JwksState Key) (keys : Keys Key) : JwksState Key := { s with keys := keys, loads := s.loads ++ [keys] }

end JwksState

section Machine

variable {T Key : Type} [DecidableEq T]

/-- What a command may be answered with. Any text may be read at any time. -/
inductive Answers (kit : Kit) (t : T) : (c : Command Key) → World T Key → Reply c → World T Key → Prop where
  | acquire {w : World T Key} (hfree : w.holder = none) : Answers kit t .acquire w ()
      { w with holder := some t, marked := Function.update w.marked t none }
  | release {w : World T Key} : Answers kit t .release w () { w with holder := none }
  | now {w : World T Key} : Answers kit t .now w w.clock w
  | reloadRequested {w : World T Key} : Answers kit t .reloadRequested w w.reloadRequested w
  | clearReloadRequested {w : World T Key} : Answers kit t .clearReloadRequested w () { w with reloadRequested := false }
  | loaded {w : World T Key} : Answers kit t .loaded w w.state.loaded w
  | setLoaded {w : World T Key} : Answers kit t .setLoaded w () { w with state := w.state.load w.requests }
  | generation {w : World T Key} : Answers kit t .generation w w.state.generation w
  | reloadGeneration {w : World T Key} : Answers kit t .reloadGeneration w w.requests w
  | setGeneration {w : World T Key} {generation : ℕ} : Answers kit t (.setGeneration generation) w ()
      { w with state := { w.state with generation := generation } }
  | openFile {w : World T Key} : Answers kit t .openFile w ()
      { w with state := w.state.opened kit w.requests (w.marked t) }
  | readText {w : World T Key} {text : Option Json} : Answers kit t .readText w text w
  | setKeys {w : World T Key} {keys : Keys Key} : Answers kit t (.setKeys keys) w ()
      { w with state := w.state.setKeys keys }
  | getKey {w : World T Key} {kid : String} : Answers kit t (.getKey kid) w (w.state.keys kid) w
  | unknownReloadAt {w : World T Key} : Answers kit t .unknownReloadAt w w.state.unknownReloadAt w
  | setUnknownReloadAt {w : World T Key} {now : ℤ} : Answers kit t (.setUnknownReloadAt now) w ()
      { w with state := { w.state with unknownReloadAt := some now }, marked := Function.update w.marked t (some now) }

/-- Meanwhile a reload is requested, or time passes. -/
inductive Meanwhile : World T Key → World T Key → Prop where
  | requested {w : World T Key} : Meanwhile w { w with reloadRequested := true, requests := w.requests + 1 }
  | ticked {w : World T Key} {later : ℤ} (hlater : w.clock ≤ later) : Meanwhile w { w with clock := later }

def machine (kit : Kit) : Machine T (Command Key) Reply (World T Key) where
  step := Answers kit
  env := Meanwhile
  halt _ _ _ := False

/-- Every lookup at its start, and a store that has not loaded its keys yet. -/
def initial (libs : Libs Key) (kit : Kit) (task : T → String) (requests : ℕ) (clock : ℤ) :
    Config T (Command Key) Reply Failure Key (World T Key) :=
  .initial (fun t => kit.key libs (task t))
    ⟨⟨fun _ => none, false, requests, none, [], 0, 0, 0, []⟩, none, true, requests, clock, fun _ => none⟩

/-- In kit-py a text that is read for a request which a reload has already followed, after keys have been
loaded, is valid, and no request arrives between the opening of the file and the clearing of the flag. In
kit-rs a lookup that sets `unknown_reload_at` has read the clock no earlier than the one that set it before.
-/
def Orderly (libs : Libs Key) : Kit → T → (c : Command Key) → World T Key → Reply c → Prop
  | .py, t, .readText, w, text =>
      w.state.loads ≠ [] → w.marked t = none → w.state.before = w.state.begun → keysPy libs text ≠ none
  | .py, _, .clearReloadRequested, w, _ => w.requests = w.state.covered
  | .rs, _, .setUnknownReloadAt now, w, _ => ∀ at_, w.state.unknownReloadAt = some at_ → at_ ≤ now
  | _, _, _, _, _ => True

abbrev orderly (T : Type) [DecidableEq T] (libs : Libs Key) (kit : Kit) :
    Machine T (Command Key) Reply (World T Key) :=
  (machine kit).restrict (Orderly libs kit)

end Machine

/-! ### What the lookups keep -/

section Contract

variable {T Key : Type}

/-- What is known of a lookup since some point before it: how many requests had been made by then, how many
sets of keys had been loaded, and, if a reload had begun since the last of these requests, that its kid was in
the last of these sets. -/
structure Known where
  requests : ℕ
  loads : ℕ
  settled : Prop
  kid : String

/-- Where a lookup is: before it has taken the lock, under it (at least so many requests have been made, and
it is so late), or through, with or without its key. -/
inductive Point (Key : Type) where
  | outside (known : Known)
  | inside (requests : ℕ) (clock : ℤ) (mark : Option ℤ) (state : JwksState Key)
  | ended (known : Known) (found : Bool)

/-- A set of keys has been loaded since that does not have the kid. -/
def Known.Lost (known : Known) (s : JwksState Key) : Prop := ∃ keys ∈ s.loads.drop known.loads,
    keys known.kid = none

def Known.Held (known : Known) (s : JwksState Key) : Prop :=
  known.Lost s ∨ (s.loads ≠ [] ∧ s.keys known.kid ≠ none)

/-- What is known when a lookup takes the lock. -/
structure Known.Here (known : Known) (requests : ℕ) (s : JwksState Key) : Prop where
  requests : known.requests ≤ requests
  loads : known.loads ≤ s.loads.length
  settled : known.settled → known.requests ≤ s.begun ∧ known.Held s

/-- Why a lookup may go without its key. -/
def Known.Excused (known : Known) (requests : ℕ) (s : JwksState Key) : Prop :=
  known.settled → known.requests < requests ∨ known.Lost s

/-- Where no lookup is under the lock: the last read has followed every request that the store has taken note
of. -/
def Settled : Kit → JwksState Key → Prop
  | .py, s => s.begun = s.covered
  | .rs, s => (s.loads ≠ [] → s.loaded = true) ∧ (s.loaded = true → s.begun ≤ s.generation ∧ s.generation ≤ s.covered)

/-- Lookups of unknown kids have had the file read at times that are 30 seconds apart. -/
def Spaced (reads : List ℤ) : Prop := reads.Pairwise fun earlier later => earlier + unknownKidReload ≤ later

structure Sound (kit : Kit) (w : World T Key) : Prop where
  covered : w.state.covered ≤ w.requests
  begun : w.state.begun ≤ w.requests
  requested : w.reloadRequested = false → w.requests ≤ w.state.covered
  spaced : Spaced w.state.unknownReads
  marked : ∀ read ∈ w.state.unknownReads, ∃ at_, w.state.unknownReloadAt = some at_ ∧ read ≤ at_
  clock : kit = .py → ∀ at_, w.state.unknownReloadAt = some at_ → at_ ≤ w.clock
  loads : ∀ kid, w.state.keys kid ≠ none → w.state.loads ≠ []
  idle : w.holder = none → Settled kit w.state

def At (t : T) : Point Key → World T Key → Prop
  | .outside known, w => known.Here w.requests w.state
  | .inside requests clock mark state, w =>
      w.holder = some t ∧ requests ≤ w.requests ∧ clock ≤ w.clock ∧ w.marked t = mark ∧ w.state = state
  | .ended known found, w =>
      known.requests ≤ w.state.covered ∧ (found = false → known.Excused w.requests w.state)

def contract (T Key : Type) (kit : Kit) : Contract T (Command Key) Reply (World T Key) (Point Key) where
  inv := Sound kit
  at_ := At
  guar _ _ _ _ _ := True

/-- One command of a lookup moves the store on. -/
structure Later (s s' : JwksState Key) : Prop where
  begun : s.begun ≤ s'.begun
  covered : s.covered ≤ s'.covered
  loads : (s'.loads = s.loads ∧ s'.keys = s.keys) ∨ s'.loads = s.loads ++ [s'.keys]

variable {kit : Kit} {s s' : JwksState Key} {known : Known} {w w' : World T Key} {t : T}

theorem Later.refl (s : JwksState Key) : Later s s := ⟨Nat.le_refl _, Nat.le_refl _, .inl ⟨rfl, rfl⟩⟩

theorem Later.lost (h : Later s s') (hlost : known.Lost s) : known.Lost s' := by
  obtain ⟨keys, hmem, hkeys⟩ := hlost
  refine ⟨keys, ?_, hkeys⟩
  rcases h.loads with ⟨hloads, -⟩ | hloads
  · rwa [hloads]
  · rw [hloads, List.drop_append]
    exact List.mem_append_left _ hmem

theorem Later.length (h : Later s s') : s.loads.length ≤ s'.loads.length := by
  rcases h.loads with ⟨hloads, -⟩ | hloads
  · exact Nat.le_of_eq (congrArg List.length hloads).symm
  · rw [hloads, List.length_append]
    exact Nat.le_add_right _ _

theorem Later.held (h : Later s s') (hle : known.loads ≤ s.loads.length) (hheld : known.Held s) :
    known.Held s' := by
  rcases h.loads with ⟨hloads, hkeys⟩ | hloads
  · exact hheld.imp h.lost fun ⟨hloaded, hkey⟩ => ⟨hloads ▸ hloaded, hkeys ▸ hkey⟩
  · by_cases hkey : s'.keys known.kid = none
    · refine .inl ⟨s'.keys, ?_, hkey⟩
      rw [hloads, List.drop_append_of_le_length hle]
      exact List.mem_append_right _ (List.mem_singleton_self _)
    · exact .inr ⟨hloads ▸ List.append_ne_nil_of_right_ne_nil _ (List.cons_ne_nil _ []), hkey⟩

theorem Known.Here.later {requests requests' : ℕ} (hhere : known.Here requests s) (h : Later s s')
    (hrequests : requests ≤ requests') : known.Here requests' s' :=
  ⟨Nat.le_trans hhere.requests hrequests, Nat.le_trans hhere.loads h.length, fun hsettled =>
    ⟨Nat.le_trans (hhere.settled hsettled).1 h.begun, h.held hhere.loads (hhere.settled hsettled).2⟩⟩

theorem Known.Excused.later {requests requests' : ℕ} (hexcused : known.Excused requests s) (h : Later s s')
    (hrequests : requests ≤ requests') : known.Excused requests' s' := fun hsettled =>
  (hexcused hsettled).imp (fun hlt => Nat.lt_of_lt_of_le hlt hrequests) h.lost

/-- What a lookup that holds the lock, or takes it, or has not taken it, leaves to the others. -/
structure Leaves (t : T) (w w' : World T Key) : Prop where
  holder : ∀ u, u ≠ t → w.holder ≠ some u ∨ w' = w
  later : Later w.state w'.state
  requests : w.requests ≤ w'.requests

theorem Leaves.at_ (h : Leaves t w w') {u : T} (hu : u ≠ t) {point : Point Key} (hat : At u point w) :
    At u point w' := by
  cases point with
  | outside known => exact Known.Here.later hat h.later h.requests
  | inside requests clock mark state =>
      rcases h.holder u hu with hother | rfl
      · exact absurd hat.1 hother
      · exact hat
  | ended known found =>
      exact ⟨Nat.le_trans hat.1 h.later.covered, fun hfound => (hat.2 hfound).later h.later h.requests⟩

theorem Leaves.refl (t : T) (w : World T Key) : Leaves t w w := ⟨fun _ _ => .inr rfl, .refl _, Nat.le_refl _⟩

theorem Leaves.of_holder (hholder : w.holder = some t) (hlater : Later w.state w'.state)
    (hrequests : w.requests ≤ w'.requests) : Leaves t w w' :=
  ⟨fun _ hu => .inl fun h => hu (Option.some.inj (h.symm.trans hholder)), hlater, hrequests⟩

theorem keeps (hsound : Sound kit w') (h : Leaves t w w') : (contract T Key kit).Keeps t w w' :=
  ⟨hsound, fun _ hu _ hat => h.at_ hu hat⟩

theorem Meanwhile.keeps (hinv : Sound kit w) (h : Meanwhile w w') :
    Sound kit w' ∧ ∀ (t : T) (point : Point Key), At t point w → At t point w' := by
  cases h with
  | requested =>
      refine ⟨⟨Nat.le_succ_of_le hinv.covered, Nat.le_succ_of_le hinv.begun, nofun, hinv.spaced, hinv.marked, hinv.clock,
        hinv.loads, hinv.idle⟩, fun t point hat => ?_⟩
      cases point with
      | outside known => exact Known.Here.later hat (.refl _) (Nat.le_succ _)
      | inside requests clock mark state =>
          obtain ⟨hholder, hrequests, hrest⟩ := hat
          exact ⟨hholder, Nat.le_succ_of_le hrequests, hrest⟩
      | ended known found =>
          exact ⟨hat.1, fun hfound => (hat.2 hfound).later (.refl _) (Nat.le_succ _)⟩
  | ticked hlater =>
      refine ⟨⟨hinv.covered, hinv.begun, hinv.requested, hinv.spaced, hinv.marked,
        fun hkit at_ hat => Int.le_trans (hinv.clock hkit at_ hat) hlater, hinv.loads, hinv.idle⟩,
          fun t point hat => ?_⟩
      cases point with
      | outside known => exact hat
      | inside requests clock mark state =>
          obtain ⟨hholder, hrequests, hclock, hrest⟩ := hat
          exact ⟨hholder, hrequests, Int.le_trans hclock hlater, hrest⟩
      | ended known found => exact hat

theorem closed [DecidableEq T] {libs : Libs Key} : (contract T Key kit).Closed (orderly T libs kit) where
  env _ _ hinv henv := Meanwhile.keeps hinv henv
  halt _ _ _ _ hhalt := hhalt.elim

/-! ### Commands -/

variable [DecidableEq T] {libs : Libs Key} {low : ℕ} {tick : ℤ} {mark : Option ℤ}

theorem acquire_spec (known : Known) :
    (contract T Key kit).CmdSpec (orderly T libs kit) t .acquire (.outside known) fun _ point =>
      ∃ low tick s, point = .inside low tick none s ∧ Settled kit s ∧ known.Here low s := by
  intro w r w' hinv hat hstep
  obtain ⟨-, hstep⟩ := hstep
  change Answers kit t .acquire w r w' at hstep
  cases hstep with
  | acquire hfree =>
      have hleaves : Leaves t w { w with holder := some t, marked := Function.update w.marked t none } :=
        ⟨fun u _ => .inl fun h => Option.some_ne_none u (h.symm.trans hfree), .refl _, Nat.le_refl _⟩
      refine ⟨trivial, keeps ⟨hinv.covered, hinv.begun, hinv.requested, hinv.spaced, hinv.marked, hinv.clock, hinv.loads,
        nofun⟩ hleaves, .inside w.requests w.clock none w.state, ?_, w.requests, w.clock, w.state, rfl,
          hinv.idle hfree, hat⟩
      exact ⟨rfl, Nat.le_refl _, Int.le_refl _, Function.update_self t none w.marked, rfl⟩

theorem release_spec {known : Known} (found : Bool) (hsettled : Settled kit s)
    (hcovered : known.requests ≤ s.covered)
    (hexcused : found = false → known.Excused low s) :
    (contract T Key kit).CmdSpec (orderly T libs kit) t .release (.inside low tick mark s) fun _ point =>
      point = .ended known found := by
  intro w r w' hinv hat hstep
  obtain ⟨-, hstep⟩ := hstep
  change Answers kit t .release w r w' at hstep
  obtain ⟨hholder, hlow, -, -, hstate⟩ := hat
  subst hstate
  cases hstep with
  | release =>
      refine ⟨trivial, keeps ⟨hinv.covered, hinv.begun, hinv.requested, hinv.spaced, hinv.marked, hinv.clock, hinv.loads,
        fun _ => hsettled⟩ (.of_holder hholder (.refl _) (Nat.le_refl _)), .ended known found,
          ⟨hcovered, fun hfound => ?_⟩, rfl⟩
      exact (hexcused hfound).later (.refl _) hlow

theorem now_outside (known : Known) : (contract T Key kit).CmdSpec (orderly T libs kit) t .now (.outside known)
    fun _ point => point = .outside known := by
  intro w r w' hinv hat hstep
  obtain ⟨-, hstep⟩ := hstep
  change Answers kit t .now w r w' at hstep
  cases hstep with
  | now => exact ⟨trivial, keeps hinv (.refl t w), .outside known, hat, rfl⟩

theorem now_spec : (contract T Key kit).CmdSpec (orderly T libs kit) t .now (.inside low tick mark s) fun now point =>
    point = .inside low now mark s ∧ (kit = .py → ∀ at_, s.unknownReloadAt = some at_ → at_ ≤ now) := by
  intro w r w' hinv hat hstep
  obtain ⟨-, hstep⟩ := hstep
  change Answers kit t .now w r w' at hstep
  obtain ⟨hholder, hlow, -, hmark, hstate⟩ := hat
  subst hstate
  cases hstep with
  | now =>
      exact ⟨trivial, keeps hinv (.refl t w), .inside low w.clock mark w.state,
        ⟨hholder, hlow, Int.le_refl _, hmark, rfl⟩, rfl, hinv.clock⟩

theorem reloadRequested_spec :
    (contract T Key kit).CmdSpec (orderly T libs kit) t .reloadRequested (.inside low tick mark s) fun requested point =>
      point = .inside low tick mark s ∧ (requested = false → low ≤ s.covered) := by
  intro w r w' hinv hat hstep
  obtain ⟨-, hstep⟩ := hstep
  change Answers kit t .reloadRequested w r w' at hstep
  cases hstep with
  | reloadRequested =>
      refine ⟨trivial, keeps hinv (.refl t w), .inside low tick mark s, hat, rfl, fun hrequested => ?_⟩
      obtain ⟨-, hlow, -, -, hstate⟩ := hat
      subst hstate
      exact Nat.le_trans hlow (hinv.requested hrequested)

theorem clearReloadRequested_spec (hkit : kit = .py) :
    (contract T Key kit).CmdSpec (orderly T libs kit) t .clearReloadRequested (.inside low tick mark s) fun _ point =>
      point = .inside low tick mark s := by
  intro w r w' hinv hat hstep
  obtain ⟨horderly, hstep⟩ := hstep
  subst hkit
  change Answers .py t .clearReloadRequested w r w' at hstep
  have hnone : w.requests = w.state.covered := horderly
  cases hstep with
  | clearReloadRequested =>
      exact ⟨trivial, keeps ⟨hinv.covered, hinv.begun, fun _ => Nat.le_of_eq hnone, hinv.spaced, hinv.marked, hinv.clock,
        hinv.loads, hinv.idle⟩ (.of_holder hat.1 (.refl _) (Nat.le_refl _)), .inside low tick mark s, hat, rfl⟩

theorem loaded_spec : (contract T Key kit).CmdSpec (orderly T libs kit) t .loaded (.inside low tick mark s)
    fun loaded point => point = .inside low tick mark s ∧ loaded = s.loaded := by
  intro w r w' hinv hat hstep
  obtain ⟨-, hstep⟩ := hstep
  change Answers kit t .loaded w r w' at hstep
  cases hstep with
  | loaded => exact ⟨trivial, keeps hinv (.refl t w), .inside low tick mark s, hat, rfl, congrArg _ hat.2.2.2.2⟩

theorem generation_spec : (contract T Key kit).CmdSpec (orderly T libs kit) t .generation (.inside low tick mark s)
    fun generation point => point = .inside low tick mark s ∧ generation = s.generation := by
  intro w r w' hinv hat hstep
  obtain ⟨-, hstep⟩ := hstep
  change Answers kit t .generation w r w' at hstep
  cases hstep with
  | generation => exact ⟨trivial, keeps hinv (.refl t w), .inside low tick mark s, hat, rfl, congrArg _ hat.2.2.2.2⟩

theorem reloadGeneration_spec :
    (contract T Key kit).CmdSpec (orderly T libs kit) t .reloadGeneration (.inside low tick mark s)
      fun generation point => point = .inside generation tick mark s ∧ low ≤ generation ∧
        s.covered ≤ generation := by
  intro w r w' hinv hat hstep
  obtain ⟨-, hstep⟩ := hstep
  change Answers kit t .reloadGeneration w r w' at hstep
  obtain ⟨hholder, hlow, hclock, hmark, hstate⟩ := hat
  subst hstate
  cases hstep with
  | reloadGeneration =>
      exact ⟨trivial, keeps hinv (.refl t w), .inside w.requests tick mark w.state,
        ⟨hholder, Nat.le_refl _, hclock, hmark, rfl⟩, rfl, hlow, hinv.covered⟩

theorem setLoaded_spec : (contract T Key kit).CmdSpec (orderly T libs kit) t .setLoaded (.inside low tick mark s)
    fun _ point => ∃ requests, low ≤ requests ∧ s.begun ≤ requests ∧
      point = .inside requests tick mark (s.load requests) := by
  intro w r w' hinv hat hstep
  obtain ⟨-, hstep⟩ := hstep
  change Answers kit t .setLoaded w r w' at hstep
  obtain ⟨hholder, hlow, hclock, hmark, hstate⟩ := hat
  subst hstate
  cases hstep with
  | setLoaded =>
      have hlater : Later w.state (w.state.load w.requests) := ⟨hinv.begun, Nat.le_refl _, .inl ⟨rfl, rfl⟩⟩
      refine ⟨trivial, keeps ⟨hinv.covered, Nat.le_refl _, hinv.requested, hinv.spaced, hinv.marked, hinv.clock, hinv.loads,
        fun hfree => ?_⟩ (.of_holder hholder hlater (Nat.le_refl _)), .inside w.requests tick mark _,
        ⟨hholder, Nat.le_refl _, hclock, hmark, rfl⟩, w.requests, hlow, hinv.begun, rfl⟩
      exact absurd (hholder.symm.trans hfree) (Option.some_ne_none t)

theorem setGeneration_spec (generation : ℕ) :
    (contract T Key kit).CmdSpec (orderly T libs kit) t (.setGeneration generation) (.inside low tick mark s)
      fun _ point => point = .inside low tick mark { s with generation := generation } := by
  intro w r w' hinv hat hstep
  obtain ⟨-, hstep⟩ := hstep
  change Answers kit t (.setGeneration generation) w r w' at hstep
  obtain ⟨hholder, hlow, hclock, hmark, hstate⟩ := hat
  subst hstate
  cases hstep with
  | setGeneration =>
      refine ⟨trivial, keeps ⟨hinv.covered, hinv.begun, hinv.requested, hinv.spaced, hinv.marked, hinv.clock, hinv.loads,
        fun hfree => ?_⟩ (.of_holder hholder ⟨Nat.le_refl _, Nat.le_refl _, .inl ⟨rfl, rfl⟩⟩ (Nat.le_refl _)),
        .inside low tick mark _, ⟨hholder, hlow, hclock, hmark, rfl⟩, rfl⟩
      exact absurd (hholder.symm.trans hfree) (Option.some_ne_none t)

/-- What a lookup of an unknown kid knows when it has the file read. -/
def Due (mark : Option ℤ) (s : JwksState Key) : Prop := ∀ now, mark = some now →
  s.unknownReloadAt = some now ∧ ∀ read ∈ s.unknownReads, read + unknownKidReload ≤ now

theorem Due.none (s : JwksState Key) : Due none s := nofun

omit [DecidableEq T] in
theorem Sound.opened (hinv : Sound kit w) (hholder : w.holder = some t) (hdue : Due (w.marked t) w.state) :
    Sound kit { w with state := w.state.opened kit w.requests (w.marked t) } := by
  have hspaced : Spaced (w.state.unknownReads ++ (w.marked t).toList) := by
    refine List.pairwise_append.mpr ⟨hinv.spaced, ?_, fun read hread now hnow => ?_⟩
    · cases w.marked t with
      | none => exact .nil
      | some now => exact List.pairwise_singleton _ now
    · exact (hdue now (Option.mem_toList.mp hnow)).2 read hread
  have hmarked : ∀ read ∈ w.state.unknownReads ++ (w.marked t).toList,
      ∃ at_, w.state.unknownReloadAt = some at_ ∧ read ≤ at_ := by
    intro read hread
    rcases List.mem_append.mp hread with hread | hread
    · exact hinv.marked read hread
    · exact ⟨read, (hdue read (Option.mem_toList.mp hread)).1, Int.le_refl read⟩
  have hidle : ∀ {P : Prop}, w.holder = .none → P := fun hfree =>
    absurd (hholder.symm.trans hfree) (Option.some_ne_none t)
  cases kit with
  | py =>
      exact ⟨Nat.le_refl _, Nat.le_refl _, fun _ => Nat.le_refl _, hspaced, hmarked, hinv.clock, hinv.loads, hidle⟩
  | rs => exact ⟨Nat.le_refl _, hinv.begun, fun _ => Nat.le_refl _, hspaced, hmarked, hinv.clock, hinv.loads, hidle⟩

theorem Later.opened {requests : ℕ} (hbegun : s.begun ≤ requests) (hcovered : s.covered ≤ requests) :
    Later s (s.opened kit requests mark) := by
  cases kit with
  | py => exact ⟨hbegun, hcovered, .inl ⟨rfl, rfl⟩⟩
  | rs => exact ⟨Nat.le_refl _, hcovered, .inl ⟨rfl, rfl⟩⟩

theorem openFile_spec (hdue : Due mark s) :
    (contract T Key kit).CmdSpec (orderly T libs kit) t .openFile (.inside low tick mark s) fun _ point =>
      ∃ requests, low ≤ requests ∧ s.begun ≤ requests ∧ s.covered ≤ requests ∧
        point = .inside requests tick mark (s.opened kit requests mark) := by
  intro w r w' hinv hat hstep
  obtain ⟨-, hstep⟩ := hstep
  change Answers kit t .openFile w r w' at hstep
  obtain ⟨hholder, hlow, hclock, hmark, hstate⟩ := hat
  subst hstate hmark
  cases hstep with
  | openFile =>
      refine ⟨trivial, keeps (hinv.opened hholder hdue)
        (.of_holder hholder (.opened hinv.begun hinv.covered) (Nat.le_refl _)),
          .inside w.requests tick (w.marked t) _,
        ⟨hholder, Nat.le_refl _, hclock, rfl, rfl⟩, w.requests, hlow, hinv.begun, hinv.covered, rfl⟩

theorem readText_spec : (contract T Key kit).CmdSpec (orderly T libs kit) t .readText (.inside low tick mark s)
    fun text point => point = .inside low tick mark s ∧
      (kit = .py → s.loads ≠ [] → mark = none → s.before = s.begun → keysPy libs text ≠ none) := by
  intro w r w' hinv hat hstep
  obtain ⟨horderly, hstep⟩ := hstep
  change Answers kit t .readText w r w' at hstep
  obtain ⟨hholder, hlow, hclock, hmark, hstate⟩ := hat
  subst hstate hmark
  cases hstep with
  | readText =>
      refine ⟨trivial, keeps hinv (.refl t w), .inside low tick (w.marked t) w.state,
        ⟨hholder, hlow, hclock, rfl, rfl⟩, rfl, fun hkit => ?_⟩
      subst hkit
      exact horderly

theorem setKeys_spec (keys : Keys Key) :
    (contract T Key kit).CmdSpec (orderly T libs kit) t (.setKeys keys) (.inside low tick mark s) fun _ point =>
      point = .inside low tick mark (s.setKeys keys) := by
  intro w r w' hinv hat hstep
  obtain ⟨-, hstep⟩ := hstep
  change Answers kit t (.setKeys keys) w r w' at hstep
  obtain ⟨hholder, hlow, hclock, hmark, hstate⟩ := hat
  subst hstate
  cases hstep with
  | setKeys =>
      refine ⟨trivial, keeps ⟨hinv.covered, hinv.begun, hinv.requested, hinv.spaced, hinv.marked, hinv.clock,
        fun _ _ => List.append_ne_nil_of_right_ne_nil _ (List.cons_ne_nil keys []), fun hfree => ?_⟩
        (.of_holder hholder ⟨Nat.le_refl _, Nat.le_refl _, .inr rfl⟩ (Nat.le_refl _)), .inside low tick mark _,
        ⟨hholder, hlow, hclock, hmark, rfl⟩, rfl⟩
      exact absurd (hholder.symm.trans hfree) (Option.some_ne_none t)

theorem getKey_spec (kid : String) :
    (contract T Key kit).CmdSpec (orderly T libs kit) t (.getKey kid) (.inside low tick mark s) fun key point =>
      point = .inside low tick mark s ∧ key = s.keys kid := by
  intro w r w' hinv hat hstep
  obtain ⟨-, hstep⟩ := hstep
  change Answers kit t (.getKey kid) w r w' at hstep
  obtain ⟨hholder, hlow, hclock, hmark, hstate⟩ := hat
  subst hstate
  cases hstep with
  | getKey =>
      exact ⟨trivial, keeps hinv (.refl t w), .inside low tick mark w.state,
        ⟨hholder, hlow, hclock, hmark, rfl⟩, rfl, rfl⟩

/-- The time is no earlier than that of any lookup of an unknown kid that has had the file read. -/
theorem unknownReloadAt_spec :
    (contract T Key kit).CmdSpec (orderly T libs kit) t .unknownReloadAt (.inside low tick mark s) fun at_ point =>
      point = .inside low tick mark s ∧ at_ = s.unknownReloadAt ∧
        ∀ read ∈ s.unknownReads, ∃ at_, s.unknownReloadAt = some at_ ∧ read ≤ at_ := by
  intro w r w' hinv hat hstep
  obtain ⟨-, hstep⟩ := hstep
  change Answers kit t .unknownReloadAt w r w' at hstep
  obtain ⟨hholder, hlow, hclock, hmark, hstate⟩ := hat
  subst hstate
  cases hstep with
  | unknownReloadAt =>
      exact ⟨trivial, keeps hinv (.refl t w), .inside low tick mark w.state,
        ⟨hholder, hlow, hclock, hmark, rfl⟩, rfl, rfl,
        hinv.marked⟩

theorem setUnknownReloadAt_spec {now : ℤ} (hnow : kit = .py → ∀ at_, s.unknownReloadAt = some at_ → at_ ≤ now)
    (htick : kit = .py → now ≤ tick) :
    (contract T Key kit).CmdSpec (orderly T libs kit) t (.setUnknownReloadAt now) (.inside low tick mark s) fun _ point =>
      point = .inside low tick (some now) { s with unknownReloadAt := some now } := by
  intro w r w' hinv hat hstep
  obtain ⟨horderly, hstep⟩ := hstep
  change Answers kit t (.setUnknownReloadAt now) w r w' at hstep
  obtain ⟨hholder, hlow, hclock, -, hstate⟩ := hat
  subst hstate
  have hforward : ∀ at_, w.state.unknownReloadAt = some at_ → at_ ≤ now := by
    cases kit with
    | py => exact hnow rfl
    | rs => exact horderly
  cases hstep with
  | setUnknownReloadAt =>
      refine ⟨trivial, keeps ⟨hinv.covered, hinv.begun, hinv.requested, hinv.spaced, fun read hread => ?_,
        fun hkit at_ hat => ?_, hinv.loads, fun hfree => ?_⟩
        (.of_holder hholder ⟨Nat.le_refl _, Nat.le_refl _, .inl ⟨rfl, rfl⟩⟩ (Nat.le_refl _)),
        .inside low tick (some now) _, ⟨hholder, hlow, hclock, Function.update_self t _ w.marked, rfl⟩, rfl⟩
      · obtain ⟨at_, hat, hle⟩ := hinv.marked read hread
        exact ⟨now, rfl, Int.le_trans hle (hforward at_ hat)⟩
      · obtain rfl := Option.some.inj hat
        exact Int.le_trans (htick hkit) hclock
      · exact absurd (hholder.symm.trans hfree) (Option.some_ne_none t)

/-! ### Lookups -/

/-- What is known under the lock once the file has been opened since the requests. -/
structure Known.Reached (kit : Kit) (known : Known) (requests : ℕ) (s : JwksState Key) : Prop where
  settled : Settled kit s
  covered : known.requests ≤ s.covered
  here : known.Here requests s

def Through (kit : Kit) (known : Known) (point : Point Key) : Prop :=
  ∃ requests tick mark s, point = .inside requests tick mark s ∧ known.Reached kit requests s

def Failing (kit : Kit) (known : Known) (point : Point Key) : Prop :=
  ∃ requests tick mark s, point = .inside requests tick mark s ∧ known.Reached kit requests s ∧
    known.Excused requests s

theorem withLock_safe {α : Type} {body : JwksProg Key α}
    (hbody : ∀ low tick s, Settled kit s → known.Here low s → (contract T Key kit).Safe (orderly T libs kit) t body
      (.inside low tick none s) (Contract.Ends (fun _ => Through kit known) fun _ => Failing kit known)) :
    (contract T Key kit).Safe (orderly T libs kit) t (withLock body) (.outside known)
      (Contract.Ends (fun _ point => point = .ended known true) fun _ point => point = .ended known false) := by
  simp only [withLock, Prog.send_bind]
  refine (acquire_spec known).mono fun _ point hpoint => ?_
  obtain ⟨low, tick, s, rfl, hsettled, hhere⟩ := hpoint
  refine Contract.safe_seq (Contract.safe_handle (hbody low tick s hsettled hhere) fun e point hfailing => ?_) ?_
  · obtain ⟨requests, tick, mark, s, rfl, hreached, hexcused⟩ := hfailing
    exact (release_spec false hreached.settled hreached.covered fun _ => hexcused).mono fun _ _ hended => hended
  · rintro value point ⟨requests, tick, mark, s, rfl, hreached⟩
    exact (release_spec true hreached.settled hreached.covered nofun).mono fun _ _ hended => hended

theorem reloadPy_safe (hdue : Due mark s) (hhere : known.Here low s) (hwhy : mark = none ∨ known.Excused low s) :
    (contract T Key .py).Safe (orderly T libs .py) t (reloadPy libs) (.inside low tick mark s)
      (Contract.Ends (fun _ => Through .py known) fun _ => Failing .py known) := by
  simp only [reloadPy, Prog.send_bind]
  refine (openFile_spec hdue).mono fun _ point hpoint => ?_
  obtain ⟨requests, hlow, hbegun, hcovered, rfl⟩ := hpoint
  have hlater : Later s (s.opened .py requests mark) := .opened hbegun hcovered
  have hhere' := hhere.later hlater hlow
  refine readText_spec.mono fun text point hpoint => ?_
  obtain ⟨rfl, hvalid⟩ := hpoint
  dsimp only
  cases htext : keysPy libs text with
  | none =>
      refine ⟨requests, tick, mark, _, rfl, ⟨rfl, hhere'.requests, hhere'⟩, fun hsettled => ?_⟩
      rcases hwhy with hmark | hexcused
      · obtain ⟨hle, hlost | ⟨hloaded, -⟩⟩ := hhere.settled hsettled
        · exact .inr (hlater.lost hlost)
        · -- A reload has followed the requests known of: there are newer ones, or the text is valid.
          have hne : s.begun ≠ requests := fun heq => hvalid rfl hloaded hmark heq htext
          exact .inl (Nat.lt_of_le_of_lt hle (Nat.lt_of_le_of_ne hbegun hne))
      · exact hexcused.later hlater hlow hsettled
  | some keys =>
      refine (setKeys_spec keys).mono fun _ point hpoint => ?_
      subst hpoint
      refine (clearReloadRequested_spec rfl).mono fun _ point hpoint => ?_
      have hset : Later (s.opened .py requests mark) ((s.opened .py requests mark).setKeys keys) :=
        ⟨Nat.le_refl _, Nat.le_refl _, .inr rfl⟩
      exact ⟨requests, tick, mark, _, hpoint, rfl, hhere'.requests, hhere'.later hset (Nat.le_refl _)⟩

theorem refreshPy_safe (hsettled : Settled .py s) (hhere : known.Here low s) :
    (contract T Key .py).Safe (orderly T libs .py) t (refreshPy libs) (.inside low tick none s)
      (Contract.Ends (fun _ => Through .py known) fun _ => Failing .py known) := by
  simp only [refreshPy, Prog.send_bind]
  refine reloadRequested_spec.mono fun requested point hpoint => ?_
  obtain ⟨rfl, hcovered⟩ := hpoint
  cases requested with
  | true => exact Contract.safe_seq (reloadPy_safe (.none s) hhere (.inl rfl)) fun _ _ hthrough => hthrough
  | false =>
      exact ⟨low, tick, none, s, rfl, hsettled, Nat.le_trans hhere.requests (hcovered rfl), hhere⟩

omit [DecidableEq T] in
theorem Known.Here.excused {requests : ℕ} (hhere : known.Here requests s) (hkey : s.keys known.kid = none) :
    known.Excused requests s := fun hsettled =>
  .inr ((hhere.settled hsettled).2.resolve_right fun hheld => hheld.2 hkey)

theorem Known.Reached.setUnknownReloadAt {requests : ℕ} (hreached : known.Reached kit requests s)
    (at_ : Option ℤ) :
    known.Reached kit requests { s with unknownReloadAt := at_ } := by
  refine ⟨?_, hreached.covered, hreached.here.later ⟨Nat.le_refl _, Nat.le_refl _, .inl ⟨rfl, rfl⟩⟩ (Nat.le_refl _)⟩
  cases kit with
  | py => exact hreached.settled
  | rs => exact hreached.settled

theorem Due.setUnknownReloadAt {now : ℤ}
    (hreads : ∀ read ∈ s.unknownReads, ∃ at_, s.unknownReloadAt = some at_ ∧ read ≤ at_)
    (hdue : ∀ at_, s.unknownReloadAt = some at_ → unknownKidReload ≤ now - at_) :
    Due (some now) { s with unknownReloadAt := some now } := by
  intro now' hnow
  obtain rfl := Option.some.inj hnow
  refine ⟨rfl, fun read hread => ?_⟩
  obtain ⟨at_, hat, hle⟩ := hreads read hread
  have hlate := hdue at_ hat
  omega

def Looked (kit : Kit) (known : Known) (key : Option Key) (point : Point Key) : Prop :=
  Through kit known point ∧ (key = none → Failing kit known point)

theorem getKey_safe {requests : ℕ} (hreached : known.Reached kit requests s) :
    (contract T Key kit).Safe (orderly T libs kit) t
      (Prog.send (Command.getKey known.kid) : JwksProg Key (Option Key)) (.inside requests tick mark s)
      (Contract.Ends (Looked kit known) fun _ => Failing kit known) := by
  refine (getKey_spec known.kid).mono fun key point hpoint => ?_
  obtain ⟨rfl, hkey⟩ := hpoint
  exact ⟨⟨requests, tick, mark, s, rfl, hreached⟩, fun hnone =>
    ⟨requests, tick, mark, s, rfl, hreached, hreached.here.excused (hkey.symm.trans hnone)⟩⟩

theorem missedPy_safe (reloaded : Bool) {requests : ℕ} (hreached : known.Reached .py requests s)
    (hexcused : known.Excused requests s) :
    (contract T Key .py).Safe (orderly T libs .py) t (missedPy libs known.kid reloaded) (.inside requests tick mark s)
      (Contract.Ends (Looked .py known) fun _ => Failing .py known) := by
  simp only [missedPy, Prog.send_bind]
  refine now_spec.mono fun now point hpoint => ?_
  obtain ⟨rfl, hnow⟩ := hpoint
  cases reloaded with
  | true =>
      refine (setUnknownReloadAt_spec hnow fun _ => Int.le_refl now).mono fun _ point hpoint => ?_
      have hreached' := hreached.setUnknownReloadAt (some now)
      exact ⟨⟨requests, now, some now, _, hpoint, hreached'⟩, fun _ =>
        ⟨requests, now, some now, _, hpoint, hreached', hexcused⟩⟩
  | false =>
      refine unknownReloadAt_spec.mono fun at_ point hpoint => ?_
      obtain ⟨rfl, hat, hreads⟩ := hpoint
      dsimp only
      split_ifs with hdue
      · refine (setUnknownReloadAt_spec hnow fun _ => Int.le_refl now).mono fun _ point hpoint => ?_
        subst hpoint
        have hlate : Due (some now) { s with unknownReloadAt := some now } :=
          .setUnknownReloadAt hreads fun at' hat' => by
            rw [hat, hat'] at hdue
            exact of_decide_eq_true hdue
        refine Contract.safe_seq (reloadPy_safe hlate (hreached.setUnknownReloadAt _).here (.inr hexcused)) ?_
        rintro - point ⟨requests, tick, mark, s, rfl, hreached⟩
        exact getKey_safe hreached
      · exact ⟨⟨requests, now, mark, s, rfl, hreached⟩, fun _ => ⟨requests, now, mark, s, rfl, hreached, hexcused⟩⟩

theorem lookupPy_safe (hsettled : Settled .py s) (hhere : known.Here low s) :
    (contract T Key .py).Safe (orderly T libs .py) t (lookupPy libs known.kid) (.inside low tick none s)
      (Contract.Ends (fun _ => Through .py known) fun _ => Failing .py known) := by
  refine Contract.safe_seq (refreshPy_safe hsettled hhere) ?_
  rintro reloaded point ⟨requests, tick, mark, s, rfl, hreached⟩
  simp only [Prog.send_bind]
  refine (getKey_spec known.kid).mono fun key point hpoint => ?_
  obtain ⟨rfl, hkey⟩ := hpoint
  cases key with
  | some key => exact ⟨requests, tick, mark, s, rfl, hreached⟩
  | none =>
      refine Contract.safe_seq (missedPy_safe reloaded hreached (hreached.here.excused hkey.symm)) fun key point hlooked => ?_
      cases key with
      | some key => exact hlooked.1
      | none => exact hlooked.2 rfl

theorem reloadRs_safe (hdue : Due mark s) (hhere : known.Here low s) (hexcused : known.Excused low s) :
    (contract T Key .rs).Safe (orderly T libs .rs) t (reloadRs libs) (.inside low tick mark s)
      (Contract.Ends (fun _ => Through .rs known) fun _ => Failing .rs known) := by
  simp only [reloadRs, Prog.send_bind]
  refine setLoaded_spec.mono fun _ point hpoint => ?_
  obtain ⟨begun, hlow, hbegun, rfl⟩ := hpoint
  have hload : Later s (s.load begun) := ⟨hbegun, Nat.le_refl _, .inl ⟨rfl, rfl⟩⟩
  refine reloadGeneration_spec.mono fun generation point hpoint => ?_
  obtain ⟨rfl, hgeneration, -⟩ := hpoint
  refine (setGeneration_spec generation).mono fun _ point hpoint => ?_
  subst hpoint
  have hset : Later (s.load begun) { s.load begun with generation := generation } :=
    ⟨Nat.le_refl _, Nat.le_refl _, .inl ⟨rfl, rfl⟩⟩
  have hdue' : Due mark { s.load begun with generation := generation } := hdue
  refine (openFile_spec hdue').mono fun _ point hpoint => ?_
  obtain ⟨requests, hrequests, hopened, hcovered, rfl⟩ := hpoint
  have hopen : Later _ (JwksState.opened .rs _ requests mark) := .opened hopened hcovered
  have hhere' := ((hhere.later hload hlow).later hset hgeneration).later hopen hrequests
  have hexcused' := ((hexcused.later hload hlow).later hset hgeneration).later hopen hrequests
  refine readText_spec.mono fun text point hpoint => ?_
  obtain ⟨rfl, -⟩ := hpoint
  dsimp only
  cases keysRs libs text with
  | none =>
      exact ⟨requests, tick, mark, _, rfl, ⟨⟨fun _ => rfl, fun _ => ⟨hgeneration, hrequests⟩⟩, hhere'.requests, hhere'⟩,
        hexcused'⟩
  | some keys =>
      refine (setKeys_spec keys).mono fun _ point hpoint => ?_
      exact ⟨requests, tick, mark, _, hpoint, ⟨fun _ => rfl, fun _ => ⟨hgeneration, hrequests⟩⟩, hhere'.requests,
        hhere'.later ⟨Nat.le_refl _, Nat.le_refl _, .inr rfl⟩ (Nat.le_refl _)⟩

theorem requestedRs_safe (hsettled : Settled .rs s) (hhere : known.Here low s) :
    (contract T Key .rs).Safe (orderly T libs .rs) t requestedRs (.inside low tick mark s)
      (Contract.Ends (fun requested point => ∃ requests, point = .inside requests tick mark s ∧ known.Here requests s ∧
        (requested = false → known.requests ≤ s.covered) ∧ (requested = true → known.Excused requests s))
        fun _ => Failing .rs known) := by
  obtain ⟨hloads, hgenerations⟩ := hsettled
  simp only [requestedRs, Prog.send_bind]
  refine loaded_spec.mono fun loaded point hpoint => ?_
  obtain ⟨rfl, hloaded⟩ := hpoint
  cases loaded with
  | false =>
      refine ⟨low, rfl, hhere, nofun, fun _ hknown => ?_⟩
      obtain ⟨-, hlost | ⟨hsome, -⟩⟩ := hhere.settled hknown
      · exact .inr hlost
      · cases hloaded.trans (hloads hsome)
  | true =>
      obtain ⟨hbegun, hcovered⟩ := hgenerations hloaded.symm
      refine generation_spec.mono fun generation point hpoint => ?_
      obtain ⟨rfl, rfl⟩ := hpoint
      refine reloadGeneration_spec.mono fun current point hpoint => ?_
      obtain ⟨rfl, hlow, hcurrent⟩ := hpoint
      refine ⟨current, rfl, hhere.later (.refl s) hlow, fun hsame => ?_, fun hother hknown => .inl ?_⟩
      · have heq : s.generation = current := by simpa using hsame
        exact Nat.le_trans hhere.requests (Nat.le_trans hlow (heq ▸ hcovered))
      · have hne : s.generation ≠ current := of_decide_eq_true hother
        have hle := (hhere.settled hknown).1
        omega

theorem refreshRs_safe (hsettled : Settled .rs s) (hhere : known.Here low s) :
    (contract T Key .rs).Safe (orderly T libs .rs) t (refreshRs libs) (.inside low tick none s)
      (Contract.Ends (fun _ => Through .rs known) fun _ => Failing .rs known) := by
  refine Contract.safe_seq (requestedRs_safe hsettled hhere) ?_
  rintro requested point ⟨requests, rfl, hhere', hcovered, hexcused⟩
  cases requested with
  | true => exact Contract.safe_seq (reloadRs_safe (.none s) hhere' (hexcused rfl)) fun _ _ hthrough => hthrough
  | false => exact ⟨requests, tick, none, s, rfl, hsettled, hcovered rfl, hhere'⟩

theorem missedRs_safe (now : ℤ) (reloaded : Bool) {requests : ℕ} (hreached : known.Reached .rs requests s)
    (hexcused : known.Excused requests s) :
    (contract T Key .rs).Safe (orderly T libs .rs) t (missedRs libs now reloaded) (.inside requests tick mark s)
      (Contract.Ends (fun _ => Through .rs known) fun _ => Failing .rs known) := by
  simp only [missedRs, Prog.send_bind]
  have hpy : ∀ {P : Prop}, Kit.rs = .py → P := fun h => nomatch h
  cases reloaded with
  | true =>
      refine (setUnknownReloadAt_spec hpy hpy).mono fun _ point hpoint => ?_
      exact ⟨requests, tick, some now, _, hpoint, hreached.setUnknownReloadAt (some now)⟩
  | false =>
      refine unknownReloadAt_spec.mono fun at_ point hpoint => ?_
      obtain ⟨rfl, hat, hreads⟩ := hpoint
      dsimp only
      split_ifs with hdue
      · refine (setUnknownReloadAt_spec hpy hpy).mono fun _ point hpoint => ?_
        subst hpoint
        have hlate : Due (some now) { s with unknownReloadAt := some now } :=
          .setUnknownReloadAt hreads fun at' hat' => by
            rw [hat, hat'] at hdue
            have hmax : unknownKidReload ≤ max 0 (now - at') := of_decide_eq_true hdue
            unfold unknownKidReload at hmax ⊢
            omega
        exact reloadRs_safe hlate (hreached.setUnknownReloadAt _).here hexcused
      · exact ⟨requests, tick, mark, s, rfl, hreached⟩

theorem lookupRs_safe (now : ℤ) (hsettled : Settled .rs s) (hhere : known.Here low s) :
    (contract T Key .rs).Safe (orderly T libs .rs) t (lookupRs libs known.kid now) (.inside low tick none s)
      (Contract.Ends (fun _ => Through .rs known) fun _ => Failing .rs known) := by
  refine Contract.safe_seq (refreshRs_safe hsettled hhere) ?_
  rintro reloaded point ⟨requests, tick, mark, s, rfl, hreached⟩
  simp only [Prog.send_bind]
  refine (getKey_spec known.kid).mono fun key point hpoint => ?_
  obtain ⟨rfl, hkey⟩ := hpoint
  cases key with
  | some key => exact ⟨requests, tick, mark, s, rfl, hreached⟩
  | none =>
      refine Contract.safe_seq (missedRs_safe now reloaded hreached (hreached.here.excused hkey.symm)) ?_
      rintro - point ⟨requests, tick, mark, s, rfl, hreached⟩
      refine Contract.safe_seq (getKey_safe hreached) fun key point hlooked => ?_
      cases key with
      | some key => exact hlooked.1
      | none => exact hlooked.2 rfl

theorem key_safe (known : Known) : (contract T Key kit).Safe (orderly T libs kit) t (kit.key libs known.kid)
    (.outside known)
    (Contract.Ends (fun _ point => point = .ended known true) fun _ point => point = .ended known false) := by
  cases kit with
  | py => exact withLock_safe fun _ _ _ hsettled hhere => lookupPy_safe hsettled hhere
  | rs =>
      refine (now_outside known).mono fun now point hpoint => ?_
      subst hpoint
      exact withLock_safe fun _ _ _ hsettled hhere => lookupRs_safe now hsettled hhere

end Contract

/-! ### Every run -/

section Runs

variable {T Key : Type} [DecidableEq T]

abbrev JwksConfig (T Key : Type) := Config T (Command Key) Reply Failure Key (World T Key)

omit [DecidableEq T] in
theorem sound_initial (libs : Libs Key) (kit : Kit) (task : T → String) (requests : ℕ) (clock : ℤ) :
    Sound kit (initial libs kit task requests clock).state := by
  refine ⟨Nat.zero_le _, Nat.zero_le _, nofun, .nil, nofun, nofun, fun kid hkey => absurd rfl hkey, fun _ => ?_⟩
  cases kit with
  | py => rfl
  | rs => exact ⟨fun hloads => absurd rfl hloads, nofun⟩

theorem good_of_reaches (libs : Libs Key) (kit : Kit) (task : T → String) (requests : ℕ) (clock : ℤ)
    {cfg : JwksConfig T Key}
    (hrun : (orderly T libs kit).Reaches (initial libs kit task requests clock) cfg) :
    (contract T Key kit).Good (orderly T libs kit) (fun _ _ _ => True) cfg := by
  refine Contract.Good.reaches closed (Contract.Good.initial (sound_initial libs kit task requests clock) fun t => ?_) hrun
  refine ⟨.outside ⟨0, 0, False, task t⟩, ⟨Nat.zero_le _, Nat.zero_le _, False.elim⟩, ?_⟩
  exact (key_safe ⟨0, 0, False, task t⟩).mono fun _ _ _ => trivial

/-- **Reloads.** If, in kit-py, a text that is read for a request which a reload has already followed is
valid, and no request arrives while the file is read, and if, in kit-rs, lookups set `unknown_reload_at`
forward, then lookups of unknown kids have the file read at times that are 30 seconds apart, a lookup is
through only when the file has been opened since the requests before it, and where a reload has followed them
a lookup of a kid that has been loaded finds its key, until there is another request, or keys without it are
loaded. -/
theorem lookups_kept (libs : Libs Key) (kit : Kit) (task : T → String) (requests : ℕ) (clock : ℤ)
    {cfg cfg' : JwksConfig T Key} (hrun : (orderly T libs kit).Reaches (initial libs kit task requests clock) cfg)
    (hlater : (orderly T libs kit).Reaches cfg cfg') :
    Spaced cfg'.state.state.unknownReads ∧ ∀ t, cfg.threads t = some (kit.key libs (task t)) →
      (outcome (cfg'.threads t) ≠ none → cfg.state.requests ≤ cfg'.state.state.covered) ∧
      (cfg.state.requests = cfg.state.state.begun → cfg.state.state.keys (task t) ≠ none →
        cfg'.state.requests = cfg.state.requests →
        (∀ keys ∈ cfg'.state.state.loads.drop cfg.state.state.loads.length, keys (task t) ≠ none) →
        ∀ e, cfg'.threads t ≠ some (.raise e)) := by
  have hgood := good_of_reaches libs kit task requests clock hrun
  refine ⟨(hgood.reaches closed hlater).inv.spaced, fun t hstart => ?_⟩
  let known : Known := ⟨cfg.state.requests, cfg.state.state.loads.length,
    cfg.state.requests = cfg.state.state.begun ∧ cfg.state.state.keys (task t) ≠ none, task t⟩
  have hat : (contract T Key kit).at_ t (.outside known) cfg.state :=
    ⟨Nat.le_refl _, Nat.le_refl _, fun hknown =>
      ⟨Nat.le_of_eq hknown.1, .inr ⟨hgood.inv.loads _ hknown.2, hknown.2⟩⟩⟩
  have hfollowed := (hgood.follow hstart hat (key_safe known)).reaches closed hlater
  have hraised : ∀ e, cfg'.threads t = some (.raise e) → ∃ point,
    At t point cfg'.state ∧ point = .ended known false := by
    intro e he
    obtain ⟨point, hpoint, hends⟩ := hfollowed.raised he
    rw [Function.update_self] at hends
    exact ⟨point, hpoint, hends⟩
  constructor
  · intro hended
    cases hthread : cfg'.threads t with
    | none => exact absurd (congrArg outcome hthread) hended
    | some p =>
        cases p with
        | ret key =>
            obtain ⟨point, hpoint, hends⟩ := hfollowed.ended hthread
            rw [Function.update_self] at hends
            obtain rfl : point = .ended known true := hends
            exact hpoint.1
        | raise e =>
            obtain ⟨point, hpoint, rfl⟩ := hraised e hthread
            exact hpoint.1
        | call c k => exact absurd (congrArg outcome hthread) hended
  · intro hbegun hkey hquiet hloads e he
    obtain ⟨point, hpoint, rfl⟩ := hraised e he
    rcases hpoint.2 rfl ⟨hbegun, hkey⟩ with hnewer | ⟨keys, hmem, hnone⟩
    · exact absurd hnewer (Nat.not_lt.mpr (Nat.le_of_eq hquiet))
    · exact hloads keys hmem hnone

end Runs

/-! ### Files that cannot be read, and slow lookups -/

def moduli : Libs String where
  fromDict item := (item.get "n").bind Json.str
  fromRsaComponents n _ := some n

def document : Json :=
  .object [("keys", .array [.object
    [("kty", .string "RSA"), ("kid", .string "k"), ("n", .string "m"), ("e", .string "AQAB")]])]

/-- What each lookup reads. -/
def answer {T : Type} [DecidableEq T] (kit : Kit) (file : T → Option Json) (t : T) :
    (c : Command String) → World T String → Option (Reply c × World T String)
  | .acquire, w =>
      if w.holder = none then some ((), { w with holder := some t, marked := Function.update w.marked t none }) else none
  | .release, w => some ((), { w with holder := none })
  | .now, w => some (w.clock, w)
  | .reloadRequested, w => some (w.reloadRequested, w)
  | .clearReloadRequested, w => some ((), { w with reloadRequested := false })
  | .loaded, w => some (w.state.loaded, w)
  | .setLoaded, w => some ((), { w with state := w.state.load w.requests })
  | .generation, w => some (w.state.generation, w)
  | .reloadGeneration, w => some (w.requests, w)
  | .setGeneration generation, w => some ((), { w with state := { w.state with generation := generation } })
  | .openFile, w => some ((), { w with state := w.state.opened kit w.requests (w.marked t) })
  | .readText, w => some (file t, w)
  | .setKeys keys, w => some ((), { w with state := w.state.setKeys keys })
  | .getKey kid, w => some (w.state.keys kid, w)
  | .unknownReloadAt, w => some (w.state.unknownReloadAt, w)
  | .setUnknownReloadAt now, w => some ((), { w with
      state := { w.state with unknownReloadAt := some now }
      marked := Function.update w.marked t (some now) })

theorem step_of_answer {T : Type} [DecidableEq T] {kit : Kit} {file : T → Option Json} {t : T} {c : Command String}
    {r : Reply c} {w w' : World T String} (h : answer kit file t c w = some (r, w')) :
    (machine kit).step t c w r w' := by
  cases c with
  | acquire =>
      simp only [answer] at h
      split_ifs at h with hfree
      obtain ⟨rfl, rfl⟩ := Prod.mk.inj (Option.some.inj h)
      exact .acquire hfree
  | release =>
      obtain ⟨rfl, rfl⟩ := Prod.mk.inj (Option.some.inj h)
      exact .release
  | now =>
      obtain ⟨rfl, rfl⟩ := Prod.mk.inj (Option.some.inj h)
      exact .now
  | reloadRequested =>
      obtain ⟨rfl, rfl⟩ := Prod.mk.inj (Option.some.inj h)
      exact .reloadRequested
  | clearReloadRequested =>
      obtain ⟨rfl, rfl⟩ := Prod.mk.inj (Option.some.inj h)
      exact .clearReloadRequested
  | loaded =>
      obtain ⟨rfl, rfl⟩ := Prod.mk.inj (Option.some.inj h)
      exact .loaded
  | setLoaded =>
      obtain ⟨rfl, rfl⟩ := Prod.mk.inj (Option.some.inj h)
      exact .setLoaded
  | generation =>
      obtain ⟨rfl, rfl⟩ := Prod.mk.inj (Option.some.inj h)
      exact .generation
  | reloadGeneration =>
      obtain ⟨rfl, rfl⟩ := Prod.mk.inj (Option.some.inj h)
      exact .reloadGeneration
  | setGeneration generation =>
      obtain ⟨rfl, rfl⟩ := Prod.mk.inj (Option.some.inj h)
      exact .setGeneration
  | openFile =>
      obtain ⟨rfl, rfl⟩ := Prod.mk.inj (Option.some.inj h)
      exact .openFile
  | readText =>
      obtain ⟨rfl, rfl⟩ := Prod.mk.inj (Option.some.inj h)
      exact .readText
  | setKeys keys =>
      obtain ⟨rfl, rfl⟩ := Prod.mk.inj (Option.some.inj h)
      exact .setKeys
  | getKey kid =>
      obtain ⟨rfl, rfl⟩ := Prod.mk.inj (Option.some.inj h)
      exact .getKey
  | unknownReloadAt =>
      obtain ⟨rfl, rfl⟩ := Prod.mk.inj (Option.some.inj h)
      exact .unknownReloadAt
  | setUnknownReloadAt now =>
      obtain ⟨rfl, rfl⟩ := Prod.mk.inj (Option.some.inj h)
      exact .setUnknownReloadAt

def World.request {T Key : Type} (w : World T Key) : World T Key :=
  { w with reloadRequested := true, requests := w.requests + 1 }

def World.tick {T Key : Type} (w : World T Key) (later : ℤ) : World T Key := { w with clock := later }

section Surroundings

variable {T Key : Type} [DecidableEq T] {M : Machine T (Command Key) Reply (World T Key)}

def requesting (cfg : JwksConfig T Key) : JwksConfig T Key := ⟨cfg.threads, cfg.state.request⟩

/-- Time passes. -/
def ticking (later : ℤ) (cfg : JwksConfig T Key) : JwksConfig T Key := ⟨cfg.threads, cfg.state.tick later⟩

theorem reaches_requesting (hM : M.env = Meanwhile) (cfg : JwksConfig T Key) : M.Reaches cfg (requesting cfg) := by
  refine .single (.env ?_)
  rw [hM]
  exact .requested

theorem reaches_ticking (hM : M.env = Meanwhile) {later : ℤ} {cfg : JwksConfig T Key}
    (hlater : cfg.state.clock ≤ later) :
    M.Reaches cfg (ticking later cfg) := by
  refine .single (.env ?_)
  rw [hM]
  exact .ticked hlater

end Surroundings

/-- Whether kit-py may be answered so. -/
def mayAnswer (file : Fin 3 → Option Json) (t : Fin 3) (w : World (Fin 3) String) : Command String → Bool
  | .readText => w.state.loads.isEmpty || (w.marked t).isSome || w.state.before ≠ w.state.begun ||
      (keysPy moduli (file t)).isSome
  | .clearReloadRequested => w.requests = w.state.covered
  | _ => true

def orderlyAnswer (file : Fin 3 → Option Json) (t : Fin 3) (c : Command String) (w : World (Fin 3) String) :
    Option (Reply c × World (Fin 3) String) :=
  if mayAnswer file t w c then answer .py file t c w else none

theorem step_of_orderlyAnswer {file : Fin 3 → Option Json} {t : Fin 3} {c : Command String} {r : Reply c}
    {w w' : World (Fin 3) String} (h : orderlyAnswer file t c w = some (r, w')) :
    (orderly (Fin 3) moduli .py).step t c w r w' := by
  unfold orderlyAnswer at h
  split_ifs at h with hmay
  refine ⟨?_, step_of_answer h⟩
  cases c with
  | clearReloadRequested =>
      have hcovered : w.requests = w.state.covered := of_decide_eq_true hmay
      exact hcovered
  | readText =>
      obtain ⟨rfl, rfl⟩ := Prod.mk.inj (Option.some.inj h)
      intro hloads hmark hbefore hkeys
      simp only [mayAnswer, hmark, hbefore, hkeys, Option.isSome_none, Bool.or_false, ne_eq, not_true,
        decide_false,
        List.isEmpty_iff] at hmay
      exact hloads hmay
  | _ => trivial

/-- The second lookup finds no file, the third one does. -/
def restored (t : Fin 3) : Option Json := if t.val = 1 then none else some document

/-- A reload is requested and fails; the next lookup has its key. -/
theorem lookups_kept_restored : ∃ cfg cfg' : JwksConfig (Fin 3) String,
    (orderly (Fin 3) moduli .py).Reaches (initial moduli .py (fun _ => "k") 0 0) cfg ∧
    cfg.threads 1 = some (.raise .reload) ∧ (orderly (Fin 3) moduli .py).Reaches cfg cfg' ∧
    cfg'.threads 2 = some (.ret "m") ∧ Spaced cfg'.state.state.unknownReads ∧ 1 ≤ cfg'.state.state.covered ∧
    ∀ e, cfg'.threads 2 ≠ some (.raise e) := by
  have hrun : ((schedule (orderlyAnswer restored) (List.replicate 8 0) (initial moduli .py (fun _ => "k") 0 0)).any
      fun first => (schedule (orderlyAnswer restored) (List.replicate 5 1) (requesting first)).any fun cfg =>
        outcome (cfg.threads 1) = some (.error .reload) ∧ cfg.state.requests = 1 ∧ cfg.state.state.begun = 1 ∧
        cfg.state.state.keys "k" = some "m" ∧
        (schedule (orderlyAnswer restored) (List.replicate 8 2) cfg).any fun cfg' =>
          outcome (cfg'.threads 2) = some (.ok "m") ∧ cfg'.state.requests = 1 ∧
          ((cfg'.state.state.loads.drop cfg.state.state.loads.length).all fun keys => keys "k" ≠ none)) = true := by
    decide +kernel
  obtain ⟨first, hfirst, hmid⟩ := (Option.any_eq_true _ _).mp hrun
  obtain ⟨cfg, hcfg, hmid⟩ := (Option.any_eq_true _ _).mp hmid
  obtain ⟨hraised, hrequests, hbegun, hkey, hlast⟩ := of_decide_eq_true hmid
  obtain ⟨cfg', hcfg', hlast⟩ := (Option.any_eq_true _ _).mp hlast
  obtain ⟨hended, hrequests', hloads⟩ := of_decide_eq_true hlast
  have hturn : ∀ t c (w : World (Fin 3) String) r w', orderlyAnswer restored t c w = some (r, w') →
      (orderly (Fin 3) moduli .py).step t c w r w' := fun _ _ _ _ _ h => step_of_orderlyAnswer h
  have hreaches := (Machine.reaches_of_schedule _ hturn _ hfirst).trans
    ((reaches_requesting rfl first).trans (Machine.reaches_of_schedule _ hturn _ hcfg))
  have hlater := Machine.reaches_of_schedule _ hturn _ hcfg'
  have hstart : cfg.threads 2 = some (keyPy moduli "k") :=
    (threads_of_schedule _ (by decide) hcfg).trans (threads_of_schedule _ (by decide) hfirst)
  have hread := ret_of_outcome hended
  obtain ⟨hspaced, hlookups⟩ := lookups_kept moduli .py (fun _ => "k") 0 0 hreaches hlater
  obtain ⟨hcovered, hfound⟩ := hlookups 2 hstart
  refine ⟨cfg, cfg', hreaches, raise_of_outcome hraised, hlater, hread, hspaced, ?_, ?_⟩
  · exact hrequests ▸ hcovered (by rw [hread]; exact Option.some_ne_none _)
  · refine hfound (hrequests.trans hbegun.symm) (by rw [hkey]; exact Option.some_ne_none _)
      (hrequests'.trans hrequests.symm) fun keys hmem => ?_
    exact of_decide_eq_true (List.all_eq_true.mp hloads keys hmem)

/-- Only the first lookup finds a file. -/
def removed (t : Fin 4) : Option Json := if t = 0 then some document else none

def present (_ : Fin 4) : Option Json := some document

def kids (t : Fin 4) : String := if t = 0 then "k" else "x"

/-- In kit-py a lookup finds no file and so does the next one, for a kid that is loaded, without another
request; and a request that arrives while the file is read is followed by no read. In kit-rs a lookup that has
read the clock before another sets the time back to then, and the file is read for unknown kids twice in a
second. -/
theorem lookups_lost :
    (∃ cfg cfg' : JwksConfig (Fin 4) String, (machine .py).Reaches (initial moduli .py (fun _ => "k") 0 0) cfg ∧
      cfg.threads 2 = some (keyPy moduli "k") ∧ cfg.state.requests = cfg.state.state.begun ∧
      cfg.state.state.keys "k" = some "m" ∧ (machine .py).Reaches cfg cfg' ∧
        cfg'.state.requests = cfg.state.requests ∧
      cfg'.state.state.loads.length = cfg.state.state.loads.length ∧ cfg'.threads 2 = some (.raise .reload)) ∧
    (∃ cfg cfg' : JwksConfig (Fin 4) String, (machine .py).Reaches (initial moduli .py (fun _ => "k") 0 0) cfg ∧
      cfg.threads 1 = some (keyPy moduli "k") ∧ (machine .py).Reaches cfg cfg' ∧ cfg'.threads 1 = some (.ret "m") ∧
      cfg'.state.state.covered < cfg.state.requests) ∧
    ∃ cfg : JwksConfig (Fin 4) String, (machine .rs).Reaches (initial moduli .rs kids 0 0) cfg ∧
      ¬ Spaced cfg.state.state.unknownReads := by
  have hturn : ∀ {kit : Kit} {file : Fin 4 → Option Json} t c (w : World (Fin 4) String) r w',
      answer kit file t c w = some (r, w') → (machine kit).step t c w r w' := fun _ _ _ _ _ h => step_of_answer h
  refine ⟨?_, ?_, ?_⟩
  · have hrun : ((schedule (answer .py removed) (List.replicate 8 0) (initial moduli .py (fun _ => "k") 0 0)).any
        fun first => (schedule (answer .py removed) (List.replicate 5 1) (requesting first)).any fun cfg =>
          cfg.state.requests = cfg.state.state.begun ∧ cfg.state.state.keys "k" = some "m" ∧
          (schedule (answer .py removed) (List.replicate 5 2) cfg).any fun cfg' =>
            cfg'.state.requests = cfg.state.requests ∧
            cfg'.state.state.loads.length = cfg.state.state.loads.length ∧
            outcome (cfg'.threads 2) = some (.error .reload)) = true := by
      decide +kernel
    obtain ⟨first, hfirst, hmid⟩ := (Option.any_eq_true _ _).mp hrun
    obtain ⟨cfg, hcfg, hmid⟩ := (Option.any_eq_true _ _).mp hmid
    obtain ⟨hbegun, hkey, hlast⟩ := of_decide_eq_true hmid
    obtain ⟨cfg', hcfg', hlast⟩ := (Option.any_eq_true _ _).mp hlast
    obtain ⟨hrequests, hloads, hraised⟩ := of_decide_eq_true hlast
    have hreaches := (Machine.reaches_of_schedule _ hturn _ hfirst).trans
      ((reaches_requesting rfl first).trans (Machine.reaches_of_schedule _ hturn _ hcfg))
    have hstart : cfg.threads 2 = some (keyPy moduli "k") :=
      (threads_of_schedule _ (by decide) hcfg).trans (threads_of_schedule _ (by decide) hfirst)
    exact ⟨cfg, cfg', hreaches, hstart, hbegun, hkey, Machine.reaches_of_schedule _ hturn _ hcfg',
      hrequests, hloads,
      raise_of_outcome hraised⟩
  · have hrun : ((schedule (answer .py present) (List.replicate 3 0) (initial moduli .py (fun _ => "k") 0 0)).any
        fun first => (schedule (answer .py present) (List.replicate 5 0) (requesting first)).any fun cfg =>
          cfg.state.requests = 1 ∧ (schedule (answer .py present) (List.replicate 4 1) cfg).any fun cfg' =>
            cfg'.state.state.covered = 0 ∧ outcome (cfg'.threads 1) = some (.ok "m")) = true := by
      decide +kernel
    obtain ⟨first, hfirst, hmid⟩ := (Option.any_eq_true _ _).mp hrun
    obtain ⟨cfg, hcfg, hmid⟩ := (Option.any_eq_true _ _).mp hmid
    obtain ⟨hrequests, hlast⟩ := of_decide_eq_true hmid
    obtain ⟨cfg', hcfg', hlast⟩ := (Option.any_eq_true _ _).mp hlast
    obtain ⟨hcovered, hended⟩ := of_decide_eq_true hlast
    have hreaches := (Machine.reaches_of_schedule _ hturn _ hfirst).trans
      ((reaches_requesting rfl first).trans (Machine.reaches_of_schedule _ hturn _ hcfg))
    have hstart : cfg.threads 1 = some (keyPy moduli "k") :=
      (threads_of_schedule _ (by decide) hcfg).trans (threads_of_schedule _ (by decide) hfirst)
    refine ⟨cfg, cfg', hreaches, hstart, Machine.reaches_of_schedule _ hturn _ hcfg', ret_of_outcome hended, ?_⟩
    rw [hcovered, hrequests]
    exact Nat.one_pos
  · -- The second lookup has read the clock at 0, the third one has the file read at 100 seconds.
    have hrun : ((schedule (answer .rs present) (List.replicate 11 0 ++ [1]) (initial moduli .rs kids 0 0)).any
        fun first => first.state.clock ≤ 100000000000 ∧
          (schedule (answer .rs present) (List.replicate 16 2) (ticking 100000000000 first)).any fun second =>
            second.state.clock ≤ 101000000000 ∧
            (schedule (answer .rs present) (List.replicate 14 1 ++ List.replicate 16 3)
              (ticking 101000000000 (requesting second))).any fun cfg =>
                cfg.state.state.unknownReads = [100000000000, 101000000000]) = true := by
      decide +kernel
    obtain ⟨first, hfirst, hmid⟩ := (Option.any_eq_true _ _).mp hrun
    obtain ⟨hclock, hmid⟩ := of_decide_eq_true hmid
    obtain ⟨second, hsecond, hlast⟩ := (Option.any_eq_true _ _).mp hmid
    obtain ⟨hclock', hlast⟩ := of_decide_eq_true hlast
    obtain ⟨cfg, hcfg, hreads⟩ := (Option.any_eq_true _ _).mp hlast
    have hreaches := (Machine.reaches_of_schedule _ hturn _ hfirst).trans
      ((reaches_ticking rfl hclock).trans (Machine.reaches_of_schedule _ hturn _ hsecond))
    refine ⟨cfg, hreaches.trans ((reaches_requesting rfl second).trans ((reaches_ticking rfl ?_).trans
      (Machine.reaches_of_schedule _ hturn _ hcfg))), ?_⟩
    · exact hclock'
    · rw [of_decide_eq_true hreads]
      intro hspaced
      exact absurd (List.rel_of_pairwise_cons hspaced (List.mem_singleton_self _)) (by decide)

end RetailSegmentation.JwksStore
