import Mathlib.Data.Rat.Defs
import RetailSegmentation.ContentHistory
import RetailSegmentation.KitErrors
import RetailSegmentation.ProgramInterference

/-! The store directory of stores-service and its copy in Redis (`services/stores/src/lib.rs`): reads go
through the copy, changes of a location delete it, and so does every event of the stream. -/

namespace RetailSegmentation.StoreDirectory

open Program

/-- A row of `public.store` joined to its location; times are microseconds. -/
structure StoreRecord where
  storeId : ℤ
  name : String
  city : String
  state : String
  isActive : Bool
  latitude : Option ℚ
  longitude : Option ℚ
  geofenceRadius : Option ℤ
  setAt : Option ℤ
  deriving DecidableEq, Repr

abbrev Directory := List StoreRecord

structure Location where
  latitude : ℚ
  longitude : ℚ
  radius : ℤ
  deriving DecidableEq, Repr

inductive Command where
  | cacheGet
  | cachePut (stores : Directory)
  | cacheDel
  | readDirectory
  | selectStore (id : ℤ)
  | upsertLocation (id : ℤ) (location : Location) (setBy : String)
  | deleteLocation (id : ℤ)
  | selectRecord (id : ℤ)
  | commit
  | nextEvent
  deriving DecidableEq, Repr

/-- A failure of Redis is a miss (`get`), nothing (`put`), or `false` (`invalidate`). -/
abbrev Reply : Command → Type
  | .cacheGet => Option Directory
  | .cachePut _ => Unit
  | .cacheDel => Bool
  | .readDirectory => Except ApiError Directory
  | .selectStore _ => Except ApiError Bool
  | .upsertLocation _ _ _ => Except ApiError Unit
  | .deleteLocation _ => Except ApiError Unit
  | .selectRecord _ => Except ApiError StoreRecord
  | .commit => Except ApiError Unit
  | .nextEvent => Unit

abbrev StoresProg (α : Type) := Prog Command Reply ApiError α

/-- `?`. -/
def orReturn {α : Type} : Except ApiError α → StoresProg α
  | .ok a => .ret a
  | .error e => .raise e

def storeNotFound : ApiError := ⟨404, "store_not_found", "The store does not exist.", []⟩

def invalidToken : ApiError := ⟨401, "invalid_token", "The bearer token is invalid.", []⟩

/-- `cached_directory`, of a process that has a cache or has none. -/
def cachedDirectory (cache : Bool) : StoresProg Directory :=
  if cache then do
    match ← Prog.send Command.cacheGet with
    | some stores => return stores
    | none =>
      let stores ← orReturn (← Prog.send Command.readDirectory)
      Prog.send (Command.cachePut stores)
      return stores
  else do
    orReturn (← Prog.send Command.readDirectory)

/-- `set_location`; the subject of the actor's token is a UUID, or not. -/
def setLocation (actor : Option String) (id : ℤ) (location : Location) : StoresProg StoreRecord :=
  match actor with
  | none => .raise invalidToken
  | some setBy => do
    let found ← orReturn (← Prog.send (Command.selectStore id))
    if found then
      orReturn (← Prog.send (Command.upsertLocation id location setBy))
      let store ← orReturn (← Prog.send (Command.selectRecord id))
      orReturn (← Prog.send Command.commit)
      return store
    else .raise storeNotFound

/-- `if let Some(cache) = CACHE.get() { let _ = cache.invalidate().await; }` -/
def invalidate (cache : Bool) : StoresProg Unit :=
  if cache then do
    let _ ← Prog.send Command.cacheDel
    return ()
  else return ()

def putStoreLocation (cache : Bool) (actor : Option String) (id : ℤ) (location : Location) :
    StoresProg StoreRecord := do
  let store ← setLocation actor id location
  invalidate cache
  return store

def clearLocation (id : ℤ) : StoresProg Unit := do
  let found ← orReturn (← Prog.send (Command.selectStore id))
  if found then
    orReturn (← Prog.send (Command.deleteLocation id))
    orReturn (← Prog.send Command.commit)
  else .raise storeNotFound

def deleteStoreLocation (cache : Bool) (id : ℤ) : StoresProg Unit := do
  clearLocation id
  invalidate cache

/-- What the consumer of the stream does with an event, and whether it is done with it. -/
def handleEvent (cache : Bool) : StoresProg Bool := do
  Prog.send Command.nextEvent
  if cache then Prog.send Command.cacheDel else return true

/-! ### The service's processes -/

/-- A request, or an event of the stream. -/
inductive Task where
  | read
  | put (actor : Option String) (id : ℤ) (location : Location)
  | delete (id : ℤ)
  | event
  deriving DecidableEq, Repr

inductive Answer where
  | directory (stores : Directory)
  | store (record : StoreRecord)
  | handled (done : Bool)
  | nothing
  deriving DecidableEq, Repr

def Task.prog (cache : Bool) : Task → StoresProg Answer
  | .read => do return .directory (← cachedDirectory cache)
  | .put actor id location => do return .store (← putStoreLocation cache actor id location)
  | .delete id => do
    deleteStoreLocation cache id
    return .nothing
  | .event => do return .handled (← handleEvent cache)

/-! ### PostgreSQL and Redis -/

/-- The directory with a location set, at a time, or cleared. -/
def Location.set (id : ℤ) (location : Location) (at_ : ℤ) (stores : Directory) : Directory :=
  stores.map fun store => if store.storeId = id then
    { store with
      latitude := some location.latitude
      longitude := some location.longitude
      geofenceRadius := some location.radius
      setAt := some at_ }
    else store

def clear (id : ℤ) (stores : Directory) : Directory :=
  stores.map fun store => if store.storeId = id then
    { store with latitude := none, longitude := none, geofenceRadius := none, setAt := none } else store

/-- The committed directories, the copy, what each transaction is about to commit; and of the past: the
directory each task has read last, by its place in the history, the change that its invalidation follows, and
the latest change that an answered invalidation has followed. -/
structure World (T : Type) where
  history : History Directory
  copy : Option Directory
  pending : T → Directory → Directory
  seen : T → ℕ
  follows : T → ℕ
  invalidated : ℕ

section Machine

variable {T : Type} [DecidableEq T]

/-- What a command may be answered with. Redis may fail at every command, and PostgreSQL refuse every statement. -/
inductive Answers (t : T) : (c : Command) → World T → Reply c → World T → Prop where
  | hit {w : World T} {stores : Directory} (hcopy : w.copy = some stores) : Answers t .cacheGet w (some stores) w
  | miss {w : World T} : Answers t .cacheGet w none w
  | put {w : World T} {stores : Directory} : Answers t (.cachePut stores) w () { w with copy := some stores }
  | putFailed {w : World T} {stores : Directory} : Answers t (.cachePut stores) w () w
  | del {w : World T} :
      Answers t .cacheDel w true { w with copy := none, invalidated := max w.invalidated (w.follows t) }
  | delFailed {w : World T} : Answers t .cacheDel w false w
  | delUnanswered {w : World T} : Answers t .cacheDel w false { w with copy := none }
  | readDirectory {w : World T} : Answers t .readDirectory w (.ok w.history.last)
      { w with seen := Function.update w.seen t w.history.count }
  | readRefused {w : World T} {e : ApiError} : Answers t .readDirectory w (.error e) w
  | selectStore {w : World T} {id : ℤ} :
      Answers t (.selectStore id) w (.ok (w.history.last.any fun store => store.storeId = id)) w
  | selectRefused {w : World T} {id : ℤ} {e : ApiError} : Answers t (.selectStore id) w (.error e) w
  | upsert {w : World T} {id : ℤ} {location : Location} {setBy : String} (at_ : ℤ) :
      Answers t (.upsertLocation id location setBy) w (.ok ())
        { w with pending := Function.update w.pending t (location.set id at_) }
  | upsertRefused {w : World T} {id : ℤ} {location : Location} {setBy : String} {e : ApiError} :
      Answers t (.upsertLocation id location setBy) w (.error e) w
  | delete {w : World T} {id : ℤ} :
      Answers t (.deleteLocation id) w (.ok ()) { w with pending := Function.update w.pending t (clear id) }
  | deleteRefused {w : World T} {id : ℤ} {e : ApiError} : Answers t (.deleteLocation id) w (.error e) w
  | selectRecord {w : World T} {id : ℤ} {store : StoreRecord}
      (hfound : (w.pending t w.history.last).find? (fun store => store.storeId = id) = some store) :
      Answers t (.selectRecord id) w (.ok store) w
  | selectRecordRefused {w : World T} {id : ℤ} {e : ApiError} : Answers t (.selectRecord id) w (.error e) w
  | commit {w : World T} : Answers t .commit w (.ok ())
      { w with
        history := w.history.commit (w.pending t w.history.last)
        follows := Function.update w.follows t (w.history.count + 1) }
  | commitRefused {w : World T} {e : ApiError} : Answers t .commit w (.error e) w
  | nextEvent {w : World T} {change : ℕ} (hchange : change ≤ w.history.count) :
      Answers t .nextEvent w () { w with follows := Function.update w.follows t change }

/-- Meanwhile another writer of the stores commits, or the copy expires. -/
inductive Meanwhile : World T → World T → Prop where
  | changed {w : World T} (stores : Directory) : Meanwhile w { w with history := w.history.commit stores }
  | expired {w : World T} : Meanwhile w { w with copy := none }

def machine : Machine T Command Reply (World T) where
  step := Answers
  env := Meanwhile
  halt _ w w' := w' = w

/-- A directory is put in the cache only if it has seen every change that an answered invalidation has followed. -/
def Timely (t : T) (c : Command) (w : World T) : Prop := ∀ stores, c = .cachePut stores → w.invalidated ≤ w.seen t

end Machine

/-! ### What the tasks keep -/

section Contract

variable {T : Type} [DecidableEq T]

/-- Where a task is: not reading, or reading since an invalidation, with or without a directory read from
PostgreSQL. -/
inductive Point where
  | any
  | reading (change : ℕ)
  | queried (change : ℕ) (stores : Directory)
  | answered (change : ℕ) (stores : Directory)

/-- The copy has seen every change whose invalidation was answered; and these changes have been committed. -/
structure Sound (w : World T) : Prop where
  fresh : ∀ stores, w.copy = some stores → w.history.Since w.invalidated stores
  follows : ∀ t, w.follows t ≤ w.history.count
  invalidated : w.invalidated ≤ w.history.count

def At (t : T) : Point → World T → Prop
  | .any, _ => True
  | .reading change, w => change ≤ w.invalidated
  | .queried change stores, w => w.history.Since change stores ∧ w.history.content (w.seen t) = some stores
  | .answered change stores, w => w.history.Since change stores

def contract (T : Type) : Contract T Command Reply (World T) Point where
  inv := Sound
  at_ := At
  guar _ _ _ _ _ := True

/-- As far as one task is concerned, the world has only moved on. -/
structure Extends (t : T) (w w' : World T) : Prop where
  seen : w'.seen t = w.seen t
  content : ∀ n stores, w.history.content n = some stores → w'.history.content n = some stores
  invalidated : w.invalidated ≤ w'.invalidated

variable {t : T} {w w' : World T}

omit [DecidableEq T] in
theorem Extends.refl (t : T) (w : World T) : Extends t w w := ⟨rfl, fun _ _ h => h, Nat.le_refl _⟩

omit [DecidableEq T] in
theorem Extends.at_ (h : Extends t w w') {point : Point} (hat : At t point w) : At t point w' := by
  cases point with
  | any => trivial
  | reading change => exact Nat.le_trans hat h.invalidated
  | queried change stores => exact ⟨hat.1.extend h.content, by rw [h.seen]; exact h.content _ _ hat.2⟩
  | answered change stores => exact hat.extend h.content

theorem keeps {c : Command} {r : Reply c} (hinv : Sound w) (hstep : (machine.guard Timely).step t c w r w')
    (hput : ∀ stores, c = .cachePut stores → w.history.content (w.seen t) = some stores) :
    (contract T).Keeps t w w' := by
  obtain ⟨htimely, hstep⟩ := hstep
  change Answers t c w r w' at hstep
  have hothers : ∀ w', (∀ u, u ≠ t → Extends u w w') → Sound w' → (contract T).Keeps t w w' :=
    fun w' hextends hsound =>
    ⟨hsound, fun u hu _ hat => (hextends u hu).at_ hat⟩
  cases hstep with
  | hit hcopy => exact hothers _ (fun u _ => .refl u w) hinv
  | miss => exact hothers _ (fun u _ => .refl u w) hinv
  | @put _ stores =>
      refine hothers _ (fun u _ => ⟨rfl, fun _ _ h => h, Nat.le_refl _⟩) ⟨fun stores' hstores => ?_,
        hinv.follows, hinv.invalidated⟩
      obtain rfl := Option.some.inj hstores
      exact ⟨_, htimely _ rfl, hput _ rfl⟩
  | putFailed => exact hothers _ (fun u _ => .refl u w) hinv
  | del =>
      refine hothers _ (fun u _ => ⟨rfl, fun _ _ h => h, Nat.le_max_left _ _⟩) ⟨nofun, hinv.follows, ?_⟩
      exact Nat.max_le.mpr ⟨hinv.invalidated, hinv.follows t⟩
  | delFailed => exact hothers _ (fun u _ => .refl u w) hinv
  | delUnanswered =>
      exact hothers _ (fun u _ => ⟨rfl, fun _ _ h => h, Nat.le_refl _⟩) ⟨nofun, hinv.follows, hinv.invalidated⟩
  | readDirectory =>
      exact hothers _ (fun u hu => ⟨Function.update_of_ne hu _ _, fun _ _ h => h, Nat.le_refl _⟩)
        ⟨hinv.fresh, hinv.follows, hinv.invalidated⟩
  | readRefused => exact hothers _ (fun u _ => .refl u w) hinv
  | selectStore => exact hothers _ (fun u _ => .refl u w) hinv
  | selectRefused => exact hothers _ (fun u _ => .refl u w) hinv
  | upsert at_ =>
      exact hothers _ (fun u _ => ⟨rfl, fun _ _ h => h, Nat.le_refl _⟩) ⟨hinv.fresh, hinv.follows,
        hinv.invalidated⟩
  | upsertRefused => exact hothers _ (fun u _ => .refl u w) hinv
  | delete => exact hothers _ (fun u _ => ⟨rfl, fun _ _ h => h, Nat.le_refl _⟩) ⟨hinv.fresh, hinv.follows, hinv.invalidated⟩
  | deleteRefused => exact hothers _ (fun u _ => .refl u w) hinv
  | selectRecord => exact hothers _ (fun u _ => .refl u w) hinv
  | selectRecordRefused => exact hothers _ (fun u _ => .refl u w) hinv
  | commit =>
      refine hothers _ (fun u _ => ⟨rfl, fun _ _ h => History.content_commit h _, Nat.le_refl _⟩)
        ⟨fun stores hcopy => (hinv.fresh stores hcopy).commit _, fun u => ?_, ?_⟩
      · rw [History.count_commit]
        by_cases hut : u = t
        · subst hut
          exact (Function.update_self u _ _).le
        · exact (Function.update_of_ne hut _ _).le.trans (Nat.le_succ_of_le (hinv.follows u))
      · rw [History.count_commit]
        exact Nat.le_succ_of_le hinv.invalidated
  | commitRefused => exact hothers _ (fun u _ => .refl u w) hinv
  | @nextEvent _ change hchange =>
      refine hothers _ (fun u _ => ⟨rfl, fun _ _ h => h, Nat.le_refl _⟩) ⟨hinv.fresh, fun u => ?_,
        hinv.invalidated⟩
      by_cases hut : u = t
      · subst hut
        exact (Function.update_self u _ _).le.trans hchange
      · exact (Function.update_of_ne hut _ _).le.trans (hinv.follows u)

theorem get_spec (change : ℕ) : (contract T).CmdSpec (machine.guard Timely) t .cacheGet (.reading change)
    fun r point => r.elim (point = .reading change) fun stores => point = .answered change stores := by
  intro w r w' hinv hat hstep
  have hkeeps := keeps hinv hstep nofun
  obtain ⟨-, hstep⟩ := hstep
  change Answers t .cacheGet w r w' at hstep
  cases hstep with
  | hit hcopy => exact ⟨trivial, hkeeps, .answered change _, (hinv.fresh _ hcopy).mono hat, rfl⟩
  | miss => exact ⟨trivial, hkeeps, .reading change, hat, rfl⟩

theorem readDirectory_spec (change : ℕ) : (contract T).CmdSpec (machine.guard Timely) t .readDirectory (.reading change)
    fun r point => ∀ stores, r = .ok stores → point = .queried change stores := by
  intro w r w' hinv hat hstep
  have hkeeps := keeps hinv hstep nofun
  obtain ⟨-, hstep⟩ := hstep
  change Answers t .readDirectory w r w' at hstep
  cases hstep with
  | readDirectory =>
      refine ⟨trivial, hkeeps, .queried change w.history.last,
        ⟨History.since_last (Nat.le_trans hat hinv.invalidated), ?_⟩, ?_⟩
      · change w.history.content (Function.update w.seen t w.history.count t) = some w.history.last
        rw [Function.update_self]
        exact w.history.content_count
      · intro stores hstores
        rw [Except.ok.inj hstores]
  | readRefused => exact ⟨trivial, hkeeps, .any, trivial, nofun⟩

theorem put_spec (change : ℕ) (stores : Directory) :
    (contract T).CmdSpec (machine.guard Timely) t (.cachePut stores)
    (.queried change stores) fun _ point => point = .answered change stores := by
  intro w r w' hinv hat hstep
  have hkeeps := keeps hinv hstep fun stores' hstores => by
    obtain rfl := Command.cachePut.inj hstores
    exact hat.2
  obtain ⟨-, hstep⟩ := hstep
  change Answers t (.cachePut stores) w r w' at hstep
  refine ⟨trivial, hkeeps, .answered change stores, ?_, rfl⟩
  cases hstep with
  | put => exact hat.1
  | putFailed => exact hat.1

def Holds (change : ℕ) (stores : Directory) (point : Point) : Prop :=
  point = .queried change stores ∨ point = .answered change stores

theorem cachedDirectory_safe (cache : Bool) (change : ℕ) :
    (contract T).Safe (machine.guard Timely) t (cachedDirectory cache) (.reading change)
      (Contract.Ends (Holds change) fun _ _ => True) := by
  have hquery : ∀ (r : Except ApiError Directory) point,
    (∀ stores, r = .ok stores → point = .queried change stores) →
      (contract T).Safe (machine.guard Timely) t (orReturn r) point
        (Contract.Ends (fun stores point => point = .queried change stores) fun _ _ => True) := by
    intro r point hr
    cases r with
    | ok stores => exact hr stores rfl
    | error e => trivial
  unfold cachedDirectory
  simp only [Prog.send_bind]
  cases cache with
  | true =>
      refine (get_spec change).mono fun r point hpoint => ?_
      cases r with
      | some stores => exact .inr hpoint
      | none =>
          obtain rfl : point = .reading change := hpoint
          refine (readDirectory_spec change).mono fun r point hr => Contract.safe_seq (hquery r point hr) ?_
          rintro stores point rfl
          exact (put_spec change stores).mono fun _ _ hpoint => .inr hpoint
  | false =>
      refine (readDirectory_spec change).mono fun r point hr => (hquery r point hr).mono ?_
      rintro (e | stores) point h
      · trivial
      · exact .inl h

def Quiet (c : Command) : Prop := ∀ stores, c ≠ .cachePut stores

theorem safe_of_quiet {α : Type} {p : StoresProg α} (hp : p.Issues Quiet) :
    (contract T).Safe (machine.guard Timely) t p .any fun _ _ => True := by
  induction p with
  | ret a => trivial
  | raise e => trivial
  | call c k ih =>
      intro w r w' hinv _ hstep
      exact ⟨trivial, keeps hinv hstep fun stores hc => absurd hc (hp.1 stores), .any, trivial, ih r (hp.2 r)⟩

theorem orReturn_quiet {α : Type} (r : Except ApiError α) : (orReturn r).Issues Quiet := by
  cases r <;> trivial

theorem send_quiet {c : Command} (hc : Quiet c) : (Prog.send c : StoresProg (Reply c)).Issues Quiet :=
  ⟨hc, fun _ => trivial⟩

theorem setLocation_quiet (actor : Option String) (id : ℤ) (location : Location) :
    (setLocation actor id location).Issues Quiet := by
  cases actor with
  | none => trivial
  | some setBy =>
      refine (send_quiet (c := .selectStore id) nofun).bind fun r => (orReturn_quiet r).bind fun found => ?_
      split
      · refine (send_quiet (c := .upsertLocation id location setBy) nofun).bind fun r =>
          (orReturn_quiet r).bind fun _ => ?_
        refine (send_quiet (c := .selectRecord id) nofun).bind fun r => (orReturn_quiet r).bind fun store => ?_
        exact (send_quiet (c := .commit) nofun).bind fun r => (orReturn_quiet r).bind fun _ => trivial
      · trivial

theorem clearLocation_quiet (id : ℤ) : (clearLocation id).Issues Quiet := by
  refine (send_quiet (c := .selectStore id) nofun).bind fun r => (orReturn_quiet r).bind fun found => ?_
  split
  · refine (send_quiet (c := .deleteLocation id) nofun).bind fun r => (orReturn_quiet r).bind fun _ => ?_
    exact (send_quiet (c := .commit) nofun).bind fun r => orReturn_quiet r
  · trivial

theorem invalidate_quiet (cache : Bool) : (invalidate cache).Issues Quiet := by
  cases cache with
  | true => exact (send_quiet (c := .cacheDel) nofun).bind fun _ => trivial
  | false => trivial

theorem Task.prog_safe (cache : Bool) (task : Task) :
    ∃ point, At t point w ∧ (contract T).Safe (machine.guard Timely) t (task.prog cache) point fun _ _ => True := by
  cases task with
  | read =>
      refine ⟨.reading 0, Nat.zero_le _, Contract.safe_bind.mpr ((cachedDirectory_safe cache 0).mono ?_)⟩
      rintro (e | stores) point - <;> trivial
  | put actor id location =>
      refine ⟨.any, trivial, safe_of_quiet (.bind (.bind (setLocation_quiet actor id location) fun store => ?_) fun _ => trivial)⟩
      exact (invalidate_quiet cache).bind fun _ => trivial
  | delete id =>
      refine ⟨.any, trivial, safe_of_quiet (.bind (.bind (clearLocation_quiet id) fun _ => ?_) fun _ => trivial)⟩
      exact invalidate_quiet cache
  | event =>
      refine ⟨.any, trivial, safe_of_quiet (.bind ((send_quiet (c := .nextEvent) nofun).bind fun _ => ?_) fun _ => trivial)⟩
      cases cache with
      | true => exact send_quiet (c := .cacheDel) nofun
      | false => trivial

omit [DecidableEq T] in
theorem Meanwhile.sound (hinv : Sound w) (h : Meanwhile w w') : Sound w' ∧ ∀ t, Extends t w w' := by
  cases h with
  | changed stores =>
      refine ⟨⟨fun copy hcopy => (hinv.fresh copy hcopy).commit _, fun t => ?_, ?_⟩, fun t =>
        ⟨rfl, fun _ _ hn => History.content_commit hn _, Nat.le_refl _⟩⟩
      · rw [History.count_commit]
        exact Nat.le_succ_of_le (hinv.follows t)
      · rw [History.count_commit]
        exact Nat.le_succ_of_le hinv.invalidated
  | expired => exact ⟨⟨nofun, hinv.follows, hinv.invalidated⟩, fun t => ⟨rfl, fun _ _ hn => hn, Nat.le_refl _⟩⟩

theorem closed : (contract T).Closed (machine.guard Timely) where
  env w w' hinv henv := by
    obtain ⟨hsound, hextends⟩ := Meanwhile.sound hinv henv
    exact ⟨hsound, fun t _ hat => (hextends t).at_ hat⟩
  halt t w w' hinv hhalt := by
    obtain rfl : w' = w := hhalt
    exact ⟨hinv, fun _ _ _ hat => hat⟩

end Contract

/-! ### Every run -/

section Runs

variable {T : Type} [DecidableEq T]

abbrev StoresConfig (T : Type) := Config T Command Reply ApiError Answer (World T)

def initial (cache : T → Bool) (task : T → Task) (stores : Directory) : StoresConfig T :=
  .initial (fun t => (task t).prog (cache t)) ⟨⟨stores, []⟩, none, fun _ => id, fun _ => 0, fun _ => 0, 0⟩

omit [DecidableEq T] in
theorem sound_initial {stores : Directory} :
    Sound (⟨⟨stores, []⟩, none, fun _ => id, fun _ => 0, fun _ => 0, 0⟩ : World T) :=
  ⟨nofun, fun _ => Nat.le_refl 0, Nat.le_refl 0⟩

/-- **Directory reads.** If no directory is put in the cache after the answered invalidation of a change it
has not seen, a read that starts when an invalidation has been answered returns a directory that has seen the
change before it. -/
theorem directory_since (cache : T → Bool) (task : T → Task) (start : Directory) {cfg cfg' : StoresConfig T}
    (hrun : (machine.guard Timely).Reaches (initial cache task start) cfg) {t : T} (htask : task t = .read)
    (hstart : cfg.threads t = some ((task t).prog (cache t))) (hlater : (machine.guard Timely).Reaches cfg cfg')
    {stores : Directory} (hread : cfg'.threads t = some (.ret (.directory stores))) :
    cfg'.state.history.Since cfg.state.invalidated stores := by
  have hgood : (contract T).Good (machine.guard Timely) (fun _ _ _ => True) cfg :=
    Contract.Good.reaches closed (Contract.Good.initial sound_initial fun t => (task t).prog_safe (cache t)) hrun
  have hsafe : (contract T).Safe (machine.guard Timely) t ((task t).prog (cache t))
    (.reading cfg.state.invalidated)
      (Contract.Ends (fun answer point => ∀ stores, answer = .directory stores →
        Holds cfg.state.invalidated stores point) fun _ _ => True) := by
    rw [htask]
    refine Contract.safe_seq (cachedDirectory_safe (cache t) cfg.state.invalidated) fun stores point hholds => ?_
    rintro stores' hstores
    rwa [← Answer.directory.inj hstores]
  have hat : (contract T).at_ t (.reading cfg.state.invalidated) cfg.state := Nat.le_refl cfg.state.invalidated
  have hfollowed := (hgood.follow hstart hat hsafe).reaches closed hlater
  obtain ⟨point, hat, hends⟩ := hfollowed.ended hread
  rw [Function.update_self] at hends
  rcases hends stores rfl with rfl | rfl
  · exact hat.1
  · exact hat

end Runs

/-! ### A slow read -/

/-- Redis and PostgreSQL when nothing fails. -/
def answer {T : Type} [DecidableEq T] (t : T) : (c : Command) → World T → Option (Reply c × World T)
  | .cacheGet, w => some (w.copy, w)
  | .cachePut stores, w => some ((), { w with copy := some stores })
  | .cacheDel, w => some (true, { w with copy := none, invalidated := max w.invalidated (w.follows t) })
  | .readDirectory, w => some (.ok w.history.last, { w with seen := Function.update w.seen t w.history.count })
  | .selectStore id, w => some (.ok (w.history.last.any fun store => store.storeId = id), w)
  | .deleteLocation id, w => some (.ok (), { w with pending := Function.update w.pending t (clear id) })
  | .commit, w => some (.ok (), { w with
      history := w.history.commit (w.pending t w.history.last)
      follows := Function.update w.follows t (w.history.count + 1) })
  | _, _ => none

theorem step_of_answer {T : Type} [DecidableEq T] {t : T} {c : Command} {r : Reply c} {w w' : World T}
    (h : answer t c w = some (r, w')) : machine.step t c w r w' := by
  cases c with
  | cacheGet =>
      obtain ⟨hr, rfl⟩ := Prod.mk.inj (Option.some.inj h)
      cases r with
      | none => exact .miss
      | some stores => exact .hit hr
  | cachePut stores =>
      obtain ⟨rfl, rfl⟩ := Prod.mk.inj (Option.some.inj h)
      exact .put
  | cacheDel =>
      obtain ⟨rfl, rfl⟩ := Prod.mk.inj (Option.some.inj h)
      exact .del
  | readDirectory =>
      obtain ⟨rfl, rfl⟩ := Prod.mk.inj (Option.some.inj h)
      exact .readDirectory
  | selectStore id =>
      obtain ⟨rfl, rfl⟩ := Prod.mk.inj (Option.some.inj h)
      exact .selectStore
  | deleteLocation id =>
      obtain ⟨rfl, rfl⟩ := Prod.mk.inj (Option.some.inj h)
      exact .delete
  | commit =>
      obtain ⟨rfl, rfl⟩ := Prod.mk.inj (Option.some.inj h)
      exact .commit
  | upsertLocation id location setBy => cases h
  | selectRecord id => cases h
  | nextEvent => cases h

def Command.fills : Command → Bool
  | .cachePut _ => true
  | _ => false

/-- The same, where a directory is only put in the cache in time. -/
def timelyAnswer (t : Fin 3) (c : Command) (w : World (Fin 3)) : Option (Reply c × World (Fin 3)) :=
  if w.invalidated ≤ w.seen t ∨ c.fills = false then answer t c w else none

theorem step_of_timelyAnswer {t : Fin 3} {c : Command} {r : Reply c} {w w' : World (Fin 3)}
    (h : timelyAnswer t c w = some (r, w')) : (machine.guard Timely).step t c w r w' := by
  unfold timelyAnswer at h
  split_ifs at h with htimely
  refine ⟨fun stores hc => ?_, step_of_answer h⟩
  subst hc
  exact htimely.resolve_right nofun

/-- Two reads, and a location that is cleared. -/
def tasks (t : Fin 3) : Task := if t.val = 1 then .delete 1 else .read

def placed : StoreRecord := ⟨1, "Centro", "Lima", "LIM", true, some 12, some 77, some 50, some 0⟩

/-- The first read is over before the change; the second one, after it, sees it. -/
theorem directory_since_clear : ∃ cfg cfg' : StoresConfig (Fin 3), ∃ stores,
    (machine.guard Timely).Reaches (initial (fun _ => true) tasks [placed]) cfg ∧ cfg.state.invalidated = 1 ∧
    (machine.guard Timely).Reaches cfg cfg' ∧ cfg'.threads 2 = some (.ret (.directory stores)) ∧
    cfg'.state.history.Since 1 stores := by
  have hrun : ((schedule timelyAnswer [0, 0, 0, 1, 1, 1, 1] (initial (fun _ => true) tasks [placed])).any fun cfg =>
      cfg.state.invalidated = 1 ∧ (schedule timelyAnswer [2, 2, 2] cfg).any fun cfg' =>
        outcome (cfg'.threads 2) = some (.ok (.directory (clear 1 [placed])))) = true := by
    decide +kernel
  obtain ⟨cfg, hcfg, hmid⟩ := (Option.any_eq_true _ _).mp hrun
  obtain ⟨hinvalidated, hlast⟩ := of_decide_eq_true hmid
  obtain ⟨cfg', hcfg', hended⟩ := (Option.any_eq_true _ _).mp hlast
  have hturn : ∀ t c (w : World (Fin 3)) r w', timelyAnswer t c w = some (r, w') →
    (machine.guard Timely).step t c w r w' :=
    fun _ _ _ _ _ h => step_of_timelyAnswer h
  have hread := ret_of_outcome (of_decide_eq_true hended)
  have hreaches := Machine.reaches_of_schedule _ hturn _ hcfg
  have hlater := Machine.reaches_of_schedule _ hturn _ hcfg'
  refine ⟨cfg, cfg', _, hreaches, hinvalidated, hlater, hread, ?_⟩
  have hstart : cfg.threads 2 = some ((tasks 2).prog true) := threads_of_schedule _ (by decide) hcfg
  have hsince := directory_since (fun _ => true) tasks [placed] hreaches rfl hstart hlater hread
  rwa [hinvalidated] at hsince

/-- The first read puts its directory in the cache after the change and its invalidation, and the second one, later
still, returns it. -/
theorem directory_stale : ∃ cfg cfg' : StoresConfig (Fin 3), ∃ stores,
    machine.Reaches (initial (fun _ => true) tasks [placed]) cfg ∧ cfg.threads 2 = some ((tasks 2).prog true) ∧
    machine.Reaches cfg cfg' ∧ cfg'.threads 2 = some (.ret (.directory stores)) ∧
    ¬ cfg'.state.history.Since cfg.state.invalidated stores := by
  have hrun : ((schedule answer [0, 0, 1, 1, 1, 1] (initial (fun _ => true) tasks [placed])).any fun cfg =>
      (schedule answer [0, 2] cfg).any fun cfg' => outcome (cfg'.threads 2) = some (.ok (.directory [placed])) ∧
        ¬ cfg'.state.history.Since cfg.state.invalidated [placed]) = true := by
    decide +kernel
  obtain ⟨cfg, hcfg, hlast⟩ := (Option.any_eq_true _ _).mp hrun
  obtain ⟨cfg', hcfg', hends⟩ := (Option.any_eq_true _ _).mp hlast
  obtain ⟨hended, hstale⟩ := of_decide_eq_true hends
  have hturn : ∀ t c (w : World (Fin 3)) r w', answer t c w = some (r, w') → machine.step t c w r w' :=
    fun _ _ _ _ _ h => step_of_answer h
  exact ⟨cfg, cfg', _, Machine.reaches_of_schedule _ hturn _ hcfg, threads_of_schedule _ (by decide) hcfg,
    Machine.reaches_of_schedule _ hturn _ hcfg', ret_of_outcome hended, hstale⟩

end RetailSegmentation.StoreDirectory
