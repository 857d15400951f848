import Mathlib.Data.Int.Notation
import RetailSegmentation.KitErrors
import RetailSegmentation.ProgramInterference

/-! A password's change or reset (`changeUserPassword` of `services/users`): the current password is checked
against a read that takes no lock, and the row is locked later, in a transaction of its own. -/

namespace RetailSegmentation.Passwords

open Program

/-! ### The operation -/

/-- The caller, the account, and the body. -/
structure Request where
  sub : String
  role : String
  userId : String
  currentPassword : Option String
  newPassword : String
  deriving DecidableEq, Repr

/-- The account is the caller's own. -/
def Request.own (request : Request) : Bool := request.userId = request.sub

section Operation

variable (Hash : Type)

inductive Command where
  | getUser (id : String)
  | failures (id : String)
  | failuresTtl (id : String)
  | countFailure (id : String)
  | hashPassword (password : String)
  | setConfig (sub : String)
  | getUserForUpdate (id : String)
  | setPasswordHash (id : String) (passwordHash : Hash)
  | commit
  | rollback

/-- Replies of Redis are `none` where its client raises. -/
abbrev Reply : Command Hash → Type
  | .getUser _ => Except DbError (Option Hash)
  | .failures _ => Option ℕ
  | .failuresTtl _ => Option ℤ
  | .countFailure _ => Option Unit
  | .hashPassword _ => Hash
  | .setConfig _ => Except DbError Unit
  | .getUserForUpdate _ => Except DbError (Option Hash)
  | .setPasswordHash _ _ => Except DbError Unit
  | .commit => Except DbError Unit
  | .rollback => Unit

/-- An error, with the seconds of its `Retry-After` header if it has one. -/
inductive PasswordFailure where
  | api (error : ApiError) (retryAfter : Option ℤ)
  | database (error : DbError)
  deriving DecidableEq, Repr

abbrev PasswordProg (α : Type) := Prog (Command Hash) (Reply Hash) PasswordFailure α

def refuse {Hash α : Type} (error : ApiError) : PasswordProg Hash α := .raise (.api error none)

def unavailable : ApiError := ⟨503, "database_unavailable", "The service database is unavailable.", []⟩

/-- What leaves the kit's connection: an `OperationalError` as 503. -/
def kitFailure : DbError → PasswordFailure
  | .deadlockDetected => .api unavailable none
  | .serializationFailure => .api unavailable none
  | .operationalError => .api unavailable none
  | e => .database e

variable {Hash} {α : Type}

def orRaise : Except DbError α → PasswordProg Hash α
  | .ok a => .ret a
  | .error e => .raise (kitFailure e)

/-- `with kit.db.transaction()`. -/
def inTransaction (sub : String) (body : PasswordProg Hash α) : PasswordProg Hash α :=
  Prog.tryCatch
    (do
      orRaise (← Prog.send (Command.setConfig sub))
      let a ← body
      orRaise (← Prog.send Command.commit)
      return a)
    fun e => do
      Prog.send Command.rollback
      .raise e

def userNotFound : ApiError := ⟨404, "user_not_found", "The user does not exist.", []⟩

def forbiddenRole : ApiError :=
  ⟨403, "forbidden_role", "The authenticated role cannot perform this operation.", []⟩

def currentRequired : ApiError :=
  ⟨422, "invalid_body", "The request body violates its schema.", [⟨"current_password", "required"⟩]⟩

def rateLimited : ApiError := ⟨429, "rate_limited", "Too many failed current-password checks.", []⟩

def authUnavailable : ApiError := ⟨503, "auth_unavailable", "Session state is unavailable.", []⟩

def invalidCurrentPassword : ApiError :=
  ⟨422, "invalid_current_password", "The current password is incorrect.", [⟨"current_password", "incorrect"⟩]⟩

def passwordFailures : ℕ := 5

def passwordWindowSeconds : ℤ := 900

variable (verify : Hash → String → Bool)

/-- `_check_current_password`, against the hash that was read. -/
def checkCurrentPassword (id : String) (passwordHash : Hash) (current : String) : PasswordProg Hash Unit := do
  match ← Prog.send (Command.failures id) with
  | none => refuse authUnavailable
  | some failures =>
    if passwordFailures ≤ failures then
      match ← Prog.send (Command.failuresTtl id) with
      | none => refuse authUnavailable
      | some ttl => .raise (.api rateLimited (some (if 0 < ttl then ttl else passwordWindowSeconds)))
    else if verify passwordHash current then return ()
    else
      match ← Prog.send (Command.countFailure id) with
      | none => refuse authUnavailable
      | some () => refuse invalidCurrentPassword

/-- The row is locked again, and overwritten. -/
def replace (id : String) (passwordHash : Hash) : PasswordProg Hash Unit := do
  match ← orRaise (← Prog.send (Command.getUserForUpdate id)) with
  | none => refuse userNotFound
  | some _ => orRaise (← Prog.send (Command.setPasswordHash id passwordHash))

def admin : String := "ADMIN"

def changeUserPassword (request : Request) : PasswordProg Hash Unit :=
  if ¬ request.own ∧ request.role ≠ admin then refuse forbiddenRole
  else if request.own ∧ request.currentPassword = none then refuse currentRequired
  else do
    match ← orRaise (← Prog.send (Command.getUser request.userId)) with
    | none => refuse userNotFound
    | some passwordHash =>
      match request.own, request.currentPassword with
      | true, some current => checkCurrentPassword verify request.userId passwordHash current
      | _, _ => .ret ()
      let passwordHash ← Prog.send (Command.hashPassword request.newPassword)
      inTransaction request.sub (replace request.userId passwordHash)

end Operation

/-! ### The accounts -/

/-- A password that was replaced: by whom, if by one of the calls, whose, and what was overwritten with what. -/
structure Change (T Hash : Type) where
  author : Option T
  userId : String
  overwritten : Option Hash
  written : Hash
  deriving DecidableEq, Repr

/-- The committed hashes, who holds which row, what each transaction has written, the changes committed, and
how many of them there were when each call read an account. -/
structure World (T Hash : Type) where
  hashes : String → Option Hash
  holder : String → Option T
  written : T → Option (String × Hash)
  changes : List (Change T Hash)
  read : T → ℕ

section Machine

variable {T Hash : Type} [DecidableEq T]

/-- No other transaction holds the row. -/
def World.Free (w : World T Hash) (t : T) (id : String) : Prop := w.holder id = none ∨ w.holder id = some t

def World.hold (w : World T Hash) (t : T) (id : String) : World T Hash :=
  { w with holder := Function.update w.holder id (some t) }

def World.rollback (w : World T Hash) (t : T) : World T Hash :=
  { w with
    holder := fun id => if w.holder id = some t then none else w.holder id
    written := Function.update w.written t none }

def World.replaced (w : World T Hash) (author : Option T) (id : String) (passwordHash : Hash) : World T Hash :=
  { w with
    hashes := Function.update w.hashes id (some passwordHash)
    changes := w.changes ++ [⟨author, id, w.hashes id, passwordHash⟩] }

def World.commit (w : World T Hash) (t : T) : World T Hash :=
  match w.written t with
  | none => w.rollback t
  | some (id, passwordHash) => (w.replaced (some t) id passwordHash).rollback t

variable (verify : Hash → String → Bool)

/-- What a command may be answered with. Redis counts as it likes and may fail; a hash is of its password; a
lock is waited for; PostgreSQL may refuse every statement, and the reply of a commit may be lost. -/
inductive Answers (t : T) : (c : Command Hash) → World T Hash → Reply Hash c → World T Hash → Prop where
  | getUser {w : World T Hash} {id : String} : Answers t (.getUser id) w (.ok (w.hashes id))
      { w with read := Function.update w.read t w.changes.length }
  | getUserRefused {w : World T Hash} {id : String} {e : DbError} : Answers t (.getUser id) w (.error e) w
  | failures {w : World T Hash} {id : String} (reply : Option ℕ) : Answers t (.failures id) w reply w
  | failuresTtl {w : World T Hash} {id : String} (reply : Option ℤ) : Answers t (.failuresTtl id) w reply w
  | countFailure {w : World T Hash} {id : String} (reply : Option Unit) : Answers t (.countFailure id) w reply w
  | hashPassword {w : World T Hash} {password : String} {passwordHash : Hash}
      (hverify : verify passwordHash password = true) : Answers t (.hashPassword password) w passwordHash w
  | setConfig {w : World T Hash} {sub : String} : Answers t (.setConfig sub) w (.ok ()) w
  | setConfigRefused {w : World T Hash} {sub : String} {e : DbError} :
      Answers t (.setConfig sub) w (.error e) (w.rollback t)
  | absent {w : World T Hash} {id : String} (hnone : w.hashes id = none) :
      Answers t (.getUserForUpdate id) w (.ok none) w
  | held {w : World T Hash} {id : String} {passwordHash : Hash} (hsome : w.hashes id = some passwordHash)
      (hfree : w.Free t id) : Answers t (.getUserForUpdate id) w (.ok (some passwordHash)) (w.hold t id)
  | heldRefused {w : World T Hash} {id : String} {e : DbError} :
      Answers t (.getUserForUpdate id) w (.error e) (w.rollback t)
  | unmatched {w : World T Hash} {id : String} {passwordHash : Hash} (hnone : w.hashes id = none) :
      Answers t (.setPasswordHash id passwordHash) w (.ok ()) w
  | updated {w : World T Hash} {id : String} {passwordHash : Hash} (hsome : w.hashes id ≠ none)
      (hfree : w.Free t id) :
      Answers t (.setPasswordHash id passwordHash) w (.ok ())
        { w.hold t id with written := Function.update w.written t (some (id, passwordHash)) }
  | updateRefused {w : World T Hash} {id : String} {passwordHash : Hash} {e : DbError} :
      Answers t (.setPasswordHash id passwordHash) w (.error e) (w.rollback t)
  | commit {w : World T Hash} : Answers t .commit w (.ok ()) (w.commit t)
  | commitRefused {w : World T Hash} {e : DbError} : Answers t .commit w (.error e) (w.rollback t)
  | commitUnanswered {w : World T Hash} {e : DbError} : Answers t .commit w (.error e) (w.commit t)
  | rollback {w : World T Hash} : Answers t .rollback w () (w.rollback t)

/-- Meanwhile another writer of the accounts replaces a password. -/
inductive Meanwhile : World T Hash → World T Hash → Prop where
  | rotated {w : World T Hash} {id : String} (passwordHash : Hash) (hfree : w.holder id = none) :
      Meanwhile w (w.replaced none id passwordHash)

def machine : Machine T (Command Hash) (Reply Hash) (World T Hash) where
  step := Answers verify
  env := Meanwhile
  halt t w w' := w' = w.rollback t

/-- Where a call of the account's holder locks the row, no password of the account has been replaced since it
was read. -/
def Undisturbed (requests : T → Request) (t : T) (c : Command Hash) (w : World T Hash) : Prop :=
  ∀ id, c = .getUserForUpdate id → (requests t).own = true → ∀ change ∈ w.changes.drop (w.read t),
    change.userId ≠ id

/-- A change by the account's holder has been preceded by a proof of what it overwrites. -/
def Proven (request : Request) (overwritten : Option Hash) : Prop :=
  request.own = true → ∃ current passwordHash, request.currentPassword = some current ∧
    overwritten = some passwordHash ∧ verify passwordHash current = true

end Machine

/-! ### What the calls keep -/

section Contract

variable {T Hash : Type} [DecidableEq T] {verify : Hash → String → Bool} {requests : T → Request}

/-- Where a call is: nowhere in particular, having read a hash, or holding the row of a hash that may be
overwritten. -/
inductive Point (Hash : Type) where
  | any
  | seen (id : String) (passwordHash : Hash)
  | locked (id : String)

variable (verify requests) in
def At (t : T) : Point Hash → World T Hash → Prop
  | .any, _ => True
  | .seen id passwordHash, w => w.read t ≤ w.changes.length ∧
      ((∀ change ∈ w.changes.drop (w.read t), change.userId ≠ id) → w.hashes id = some passwordHash)
  | .locked id, w => w.holder id = some t ∧ Proven verify (requests t) (w.hashes id)

variable (verify requests) in
/-- What has been overwritten, and what is about to be, was proven if it had to be. -/
structure Sound (w : World T Hash) : Prop where
  changes : ∀ change ∈ w.changes, ∀ t, change.author = some t → Proven verify (requests t) change.overwritten
  written : ∀ t id passwordHash, w.written t = some (id, passwordHash) →
    w.holder id = some t ∧ Proven verify (requests t) (w.hashes id)

variable (verify requests) in
def contract : Contract T (Command Hash) (Reply Hash) (World T Hash) (Point Hash) where
  inv := Sound verify requests
  at_ := At verify requests
  guar _ _ _ _ _ := True

/-- As far as one call is concerned, the world has only moved on: its rows are as they were, and so are those
that no change is of. -/
structure Extends (t : T) (w w' : World T Hash) : Prop where
  read : w'.read t = w.read t
  written : w'.written t = w.written t
  held : ∀ id, w.holder id = some t → w'.holder id = some t ∧ w'.hashes id = w.hashes id
  changes : ∃ later, w'.changes = w.changes ++ later ∧
    ∀ id, (∀ change ∈ later, change.userId ≠ id) → w'.hashes id = w.hashes id

variable {t u : T} {w w' : World T Hash}

omit [DecidableEq T] in
theorem Extends.at_ (h : Extends t w w') {point : Point Hash} (hat : At verify requests t point w) :
    At verify requests t point w' := by
  cases point with
  | any => trivial
  | seen id passwordHash =>
      obtain ⟨hle, hseen⟩ := hat
      obtain ⟨later, hlater, hsame⟩ := h.changes
      simp only [At]
      rw [h.read, hlater, List.drop_append_of_le_length hle, List.length_append]
      refine ⟨Nat.le_add_right_of_le hle, fun hnone => ?_⟩
      rw [hsame id fun change hmem => hnone change (List.mem_append_right _ hmem)]
      exact hseen fun change hmem => hnone change (List.mem_append_left _ hmem)
  | locked id =>
      obtain ⟨hholder, hproven⟩ := hat
      obtain ⟨hholder', hhash⟩ := h.held id hholder
      exact ⟨hholder', by rwa [hhash]⟩

omit [DecidableEq T] in
theorem Extends.writes (h : Extends t w w') (hinv : Sound verify requests w) {id : String} {passwordHash : Hash}
    (hwritten : w'.written t = some (id, passwordHash)) :
    w'.holder id = some t ∧ Proven verify (requests t) (w'.hashes id) := by
  rw [h.written] at hwritten
  obtain ⟨hholder, hproven⟩ := hinv.written t id passwordHash hwritten
  obtain ⟨hholder', hhash⟩ := h.held id hholder
  exact ⟨hholder', by rwa [hhash]⟩

omit [DecidableEq T] in
theorem Extends.of_hashes (hread : w'.read t = w.read t) (hwritten : w'.written t = w.written t)
    (hholder : ∀ id, w.holder id = some t → w'.holder id = some t) (hhashes : w'.hashes = w.hashes)
    (hchanges : w'.changes = w.changes) : Extends t w w' := by
  refine ⟨hread, hwritten, fun id hid => ⟨hholder id hid, by rw [hhashes]⟩, [], ?_, fun id _ => by rw [hhashes]⟩
  rw [hchanges, List.append_nil]

theorem Extends.rollback (hu : u ≠ t) : Extends u w (w.rollback t) := by
  refine .of_hashes rfl (Function.update_of_ne hu _ _) (fun id hid => ?_) rfl rfl
  change (if w.holder id = some t then none else w.holder id) = some u
  rw [if_neg fun h => hu (Option.some.inj (hid.symm.trans h)), hid]

omit [DecidableEq T] in
theorem Extends.hold {id : String} (hfree : w.Free t id) (hu : u ≠ t) : Extends u w (w.hold t id) := by
  refine .of_hashes rfl rfl (fun id' hid' => ?_) rfl rfl
  have hne : id' ≠ id := by
    rintro rfl
    rcases hfree with h | h
    · cases hid'.symm.trans h
    · exact hu (Option.some.inj (hid'.symm.trans h))
  exact (Function.update_of_ne hne _ _).trans hid'

omit [DecidableEq T] in
theorem Extends.replaced {author : Option T} {id : String} {passwordHash : Hash} (hholder : w.holder id ≠ some u) :
    Extends u w (w.replaced author id passwordHash) := by
  refine ⟨rfl, rfl, fun id' hid' => ⟨hid', ?_⟩, _, rfl, fun id' hnone => ?_⟩
  · refine Function.update_of_ne ?_ _ _
    rintro rfl
    exact hholder hid'
  · exact Function.update_of_ne (hnone _ (List.mem_singleton_self _)).symm _ _

omit [DecidableEq T] in
theorem Extends.trans {w'' : World T Hash} (h : Extends t w w') (h' : Extends t w' w'') : Extends t w w'' := by
  refine ⟨h'.read.trans h.read, h'.written.trans h.written, fun id hid => ?_, ?_⟩
  · obtain ⟨hholder, hhash⟩ := h.held id hid
    exact ⟨(h'.held id hholder).1, (h'.held id hholder).2.trans hhash⟩
  · obtain ⟨later, hlater, hsame⟩ := h.changes
    obtain ⟨later', hlater', hsame'⟩ := h'.changes
    refine ⟨later ++ later', by rw [hlater', hlater, List.append_assoc], fun id hnone => ?_⟩
    rw [hsame' id fun change hmem => hnone change (List.mem_append_right _ hmem)]
    exact hsame id fun change hmem => hnone change (List.mem_append_left _ hmem)

theorem keeps_of (hinv : Sound verify requests w) (hothers : ∀ u ≠ t, Extends u w w')
    (hchanges : ∀ change ∈ w'.changes, ∀ u, change.author = some u → Proven verify (requests u) change.overwritten)
    (hown : ∀ id passwordHash, w'.written t = some (id, passwordHash) →
      w'.holder id = some t ∧ Proven verify (requests t) (w'.hashes id)) :
    (contract verify requests).Keeps t w w' := by
  refine ⟨⟨hchanges, fun u id passwordHash hu => ?_⟩, fun u hu _ hat => (hothers u hu).at_ hat⟩
  by_cases hut : u = t
  · subst hut
    exact hown id passwordHash hu
  · exact (hothers u hut).writes hinv hu

omit [DecidableEq T] in
theorem keeps_self (hinv : Sound verify requests w) : (contract verify requests).Keeps t w w :=
  ⟨hinv, fun _ _ _ hat => hat⟩

theorem rollback_keeps (hinv : Sound verify requests w) : (contract verify requests).Keeps t w (w.rollback t) := by
  refine keeps_of hinv (fun u hu => .rollback hu) hinv.changes fun id passwordHash hwritten => ?_
  cases (Function.update_self t _ _).symm.trans hwritten

theorem hold_keeps (hinv : Sound verify requests w) {id : String} (hfree : w.Free t id) :
    (contract verify requests).Keeps t w (w.hold t id) := by
  refine keeps_of hinv (fun u hu => .hold hfree hu) hinv.changes fun id' passwordHash hwritten => ?_
  obtain ⟨hholder, hproven⟩ := hinv.written t id' passwordHash hwritten
  refine ⟨?_, hproven⟩
  by_cases hid : id' = id
  · subst hid
    exact Function.update_self _ _ _
  · exact (Function.update_of_ne hid _ _).trans hholder

theorem commit_keeps (hinv : Sound verify requests w) : (contract verify requests).Keeps t w (w.commit t) := by
  unfold World.commit
  cases hwritten : w.written t with
  | none => exact rollback_keeps hinv
  | some entry =>
      obtain ⟨id, passwordHash⟩ := entry
      obtain ⟨hholder, hproven⟩ := hinv.written t id passwordHash hwritten
      refine keeps_of hinv (fun u hu => ?_) ?_ fun id' passwordHash' hwritten' => ?_
      · refine Extends.trans (.replaced fun h => hu ?_) (.rollback hu)
        exact Option.some.inj (h.symm.trans hholder)
      · intro change hmem u hauthor
        rcases List.mem_append.mp hmem with hold | hnew
        · exact hinv.changes change hold u hauthor
        · obtain rfl := List.mem_singleton.mp hnew
          obtain rfl := Option.some.inj hauthor
          exact hproven
      · cases (Function.update_self t _ _).symm.trans hwritten'

/-! ### Commands -/

abbrev guarded (verify : Hash → String → Bool) (requests : T → Request) :
    Machine T (Command Hash) (Reply Hash) (World T Hash) := (machine verify).guard (Undisturbed requests)

variable {ℓ : Point Hash}

theorem aside_spec {c : Command Hash} (hc : ∀ w r w', Answers verify t c w r w' → w' = w) :
    (contract verify requests).CmdSpec (guarded verify requests) t c ℓ fun _ point => point = ℓ := by
  intro w r w' hinv hat hstep
  obtain rfl := hc w r w' hstep.2
  exact ⟨trivial, keeps_self hinv, ℓ, hat, rfl⟩

theorem getUser_spec (id : String) : (contract verify requests).CmdSpec (guarded verify requests) t (.getUser id) ℓ
    fun r point => ∀ passwordHash, r = .ok (some passwordHash) → point = .seen id passwordHash := by
  intro w r w' hinv hat hstep
  obtain ⟨-, hstep⟩ := hstep
  change Answers verify t (.getUser id) w r w' at hstep
  cases hstep with
  | getUser =>
      have hkeeps : (contract verify requests).Keeps t w { w with read := Function.update w.read t w.changes.length } :=
        keeps_of hinv (fun u hu => .of_hashes (Function.update_of_ne hu _ _) rfl (fun _ h => h) rfl rfl) hinv.changes
          (hinv.written t)
      cases hhash : w.hashes id with
      | none => exact ⟨trivial, hkeeps, .any, trivial, nofun⟩
      | some passwordHash =>
          refine ⟨trivial, hkeeps, .seen id passwordHash, ⟨?_, fun _ => hhash⟩, fun passwordHash' hr => ?_⟩
          · exact Nat.le_of_eq (Function.update_self t _ _)
          · rw [Option.some.inj (Except.ok.inj hr)]
  | getUserRefused => exact ⟨trivial, keeps_self hinv, .any, trivial, nofun⟩

theorem setConfig_spec (sub : String) :
    (contract verify requests).CmdSpec (guarded verify requests) t (.setConfig sub) ℓ
      fun r point => ∀ a, r = .ok a → point = ℓ := by
  intro w r w' hinv hat hstep
  obtain ⟨-, hstep⟩ := hstep
  change Answers verify t (.setConfig sub) w r w' at hstep
  cases hstep with
  | setConfig => exact ⟨trivial, keeps_self hinv, ℓ, hat, fun _ _ => rfl⟩
  | setConfigRefused => exact ⟨trivial, rollback_keeps hinv, .any, trivial, nofun⟩

theorem getUserForUpdate_spec {id : String} {passwordHash : Hash} (hproof : (requests t).own = true →
      ∃ current, (requests t).currentPassword = some current ∧ verify passwordHash current = true) :
    (contract verify requests).CmdSpec (guarded verify requests) t (.getUserForUpdate id) (.seen id passwordHash)
      fun r point => ∀ a, r = .ok (some a) → point = .locked id := by
  intro w r w' hinv hat hstep
  obtain ⟨hundisturbed, hstep⟩ := hstep
  change Answers verify t (.getUserForUpdate id) w r w' at hstep
  cases hstep with
  | absent => exact ⟨trivial, keeps_self hinv, .any, trivial, nofun⟩
  | held hsome hfree =>
      refine ⟨trivial, hold_keeps hinv hfree, .locked id, ⟨Function.update_self _ _ _, fun hown => ?_⟩,
        fun _ _ => rfl⟩
      obtain ⟨current, hcurrent, hverify⟩ := hproof hown
      exact ⟨current, passwordHash, hcurrent, hat.2 (hundisturbed id rfl hown), hverify⟩
  | heldRefused => exact ⟨trivial, rollback_keeps hinv, .any, trivial, nofun⟩

theorem setPasswordHash_spec (id : String) (passwordHash : Hash) :
    (contract verify requests).CmdSpec (guarded verify requests) t (.setPasswordHash id passwordHash) (.locked id)
      fun _ _ => True := by
  intro w r w' hinv hat hstep
  obtain ⟨-, hstep⟩ := hstep
  change Answers verify t (.setPasswordHash id passwordHash) w r w' at hstep
  refine ⟨trivial, ?_, .any, trivial, trivial⟩
  cases hstep with
  | unmatched => exact keeps_self hinv
  | updated hsome hfree =>
      refine keeps_of hinv (fun u hu => ?_) hinv.changes fun id' passwordHash' hwritten => ?_
      · exact .trans (.hold hfree hu) (.of_hashes rfl (Function.update_of_ne hu _ _) (fun _ h => h) rfl rfl)
      · obtain ⟨rfl, rfl⟩ := Prod.mk.inj (Option.some.inj ((Function.update_self t _ _).symm.trans hwritten))
        exact ⟨Function.update_self _ _ _, hat.2⟩
  | updateRefused => exact rollback_keeps hinv

theorem commit_spec : (contract verify requests).CmdSpec (guarded verify requests) t .commit ℓ fun _ _ => True := by
  intro w r w' hinv hat hstep
  obtain ⟨-, hstep⟩ := hstep
  change Answers verify t .commit w r w' at hstep
  refine ⟨trivial, ?_, .any, trivial, trivial⟩
  cases hstep with
  | commit => exact commit_keeps hinv
  | commitRefused => exact rollback_keeps hinv
  | commitUnanswered => exact commit_keeps hinv

theorem rollback_spec : (contract verify requests).CmdSpec (guarded verify requests) t .rollback ℓ fun _ _ => True := by
  intro w r w' hinv hat hstep
  obtain ⟨-, hstep⟩ := hstep
  change Answers verify t .rollback w r w' at hstep
  cases hstep with
  | rollback => exact ⟨trivial, rollback_keeps hinv, .any, trivial, trivial⟩

/-! ### The operation -/

abbrev Follows {α : Type} (verify : Hash → String → Bool) (requests : T → Request) (t : T)
    (p : PasswordProg Hash α)
    (ℓ : Point Hash) (P : α → Point Hash → Prop) : Prop :=
  (contract verify requests).Safe (guarded verify requests) t p ℓ (Contract.Ends P fun _ _ => True)

theorem orRaise_follows {α : Type} {P : α → Point Hash → Prop} (r : Except DbError α)
    (hr : ∀ a, r = .ok a → P a ℓ) :
    Follows verify requests t (orRaise r) ℓ P := by
  cases r with
  | ok a => exact hr a rfl
  | error e => trivial

theorem checkCurrentPassword_follows (id : String) (passwordHash : Hash) (current : String) :
    Follows verify requests t (checkCurrentPassword verify id passwordHash current) ℓ
      fun _ point => point = ℓ ∧ verify passwordHash current = true := by
  unfold checkCurrentPassword
  simp only [Prog.send_bind]
  refine (aside_spec fun w r w' h => by cases h; rfl).mono fun reply point hpoint => ?_
  subst hpoint
  cases reply with
  | none => trivial
  | some failures =>
      dsimp only
      split_ifs with hlimit hverify
      · refine (aside_spec fun w r w' h => by cases h; rfl).mono fun reply _ _ => ?_
        cases reply <;> trivial
      · exact ⟨rfl, hverify⟩
      · refine (aside_spec fun w r w' h => by cases h; rfl).mono fun reply _ _ => ?_
        cases reply <;> trivial

theorem inTransaction_follows {sub : String} {body : PasswordProg Hash Unit}
    (hbody : Follows verify requests t body ℓ fun _ _ => True) :
    Follows verify requests t (inTransaction sub body) ℓ fun _ _ => True := by
  refine Contract.safe_handle (F := fun _ _ => True) ?_ fun e point _ => rollback_spec.mono fun _ _ _ => trivial
  simp only [Prog.send_bind]
  refine (setConfig_spec sub).mono fun r point hr => Contract.safe_seq
    (orRaise_follows (P := fun _ point => point = ℓ) r hr) ?_
  rintro _ point rfl
  refine Contract.safe_seq hbody fun _ point _ => commit_spec.mono fun r _ _ => ?_
  cases r <;> trivial

theorem replace_follows {id : String} {passwordHash passwordHash' : Hash} (hproof : (requests t).own = true →
      ∃ current, (requests t).currentPassword = some current ∧ verify passwordHash current = true) :
    Follows verify requests t (replace id passwordHash') (.seen id passwordHash) fun _ _ => True := by
  unfold replace
  simp only [Prog.send_bind]
  refine (getUserForUpdate_spec hproof).mono fun r point hr => Contract.safe_seq
    (orRaise_follows (P := fun found point => ∀ a, found = some a → point = .locked id) r
      fun found hfound a ha => hr a (ha ▸ hfound)) ?_
  intro found point hfound
  cases found with
  | none => trivial
  | some a =>
      obtain rfl := hfound a rfl
      refine (setPasswordHash_spec id passwordHash').mono fun r _ _ => ?_
      cases r <;> trivial

theorem rest_follows {passwordHash : Hash} (hproof : (requests t).own = true →
      ∃ current, (requests t).currentPassword = some current ∧ verify passwordHash current = true) :
    Follows verify requests t (do
        let passwordHash ← Prog.send (Command.hashPassword (requests t).newPassword)
        inTransaction (requests t).sub (replace (requests t).userId passwordHash))
      (.seen (requests t).userId passwordHash) fun _ _ => True := by
  simp only [Prog.send_bind]
  refine (aside_spec fun w r w' h => by cases h; rfl).mono fun passwordHash' point hpoint => ?_
  subst hpoint
  exact inTransaction_follows (replace_follows hproof)

theorem changeUserPassword_follows :
    Follows verify requests t (changeUserPassword verify (requests t)) ℓ fun _ _ => True := by
  unfold changeUserPassword
  split_ifs with hforbidden hrequired
  · trivial
  · trivial
  · simp only [Prog.send_bind]
    refine (getUser_spec (requests t).userId).mono fun r point hr => Contract.safe_seq
      (orRaise_follows (P := fun found point => ∀ passwordHash, found = some passwordHash →
        point = .seen (requests t).userId passwordHash) r fun found hfound a ha => hr a (ha ▸ hfound)) ?_
    intro found point hfound
    cases found with
    | none => trivial
    | some passwordHash =>
        obtain rfl := hfound passwordHash rfl
        cases hown : (requests t).own with
        | false => exact rest_follows fun h => absurd (hown.symm.trans h) nofun
        | true =>
            cases hcurrent : (requests t).currentPassword with
            | none => exact absurd ⟨hown, hcurrent⟩ hrequired
            | some current =>
                refine Contract.safe_seq (checkCurrentPassword_follows _ passwordHash current) ?_
                rintro - _ ⟨rfl, hverify⟩
                exact rest_follows fun _ => ⟨current, hcurrent, hverify⟩

theorem closed : (contract verify requests).Closed (guarded verify requests) where
  env w w' hinv henv := by
    change Meanwhile w w' at henv
    cases henv with
    | @rotated id passwordHash hfree =>
        have hextends : ∀ u, Extends u w (w.replaced none id passwordHash) := fun u =>
          .replaced fun h => by cases hfree.symm.trans h
        refine ⟨⟨fun change hmem u hauthor => ?_, fun u id' passwordHash' hu => (hextends u).writes hinv hu⟩,
          fun u _ hat => (hextends u).at_ hat⟩
        rcases List.mem_append.mp hmem with hold | hnew
        · exact hinv.changes change hold u hauthor
        · obtain rfl := List.mem_singleton.mp hnew
          cases hauthor
  halt t w w' hinv h := by
    obtain rfl : w' = w.rollback t := h
    exact rollback_keeps hinv

end Contract

/-! ### Every run -/

section Runs

variable {T Hash : Type} [DecidableEq T]

abbrev PasswordConfig (T Hash : Type) := Config T (Command Hash) (Reply Hash) PasswordFailure Unit (World T Hash)

/-- Every call at its start. -/
def initial (verify : Hash → String → Bool) (requests : T → Request) (hashes : String → Option Hash) :
    PasswordConfig T Hash :=
  .initial (fun t => changeUserPassword verify (requests t)) ⟨hashes, fun _ => none, fun _ => none, [], fun _ => 0⟩

omit [DecidableEq T] in
theorem sound_initial {verify : Hash → String → Bool} {requests : T → Request} {hashes : String → Option Hash} :
    Sound verify requests (⟨hashes, fun _ => none, fun _ => none, [], fun _ => 0⟩ : World T Hash) :=
  ⟨fun _ hmem => absurd hmem List.not_mem_nil, fun _ _ _ hwritten => by cases hwritten⟩

/-- **Password changes.** If no password of an account is replaced between the read of a change by its holder
and the lock, what such a change overwrites is what its current password was proven against. -/
theorem proven_before_replaced (verify : Hash → String → Bool) (requests : T → Request)
    (hashes : String → Option Hash)
    {cfg : PasswordConfig T Hash}
    (hrun : ((machine verify).guard (Undisturbed requests)).Reaches (initial verify requests hashes) cfg)
    {change : Change T Hash} (hmem : change ∈ cfg.state.changes) {t : T} (hauthor : change.author = some t)
    (hown : (requests t).own = true) : ∃ current passwordHash, (requests t).currentPassword = some current ∧
      change.overwritten = some passwordHash ∧ verify passwordHash current = true := by
  have hgood : (contract verify requests).Good (guarded verify requests)
      (fun _ => Contract.Ends (fun _ _ => True) fun _ _ => True) cfg := by
    refine Contract.Good.reaches closed (Contract.Good.initial sound_initial fun t => ?_) hrun
    exact ⟨.any, trivial, changeUserPassword_follows⟩
  exact hgood.inv.changes change hmem t hauthor hown

end Runs

/-! ### A reset beside a change -/

def plainVerify (passwordHash password : String) : Bool := passwordHash = password

/-- Where nothing fails, and no failures have been counted. -/
def answer (t : Bool) : (c : Command String) → World Bool String → Option (Reply String c × World Bool String)
  | .getUser id, w => some (.ok (w.hashes id), { w with read := Function.update w.read t w.changes.length })
  | .failures _, w => some (some 0, w)
  | .hashPassword password, w => some (password, w)
  | .setConfig _, w => some (.ok (), w)
  | .getUserForUpdate id, w =>
    match w.hashes id with
    | none => none
    | some passwordHash =>
      if w.holder id = none ∨ w.holder id = some t then some (.ok (some passwordHash), w.hold t id) else none
  | .setPasswordHash id passwordHash, w =>
    if w.hashes id ≠ none ∧ (w.holder id = none ∨ w.holder id = some t) then
      some (.ok (), { w.hold t id with written := Function.update w.written t (some (id, passwordHash)) })
    else none
  | .commit, w => some (.ok (), w.commit t)
  | _, _ => none

theorem step_of_answer {t : Bool} {c : Command String} {r : Reply String c} {w w' : World Bool String}
    (h : answer t c w = some (r, w')) : (machine plainVerify).step t c w r w' := by
  cases c with
  | getUser id =>
      obtain ⟨rfl, rfl⟩ := Prod.mk.inj (Option.some.inj h)
      exact .getUser
  | failures id =>
      obtain ⟨rfl, rfl⟩ := Prod.mk.inj (Option.some.inj h)
      exact .failures _
  | hashPassword password =>
      obtain ⟨rfl, rfl⟩ := Prod.mk.inj (Option.some.inj h)
      exact .hashPassword (decide_eq_true rfl)
  | setConfig sub =>
      obtain ⟨rfl, rfl⟩ := Prod.mk.inj (Option.some.inj h)
      exact .setConfig
  | getUserForUpdate id =>
      rw [answer] at h
      split at h
      · cases h
      · rename_i passwordHash hsome
        split_ifs at h with hfree
        obtain ⟨rfl, rfl⟩ := Prod.mk.inj (Option.some.inj h)
        exact .held hsome hfree
  | setPasswordHash id passwordHash =>
      rw [answer] at h
      split_ifs at h with hupdated
      obtain ⟨rfl, rfl⟩ := Prod.mk.inj (Option.some.inj h)
      exact .updated hupdated.1 hupdated.2
  | commit =>
      obtain ⟨rfl, rfl⟩ := Prod.mk.inj (Option.some.inj h)
      exact .commit
  | failuresTtl id => cases h
  | countFailure id => cases h
  | rollback => cases h

/-- `true` changes her own password, and `false`, an administrator, resets it. -/
def requests : Bool → Request
  | true => ⟨"ana", "ANALYST", "ana", some "stolen", "thief"⟩
  | false => ⟨"root", "ADMIN", "ana", none, "reset"⟩

def hashes : String → Option String := fun id => if id = "ana" then some "stolen" else none

/-- The same, as long as no password has been replaced. -/
def firstAnswer (t : Bool) (c : Command String) (w : World Bool String) :
    Option (Reply String c × World Bool String) :=
  if w.changes.isEmpty then answer t c w else none

theorem step_of_firstAnswer {t : Bool} {c : Command String} {r : Reply String c} {w w' : World Bool String}
    (h : firstAnswer t c w = some (r, w')) : ((machine plainVerify).guard (Undisturbed requests)).step t c w r w' := by
  unfold firstAnswer at h
  split_ifs at h with hnone
  refine ⟨fun id _ _ change hmem => ?_, step_of_answer h⟩
  rw [List.isEmpty_iff.mp hnone, List.drop_nil] at hmem
  exact absurd hmem List.not_mem_nil

/-- A change by itself. -/
theorem proven_before_replaced_alone : ∃ cfg : PasswordConfig Bool String,
    ((machine plainVerify).guard (Undisturbed requests)).Reaches (initial plainVerify requests hashes) cfg ∧
    cfg.state.changes = [⟨some true, "ana", some "stolen", "thief"⟩] ∧
    ∃ current passwordHash, (requests true).currentPassword = some current ∧
      some "stolen" = some passwordHash ∧ plainVerify passwordHash current = true := by
  have hrun : ((schedule (fun t => firstAnswer t) [true, true, true, true, true, true, true]
      (initial plainVerify requests hashes)).any fun cfg =>
      cfg.state.changes = [⟨some true, "ana", some "stolen", "thief"⟩]) = true := by
    decide +kernel
  obtain ⟨cfg, hcfg, hchanges⟩ := (Option.any_eq_true _ _).mp hrun
  have hchanges := of_decide_eq_true hchanges
  have hreaches := Machine.reaches_of_schedule _ (fun _ _ _ _ _ h => step_of_firstAnswer h) _ hcfg
  have hmem : ⟨some true, "ana", some "stolen", "thief"⟩ ∈ cfg.state.changes :=
    hchanges ▸ List.mem_singleton_self _
  exact ⟨cfg, hreaches, hchanges, proven_before_replaced plainVerify requests hashes hreaches hmem rfl rfl⟩

/-- The reset is committed after the current password has been checked, and is overwritten. -/
theorem reset_undone : ∃ cfg : PasswordConfig Bool String,
    (machine plainVerify).Reaches (initial plainVerify requests hashes) cfg ∧
    cfg.state.changes = [⟨some false, "ana", some "stolen", "reset"⟩, ⟨some true, "ana", some "reset", "thief"⟩] ∧
    (requests true).own = true ∧
    ∀ current, (requests true).currentPassword = some current → plainVerify "reset" current = false := by
  have hrun : ((schedule (fun t => answer t)
      [true, true, false, false, false, false, false, false, true, true, true, true, true]
      (initial plainVerify requests hashes)).any fun cfg => cfg.state.changes =
        [⟨some false, "ana", some "stolen", "reset"⟩, ⟨some true, "ana", some "reset", "thief"⟩]) = true := by
    decide +kernel
  obtain ⟨cfg, hcfg, hchanges⟩ := (Option.any_eq_true _ _).mp hrun
  refine ⟨cfg, Machine.reaches_of_schedule _ (fun _ _ _ _ _ h => step_of_answer h) _ hcfg,
    of_decide_eq_true hchanges,
    rfl, fun current hcurrent => ?_⟩
  obtain rfl : "stolen" = current := Option.some.inj hcurrent
  decide

end RetailSegmentation.Passwords
