import RetailSegmentation.FloorUsers
import RetailSegmentation.ProgramCuts

/-! Who the floor opens as: sign-ins, profile reads and sign-outs of one phone in turn, with the store that its
user picks (`SessionRepository`, `PrefsSessionStore`, `TokenAuthenticator`). -/

namespace RetailSegmentation.Floor

open Program

/-! ### The phone with its store -/

structure ChosenStore where
  storeId : ℤ
  name : String
  deriving DecidableEq, Repr

/-- A store, and who was signed in as it was picked. -/
structure Choice where
  store : ChosenStore
  chooser : Option String
  deriving DecidableEq, Repr

/-- `picked` is what the preferences hold of the store; `confirmed` is the user of the last `SignedIn` since
the last sign-out. -/
structure Device where
  phone : Phone Unit
  picked : Option Choice
  confirmed : Option String

namespace Device

def installed : Device := ⟨.installed, none, none⟩

def chosenStore (d : Device) : Option Choice := d.picked.filter fun choice => 0 < choice.store.storeId

/-- What a command leaves of the store: signing out clears the preferences. -/
def after (d : Device) (c : Command) (phone : Phone Unit) : Device :=
  match c with
  | .signedOut => ⟨phone, none, none⟩
  | _ => { d with phone := phone }

def Step (world : World) (c : Command) (d : Device) (r : Reply c) (d' : Device) : Prop :=
  ∃ phone, d.phone.Step world () c r phone ∧ d' = d.after c phone

/-- Who is signed in: the user last confirmed, or else the one whose session the phone has. -/
def user (world : World) (d : Device) : Option String :=
  d.confirmed.or (d.phone.tokens.map fun tokens => world.owner tokens.accessToken)

def choose (world : World) (d : Device) (store : ChosenStore) : Device := { d with picked := some ⟨store, d.user world⟩ }

/-- A new process: what is in memory is gone. -/
def restart (d : Device) : Device :=
  { d with phone := { d.phone with lastFailure := none, lock := none, under := fun _ _ => false } }

/-- The floor is open as the user of a `SignedIn`. -/
def shown (d : Device) : Option SessionResult → Device
  | some (.signedIn user) => { d with confirmed := some user.userId }
  | _ => d

end Device

/-! ### Runs -/

/-- Besides those of the session, any request of the app may be made: its answer may have the authenticator refresh
the tokens or end the session. -/
inductive Event where
  | signIn (email password deviceLabel : String)
  | currentUser
  | signOut
  | request (endpoint : Endpoint)
  | choose (store : ChosenStore)
  | restart

def Event.program (world : World) : Event → PhoneProg (Option SessionResult)
  | .signIn email password deviceLabel => Floor.signIn world email password deviceLabel >>= fun result => .ret (some result)
  | .currentUser => Floor.currentUser world >>= fun result => .ret (some result)
  | .signOut => Floor.signOut world >>= fun _ => .ret none
  | .request endpoint => execute world endpoint >>= fun _ => .ret none
  | .choose _ => .ret none
  | .restart => .ret none

/-- What a command does, in the state before it. -/
abbrev Steps := (c : Command) → Device → Reply c → Device → Prop

/-- An event with what it returns: it comes to its end, raises, or the process dies at some point of it. -/
inductive Happens (world : World) (step : Steps) : Event → Device → Option SessionResult → Device → Prop where
  | returns {event d result d'} (hexec : Prog.Exec step (event.program world) d (.ok result) d') :
    Happens world step event d result (d'.shown result)
  | raises {event d e d'} (hexec : Prog.Exec step (event.program world) d (.error e) d') :
    Happens world step event d none d'
  | dies {event d d'} (hcut : Prog.Cut step (event.program world) d d') :
      Happens world step event d none d'.restart
  | chooses (d : Device) (store : ChosenStore) : Happens world step (.choose store) d none (d.choose world store)
  | restarts (d : Device) : Happens world step .restart d none d.restart

def Next (world : World) (step : Steps) (d d' : Device) : Prop := ∃ event result,
    Happens world step event d result d'

/-- After the events of a run. -/
def Reached (world : World) (step : Steps) (d : Device) : Prop :=
  Relation.ReflTransGen (Next world step) .installed d

/-- What is returned names the user of the stored session, and a floor role; and a store that is chosen was chosen
while the user who is shown was signed in. -/
def OneFloor (world : World) (step : Steps) (d : Device) : Prop :=
  (∀ event user d', Happens world step event d (some (.signedIn user)) d' →
    (∃ tokens, d'.phone.tokens = some tokens ∧ world.owner tokens.accessToken = user.userId) ∧
      user.roleCode ∈ floorRoles) ∧
  ∀ user, d.confirmed = some user → ∀ choice, d.chosenStore = some choice → choice.chooser = some user

def granted : Command → Option Tokens
  | .writeTokens .signIn tokens => some tokens
  | _ => none

/-- A sign-in is granted a session of the user whose profile and store the phone still keeps, if it keeps any. -/
def SameUser (world : World) (c : Command) (d : Device) : Prop :=
  ∀ tokens ∈ granted c, (∀ profile ∈ d.phone.session, profile.userId = world.owner tokens.accessToken) ∧
    ∀ choice ∈ d.chosenStore, choice.chooser = some (world.owner tokens.accessToken)

instance (world : World) (c : Command) (d : Device) : Decidable (SameUser world c d) :=
  inferInstanceAs (Decidable (∀ _ ∈ _, _ ∧ _))

/-- The steps that meet the condition. -/
def heeding (world : World) : Steps := fun c d r d' => SameUser world c d ∧ d.Step world c r d'

/-! ### What every step keeps -/

/-- The tokens, the profile and the store are one user's. -/
structure World.OneOwner (world : World) (d : Device) : Prop where
  named : ∀ profile tokens, d.phone.session = some profile → d.phone.tokens = some tokens →
    world.owner tokens.accessToken = profile.userId
  coherent : ∀ tokens, d.phone.tokens = some tokens → world.Coherent tokens
  confirmed : ∀ user, d.confirmed = some user → ∃ profile, d.phone.session = some profile ∧ profile.userId = user
  held : ∀ tokens choice, d.phone.tokens = some tokens → d.chosenStore = some choice →
    choice.chooser = some (world.owner tokens.accessToken)
  chosen : ∀ user choice, d.confirmed = some user → d.chosenStore = some choice → choice.chooser = some user
  role : ∀ profile, d.phone.session = some profile → profile.role ∈ floorRoles

/-- Only what is beside the session may change. -/
structure Device.Frame (d d' : Device) : Prop where
  tokens : d'.phone.tokens = d.phone.tokens
  session : d'.phone.session = d.phone.session
  picked : d'.picked = d.picked
  confirmed : d'.confirmed = d.confirmed

/-- Commands that leave the session as it is. -/
def Quiet : Command → Prop
  | .writeTokens .. => False
  | .clearTokens _ => False
  | .signedIn _ => False
  | .signedOut => False
  | _ => True

section Keeps

variable {world : World} {d d' : Device}

theorem World.OneOwner.frame (hone : world.OneOwner d) (hframe : d.Frame d') : world.OneOwner d' := by
  have hstore : d'.chosenStore = d.chosenStore := by rw [Device.chosenStore, hframe.picked, Device.chosenStore]
  constructor
  · rw [hframe.session, hframe.tokens]
    exact hone.named
  · rw [hframe.tokens]
    exact hone.coherent
  · rw [hframe.session, hframe.confirmed]
    exact hone.confirmed
  · rw [hframe.tokens, hstore]
    exact hone.held
  · rw [hframe.confirmed, hstore]
    exact hone.chosen
  · rw [hframe.session]
    exact hone.role

theorem frame_of_step {c : Command} {r : Reply c} (hquiet : Quiet c) (hstep : d.Step world c r d') :
    d.Frame d' := by
  obtain ⟨phone, hphone, rfl⟩ := hstep
  cases hphone with
  | writeTokens origin tokens => cases hquiet
  | clearTokens ending => cases hquiet
  | signedIn profile => cases hquiet
  | signedOut => cases hquiet
  | _ => exact ⟨rfl, rfl, rfl, rfl⟩

theorem World.OneOwner.store_tokens (hone : world.OneOwner d) {tokens : Tokens} (hcoherent : world.Coherent tokens)
    (hprofile : ∀ profile, d.phone.session = some profile → profile.userId = world.owner tokens.accessToken)
    (hchoice : ∀ choice, d.chosenStore = some choice → choice.chooser = some (world.owner tokens.accessToken)) :
    world.OneOwner { d with phone := { d.phone with tokens := some tokens } } := by
  refine ⟨?_, ?_, hone.confirmed, ?_, hone.chosen, hone.role⟩
  · rintro profile _ hsession ⟨⟩
    exact (hprofile profile hsession).symm
  · rintro _ ⟨⟩
    exact hcoherent
  · rintro _ choice ⟨⟩ hchosen
    exact hchoice choice hchosen

theorem World.OneOwner.clear_tokens (hone : world.OneOwner d) :
    world.OneOwner { d with phone := { d.phone with tokens := none } } := by
  refine ⟨?_, ?_, hone.confirmed, ?_, hone.chosen, hone.role⟩
  · intro _ _ _ h
    cases h
  · intro _ h
    cases h
  · intro _ _ h
    cases h

theorem World.OneOwner.signed_in (hone : world.OneOwner d) {profile : Profile} {tokens : Tokens}
    (htokens : d.phone.tokens = some tokens) (howner : world.owner tokens.accessToken = profile.userId)
    (hrole : profile.role ∈ floorRoles) :
    world.OneOwner { d with phone := { d.phone with session := some profile } } := by
  refine ⟨?_, hone.coherent, ?_, hone.held, hone.chosen, ?_⟩
  · rintro _ tokens' ⟨⟩ htokens'
    obtain rfl := Option.some.inj (htokens.symm.trans htokens')
    exact howner
  · intro user huser
    obtain ⟨old, hold, hid⟩ := hone.confirmed user huser
    exact ⟨profile, rfl, howner.symm.trans ((hone.named old tokens hold htokens).trans hid)⟩
  · rintro _ ⟨⟩
    exact hrole

theorem World.OneOwner.signed_out (hone : world.OneOwner d) :
    world.OneOwner ⟨{ d.phone with session := none }, none, none⟩ := by
  refine ⟨?_, hone.coherent, ?_, ?_, ?_, ?_⟩
  · intro _ _ h
    cases h
  · intro _ h
    cases h
  · intro _ _ _ h
    cases h
  · intro _ _ h
    cases h
  · intro _ h
    cases h

theorem oneOwner_installed : world.OneOwner .installed := by
  refine ⟨?_, ?_, ?_, ?_, ?_, ?_⟩
  · intro _ _ h
    cases h
  · intro _ h
    cases h
  · intro _ h
    cases h
  · intro _ _ h
    cases h
  · intro _ _ h
    cases h
  · intro _ h
    cases h

theorem World.OneOwner.restart (hone : world.OneOwner d) : world.OneOwner d.restart :=
  hone.frame ⟨rfl, rfl, rfl, rfl⟩

theorem World.OneOwner.choose (hone : world.OneOwner d) (store : ChosenStore) :
    world.OneOwner (d.choose world store) := by
  have hchooser : ∀ choice, (d.choose world store).chosenStore = some choice → choice.chooser = d.user world := by
    intro choice hchoice
    obtain rfl := Option.some.inj (Option.filter_eq_some_iff.mp hchoice).1
    rfl
  refine ⟨hone.named, hone.coherent, hone.confirmed, ?_, ?_, hone.role⟩
  · intro tokens choice htokens hchoice
    rw [hchooser choice hchoice, Device.user]
    cases hconfirmed : d.confirmed with
    | none => rw [Option.none_or, show d.phone.tokens = some tokens from htokens]; rfl
    | some user =>
      obtain ⟨profile, hprofile, hid⟩ := hone.confirmed user hconfirmed
      rw [Option.some_or, hone.named profile tokens hprofile htokens, hid]
  · intro user choice huser hchoice
    rw [hchooser choice hchoice, Device.user, show d.confirmed = some user from huser, Option.some_or]

theorem World.OneOwner.shown (hone : world.OneOwner d) {result : Option SessionResult}
    (hresult : ∀ user, result = some (.signedIn user) →
      (∃ tokens, d.phone.tokens = some tokens ∧ world.owner tokens.accessToken = user.userId) ∧
        ∃ profile, d.phone.session = some profile ∧ profile.userId = user.userId) :
    world.OneOwner (d.shown result) := by
  unfold Device.shown
  split
  · rename_i user
    obtain ⟨⟨tokens, htokens, howner⟩, hprofile⟩ := hresult user rfl
    refine ⟨hone.named, hone.coherent, ?_, hone.held, ?_, hone.role⟩
    · rintro _ ⟨⟩
      exact hprofile
    · rintro _ choice ⟨⟩ hchoice
      rw [hone.held tokens choice htokens hchoice, howner]
  · exact hone

/-! ### The client -/

/-- At every point of the program the phone is one user's, and it ends as `P` says. -/
abbrev Holds {α : Type} (world : World) (P : α → Device → Prop) (p : PhoneProg α) (d : Device) : Prop :=
  p.Through (heeding world) world.OneOwner P d

theorem holds_quiet {α : Type} {P : α → Device → Prop} {c : Command} {k : Reply c → PhoneProg α}
    (hone : world.OneOwner d) (hquiet : Quiet c)
    (hk : ∀ r d', d.Frame d' → d.Step world c r d' → Holds world P (k r) d') : Holds world P (.call c k) d :=
  ⟨hone, fun r d' hstep => hk r d' (frame_of_step hquiet hstep.2) hstep.2⟩

/-- Users-service's answer, where it names a user, names the one whose tokens are stored. -/
def Names (world : World) (response : Response) (d : Device) : Prop :=
  ∀ a, response = some a → a.isSuccessful = true → ∀ user, world.currentUser a.body = some user →
    ∃ tokens, d.phone.tokens = some tokens ∧ world.owner tokens.accessToken = user.userId

/-- What a call of the client ends with. -/
def Answered (world : World) (endpoint : Endpoint) (response : Response) (d : Device) : Prop :=
  Told world endpoint response ∧ (endpoint = .getCurrentUser → Names world response d)

def Carries (request : Request) (d : Device) : Prop :=
  ∀ token, request.authorization = some token → ∃ tokens, d.phone.tokens = some tokens ∧ tokens.accessToken = token

theorem answered_of_step {request : Request} {response : Response} (hcarries : Carries request d)
    (hstep : d.Step world (.send request) response d') : Answered world request.endpoint response d' := by
  obtain ⟨phone, hphone, rfl⟩ := hstep
  cases hphone with
  | answered request a issued recorded hanswers hrecords =>
    refine ⟨told_of_answers hanswers, fun hendpoint => ?_⟩
    rintro _ ⟨⟩ hsuccess user huser
    obtain ⟨endpoint, bearer⟩ := request
    obtain rfl : endpoint = .getCurrentUser := hendpoint
    cases hanswers with
    | user bearer a hread =>
      obtain ⟨token, rfl, hid⟩ := hread hsuccess user huser
      obtain ⟨tokens, htokens, htoken⟩ := hcarries token rfl
      exact ⟨tokens, htokens, by rw [htoken, hid]⟩
  | unanswered request issued recorded hissued hrecords =>
    refine ⟨?_, fun _ _ h => (by cases h)⟩
    obtain ⟨endpoint, bearer⟩ := request
    cases endpoint with
    | _ => trivial

theorem holds_endSession (hone : world.OneOwner d) (sent : String) : Holds world (fun _ _ => True)
    (endSession sent) d := by
  refine ⟨hone, ?_⟩
  rintro r d' ⟨-, phone, hphone, rfl⟩
  cases hphone
  exact ⟨hone.clear_tokens, trivial⟩

/-- A refresh ends with the pair that it stored. -/
def Refreshed (refreshed : Option Tokens) (d : Device) : Prop :=
  ∀ tokens, refreshed = some tokens → d.phone.tokens = some tokens

theorem holds_rotated {current : Tokens} {a : Answer} (hone : world.OneOwner d)
    (hcurrent : d.phone.tokens = some current) (htold : Told world (.refreshSession current.refreshToken) (some a)) :
    Holds world Refreshed (rotated world current a) d := by
  unfold rotated
  split
  · rename_i hstatus
    split
    · exact hone
    · rename_i tokens hread
      obtain ⟨hsession, hpair⟩ := htold hstatus tokens hread
      have howner : world.owner tokens.accessToken = world.owner current.accessToken := by
        rw [World.owner, World.owner, hsession, hone.coherent current hcurrent]
      have hstored : world.OneOwner { d with phone := { d.phone with tokens := some tokens } } := by
        apply hone.store_tokens hpair
        · intro profile hprofile
          rw [howner, hone.named profile current hprofile hcurrent]
        · intro choice hchoice
          rw [howner, hone.held current choice hcurrent hchoice]
      refine ⟨hone, ?_⟩
      rintro r d' ⟨-, phone, hphone, rfl⟩
      cases hphone
      exact holds_quiet hstored trivial fun _ d'' hframe _ => ⟨hstored.frame hframe, fun _ h => h ▸ hframe.tokens⟩
  · refine holds_quiet hone trivial fun _ d' hframe _ => ?_
    split
    · exact (holds_endSession (hone.frame hframe) _).bind fun _ d'' hone'' _ => ⟨hone'', fun _ h => (by cases h)⟩
    · exact ⟨hone.frame hframe, fun _ h => (by cases h)⟩

theorem holds_refresh {current : Tokens} (hone : world.OneOwner d) (hcurrent : d.phone.tokens = some current) :
    Holds world Refreshed (refresh world current) d := by
  unfold refresh
  split
  · exact holds_quiet hone trivial fun _ d' hframe _ => ⟨hone.frame hframe, fun _ h => (by cases h)⟩
  · refine holds_quiet hone trivial fun response d' hframe hstep => ?_
    have hanswered := answered_of_step (fun _ h => (by cases h)) hstep
    cases response with
    | none =>
      exact holds_quiet (hone.frame hframe) trivial fun _ d'' hframe' _ =>
        ⟨(hone.frame hframe).frame hframe', fun _ h => (by cases h)⟩
    | some a => exact holds_rotated (hone.frame hframe) (hframe.tokens.trans hcurrent) hanswered.1

/-- A retry asks the same with the token that is now stored. -/
def RetriesOwn (request : Request) (retry : Option Request) (d : Device) : Prop :=
  ∀ again, retry = some again → again.endpoint = request.endpoint ∧ Carries again d

theorem carries_retry (request : Request) {tokens : Tokens} (htokens : d.phone.tokens = some tokens) :
    Carries (request.retry tokens) d := by
  rintro _ ⟨⟩
  exact ⟨tokens, htokens, rfl⟩

theorem holds_authenticateLocked (request : Request) (sent : String) (hone : world.OneOwner d) :
    Holds world (RetriesOwn request) (authenticateLocked world request sent) d := by
  refine holds_quiet hone trivial fun tokens d' hframe hstep => ?_
  obtain ⟨phone, hphone, rfl⟩ := hstep
  cases hphone
  cases htokens : d.phone.tokens with
  | none => exact ⟨hone.frame hframe, fun _ h => (by cases h)⟩
  | some current =>
    change Holds world (RetriesOwn request) (if current.accessToken ≠ sent then _ else _) _
    split
    · refine ⟨hone.frame hframe, ?_⟩
      rintro _ ⟨⟩
      exact ⟨rfl, carries_retry request htokens⟩
    · refine (holds_refresh (hone.frame hframe) htokens).bind fun refreshed d' hone' hrefreshed => ⟨hone', ?_⟩
      intro again hagain
      obtain ⟨tokens, rfl, rfl⟩ := Option.map_eq_some_iff.mp hagain
      exact ⟨rfl, carries_retry request (hrefreshed tokens rfl)⟩

theorem holds_synchronized {α : Type} {block : PhoneProg α} {P : α → Device → Prop} (hone : world.OneOwner d)
    (hP : ∀ a d d', d.Frame d' → P a d → P a d')
    (hblock : ∀ d', d.Frame d' → Holds world P block d') : Holds world P (synchronized block) d := by
  refine holds_quiet hone trivial fun _ d' hframe _ => ?_
  refine ((hblock d' hframe).tryCatch fun e d'' hone'' => ?_).bind fun a d'' hone'' hpost => ?_
  · exact holds_quiet hone'' trivial fun _ _ hframe' _ => hone''.frame hframe'
  · exact holds_quiet hone'' trivial fun _ _ hframe' _ => ⟨hone''.frame hframe', hP a _ _ hframe' hpost⟩

theorem Device.Frame.retries {request : Request} (hframe : d.Frame d') {retry : Option Request}
    (h : RetriesOwn request retry d) : RetriesOwn request retry d' := by
  intro again hagain
  obtain ⟨hendpoint, hcarries⟩ := h again hagain
  exact ⟨hendpoint, fun token htoken => by rw [hframe.tokens]; exact hcarries token htoken⟩

theorem holds_authenticate (request : Request) (a : Answer) (prior : Bool) (hone : world.OneOwner d) :
    Holds world (RetriesOwn request) (authenticate world request a prior) d := by
  have hnone : Holds world (RetriesOwn request) (.ret none) d := ⟨hone, fun _ h => (by cases h)⟩
  unfold authenticate
  split
  · exact hnone
  · split
    · exact (holds_endSession hone _).bind fun _ d' hone' _ => ⟨hone', fun _ h => (by cases h)⟩
    · split
      · exact hnone
      · split
        · exact hnone
        · exact holds_synchronized hone (fun _ _ _ hframe h => hframe.retries h) fun d' hframe =>
            holds_authenticateLocked request _ (hone.frame hframe)

theorem answered_unauthorized {endpoint : Endpoint} {a : Answer} (htold : Told world endpoint (some a))
    (hstatus : a.status = 401) : Answered world endpoint (some a) d := by
  refine ⟨htold, fun _ => ?_⟩
  rintro _ ⟨⟩ hsuccess
  simp [Answer.isSuccessful, hstatus] at hsuccess

theorem holds_followRetry {request : Request} (hone : world.OneOwner d) (hcarries : Carries request d) :
    Holds world (Answered world request.endpoint) (followRetry world request) d := by
  refine holds_quiet hone trivial fun response d' hframe hstep => ?_
  have hanswered := answered_of_step hcarries hstep
  cases response with
  | none => exact ⟨hone.frame hframe, hanswered⟩
  | some a =>
    change Holds world _ (if a.status = 401 then _ else _) _
    split
    · exact (holds_authenticate request a true (hone.frame hframe)).bind fun _ d'' hone'' _ =>
        ⟨hone'', answered_unauthorized hanswered.1 ‹_›⟩
    · exact ⟨hone.frame hframe, hanswered⟩

theorem holds_follow {request : Request} (hone : world.OneOwner d) (hcarries : Carries request d) :
    Holds world (Answered world request.endpoint) (follow world request) d := by
  refine holds_quiet hone trivial fun response d' hframe hstep => ?_
  have hanswered := answered_of_step hcarries hstep
  cases response with
  | none => exact ⟨hone.frame hframe, hanswered⟩
  | some a =>
    change Holds world _ (if a.status = 401 then _ else _) _
    split
    · refine (holds_authenticate request a false (hone.frame hframe)).bind fun retry d'' hone'' hretries => ?_
      cases retry with
      | none => exact ⟨hone'', answered_unauthorized hanswered.1 ‹_›⟩
      | some again =>
        obtain ⟨hendpoint, hcarries'⟩ := hretries again rfl
        rw [← hendpoint]
        exact holds_followRetry hone'' hcarries'
    · exact ⟨hone.frame hframe, hanswered⟩

theorem Device.Frame.answered {endpoint : Endpoint} {response : Response} (hframe : d.Frame d')
    (h : Answered world endpoint response d) : Answered world endpoint response d' := by
  refine ⟨h.1, fun hendpoint a ha hsuccess user huser => ?_⟩
  rw [hframe.tokens]
  exact h.2 hendpoint a ha hsuccess user huser

theorem holds_intercept (endpoint : Endpoint) (hone : world.OneOwner d) :
    Holds world (fun request d' => request.endpoint = endpoint ∧ Carries request d') (intercept endpoint) d := by
  unfold intercept
  split
  · exact ⟨hone, rfl, fun _ h => (by cases h)⟩
  · refine holds_quiet hone trivial fun tokens d' hframe hstep => ⟨hone.frame hframe, rfl, ?_⟩
    obtain ⟨phone, hphone, rfl⟩ := hstep
    cases hphone
    intro token htoken
    obtain ⟨tokens, htokens, rfl⟩ := Option.map_eq_some_iff.mp htoken
    exact ⟨tokens, htokens, rfl⟩

theorem holds_execute (endpoint : Endpoint) (hone : world.OneOwner d) :
    Holds world (Answered world endpoint) (execute world endpoint) d := by
  refine holds_quiet hone trivial fun _ d' hframe _ => ?_
  have hblock : Holds world (Answered world endpoint) (intercept endpoint >>= follow world) d' := by
    refine (holds_intercept endpoint (hone.frame hframe)).bind ?_
    rintro request d'' hone'' ⟨rfl, hcarries⟩
    exact holds_follow hone'' hcarries
  refine (hblock.tryCatch fun e d'' hone'' => ?_).bind fun response d'' hone'' hanswered => ?_
  · exact holds_quiet hone'' trivial fun _ _ hframe' _ => hone''.frame hframe'
  · exact holds_quiet hone'' trivial fun _ _ hframe' _ => ⟨hone''.frame hframe', hframe'.answered hanswered⟩

/-! ### The session -/

theorem holds_clearTokens {α : Type} {P : α → Device → Prop} {ending : Ending} {k : Unit → PhoneProg α}
    (hone : world.OneOwner d) (hk : ∀ d', world.OneOwner d' → Holds world P (k ()) d') :
    Holds world P (.call (.clearTokens ending) k) d := by
  refine ⟨hone, ?_⟩
  rintro r d' ⟨-, phone, hphone, rfl⟩
  cases hphone
  exact hk _ hone.clear_tokens

theorem holds_signedOut {α : Type} {P : α → Device → Prop} {k : Unit → PhoneProg α} (hone : world.OneOwner d)
    (hk : ∀ d', world.OneOwner d' → Holds world P (k ()) d') : Holds world P (.call .signedOut k) d := by
  refine ⟨hone, ?_⟩
  rintro r d' ⟨-, phone, hphone, rfl⟩
  cases hphone
  exact hk _ hone.signed_out

theorem holds_signOut (hone : world.OneOwner d) : Holds world (fun _ _ => True) (signOut world) d := by
  refine holds_quiet hone trivial fun tokens d' hframe _ => ?_
  have hrequest : Holds world (fun _ _ => True)
      (if tokens = none then .ret none else execute world .deleteCurrentSession) d' := by
    split
    · exact ⟨hone.frame hframe, trivial⟩
    · exact (holds_execute .deleteCurrentSession (hone.frame hframe)).mono fun _ _ _ => trivial
  refine hrequest.bind fun _ d'' hone'' _ => ?_
  exact holds_clearTokens hone'' fun _ hone => holds_signedOut hone fun _ hone => ⟨hone, trivial⟩

/-- What a `SignedIn` says of the phone. -/
def Opens (world : World) (result : SessionResult) (d : Device) : Prop :=
  ∀ user, result = .signedIn user → user.roleCode ∈ floorRoles ∧
    (∃ tokens, d.phone.tokens = some tokens ∧ world.owner tokens.accessToken = user.userId) ∧
    ∃ profile, d.phone.session = some profile ∧ profile.userId = user.userId

theorem holds_offline (hone : world.OneOwner d) : Holds world (Opens world) offline d := by
  refine holds_quiet hone trivial fun known d' hframe hstep => ?_
  obtain ⟨phone, hphone, rfl⟩ := hstep
  cases hphone
  refine holds_quiet hone trivial fun tokens d' hframe' hstep => ?_
  obtain ⟨phone, hphone, rfl⟩ := hstep
  cases hphone
  split
  · rename_i tokens profile htokens hprofile
    refine ⟨hone, ?_⟩
    rintro _ ⟨⟩
    exact ⟨hone.role profile hprofile, ⟨tokens, htokens, hone.named profile tokens hprofile htokens⟩,
      profile, hprofile, rfl⟩
  · exact ⟨hone, fun _ h => (by cases h)⟩

theorem holds_profileRefused (a : Answer) (hone : world.OneOwner d) :
    Holds world (Opens world) (profileRefused world a) d := by
  have hshown : Holds world (fun _ _ => True) (if (ApiError.from world a).status = 401 then
      .call .readLastFailure fun last => .ret (last.getD (ApiError.from world a))
    else (.ret (ApiError.from world a) : PhoneProg ApiError)) d := by
    split
    · exact holds_quiet hone trivial fun _ _ hframe _ => ⟨hone.frame hframe, trivial⟩
    · exact ⟨hone, trivial⟩
  refine hshown.bind fun shown d' hone' _ => holds_quiet hone' trivial fun tokens d'' hframe _ => ?_
  have hforget : Holds world (fun _ _ => True)
      (if tokens = none ∨ shown.code ∈ terminal then forget else .ret ()) d'' := by
    split
    · exact holds_clearTokens (hone'.frame hframe) fun _ hone => holds_signedOut hone fun _ hone => ⟨hone, trivial⟩
    · exact ⟨hone'.frame hframe, trivial⟩
  exact hforget.bind fun _ _ hone'' _ => ⟨hone'', fun _ h => (by cases h)⟩

theorem holds_profileRead {user : CurrentUser} {tokens : Tokens} (hone : world.OneOwner d)
    (htokens : d.phone.tokens = some tokens) (howner : world.owner tokens.accessToken = user.userId) :
    Holds world (Opens world) (profileRead world user) d := by
  unfold profileRead
  split
  · rename_i hrole
    refine ⟨hone, ?_⟩
    rintro r d' ⟨-, phone, hphone, rfl⟩
    cases hphone
    refine ⟨hone.signed_in htokens howner hrole, ?_⟩
    rintro _ ⟨⟩
    exact ⟨hrole, ⟨tokens, htokens, howner⟩, _, rfl, rfl⟩
  · exact (holds_signOut hone).bind fun _ _ hone' _ => ⟨hone', fun _ h => (by cases h)⟩

theorem holds_currentUser (hone : world.OneOwner d) : Holds world (Opens world) (currentUser world) d := by
  refine (holds_execute .getCurrentUser hone).bind fun response d' hone' hanswered => ?_
  cases response with
  | none => exact holds_offline hone'
  | some a =>
    change Holds world (Opens world) (bodyOf world.currentUser a >>= _) d'
    unfold bodyOf
    split
    · rename_i hbody
      split
      · rename_i user huser
        obtain ⟨tokens, htokens, howner⟩ := hanswered.2 rfl a rfl hbody.1 user huser
        exact holds_profileRead hone' htokens howner
      · exact hone'
    · exact holds_profileRefused a hone'

theorem holds_signInAnswered {email password deviceLabel : String} {a : Answer} (hone : world.OneOwner d)
    (htold : Told world (.createSession email password deviceLabel) (some a)) :
    Holds world (Opens world) (signInAnswered world a) d := by
  have hfailed : Holds world (Opens world) (.ret (.failed (ApiError.from world a).friendly)) d :=
    ⟨hone, fun _ h => (by cases h)⟩
  unfold signInAnswered bodyOf
  split
  · rename_i hbody
    split
    · rename_i tokens hread
      change Holds world (Opens world) (if a.status ≠ 201 then _ else _) d
      split
      · exact hfailed
      · refine ⟨hone, ?_⟩
        rintro r d' ⟨hsame, phone, hphone, rfl⟩
        cases hphone
        obtain ⟨hprofile, hchoice⟩ := hsame tokens rfl
        exact holds_currentUser (hone.store_tokens (htold hbody.1 tokens hread) hprofile hchoice)
    · exact hone
  · exact hfailed

theorem holds_signIn (email password deviceLabel : String) (hone : world.OneOwner d) :
    Holds world (Opens world) (signIn world email password deviceLabel) d := by
  refine (holds_execute _ hone).bind fun response d' hone' hanswered => ?_
  cases response with
  | none => exact ⟨hone', fun _ h => (by cases h)⟩
  | some a => exact holds_signInAnswered hone' hanswered.1

theorem holds_program (event : Event) (hone : world.OneOwner d) :
    Holds world (fun result d' => ∀ shown ∈ result, Opens world shown d') (event.program world) d := by
  have hresult : ∀ (result : SessionResult) d', world.OneOwner d' → Opens world result d' →
      Holds world (fun result d' => ∀ shown ∈ result, Opens world shown d') (.ret (some result)) d' := by
    intro result d' hone' hopens
    refine ⟨hone', ?_⟩
    rintro _ ⟨⟩
    exact hopens
  have hnone : ∀ d', world.OneOwner d' →
      Holds world (fun result d' => ∀ shown ∈ result, Opens world shown d') (.ret none) d' :=
    fun d' hone' => ⟨hone', fun _ h => (by cases h)⟩
  cases event with
  | signIn email password deviceLabel => exact (holds_signIn email password deviceLabel hone).bind hresult
  | currentUser => exact (holds_currentUser hone).bind hresult
  | signOut => exact (holds_signOut hone).bind fun _ d' hone' _ => hnone d' hone'
  | request endpoint => exact (holds_execute endpoint hone).bind fun _ d' hone' _ => hnone d' hone'
  | choose store => exact hnone d hone
  | restart => exact hnone d hone

/-! ### Whole runs -/

theorem oneOwner_happens {event : Event} {result : Option SessionResult} (hone : world.OneOwner d)
    (h : Happens world (heeding world) event d result d') :
    world.OneOwner d' ∧ ∀ user, result = some (.signedIn user) →
      (∃ tokens, d'.phone.tokens = some tokens ∧ world.owner tokens.accessToken = user.userId) ∧
        user.roleCode ∈ floorRoles := by
  cases h with
  | @returns _ _ _ d' hexec =>
    obtain ⟨hone', hopens⟩ := hexec.keeps (holds_program event hone)
    have huser : ∀ user, result = some (.signedIn user) → Opens world (.signedIn user) d' :=
      fun user huser => hopens result rfl _ huser
    refine ⟨hone'.shown fun user hresult => (huser user hresult user rfl).2, fun user hresult => ?_⟩
    obtain ⟨hrole, htokens, -⟩ := huser user hresult user rfl
    subst hresult
    exact ⟨htokens, hrole⟩
  | raises hexec => exact ⟨(hexec.keeps (holds_program event hone)).1, fun _ h => (by cases h)⟩
  | dies hcut => exact ⟨(hcut.keeps (holds_program event hone)).restart, fun _ h => (by cases h)⟩
  | chooses _ store => exact ⟨hone.choose store, fun _ h => (by cases h)⟩
  | restarts => exact ⟨hone.restart, fun _ h => (by cases h)⟩

theorem oneOwner_reached (h : Reached world (heeding world) d) : world.OneOwner d := by
  induction h with
  | refl => exact oneOwner_installed
  | tail _ hnext ih =>
    obtain ⟨event, result, hhappens⟩ := hnext
    exact (oneOwner_happens ih hhappens).1

/-- **The floor opens as the user of the stored session.** In every run whose sign-ins are granted sessions of the
user whose profile and store the phone still keeps, if it keeps any. -/
theorem one_floor (world : World) (h : Reached world (heeding world) d) : OneFloor world (heeding world) d := by
  have hone := oneOwner_reached h
  exact ⟨fun _ user _ hhappens => (oneOwner_happens hone hhappens).2 user rfl,
    fun user huser choice hchoice => hone.chosen user choice huser hchoice⟩

end Keeps

/-! ### Two users of one phone, one after the other -/

namespace Opening

/-- Ana's profile is answered once; a screen is told that her session is over; users-service does not answer
Ben. -/
def script : Script Unit := fun _ request =>
  match request.endpoint with
  | .createSession _ password _ => (some { status := 201, body := password }, false)
  | .getCurrentUser =>
    if request.authorization = some "a1" then (some { status := 200, body := "ana" }, false) else (none, false)
  | .read _ => (some { status := 401, body := "revoked" }, false)
  | _ => (none, false)

/-- One command by the script, within the condition or not. -/
def turn (heeds : Bool) (c : Command) (d : Device) : Option (Reply c × Device) :=
  if heeds = true → SameUser Sender.cornerWorld c d then
    (d.phone.respond Sender.cornerWorld script () c).map fun reply => (reply.1, d.after c reply.2)
  else none

theorem step_of_turn {heeds : Bool} {c : Command} {d d' : Device} {r : Reply c}
    (h : turn heeds c d = some (r, d')) :
    (heeds = true → SameUser Sender.cornerWorld c d) ∧ d.Step Sender.cornerWorld c r d' := by
  unfold turn at h
  split at h
  · obtain ⟨reply, hreply, heq⟩ := Option.map_eq_some_iff.mp h
    obtain ⟨rfl, rfl⟩ := Prod.mk.inj heq
    exact ⟨‹_›, reply.2, step_of_respond hreply, rfl⟩
  · cases h

/-- An event that comes to its end by the script. -/
def play (heeds : Bool) (d : Device) (event : Event) : Option (Option SessionResult × Device) :=
  ((event.program Sender.cornerWorld).attempt (turn heeds) d).bind fun run =>
    run.1.toOption.map fun result => (result, run.2.shown result)

theorem happens_of_play {heeds : Bool} {step : Steps} {d d' : Device} {event : Event}
    {result : Option SessionResult}
    (hstep : ∀ c d r d', turn heeds c d = some (r, d') → step c d r d')
    (h : play heeds d event = some (result, d')) : Happens Sender.cornerWorld step event d result d' := by
  obtain ⟨⟨o, last⟩, hrun, hresult⟩ := Option.bind_eq_some_iff.mp h
  cases o with
  | error e => cases hresult
  | ok value =>
    obtain ⟨rfl, rfl⟩ := Prod.mk.inj (Option.some.inj hresult)
    exact .returns (Prog.exec_of_attempt hstep hrun)

theorem heeding_of_turn (c : Command) (d : Device) (r : Reply c) (d' : Device) (h : turn true c d = some (r, d')) :
    heeding Sender.cornerWorld c d r d' :=
  ⟨(step_of_turn h).1 rfl, (step_of_turn h).2⟩

/-- Ana signs in and picks a store. -/
theorem one_floor_ana : ∃ d, Reached Sender.cornerWorld (heeding Sender.cornerWorld) d ∧ d.confirmed = some "ana" ∧
    d.chosenStore.isSome = true ∧ OneFloor Sender.cornerWorld (heeding Sender.cornerWorld) d := by
  have hends : ((play true .installed (.signIn "ana@mosaiq" "ana" "phone")).any fun run =>
      decide (run.2.confirmed = some "ana")) = true := by
    decide +kernel
  obtain ⟨⟨result, d⟩, hplay, hconfirmed⟩ := (Option.any_eq_true _ _).mp hends
  have hreached : Reached Sender.cornerWorld (heeding Sender.cornerWorld)
    (d.choose Sender.cornerWorld ⟨7, "Centro"⟩) :=
    .tail (.single ⟨_, _, happens_of_play heeding_of_turn hplay⟩) ⟨_, _, .chooses d _⟩
  exact ⟨_, hreached, of_decide_eq_true hconfirmed, rfl, one_floor Sender.cornerWorld hreached⟩

/-- Ana's session is ended by a service; Ben signs in while users-service does not answer, and the floor opens as
Ana. -/
theorem opens_as_another : ¬ ∀ d, Reached Sender.cornerWorld (Device.Step Sender.cornerWorld) d →
    OneFloor Sender.cornerWorld (Device.Step Sender.cornerWorld) d := by
  intro h
  have hturn : ∀ c d r d', turn false c d = some (r, d') → Device.Step Sender.cornerWorld c d r d' :=
    fun c d r d' hd => (step_of_turn hd).2
  have hends : ((play false .installed (.signIn "ana@mosaiq" "ana" "phone")).any fun ana =>
      (play false ana.2 (.request (.read "api/stores/v1/stores"))).any fun ended =>
        (play false ended.2 (.signIn "ben@mosaiq" "ben" "phone")).any fun ben =>
          decide (ben.1 = some (.signedIn ⟨"ana", "Ana", "STORE_MANAGER"⟩) ∧
            ben.2.phone.tokens = some ⟨"b1", "b2"⟩)) =
      true := by
    decide +kernel
  obtain ⟨ana, hana, hends⟩ := (Option.any_eq_true _ _).mp hends
  obtain ⟨ended, hended, hends⟩ := (Option.any_eq_true _ _).mp hends
  obtain ⟨⟨result, ben⟩, hben, hends⟩ := (Option.any_eq_true _ _).mp hends
  obtain ⟨rfl, htokens⟩ := of_decide_eq_true hends
  have hreached : Reached Sender.cornerWorld (Device.Step Sender.cornerWorld) ended.2 :=
    .tail (.single ⟨_, _, happens_of_play hturn hana⟩) ⟨_, _, happens_of_play hturn hended⟩
  obtain ⟨⟨tokens, hstored, howner⟩, -⟩ := (h ended.2 hreached).1 _ _ _ (happens_of_play hturn hben)
  obtain rfl := Option.some.inj (htokens.symm.trans hstored)
  exact absurd howner (by decide)

end Opening

end RetailSegmentation.Floor
