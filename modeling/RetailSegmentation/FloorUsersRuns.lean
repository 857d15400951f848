import RetailSegmentation.FloorQueueRuns

/-! Whose session the phone holds, in every interleaving, and what a pass knows of it at each point of its
loop. -/

namespace RetailSegmentation.Floor

open Program

/-! ### The condition on a run -/

section Condition

variable {T : Type} (world : World)

/-- The tokens stored and the user named stay one user's, and under a pass of another thread they stay the same
user's: a sign-in stores tokens only where nobody else is named, users-service's answer names a user only where
the tokens stored are theirs, and neither another user's tokens are stored nor the tokens erased under a
pass. -/
def OneUser (t : T) (c : Command) (s : Phone T) : Prop :=
  match c with
  | .writeTokens _ tokens =>
    (∀ profile, s.session = some profile → profile.userId = world.owner tokens.accessToken) ∧
      ∀ u ≠ t, s.under .pass u = true → ∃ current, s.tokens = some current ∧
        world.owner current.accessToken = world.owner tokens.accessToken
  | .clearTokens _ => ∀ u ≠ t, s.under .pass u = false
  | .signedIn profile => ∀ tokens, s.tokens = some tokens → profile.userId = world.owner tokens.accessToken
  | _ => True

end Condition

/-! ### Where a thread stands -/

/-- Outside a pass; in one that has read nothing yet; that has read who is signed in; that goes through these
rows of that user; or whose own request has ended the session. -/
inductive Holder where
  | idle
  | started
  | named (userId : String)
  | passing (userId : String) (rows : List ℕ)
  | ended

namespace Holder

/-- The thread may use and replace the tokens. -/
def Steady : Holder → Prop
  | .idle => True
  | .passing .. => True
  | _ => False

def erased : Holder → Holder
  | .passing .. => .ended
  | holder => holder

/-- In a pass, the token is of its user's session. -/
def Owns (world : World) (holder : Holder) (token : String) : Prop :=
  ∀ userId rows, holder = .passing userId rows → world.owner token = userId

theorem owns_idle (world : World) (token : String) : Holder.idle.Owns world token :=
  fun _ _ h => (by cases h)

end Holder

def World.Coherent (world : World) (tokens : Tokens) : Prop :=
  world.session tokens.accessToken = world.session tokens.refreshToken

/-- The paths a tap stores. -/
def floorPaths : List String :=
  ["api/check-ins/v1/check-ins", "api/engagement/v1/engagement-events", "api/sales/v1/sales"]

section Users

variable {T : Type} (world : World) (s s' : Phone T)

structure World.OneUsers : Prop extends Numbered s where
  named : ∀ profile tokens, s.session = some profile → s.tokens = some tokens →
    world.owner tokens.accessToken = profile.userId
  coherent : ∀ tokens, s.tokens = some tokens → world.Coherent tokens
  paths : ∀ row ∈ s.outbox, row.write.path ∈ floorPaths

def OfUser (userId : String) (id : ℕ) : Prop :=
  id ≤ s.lastId ∧ ∀ row ∈ s.outbox, row.id = id → row.write.userId = userId

def World.Holds (t : T) : Holder → Phone T → Prop
  | .idle, _ => True
  | .started, s => s.under .pass t = true
  | .named userId, s => s.under .pass t = true ∧
      ∀ tokens, s.tokens = some tokens → world.owner tokens.accessToken = userId
  | .passing userId rows, s => s.under .pass t = true ∧
      (∃ tokens, s.tokens = some tokens ∧ world.owner tokens.accessToken = userId) ∧
      ∀ id ∈ rows, OfUser s userId id
  | .ended, s => s.under .pass t = true

/-- What a step of another thread leaves to a pass. -/
structure World.Yields (u : T) : Prop where
  under : s'.under .pass u = s.under .pass u
  lastId : s.lastId ≤ s'.lastId
  rows : ∀ row' ∈ s'.outbox, (∃ row ∈ s.outbox, SameWrite row row') ∨ s.lastId < row'.id
  owner : s.under .pass u = true → s'.tokens = s.tokens ∨ ∃ tokens tokens', s.tokens = some tokens ∧
    s'.tokens = some tokens' ∧ world.owner tokens.accessToken = world.owner tokens'.accessToken

variable {world} {s s'}

theorem OfUser.yields {userId : String} {id : ℕ} (h : OfUser s userId id) (hlastId : s.lastId ≤ s'.lastId)
    (hrows : ∀ row' ∈ s'.outbox, (∃ row ∈ s.outbox, SameWrite row row') ∨ s.lastId < row'.id) :
    OfUser s' userId id := by
  refine ⟨Nat.le_trans h.1 hlastId, fun row' hrow' hid => ?_⟩
  rcases hrows row' hrow' with ⟨row, hrow, hsame⟩ | hnew
  · rw [hsame.write]
    exact h.2 row hrow (hsame.id ▸ hid)
  · exact absurd h.1 (Nat.not_le.mpr (hid ▸ hnew))

theorem World.Holds.yields {u : T} {holder : Holder} (h : world.Holds u holder s)
    (hyields : world.Yields s s' u) : world.Holds u holder s' := by
  cases holder with
  | idle => trivial
  | started => exact hyields.under.trans h
  | named userId =>
      refine ⟨hyields.under.trans h.1, fun tokens' htokens' => ?_⟩
      rcases hyields.owner h.1 with hsame | ⟨tokens, tokens'', htokens, htokens'', howner⟩
      · exact h.2 tokens' (hsame.symm.trans htokens')
      · obtain rfl := Option.some.inj (htokens'.symm.trans htokens'')
        exact howner.symm.trans (h.2 tokens htokens)
  | passing userId rows =>
      obtain ⟨hunder, ⟨tokens, htokens, huser⟩, hrows⟩ := h
      refine ⟨hyields.under.trans hunder, ?_, fun id hid => (hrows id hid).yields hyields.lastId hyields.rows⟩
      rcases hyields.owner hunder with hsame | ⟨tokens₀, tokens', htokens₀, htokens', howner⟩
      · exact ⟨tokens, hsame.trans htokens, huser⟩
      · obtain rfl := Option.some.inj (htokens.symm.trans htokens₀)
        exact ⟨tokens', htokens', howner.symm.trans huser⟩
  | ended => exact hyields.under.trans h

/-! ### Steps that leave the tokens and the user alone -/

/-- Only the queue may change, and only as taps, passes and dismissals change it. -/
structure Aside (s s' : Phone T) : Prop where
  tokens : s'.tokens = s.tokens
  session : s'.session = s.session
  under : s'.under .pass = s.under .pass
  lastId : s.lastId ≤ s'.lastId
  rows : ∀ row' ∈ s'.outbox, (∃ row ∈ s.outbox, SameWrite row row') ∨
    s.lastId < row'.id ∧ row'.write.path ∈ floorPaths

theorem Aside.of_outbox (htokens : s'.tokens = s.tokens) (hsession : s'.session = s.session)
    (hunder : s'.under .pass = s.under .pass) (hlastId : s'.lastId = s.lastId) (houtbox : s'.outbox = s.outbox) :
    Aside s s' :=
  ⟨htokens, hsession, hunder, Nat.le_of_eq hlastId.symm,
    fun row' hrow' => .inl ⟨row', houtbox ▸ hrow', .refl row'⟩⟩

theorem Aside.yields (h : Aside s s') (u : T) : world.Yields s s' u :=
  ⟨congrFun h.under u, h.lastId, fun row' hrow' => (h.rows row' hrow').imp_right And.left, fun _ => .inl h.tokens⟩

theorem World.OneUsers.aside (hone : world.OneUsers s) (hnumbered : Numbered s') (h : Aside s s') :
    world.OneUsers s' := by
  refine ⟨hnumbered, ?_, ?_, fun row' hrow' => ?_⟩
  · rw [h.tokens, h.session]
    exact hone.named
  · rw [h.tokens]
    exact hone.coherent
  · rcases h.rows row' hrow' with ⟨row, hrow, hsame⟩ | ⟨-, hpath⟩
    · rw [hsame.write]
      exact hone.paths row hrow
    · exact hpath

theorem aside_push {write : NewRow} (hpath : write.path ∈ floorPaths) : Aside s (s.push write) := by
  refine ⟨rfl, rfl, rfl, Nat.le_succ _, fun row' hrow' => ?_⟩
  rcases List.mem_append.mp hrow' with hold | hnew
  · exact .inl ⟨row', hold, .refl row'⟩
  · obtain rfl := List.mem_singleton.mp hnew
    exact .inr ⟨Nat.lt_succ_self _, hpath⟩

theorem aside_remove (id : ℕ) : Aside s (s.remove id) :=
  ⟨rfl, rfl, rfl, Nat.le_refl _, fun row' hrow' => .inl ⟨row', (mem_remove.mp hrow').1, .refl row'⟩⟩

theorem aside_update {id : ℕ} {set : OutboxRow → OutboxRow} (hset : ∀ row, SameWrite row (set row)) :
    Aside s (s.update id set) := by
  refine ⟨rfl, rfl, rfl, Nat.le_refl _, fun row' hrow' => ?_⟩
  obtain ⟨row, hrow, rfl⟩ := mem_update.mp hrow'
  exact .inl ⟨row, hrow, sameWrite_update hset row⟩

/-! ### What a thread may do, and where it stands then -/

variable (world) in
def userMay : Command → Holder → Prop
  | .begin .pass, holder => holder = .idle
  | .writeTokens _ tokens, holder =>
    holder.Steady ∧ world.Coherent tokens ∧ holder.Owns world tokens.accessToken
  | .clearTokens _, holder => holder.Steady
  | .insert write, _ => write.path ∈ floorPaths
  | .pendingFor userId, holder => holder = .passing userId []
  | .send ⟨.post id _ _ _, bearer⟩, holder => ∃ userId rows token, holder = .passing userId rows ∧ id ∈ rows ∧
      bearer = some token ∧ world.owner token = userId
  | _, _ => True

/-- What a read of the token file tells a thread. -/
def Holder.Reads (world : World) (tokens : Option Tokens) : Holder → Holder → Prop
  | .named userId, holder' => tokens = none ∧ holder' = .named userId ∨
      ∃ current, tokens = some current ∧ holder' = .passing userId []
  | holder, holder' => holder' = holder ∧
      (∀ current, tokens = some current → world.Coherent current ∧ holder.Owns world current.accessToken) ∧
      ∀ userId rows, holder = .passing userId rows → tokens ≠ none

def Holder.readUserId : Holder → Option String → Holder
  | .started, some userId => .named userId
  | holder, _ => holder

variable (world) in
/-- The pair a sign-in or a refresh is answered with. -/
def Told : Endpoint → Response → Prop
  | .createSession .., some a => a.isSuccessful = true → ∀ tokens, world.tokenResult a.body = some tokens →
      world.Coherent tokens
  | .refreshSession refreshToken, some a => a.status = 200 → ∀ tokens, world.tokenResult a.body = some tokens →
      world.session tokens.accessToken = world.session refreshToken ∧ world.Coherent tokens
  | _, _ => True

variable (world) in
def userNext : (c : Command) → Reply c → Holder → Holder → Prop
  | .begin .pass, _, _, holder' => holder' = .started
  | .finish .pass, _, _, holder' => holder' = .idle
  | .readUserId, userId, holder, holder' => holder' = holder.readUserId userId
  | .readTokens, tokens, holder, holder' => holder.Reads world tokens holder'
  | .clearTokens _, _, holder, holder' => holder' = holder.erased
  | .pendingFor userId, rows, _, holder' => holder' = .passing userId (rows.map OutboxRow.id) ∧
      ∀ row ∈ rows, row.write.path ∈ floorPaths
  | .send request, response, holder, holder' => holder' = holder ∧ Told world request.endpoint response
  | _, _, holder, holder' => holder' = holder

variable (world) in
def userProtocol : Protocol Command Reply Holder := ⟨userMay world, userNext world⟩

variable (T world) in
def userContract : Contract T Command Reply (Phone T) Holder where
  inv s := world.OneUsers s
  at_ t holder s := world.Holds t holder s
  guar _ _ _ _ _ := True

variable {t : T} {holder : Holder} {c : Command}

theorem keeps_of_yields (hone : world.OneUsers s') (hyields : ∀ u ≠ t, world.Yields s s' u) :
    (userContract T world).Keeps t s s' :=
  ⟨hone, fun u hne _ h => World.Holds.yields h (hyields u hne)⟩

theorem aside_answers {r : Reply c} (hone : world.OneUsers s) (hat : world.Holds t holder s)
    (hnumbered : Numbered s') (h : Aside s s') (hnext : userNext world c r holder holder) :
    (userContract T world).guar t c s r s' ∧ (userContract T world).Keeps t s s' ∧
      ∃ holder', (userContract T world).at_ t holder' s' ∧ userNext world c r holder holder' :=
  ⟨trivial, keeps_of_yields (hone.aside hnumbered h) fun u _ => h.yields u, holder, hat.yields (h.yields t), hnext⟩

theorem told_of_answers {endpoint : Endpoint} {bearer : Option String} {a : Answer} {issued : List String}
    (h : world.Answers s endpoint bearer a issued) : Told world endpoint (some a) := by
  cases h with
  | signedIn email password deviceLabel bearer a tokens hread hissues hnew =>
      intro _ tokens' htokens'
      obtain rfl := Option.some.inj (hread.symm.trans htokens')
      exact hissues.2.2.2.1.trans hissues.2.2.2.2.symm
  | notSignedIn email password deviceLabel bearer a hread =>
      intro hsuccess tokens htokens
      cases (hread hsuccess).symm.trans htokens
  | refreshed refreshToken bearer a tokens hread hissues =>
      intro _ tokens' htokens'
      obtain rfl := Option.some.inj (hread.symm.trans htokens')
      exact ⟨hissues.2.2.2.1, hissues.2.2.2.1.trans hissues.2.2.2.2.symm⟩
  | notRefreshed refreshToken bearer a hread =>
      intro hstatus tokens htokens
      cases (hread hstatus).symm.trans htokens
  | _ => trivial

theorem reads_tokens (hone : world.OneUsers s) (hat : world.Holds t holder s) :
    ∃ holder', world.Holds t holder' s ∧ holder.Reads world s.tokens holder' := by
  cases holder with
  | named userId =>
      obtain ⟨hunder, hnamed⟩ := hat
      cases htokens : s.tokens with
      | none => exact ⟨.named userId, ⟨hunder, hnamed⟩, .inl ⟨rfl, rfl⟩⟩
      | some tokens =>
          refine ⟨.passing userId [], ⟨hunder, ⟨tokens, htokens, hnamed tokens htokens⟩, fun _ h => (by cases h)⟩, ?_⟩
          exact .inr ⟨tokens, rfl, rfl⟩
  | passing userId rows =>
      refine ⟨.passing userId rows, hat, rfl, fun current hcurrent => ⟨hone.coherent current hcurrent, ?_⟩, ?_⟩
      · rintro _ _ ⟨⟩
        obtain ⟨-, ⟨tokens, htokens, huser⟩, -⟩ := hat
        obtain rfl := Option.some.inj (hcurrent.symm.trans htokens)
        exact huser
      · rintro _ _ ⟨⟩ hnone
        obtain ⟨-, ⟨tokens, htokens, -⟩, -⟩ := hat
        cases hnone.symm.trans htokens
  | idle =>
      exact ⟨.idle, hat, rfl, fun current hcurrent => ⟨hone.coherent current hcurrent, Holder.owns_idle _ _⟩,
        fun _ _ h => (by cases h)⟩
  | started =>
      exact ⟨.started, hat, rfl, fun current hcurrent => ⟨hone.coherent current hcurrent, fun _ _ h => (by cases h)⟩,
        fun _ _ h => (by cases h)⟩
  | ended =>
      exact ⟨.ended, hat, rfl, fun current hcurrent => ⟨hone.coherent current hcurrent, fun _ _ h => (by cases h)⟩,
        fun _ _ h => (by cases h)⟩

section Commands

variable [DecidableEq T]

variable (T world) in
def userMachine : Machine T Command Reply (Phone T) := (phoneMachine T world True).guard (OneUser world)

omit [DecidableEq T] in
theorem yields_of_tokens {u : T} (hunder : s'.under .pass u = s.under .pass u) (hlastId : s'.lastId = s.lastId)
    (houtbox : s'.outbox = s.outbox)
    (howner : s.under .pass u = true → s'.tokens = s.tokens ∨ ∃ tokens tokens', s.tokens = some tokens ∧
      s'.tokens = some tokens' ∧ world.owner tokens.accessToken = world.owner tokens'.accessToken) :
    world.Yields s s' u :=
  ⟨hunder, Nat.le_of_eq hlastId.symm, fun row' hrow' => .inl ⟨row', houtbox ▸ hrow', .refl row'⟩, howner⟩

omit [DecidableEq T] in
theorem write_answers {origin : Origin} {tokens : Tokens} (hone : world.OneUsers s) (hat : world.Holds t holder s)
    (hmay : userMay world (.writeTokens origin tokens) holder)
    (hcond : OneUser world t (.writeTokens origin tokens) s) :
    (userContract T world).Keeps t s { s with tokens := some tokens } ∧
      world.Holds t holder { s with tokens := some tokens } := by
  obtain ⟨hsteady, hcoherent, howns⟩ := hmay
  refine ⟨keeps_of_yields ⟨hone.toNumbered.unmoved ⟨rfl, rfl, rfl, List.Subset.refl _⟩, ?_, ?_, hone.paths⟩ ?_, ?_⟩
  · rintro profile _ hprofile ⟨⟩
    exact (hcond.1 profile hprofile).symm
  · rintro _ ⟨⟩
    exact hcoherent
  · intro u hne
    refine yields_of_tokens rfl rfl rfl fun hunder => .inr ?_
    obtain ⟨current, hcurrent, howner⟩ := hcond.2 u hne hunder
    exact ⟨current, tokens, hcurrent, rfl, howner⟩
  · cases holder with
    | idle => trivial
    | passing userId rows => exact ⟨hat.1, ⟨tokens, rfl, howns userId rows rfl⟩, hat.2.2⟩
    | started => cases hsteady
    | named userId => cases hsteady
    | ended => cases hsteady

omit [DecidableEq T] in
theorem clear_answers {ending : Ending} (hone : world.OneUsers s) (hat : world.Holds t holder s)
    (hsteady : holder.Steady) (hcond : OneUser world t (.clearTokens ending) s) :
    (userContract T world).Keeps t s { s with tokens := none } ∧
      world.Holds t holder.erased { s with tokens := none } := by
  refine ⟨keeps_of_yields ⟨hone.toNumbered.unmoved ⟨rfl, rfl, rfl, List.Subset.refl _⟩, ?_, ?_, hone.paths⟩ ?_, ?_⟩
  · exact fun _ _ _ h => (by cases h)
  · exact fun _ h => (by cases h)
  · intro u hne
    refine yields_of_tokens rfl rfl rfl fun hunder => ?_
    cases (hcond u hne).symm.trans hunder
  · cases holder with
    | idle => trivial
    | passing userId rows => exact hat.1
    | started => cases hsteady
    | named userId => cases hsteady
    | ended => cases hsteady

/-- What a thread may issue keeps the tokens and the user one user's, and leads where the protocol says. -/
theorem userContract_implements :
    (userContract T world).Implements (userMachine T world) fun _ => userProtocol world := by
  rintro t c holder hmay s r s' hone hat ⟨hcond, hstep⟩
  have hnumbered := hone.toNumbered
  cases hstep with
  | readTokens =>
      obtain ⟨holder', hat', hreads⟩ := reads_tokens hone hat
      exact ⟨trivial, keeps_of_yields hone fun u _ => yields_of_tokens rfl rfl rfl fun _ => .inl rfl,
        holder', hat', hreads⟩
  | writeTokens origin tokens =>
      obtain ⟨hkeeps, hat'⟩ := write_answers hone hat hmay hcond
      exact ⟨trivial, hkeeps, holder, hat', rfl⟩
  | clearTokens ending =>
      obtain ⟨hkeeps, hat'⟩ := clear_answers hone hat hmay hcond
      exact ⟨trivial, hkeeps, holder.erased, hat', rfl⟩
  | readUserId =>
      refine ⟨trivial, keeps_of_yields hone fun u _ => yields_of_tokens rfl rfl rfl fun _ => .inl rfl,
        holder.readUserId (s.session.map Profile.userId), ?_, rfl⟩
      cases holder with
      | started =>
          cases hsession : s.session with
          | none => exact hat
          | some profile => exact ⟨hat, fun tokens htokens => hone.named profile tokens hsession htokens⟩
      | _ => exact hat
  | signedIn profile =>
      have hyields : ∀ u, world.Yields s { s with session := some profile } u :=
        fun u => yields_of_tokens rfl rfl rfl fun _ => .inl rfl
      refine ⟨trivial, keeps_of_yields ⟨hnumbered.unmoved ⟨rfl, rfl, rfl, List.Subset.refl _⟩, ?_, hone.coherent,
        hone.paths⟩ fun u _ => hyields u, holder, World.Holds.yields hat (hyields t), rfl⟩
      rintro _ tokens ⟨⟩ htokens
      exact (hcond tokens htokens).symm
  | signedOut =>
      have hyields : ∀ u, world.Yields s { s with session := none } u :=
        fun u => yields_of_tokens rfl rfl rfl fun _ => .inl rfl
      exact ⟨trivial, keeps_of_yields ⟨hnumbered.unmoved ⟨rfl, rfl, rfl, List.Subset.refl _⟩,
        fun _ _ h => (by cases h), hone.coherent, hone.paths⟩ fun u _ => hyields u, holder,
        World.Holds.yields hat (hyields t), rfl⟩
  | begin work =>
      cases work with
      | call =>
          have hmoved : Unmoved s (s.setUnder .call t true) :=
            ⟨rfl, rfl, s.setUnder_other (by simp) t true, List.Subset.refl _⟩
          exact aside_answers hone hat (hnumbered.unmoved hmoved) (.of_outbox rfl rfl hmoved.under rfl rfl) rfl
      | pass =>
          refine ⟨trivial, keeps_of_yields ⟨⟨hone.ascending, hone.limit⟩, hone.named, hone.coherent, hone.paths⟩ ?_,
            .started, s.setUnder_self .pass t true, rfl⟩
          exact fun u hne => yields_of_tokens (s.setUnder_of_ne .pass hne true) rfl rfl fun _ => .inl rfl
  | finish work =>
      cases work with
      | call =>
          have hmoved : Unmoved s (s.setUnder .call t false) :=
            ⟨rfl, rfl, s.setUnder_other (by simp) t false, List.Subset.refl _⟩
          exact aside_answers hone hat (hnumbered.unmoved hmoved) (.of_outbox rfl rfl hmoved.under rfl rfl) rfl
      | pass =>
          refine ⟨trivial, keeps_of_yields ⟨⟨hone.ascending, hone.limit⟩, hone.named, hone.coherent, hone.paths⟩ ?_,
            .idle, trivial, rfl⟩
          exact fun u hne => yields_of_tokens (s.setUnder_of_ne .pass hne false) rfl rfl fun _ => .inl rfl
  | answered request a issued recorded hanswers hrecords =>
      exact aside_answers hone hat ⟨hnumbered.ascending, hnumbered.limit⟩ (.of_outbox rfl rfl rfl rfl rfl)
        ⟨rfl, told_of_answers hanswers⟩
  | unanswered request issued recorded hissued hrecords =>
      refine aside_answers hone hat ⟨hnumbered.ascending, hnumbered.limit⟩ (.of_outbox rfl rfl rfl rfl rfl)
        ⟨rfl, ?_⟩
      cases request.endpoint with
      | _ => trivial
  | insert write => exact aside_answers hone hat (hnumbered.push write) (aside_push hmay) rfl
  | pendingFor userId =>
      obtain rfl := hmay
      obtain ⟨hunder, htokens, -⟩ := hat
      have hmem : ∀ row ∈ s.pending userId, row ∈ s.outbox ∧ row.write.userId = userId := by
        intro row hrow
        simp only [Phone.pending, List.mem_filter, decide_eq_true_eq] at hrow
        exact ⟨hrow.1, hrow.2.2⟩
      refine ⟨trivial, keeps_of_yields hone fun u _ => yields_of_tokens rfl rfl rfl fun _ => .inl rfl,
        .passing userId ((s.pending userId).map OutboxRow.id), ⟨hunder, htokens, ?_⟩, rfl,
        fun row hrow => hone.paths row (hmem row hrow).1⟩
      intro id hid
      obtain ⟨row, hrow, rfl⟩ := List.mem_map.mp hid
      refine ⟨hone.limit row (hmem row hrow).1, fun row' hrow' hid' => ?_⟩
      obtain rfl := eq_of_id hone.ascending hrow' (hmem row hrow).1 hid'
      exact (hmem row' hrow).2
  | countAttempt id =>
      have hset : ∀ row : OutboxRow, SameWrite row row.attempted := fun row => ⟨rfl, rfl⟩
      exact aside_answers hone hat (hnumbered.update hset) (aside_update hset) rfl
  | markDone id status body correlationId code =>
      have hset := fun row : OutboxRow => sameWrite_done row status body correlationId code
      exact aside_answers hone hat (hnumbered.update hset) (aside_update hset) rfl
  | markRefused id status code message correlationId =>
      have hset := fun row : OutboxRow => sameWrite_refused row status code message correlationId
      exact aside_answers hone hat (hnumbered.update hset) (aside_update hset) rfl
  | dismiss id => exact aside_answers hone hat (hnumbered.remove id) (aside_remove id) rfl
  | _ => exact aside_answers hone hat ⟨hnumbered.ascending, hnumbered.limit⟩ (.of_outbox rfl rfl rfl rfl rfl) rfl

theorem userContract_closed : (userContract T world).Closed (userMachine T world) := by
  constructor
  · intro s s' hone henv
    have haside : Aside s s' := by
      cases henv with
      | late => exact .of_outbox rfl rfl rfl rfl rfl
      | restarted => exact .of_outbox rfl rfl rfl rfl rfl
    have hnumbered : Numbered s' := by
      cases henv with
      | late => exact ⟨hone.ascending, hone.limit⟩
      | restarted => exact ⟨hone.ascending, hone.limit⟩
    exact ⟨hone.aside hnumbered haside, fun u _ h => World.Holds.yields h (haside.yields u)⟩
  · rintro t s _ hone ⟨-, rfl⟩
    refine keeps_of_yields ⟨⟨hone.ascending, hone.limit⟩, hone.named, hone.coherent, hone.paths⟩ fun u hne => ?_
    refine yields_of_tokens ?_ rfl rfl fun _ => .inl rfl
    change ((s.setUnder .call t false).setUnder .pass t false).under .pass u = s.under .pass u
    rw [Phone.setUnder_of_ne _ _ hne, Phone.setUnder_other _ (by simp)]

end Commands
end Users
end RetailSegmentation.Floor
