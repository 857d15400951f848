import RetailSegmentation.FloorQueueRuns
import RetailSegmentation.FloorResponder

/-! The queue of floor writes over whole runs: taps, passes, answers, cut connections and process deaths in
any order. -/

namespace RetailSegmentation.Floor

open Program

section Calls

variable {world : World} {stage : Stage}

/-! ### What is no part of a pass -/

/-- A command that is no part of a pass. -/
def Command.Aside (c : Command) : Prop := c.Quiet ∨ (∃ write, c = .insert write) ∨ ∃ id, c = .dismiss id

theorem quiet_stays (c : Command) (hquiet : c.Quiet) : (queueProtocol world).may c stage ∧
    ∀ r stage', (queueProtocol world).next c r stage stage' → stage' = stage := by
  cases c with
  | begin work =>
      obtain rfl := hquiet
      exact ⟨trivial, fun _ _ h => h⟩
  | finish work =>
      obtain rfl := hquiet
      exact ⟨trivial, fun _ _ h => h⟩
  | send request =>
      obtain ⟨endpoint, bearer⟩ := request
      cases endpoint with
      | post id url body key => exact absurd rfl (hquiet.2 id url body key)
      | _ => exact ⟨trivial, fun _ _ h => h⟩
  | insert => cases hquiet
  | pendingFor => cases hquiet
  | countAttempt => cases hquiet
  | markDone => cases hquiet
  | markRefused => cases hquiet
  | dismiss => cases hquiet
  | _ => exact ⟨trivial, fun _ _ h => h⟩

theorem aside_stays (c : Command) (haside : c.Aside) : (queueProtocol world).may c stage ∧
    ∀ r stage', (queueProtocol world).next c r stage stage' → stage' = stage := by
  rcases haside with hquiet | ⟨write, rfl⟩ | ⟨id, rfl⟩
  · exact quiet_stays c hquiet
  · exact ⟨trivial, fun _ _ h => h⟩
  · exact ⟨trivial, fun _ _ h => h⟩

theorem follows_quiet {α : Type} {V : α → Prop} {p : PhoneProg α} (hp : p.Issues Command.Quiet)
    (hV : p.Returns V) : p.Follows (queueProtocol world) stage
      (Contract.Ends (fun a stage' => V a ∧ stage' = stage) fun _ stage' => stage' = stage) :=
  Prog.Follows.of_quiet hp hV quiet_stays

theorem issues_intercept (endpoint : Endpoint) : (intercept endpoint).Issues Command.Quiet := by
  unfold intercept
  split
  · trivial
  · exact ⟨trivial, fun _ => trivial⟩

theorem returns_intercept (endpoint : Endpoint) :
    (intercept endpoint).Returns fun request => request.endpoint = endpoint := by
  unfold intercept
  split
  · rfl
  · exact fun _ => rfl

theorem issues_endSession (sent : String) : (endSession sent).Issues Command.Quiet := ⟨trivial, fun _ => trivial⟩

theorem issues_rotated (current : Tokens) (a : Answer) : (rotated world current a).Issues Command.Quiet := by
  unfold rotated
  split
  · split
    · trivial
    · exact ⟨trivial, fun _ => ⟨trivial, fun _ => trivial⟩⟩
  · refine ⟨trivial, fun _ => ?_⟩
    split
    · exact (issues_endSession _).bind fun _ => trivial
    · trivial

theorem issues_refresh (current : Tokens) : (refresh world current).Issues Command.Quiet := by
  unfold refresh
  split
  · exact ⟨trivial, fun _ => trivial⟩
  · refine ⟨⟨rfl, fun _ _ _ _ h => by cases h⟩, fun response => ?_⟩
    cases response with
    | none => exact ⟨trivial, fun _ => trivial⟩
    | some a => exact issues_rotated current a

theorem issues_authenticateLocked (request : Request) (sent : String) :
    (authenticateLocked world request sent).Issues Command.Quiet := by
  refine ⟨trivial, fun tokens => ?_⟩
  cases tokens with
  | none => trivial
  | some current =>
      change Prog.Issues Command.Quiet (if current.accessToken ≠ sent then _ else _)
      split
      · trivial
      · exact (issues_refresh current).bind fun _ => trivial

theorem issues_synchronized {α : Type} {block : PhoneProg α} (hblock : block.Issues Command.Quiet) :
    (synchronized block).Issues Command.Quiet := by
  refine ⟨trivial, fun _ => Prog.Issues.bind (hblock.tryCatch ?_) ?_⟩
  · exact fun _ => ⟨trivial, fun _ => trivial⟩
  · exact fun _ => ⟨trivial, fun _ => trivial⟩

theorem issues_authenticate (request : Request) (a : Answer) (prior : Bool) :
    (authenticate world request a prior).Issues Command.Quiet := by
  unfold authenticate
  split
  · trivial
  · split
    · exact Prog.Issues.bind (issues_endSession _) fun _ => trivial
    · split
      · trivial
      · split
        · trivial
        · exact issues_synchronized (issues_authenticateLocked request _)

def Retries (request : Request) (retry : Option Request) : Prop :=
  ∀ again, retry = some again → again.endpoint = request.endpoint

theorem retries_retry (request : Request) (tokens : Tokens) : Retries request (some (request.retry tokens)) := by
  rintro again ⟨⟩
  rfl

theorem returns_authenticateLocked (request : Request) (sent : String) :
    (authenticateLocked world request sent).Returns (Retries request) := by
  intro tokens
  cases tokens with
  | none => exact fun again h => by cases h
  | some current =>
      change Prog.Returns (Retries request) (if current.accessToken ≠ sent then _ else _)
      split
      · exact retries_retry request current
      · refine (Prog.returns_true (refresh world current)).bind fun refreshed _ => ?_
        cases refreshed with
        | none => exact fun again h => by cases h
        | some tokens => exact retries_retry request tokens

theorem returns_synchronized {α : Type} {V : α → Prop} {block : PhoneProg α} (hblock : block.Returns V) :
    (synchronized block).Returns V := by
  refine fun _ => Prog.Returns.bind (hblock.tryCatch ?_) ?_
  · exact fun _ _ => trivial
  · exact fun _ hV _ => hV

theorem returns_authenticate (request : Request) (a : Answer) (prior : Bool) :
    (authenticate world request a prior).Returns (Retries request) := by
  unfold authenticate
  split
  · exact fun again h => by cases h
  · split
    · refine Prog.Returns.bind (Prog.returns_true (endSession _)) fun _ _ => ?_
      exact fun again h => by cases h
    · split
      · exact fun again h => by cases h
      · split
        · exact fun again h => by cases h
        · exact returns_synchronized (returns_authenticateLocked request _)

/-! ### Calls beside the queue -/

theorem Endpoint.Beside.quiet {endpoint : Endpoint} (h : endpoint.Beside) (bearer : Option String) :
    (Command.send ⟨endpoint, bearer⟩).Quiet := by
  cases endpoint with
  | post id url body key => exact absurd rfl (h id url body key)
  | _ => exact ⟨rfl, fun _ _ _ _ h => by cases h⟩

theorem issues_followRetry {request : Request} (hbeside : request.endpoint.Beside) :
    (followRetry world request).Issues Command.Quiet := by
  refine ⟨hbeside.quiet request.authorization, fun response => ?_⟩
  cases response with
  | none => trivial
  | some a =>
      change Prog.Issues Command.Quiet (if a.status = 401 then _ else _)
      split
      · exact (issues_authenticate request a true).bind fun _ => trivial
      · trivial

theorem issues_follow {request : Request} (hbeside : request.endpoint.Beside) :
    (follow world request).Issues Command.Quiet := by
  refine ⟨hbeside.quiet request.authorization, fun response => ?_⟩
  cases response with
  | none => trivial
  | some a =>
      change Prog.Issues Command.Quiet (if a.status = 401 then _ else _)
      split
      · refine (issues_authenticate request a false).bind_of_returns (returns_authenticate request a false) ?_
        intro retry hretries
        cases retry with
        | none => trivial
        | some again =>
            apply issues_followRetry
            rw [hretries again rfl]
            exact hbeside
      · trivial

theorem issues_during {α : Type} {block : PhoneProg α} (hblock : block.Issues Command.Quiet) :
    (during .call block).Issues Command.Quiet := by
  refine ⟨rfl, fun _ => Prog.Issues.bind (hblock.tryCatch ?_) ?_⟩
  · exact fun _ => ⟨rfl, fun _ => trivial⟩
  · exact fun _ => ⟨rfl, fun _ => trivial⟩

theorem issues_execute {endpoint : Endpoint} (hbeside : endpoint.Beside) :
    (execute world endpoint).Issues Command.Quiet := by
  apply issues_during
  refine (issues_intercept endpoint).bind_of_returns (returns_intercept endpoint) ?_
  rintro request rfl
  exact issues_follow hbeside

theorem issues_bodyOf {α : Type} (read : String → Option α) (a : Answer) :
    (bodyOf read a).Issues Command.Quiet := by
  unfold bodyOf
  split
  · split
    · trivial
    · trivial
  · trivial

theorem issues_signOut : (signOut world).Issues Command.Quiet := by
  refine ⟨trivial, fun tokens => Prog.Issues.bind ?_ fun _ => ⟨trivial, fun _ => ⟨trivial, fun _ => trivial⟩⟩⟩
  split
  · trivial
  · exact issues_execute fun _ _ _ _ h => by cases h

theorem issues_offline : offline.Issues Command.Quiet := by
  refine ⟨trivial, fun known => ⟨trivial, fun tokens => ?_⟩⟩
  cases tokens with
  | none => trivial
  | some _ =>
      cases known with
      | none => trivial
      | some _ => trivial

theorem issues_profileRefused (a : Answer) : (profileRefused world a).Issues Command.Quiet := by
  refine Prog.Issues.bind ?_ fun shown => ⟨trivial, fun tokens => Prog.Issues.bind ?_ fun _ => trivial⟩
  · split
    · exact ⟨trivial, fun _ => trivial⟩
    · trivial
  · split
    · exact ⟨trivial, fun _ => ⟨trivial, fun _ => trivial⟩⟩
    · trivial

theorem issues_profileRead (user : CurrentUser) : (profileRead world user).Issues Command.Quiet := by
  unfold profileRead
  split
  · exact ⟨trivial, fun _ => trivial⟩
  · exact issues_signOut.bind fun _ => trivial

theorem issues_currentUser : (currentUser world).Issues Command.Quiet := by
  refine Prog.Issues.bind (issues_execute fun _ _ _ _ h => by cases h) fun response => ?_
  cases response with
  | none => exact issues_offline
  | some a =>
      refine Prog.Issues.bind (issues_bodyOf _ a) fun user => ?_
      cases user with
      | none => exact issues_profileRefused a
      | some user => exact issues_profileRead user

theorem issues_signIn (email password deviceLabel : String) :
    (signIn world email password deviceLabel).Issues Command.Quiet := by
  refine Prog.Issues.bind (issues_execute fun _ _ _ _ h => by cases h) fun response => ?_
  cases response with
  | none => trivial
  | some a =>
      refine Prog.Issues.bind (issues_bodyOf _ a) fun result => ?_
      cases result with
      | none => trivial
      | some tokens =>
          change Prog.Issues Command.Quiet (if a.status ≠ 201 then _ else _)
          split
          · trivial
          · exact ⟨trivial, fun _ => issues_currentUser⟩

theorem issues_signedInUser : signedInUser.Issues Command.Aside := by
  refine ⟨.inl trivial, fun userId => ?_⟩
  cases userId with
  | none => trivial
  | some _ => trivial

theorem issues_enqueue (write : NewRow) : (enqueue write).Issues Command.Aside :=
  ⟨.inr (.inl ⟨write, rfl⟩), fun _ => ⟨.inl trivial, fun _ => trivial⟩⟩

section Taps

variable {D : Type} (encoding : Encoding D)

theorem issues_queueCheckIn (storeId : ℤ) (fix : Option (Fix D)) (now : Instant) :
    (queueCheckIn encoding storeId fix now).Issues Command.Aside :=
  Prog.Issues.bind issues_signedInUser fun _ => ⟨.inl trivial, fun _ => issues_enqueue _⟩

theorem issues_queueQrScan (scan : Scan) (productId storeId : ℤ) (customerId : Option String) :
    (queueQrScan encoding scan productId storeId customerId).Issues Command.Aside :=
  Prog.Issues.bind issues_signedInUser fun _ => issues_enqueue _

theorem issues_queueRecoClick (customerId : String) (storeId productId : ℤ) (labelCode : String) (rank : ℤ)
    (now : Instant) :
    (queueRecoClick encoding customerId storeId productId labelCode rank now).Issues Command.Aside := by
  refine Prog.Issues.bind issues_signedInUser fun _ => ?_
  split
  · trivial
  · exact ⟨.inl trivial, fun _ => issues_enqueue _⟩

theorem issues_queueSale (customerId : String) (storeId channelId : ℤ) (lines : List SaleLineRequest)
    (now : OffsetDateTime) : (queueSale encoding customerId storeId channelId lines now).Issues Command.Aside :=
  Prog.Issues.bind issues_signedInUser fun _ => ⟨.inl trivial, fun _ => issues_enqueue _⟩

end Taps

/-! ### A pass -/

section Pass

variable {userId : String} {limit : ℕ} {row : OutboxRow} {rest : List OutboxRow} {known : List Answer}

/-- The pass is still at these rows. -/
def Within (userId : String) (limit : ℕ) (rows : List OutboxRow) (stage : Stage) : Prop :=
  ∃ known, stage = .sending userId limit rows known

/-- The pass has heard the answer there is. -/
def Heard (userId : String) (limit : ℕ) (rows : List OutboxRow) (response : Response) (stage : Stage) : Prop :=
  ∃ known, stage = .sending userId limit rows known ∧ ∀ a, response = some a → a ∈ known

theorem follows_followRetry {request : Request} {url : String} (hurl : world.resolve row.write.path = some url)
    (hendpoint : request.endpoint = row.endpoint url) :
    (followRetry world request).Follows (queueProtocol world) (.sending userId limit (row :: rest) known)
      (Contract.Ends (Heard userId limit (row :: rest)) fun _ => Within userId limit (row :: rest)) := by
  obtain ⟨endpoint, bearer⟩ := request
  obtain rfl : endpoint = row.endpoint url := hendpoint
  refine ⟨⟨userId, limit, row, rest, known, rfl, hurl, rfl⟩, fun response stage' hnext => ?_⟩
  obtain rfl : stage' = Stage.hear _ response := hnext
  cases response with
  | none => exact ⟨known, rfl, fun a h => by cases h⟩
  | some a =>
      have hheard : Heard userId limit (row :: rest) (some a) (.sending userId limit (row :: rest) (a :: known)) := by
        refine ⟨_, rfl, ?_⟩
        rintro _ ⟨⟩
        exact List.mem_cons_self
      change Prog.Follows _ (if a.status = 401 then _ else _) _ _
      split
      · refine (follows_quiet (issues_authenticate _ a true) (Prog.returns_true _)).weaken
          (fun _ _ h => h) (G := fun _ => Within userId limit (row :: rest)) ?_ |>.bind ?_
        · rintro _ stage' rfl
          exact ⟨_, rfl⟩
        · rintro _ stage' ⟨-, rfl⟩
          exact hheard
      · exact hheard

theorem follows_follow {request : Request} {url : String} (hurl : world.resolve row.write.path = some url)
    (hendpoint : request.endpoint = row.endpoint url) :
    (follow world request).Follows (queueProtocol world) (.sending userId limit (row :: rest) known)
      (Contract.Ends (Heard userId limit (row :: rest)) fun _ => Within userId limit (row :: rest)) := by
  obtain ⟨endpoint, bearer⟩ := request
  obtain rfl : endpoint = row.endpoint url := hendpoint
  refine ⟨⟨userId, limit, row, rest, known, rfl, hurl, rfl⟩, fun response stage' hnext => ?_⟩
  obtain rfl : stage' = Stage.hear _ response := hnext
  cases response with
  | none => exact ⟨known, rfl, fun a h => by cases h⟩
  | some a =>
      have hheard : Heard userId limit (row :: rest) (some a) (.sending userId limit (row :: rest) (a :: known)) := by
        refine ⟨_, rfl, ?_⟩
        rintro _ ⟨⟩
        exact List.mem_cons_self
      change Prog.Follows _ (if a.status = 401 then _ else _) _ _
      split
      · refine (follows_quiet (issues_authenticate _ a false) (returns_authenticate _ a false)).weaken
          (fun _ _ h => h) (G := fun _ => Within userId limit (row :: rest)) ?_ |>.bind ?_
        · rintro _ stage' rfl
          exact ⟨_, rfl⟩
        · rintro retry stage' ⟨hretries, rfl⟩
          cases retry with
          | none => exact hheard
          | some again => exact follows_followRetry hurl (hretries again rfl)
      · exact hheard

theorem follows_during_call {α : Type} {block : PhoneProg α} {P : α → Stage → Prop} {F : Thrown → Stage → Prop}
    (hblock : block.Follows (queueProtocol world) stage (Contract.Ends P F)) :
    (during .call block).Follows (queueProtocol world) stage (Contract.Ends P F) := by
  refine ⟨trivial, fun _ stage' hnext => ?_⟩
  obtain rfl : stage' = stage := hnext
  refine (hblock.tryCatch (G := F) ?_).bind ?_
  · intro e stage' he
    refine ⟨trivial, fun _ stage'' hnext => ?_⟩
    obtain rfl : stage'' = stage' := hnext
    exact he
  · intro a stage' ha
    refine ⟨trivial, fun _ stage'' hnext => ?_⟩
    obtain rfl : stage'' = stage' := hnext
    exact ha

theorem follows_execute {url : String} (hurl : world.resolve row.write.path = some url) :
    (execute world (row.endpoint url)).Follows (queueProtocol world) (.sending userId limit (row :: rest) known)
      (Contract.Ends (Heard userId limit (row :: rest)) fun _ => Within userId limit (row :: rest)) := by
  apply follows_during_call
  refine (follows_quiet (issues_intercept _) (returns_intercept _)).weaken
    (fun _ _ h => h) (G := fun _ => Within userId limit (row :: rest)) ?_ |>.bind ?_
  · rintro _ stage' rfl
    exact ⟨known, rfl⟩
  · rintro request stage' ⟨hendpoint, rfl⟩
    exact follows_follow hurl hendpoint

/-- What is left once a row has been dealt with: the pass stops, or goes on with the rest. -/
def Dealt (userId : String) (limit : ℕ) (rest : List OutboxRow) (stop : Option WorkResult)
    (stage : Stage) : Prop :=
  stop = none → Within userId limit rest stage

theorem follows_mark {response : Response} (hheard : Heard userId limit (row :: rest) response stage) :
    (mark row (.ofResponse world response)).Follows (queueProtocol world) stage
      (Contract.Ends (Dealt userId limit rest) fun _ _ => True) := by
  obtain ⟨known, rfl, hknown⟩ := hheard
  cases response with
  | none => exact fun h => by cases h
  | some a =>
      change (mark row (Attempt.of world a)).Follows _ _ _
      cases hattempt : Attempt.of world a with
      | done status body correlationId replayed =>
          refine ⟨⟨userId, limit, row, rest, known, rfl, rfl, a, hknown a rfl, Attempt.of_done hattempt⟩, ?_⟩
          intro _ stage' hnext
          obtain rfl : stage' = .sending userId limit rest [] := hnext
          exact fun _ => ⟨[], rfl⟩
      | refused error =>
          refine ⟨⟨userId, limit, row, rest, known, rfl, rfl, .inr ⟨a, hknown a rfl, error, hattempt⟩⟩, ?_⟩
          intro _ stage' hnext
          obtain rfl : stage' = .sending userId limit rest [] := hnext
          exact fun _ => ⟨[], rfl⟩
      | retry => exact fun h => by cases h
      | waitForSession => exact fun h => by cases h

theorem follows_sendRow : (sendRow world row).Follows (queueProtocol world)
    (.sending userId limit (row :: rest) known) (Contract.Ends (Dealt userId limit rest) fun _ _ => True) := by
  refine ⟨⟨userId, limit, row, rest, known, rfl, rfl⟩, fun _ stage' hnext => ?_⟩
  obtain rfl : stage' = .sending userId limit (row :: rest) known := hnext
  change (sendTo world row (world.resolve row.write.path)).Follows _ _ _
  cases hurl : world.resolve row.write.path with
  | none =>
      refine ⟨⟨userId, limit, row, rest, known, rfl, rfl, .inl hurl⟩, fun _ stage' hnext => ?_⟩
      obtain rfl : stage' = .sending userId limit rest [] := hnext
      exact fun _ => ⟨[], rfl⟩
  | some url =>
      refine ((follows_execute hurl).weaken (fun _ _ h => h) fun _ _ _ => trivial).bind ?_
      exact fun response stage' hheard => follows_mark hheard

theorem follows_sendRows (rows : List OutboxRow) (known : List Answer) :
    (sendRows world rows).Follows (queueProtocol world) (.sending userId limit rows known)
      (Contract.Ends (fun _ _ => True) fun _ _ => True) := by
  induction rows generalizing known with
  | nil => trivial
  | cons row rest ih =>
      refine Prog.Follows.bind (p := sendRow world row) follows_sendRow fun stop stage' hdealt => ?_
      cases stop with
      | some result => trivial
      | none =>
          obtain ⟨known', rfl⟩ := hdealt rfl
          exact ih known'

theorem follows_drain : (drain world).Follows (queueProtocol world) .started
    (Contract.Ends (fun _ _ => True) fun _ _ => True) := by
  refine ⟨trivial, fun signedIn stage' hnext => ?_⟩
  obtain rfl : stage' = .started := hnext
  cases signedIn with
  | none => trivial
  | some signedIn =>
      refine ⟨trivial, fun tokens stage' hnext => ?_⟩
      obtain rfl : stage' = .started := hnext
      change Prog.Follows _ (if tokens = none then _ else _) _ _
      split
      · trivial
      · refine ⟨rfl, fun rows stage' hnext => ?_⟩
        obtain ⟨limit, rfl⟩ := hnext
        exact follows_sendRows rows []

theorem follows_doWork : (doWork world).Follows (queueProtocol world) .idle
    (Contract.Ends (fun _ _ => True) fun _ _ => True) := by
  refine ⟨rfl, fun _ stage' hnext => ?_⟩
  obtain rfl : stage' = .started := hnext
  refine (follows_drain.tryCatch (G := fun _ _ => True) ?_).bind ?_
  · exact fun _ _ _ => ⟨trivial, fun _ _ _ => trivial⟩
  · exact fun _ _ _ => ⟨trivial, fun _ _ _ => trivial⟩

end Pass

theorem follows_program {D : Type} (encoding : Encoding D) (call : Call D) :
    (call.program world encoding).Follows (queueProtocol world) .idle
      (Contract.Ends (fun _ _ => True) fun _ _ => True) := by
  have haside : ∀ {α : Type} {p : PhoneProg α} (_ : p.Issues Command.Aside) (f : α → Done),
      (p >>= fun a => .ret (f a)).Follows (queueProtocol world) .idle
        (Contract.Ends (fun _ _ => True) fun _ _ => True) := by
    intro α p hp f
    refine ((Prog.Follows.of_quiet hp (Prog.returns_true p) aside_stays).weaken (fun _ _ h => h)
      (G := fun _ _ => True) fun _ _ _ => trivial).bind fun _ _ _ => trivial
  have hquiet : ∀ {α : Type} {p : PhoneProg α} (_ : p.Issues Command.Quiet), p.Issues Command.Aside :=
    fun hp => hp.mono fun _ => .inl
  cases call with
  | queueCheckIn storeId fix now => exact haside (issues_queueCheckIn encoding storeId fix now) .queued
  | queueQrScan scan productId storeId customerId =>
      exact haside (issues_queueQrScan encoding scan productId storeId customerId) .queued
  | queueRecoClick customerId storeId productId labelCode rank now =>
      exact haside (issues_queueRecoClick encoding customerId storeId productId labelCode rank now) .queued
  | queueSale customerId storeId channelId lines now =>
      exact haside (issues_queueSale encoding customerId storeId channelId lines now) .queued
  | doWork => exact follows_doWork.bind fun _ _ _ => trivial
  | dismiss id => exact ⟨trivial, fun _ _ _ => trivial⟩
  | signIn email password deviceLabel => exact haside (hquiet (issues_signIn email password deviceLabel)) .session
  | currentUser => exact haside (hquiet issues_currentUser) .session
  | signOut => exact haside (hquiet issues_signOut) fun _ => .signedOut
  | read url => exact haside (hquiet (issues_execute fun _ _ _ _ h => by cases h)) .shown

/-! ### Whole runs -/

section Runs

variable {T : Type} [DecidableEq T] {s s' : Phone T} {t : T}

omit [DecidableEq T] in
theorem unmoved_of_env (h : s.Env s') : Unmoved s s' := by
  cases h with
  | late => exact ⟨rfl, rfl, rfl, List.Subset.refl _⟩
  | restarted => exact ⟨rfl, rfl, rfl, List.Subset.refl _⟩

theorem leaves_abandon {u : T} (hne : u ≠ t) : Leaves s (s.abandon t) u := by
  refine ⟨?_, Nat.le_refl _, List.Subset.refl _, fun row hrow h => ⟨row, hrow, .refl row, h⟩,
    fun row hrow h => .inl ⟨row, hrow, .refl row, h⟩⟩
  change ((s.setUnder .call t false).setUnder .pass t false).under .pass u = s.under .pass u
  rw [Phone.setUnder_of_ne _ _ hne, Phone.setUnder_other _ (by simp)]

theorem World.Queued.abandon (hqueued : world.Queued s) : world.Queued (s.abandon t) := by
  have hcall : Unmoved s (s.setUnder .call t false) :=
    ⟨rfl, rfl, s.setUnder_other (by simp) t false, List.Subset.refl _⟩
  have hpass := (hqueued.unmoved hcall).setUnder (t := t) false (by simp)
  exact hpass.unmoved ⟨rfl, rfl, rfl, List.Subset.refl _⟩

theorem queueContract_closed :
    (queueContract T world).Closed ((queueMachine T world).restrict (Heeds world)) := by
  refine ⟨fun s s' hqueued henv => ?_, ?_⟩
  · have hmoved := unmoved_of_env henv
    exact ⟨hqueued.unmoved hmoved, fun u _ h => World.At.leaves h (hmoved.leaves u)⟩
  · rintro t s _ hqueued ⟨-, rfl⟩
    exact ⟨hqueued.abandon, fun u hne _ h => World.At.leaves h (leaves_abandon hne)⟩

omit [DecidableEq T] in
theorem queued_installed : world.Queued (T := T) .installed :=
  ⟨⟨.nil, fun _ h => (by cases h)⟩, fun _ h => (by cases h), fun _ h => (by cases h), fun _ _ h => (by cases h)⟩

/-- The request is a pending row, exactly as it is stored, and no older row of its user is pending. -/
def World.SentInTurn (world : World) (s : Phone T) (id : ℕ) (url body : String) (key : Option String) : Prop :=
  ∃ row ∈ s.outbox, row.id = id ∧ row.state = .pending ∧ world.resolve row.write.path = some url ∧
    .post id url body key = row.endpoint url ∧
    ∀ older ∈ s.outbox, older.id < id → older.write.userId = row.write.userId → older.state ≠ .pending

omit [DecidableEq T] in
theorem World.Sending.inTurn {userId : String} {limit : ℕ} {row : OutboxRow} {rest : List OutboxRow}
    {known : List Answer} (h : world.Sending s t userId limit (row :: rest) known) {id : ℕ} {url body : String}
    {key : Option String} (hurl : world.resolve row.write.path = some url)
    (hendpoint : .post id url body key = row.endpoint url) : world.SentInTurn s id url body key := by
  obtain ⟨stored, hstored, hsame, hpending⟩ := h.present row List.mem_cons_self
  obtain rfl : id = row.id := (Endpoint.post.inj hendpoint).1
  refine ⟨stored, hstored, hsame.id, hpending, hsame.write ▸ hurl, hendpoint.trans (hsame.endpoint url).symm, ?_⟩
  intro older holder hlt huser hwaits
  have hwithin : older.id ≤ limit := Nat.le_trans (Nat.le_of_lt hlt) (h.upTo row List.mem_cons_self)
  obtain ⟨row', hrow', hsame'⟩ := h.covers older holder hwaits
    (huser.trans (hsame.write ▸ h.user row List.mem_cons_self)) hwithin
  rcases List.mem_cons.mp hrow' with rfl | hrest
  · exact Nat.ne_of_lt hlt hsame'.id
  · exact Nat.lt_asymm hlt (hsame'.id ▸ (List.pairwise_cons.mp h.ascending).1 row' hrest)

omit [DecidableEq T] in
theorem obeying_installed {D : Type} (encoding : Encoding D) (calls : T → Call D) :
    (queueContract T world).Obeys (fun _ => queueProtocol world)
      (fun _ => Contract.Ends (fun _ _ => True) fun _ _ => True)
      (Config.initial (fun t => (calls t).program world encoding) .installed) :=
  Contract.Obeys.initial queued_installed fun t => ⟨.idle, rfl, follows_program encoding (calls t)⟩

theorem queueKept_of_step {Q : T → Except Thrown Done → Stage → Prop}
    {cfg cfg' : Config T Command Reply Thrown Done (Phone T)}
    (hobeys : (queueContract T world).Obeys (fun _ => queueProtocol world) Q cfg)
    (hstep : ((queueMachine T world).restrict (Heeds world)).Step cfg cfg') :
    world.QueueKept cfg.state cfg'.state := by
  cases hstep with
  | command hthread hstep => exact hobeys.guar queueContract_implements hthread hstep
  | env henv => exact (unmoved_of_env henv).queueKept
  | halt hhalt =>
      obtain ⟨-, rfl⟩ := hhalt
      exact ⟨fun row hrow => .inl ⟨row, hrow, .refl row⟩, fun row hrow => .inl ⟨row, hrow, .refl row⟩⟩

/-- **The queue of floor writes.** In every run whose answers heed the condition, a row only moves from PENDING
to DONE or REFUSED, and for a good reason, nothing but a refused row is deleted and nothing but a tap adds one;
a row is sent as it is stored, and only when no older row of its user is pending; and a sale was refused while
sales-service did not hold it. -/
theorem floor_queue {D : Type} (encoding : Encoding D) (calls : T → Call D)
    {cfg : Config T Command Reply Thrown Done (Phone T)}
    (hrun : ((queueMachine T world).restrict (Heeds world)).Reaches
      (Config.initial (fun t => (calls t).program world encoding) .installed) cfg) :
    (∀ cfg', ((queueMachine T world).restrict (Heeds world)).Step cfg cfg' →
      world.QueueKept cfg.state cfg'.state) ∧
    (∀ t id url body key bearer k, cfg.threads t = some (.call (.send ⟨.post id url body key, bearer⟩) k) →
      world.SentInTurn cfg.state id url body key) ∧
    ∀ row ∈ cfg.state.outbox, row.write.operation = .sale → row.state = .refused →
      world.FinallyRefused cfg.state.wire row := by
  have hobeys := (obeying_installed encoding calls).reaches queueContract_implements queueContract_closed hrun
  refine ⟨fun cfg' hstep => queueKept_of_step hobeys hstep, ?_, ?_⟩
  · intro t id url body key bearer k hthread
    obtain ⟨stage, hat, userId, limit, row, rest, known, rfl, hurl, hendpoint⟩ := hobeys.issues hthread
    exact World.Sending.inTurn hat hurl hendpoint
  · exact fun row hrow _ hrefused => hobeys.inv.refused row hrow hrefused

end Runs

/-! ### A sale that is sent once -/

section Corner

/-- Services whose answers are read off single words. -/
def cornerWorld : World where
  envelope _ := none
  tokenResult body := if body = "pair" then some ⟨"a1", "r1"⟩ else none
  currentUser body := if body = "ana" then some ⟨"ana", "Ana", "STORE_MANAGER"⟩ else none
  resolve path := some path
  session _ := 0
  user _ := "ana"
  settles a := a.status = 409

def cornerEncoding : Encoding Unit where
  instant _ := "now"
  offsetDateTime _ := "now"
  checkIn _ := "check-in"
  engagementEvent _ := "event"
  sale _ := "sale"

inductive CornerThread where
  | signsIn
  | sells
  | works
  deriving DecidableEq

def cornerTime : OffsetDateTime := ⟨.epoch, 0⟩

/-- Ana signs in, sells one thing, and a pass sends the sale. -/
def cornerCalls : CornerThread → Call Unit
  | .signsIn => .signIn "ana@mosaiq" "secret" "phone"
  | .sells => .queueSale "c1" 3 1 [] cornerTime
  | .works => .doWork

/-- The sale is answered `status`, and recorded or not. -/
def cornerScript (status : ℕ) (records : Bool) : Script CornerThread := fun _ request =>
  match request.endpoint with
  | .createSession .. => (some { status := 201, body := "pair" }, false)
  | .getCurrentUser => (some { status := 200, body := "ana" }, false)
  | .post .. => (some { status := status, body := "" }, records)
  | _ => (none, false)

def cornerTurns : List CornerThread :=
  List.replicate 9 .signsIn ++ List.replicate 4 .sells ++ List.replicate 11 .works

/-- A command of a thread, where it begins no second pass. -/
def cornerTurn (status : ℕ) (records : Bool) (t : CornerThread) (c : Command) (s : Phone CornerThread) :
    Option (Reply c × Phone CornerThread) :=
  if c.beginsPass && [CornerThread.signsIn, .sells, .works].any (s.under .pass) then none
  else s.respond cornerWorld (cornerScript status records) t c

def cornerStart : Config CornerThread Command Reply Thrown Done (Phone CornerThread) :=
  Config.initial (fun t => (cornerCalls t).program cornerWorld cornerEncoding) .installed

theorem step_of_cornerTurn {status : ℕ} {records : Bool} (t : CornerThread) (c : Command)
    (s : Phone CornerThread) (r : Reply c) (s' : Phone CornerThread)
    (h : cornerTurn status records t c s = some (r, s')) :
    (queueMachine CornerThread cornerWorld).step t c s r s' := by
  unfold cornerTurn at h
  split at h
  · cases h
  · rename_i hfree
    refine ⟨?_, step_of_respond h⟩
    rintro rfl u
    simp only [Command.beginsPass, Bool.true_and, List.any_cons, List.any_nil, Bool.or_false, Bool.or_eq_true,
      not_or, Bool.not_eq_true] at hfree
    cases u with
    | signsIn => exact hfree.1
    | sells => exact hfree.2.1
    | works => exact hfree.2.2

theorem heeds_of_cornerTurn {records : Bool} (t : CornerThread) (c : Command) (s : Phone CornerThread)
    (r : Reply c) (s' : Phone CornerThread) (h : cornerTurn 409 records t c s = some (r, s')) :
    Heeds cornerWorld t c s r := by
  cases c with
  | send request =>
      obtain ⟨endpoint, bearer⟩ := request
      cases endpoint with
      | post id url body key =>
          cases r with
          | none => trivial
          | some a =>
              have hsent : s.sent cornerWorld (cornerScript 409 records) ⟨.post id url body key, bearer⟩ =
                  some (some a, s') := h
              obtain rfl : ({ status := 409, body := "" } : Answer) = a := Option.some.inj (script_of_sent hsent)
              exact ⟨.inr (.inl ⟨by decide, by decide⟩), fun _ => .inl rfl⟩
      | _ => trivial
  | _ => trivial

/-- Ana's sale is refused with a 409, which heeds the condition. -/
theorem floor_queue_corner : ∃ cfg, ((queueMachine CornerThread cornerWorld).restrict (Heeds cornerWorld)).Reaches
    cornerStart cfg ∧ (∃ row ∈ cfg.state.outbox, row.state = .refused) ∧
    ∀ row ∈ cfg.state.outbox, row.write.operation = .sale → row.state = .refused →
      cornerWorld.FinallyRefused cfg.state.wire row := by
  have hends : ((schedule (cornerTurn 409 false) cornerTurns cornerStart).any fun cfg =>
      cfg.state.outbox.any fun row => row.state = .refused) = true := by
    decide +kernel
  obtain ⟨cfg, hcfg, hrefused⟩ := (Option.any_eq_true _ _).mp hends
  have hturn : ∀ t c s r s', cornerTurn 409 false t c s = some (r, s') →
      ((queueMachine CornerThread cornerWorld).restrict (Heeds cornerWorld)).step t c s r s' :=
    fun t c s r s' h => ⟨heeds_of_cornerTurn t c s r s' h, step_of_cornerTurn t c s r s' h⟩
  have hrun := Machine.reaches_of_schedule _ hturn _ hcfg
  obtain ⟨row, hrow, hstate⟩ := List.any_eq_true.mp hrefused
  exact ⟨cfg, hrun, ⟨row, hrow, of_decide_eq_true hstate⟩, (floor_queue cornerEncoding cornerCalls hrun).2.2⟩

def undecided (wire : List Exchange) : Bool :=
  wire.all fun e => e.response.all fun a => decide (¬a.FinalRefusal)

/-- Ana's sale is recorded and answered 500: the row is refused, and nothing said that it was not recorded. -/
theorem sale_lost : ∃ cfg, (queueMachine CornerThread cornerWorld).Reaches cornerStart cfg ∧
    ∃ row ∈ cfg.state.outbox, row.write.operation = .sale ∧ row.state = .refused ∧
      row.write.clientId ∈ cfg.state.recorded ∧ ¬cornerWorld.FinallyRefused cfg.state.wire row := by
  have hends : ((schedule (cornerTurn 500 true) cornerTurns cornerStart).any fun cfg =>
      undecided cfg.state.wire && cfg.state.outbox.any fun row => decide (row.write.operation = .sale ∧
        row.state = .refused ∧ row.write.clientId ∈ cfg.state.recorded)) = true := by
    decide +kernel
  obtain ⟨cfg, hcfg, hlost⟩ := (Option.any_eq_true _ _).mp hends
  have hrun := Machine.reaches_of_schedule _ (fun t c s r s' => step_of_cornerTurn t c s r s') _ hcfg
  obtain ⟨hundecided, hrefused⟩ := (Bool.and_eq_true _ _).mp hlost
  obtain ⟨row, hrow, hstate⟩ := List.any_eq_true.mp hrefused
  obtain ⟨hsale, hstate, hrecorded⟩ := of_decide_eq_true hstate
  refine ⟨cfg, hrun, row, hrow, hsale, hstate, hrecorded, ?_⟩
  rintro (hpath | ⟨a, ⟨e, he, _, _, _, hresponse, _⟩, hfinal⟩)
  · cases hpath
  · have hanswers := List.all_eq_true.mp hundecided e he
    rw [hresponse] at hanswers
    exact of_decide_eq_true hanswers hfinal

end Corner

end Calls
end RetailSegmentation.Floor
