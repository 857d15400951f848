import RetailSegmentation.FloorUsersRuns
import RetailSegmentation.FloorResponder

/-! Under whose session the floor writes of a phone are sent: what each call does with the tokens, and whole
runs. -/

namespace RetailSegmentation.Floor.Sender

open Program

section Calls

variable {world : World} {holder : Holder}

/-! ### The client -/

/-- What the authenticator ends with: a retry with a token the thread may use, or the session erased. -/
def Reissued (world : World) (holder : Holder) (request : Request) (retry : Option Request) (holder' : Holder) :
    Prop :=
  (holder' = holder ∧ ∀ again, retry = some again → again.endpoint = request.endpoint ∧
    ∃ token, again.authorization = some token ∧ holder.Owns world token) ∨
  holder' = holder.erased ∧ retry = none

/-- What a refresh ends with: a pair the thread may use, or the session erased. -/
def Rotated (world : World) (holder : Holder) (refreshed : Option Tokens) (holder' : Holder) : Prop :=
  (holder' = holder ∧ ∀ tokens, refreshed = some tokens → holder.Owns world tokens.accessToken) ∨
  holder' = holder.erased ∧ refreshed = none

/-- What a call of the client ends with. -/
def Fetched (world : World) (holder : Holder) (endpoint : Endpoint) (response : Response) (holder' : Holder) :
    Prop :=
  Told world endpoint response ∧
    (holder' = holder ∨ holder' = holder.erased ∧ ∃ a, response = some a ∧ a.status = 401)

theorem follows_endSession (hsteady : holder.Steady) (sent : String) :
    (endSession sent).Follows (userProtocol world) holder
      (Contract.Ends (fun _ holder' => holder' = holder.erased) fun _ _ => True) :=
  ⟨hsteady, fun _ _ hnext => hnext⟩

theorem follows_rotated {current : Tokens} {a : Answer} (hsteady : holder.Steady)
    (hcoherent : world.Coherent current)
    (howns : holder.Owns world current.accessToken) (htold : Told world (.refreshSession current.refreshToken) (some a)) :
    (rotated world current a).Follows (userProtocol world) holder
      (Contract.Ends (Rotated world holder) fun _ _ => True) := by
  unfold rotated
  split
  · rename_i hstatus
    split
    · trivial
    · rename_i tokens hread
      obtain ⟨hsession, hpair⟩ := htold hstatus tokens hread
      have htokens : holder.Owns world tokens.accessToken := by
        intro userId rows hholder
        rw [World.owner, hsession, ← hcoherent]
        exact howns userId rows hholder
      refine ⟨⟨hsteady, hpair, htokens⟩, fun _ holder' hnext => ?_⟩
      obtain rfl : holder' = holder := hnext
      refine ⟨trivial, fun _ holder'' hnext => ?_⟩
      obtain rfl : holder'' = holder' := hnext
      refine .inl ⟨rfl, ?_⟩
      rintro _ ⟨⟩
      exact htokens
  · refine ⟨trivial, fun _ holder' hnext => ?_⟩
    obtain rfl : holder' = holder := hnext
    split
    · refine (follows_endSession hsteady current.accessToken).bind fun _ holder'' hholder => ?_
      exact .inr ⟨hholder, rfl⟩
    · exact .inl ⟨rfl, fun _ h => (by cases h)⟩

theorem follows_refresh {current : Tokens} (hsteady : holder.Steady) (hcoherent : world.Coherent current)
    (howns : holder.Owns world current.accessToken) :
    (refresh world current).Follows (userProtocol world) holder
      (Contract.Ends (Rotated world holder) fun _ _ => True) := by
  unfold refresh
  split
  · refine ⟨trivial, fun _ holder' hnext => ?_⟩
    obtain rfl : holder' = holder := hnext
    exact .inl ⟨rfl, fun _ h => (by cases h)⟩
  · refine ⟨trivial, fun response holder' hnext => ?_⟩
    obtain ⟨rfl, htold⟩ : holder' = holder ∧ _ := hnext
    cases response with
    | none =>
        refine ⟨trivial, fun _ holder'' hnext => ?_⟩
        obtain rfl : holder'' = holder' := hnext
        exact .inl ⟨rfl, fun _ h => (by cases h)⟩
    | some a => exact follows_rotated hsteady hcoherent howns htold

theorem reads_steady {tokens : Option Tokens} {holder' : Holder} (hsteady : holder.Steady)
    (h : holder.Reads world tokens holder') : holder' = holder ∧
      (∀ current, tokens = some current → world.Coherent current ∧ holder.Owns world current.accessToken) ∧
      ∀ userId rows, holder = .passing userId rows → tokens ≠ none := by
  cases holder with
  | named userId => cases hsteady
  | _ => exact h

theorem follows_authenticateLocked (request : Request) (sent : String) (hsteady : holder.Steady) :
    (authenticateLocked world request sent).Follows (userProtocol world) holder
      (Contract.Ends (Reissued world holder request) fun _ _ => True) := by
  refine ⟨trivial, fun tokens holder' hnext => ?_⟩
  obtain ⟨rfl, hreads, -⟩ := reads_steady hsteady hnext
  cases tokens with
  | none => exact .inl ⟨rfl, fun _ h => (by cases h)⟩
  | some current =>
      obtain ⟨hcoherent, howns⟩ := hreads current rfl
      change Prog.Follows _ (if current.accessToken ≠ sent then _ else _) _ _
      split
      · refine .inl ⟨rfl, ?_⟩
        rintro _ ⟨⟩
        exact ⟨rfl, current.accessToken, rfl, howns⟩
      · refine (follows_refresh hsteady hcoherent howns).bind fun refreshed holder'' hrotated => ?_
        rcases hrotated with ⟨rfl, htokens⟩ | ⟨rfl, rfl⟩
        · cases refreshed with
          | none => exact .inl ⟨rfl, fun _ h => (by cases h)⟩
          | some tokens =>
              refine .inl ⟨rfl, ?_⟩
              rintro _ ⟨⟩
              exact ⟨rfl, tokens.accessToken, rfl, htokens tokens rfl⟩
        · exact .inr ⟨rfl, rfl⟩

theorem follows_synchronized {α : Type} {block : PhoneProg α} {P : α → Holder → Prop}
    (hblock : block.Follows (userProtocol world) holder (Contract.Ends P fun _ _ => True)) :
    (synchronized block).Follows (userProtocol world) holder (Contract.Ends P fun _ _ => True) := by
  refine ⟨trivial, fun _ holder' hnext => ?_⟩
  obtain rfl : holder' = holder := hnext
  refine (hblock.tryCatch (G := fun _ _ => True) ?_).bind ?_
  · exact fun _ _ _ => ⟨trivial, fun _ _ _ => trivial⟩
  · intro a holder'' ha
    refine ⟨trivial, fun _ holder''' hnext => ?_⟩
    obtain rfl : holder''' = holder'' := hnext
    exact ha

theorem follows_authenticate (request : Request) (a : Answer) (prior : Bool) (hsteady : holder.Steady) :
    (authenticate world request a prior).Follows (userProtocol world) holder
      (Contract.Ends (Reissued world holder request) fun _ _ => True) := by
  have hnone : Reissued world holder request none holder := .inl ⟨rfl, fun _ h => (by cases h)⟩
  unfold authenticate
  split
  · exact hnone
  · split
    · refine Prog.Follows.bind (follows_endSession hsteady _) fun _ holder' hholder => ?_
      exact .inr ⟨hholder, rfl⟩
    · split
      · exact hnone
      · split
        · exact hnone
        · exact follows_synchronized (follows_authenticateLocked request _ hsteady)

theorem follows_followRetry {request : Request} (hsteady : holder.Steady)
    (hmay : userMay world (.send request) holder) :
    (followRetry world request).Follows (userProtocol world) holder
      (Contract.Ends (Fetched world holder request.endpoint) fun _ _ => True) := by
  refine ⟨hmay, fun response holder' hnext => ?_⟩
  obtain ⟨rfl, htold⟩ : holder' = holder ∧ _ := hnext
  cases response with
  | none => exact ⟨htold, .inl rfl⟩
  | some a =>
      change Prog.Follows _ (if a.status = 401 then _ else _) _ _
      split
      · refine (follows_authenticate request a true hsteady).bind fun retry holder'' hreissued => ?_
        rcases hreissued with ⟨rfl, -⟩ | ⟨rfl, -⟩
        · exact ⟨htold, .inl rfl⟩
        · exact ⟨htold, .inr ⟨rfl, a, rfl, ‹_›⟩⟩
      · exact ⟨htold, .inl rfl⟩

theorem follows_follow {request : Request} (hsteady : holder.Steady) (hmay : userMay world (.send request) holder)
    (hagain : ∀ token, holder.Owns world token →
      userMay world (.send ⟨request.endpoint, some token⟩) holder) :
    (follow world request).Follows (userProtocol world) holder
      (Contract.Ends (Fetched world holder request.endpoint) fun _ _ => True) := by
  refine ⟨hmay, fun response holder' hnext => ?_⟩
  obtain ⟨rfl, htold⟩ : holder' = holder ∧ _ := hnext
  cases response with
  | none => exact ⟨htold, .inl rfl⟩
  | some a =>
      change Prog.Follows _ (if a.status = 401 then _ else _) _ _
      split
      · refine (follows_authenticate request a false hsteady).bind fun retry holder'' hreissued => ?_
        rcases hreissued with ⟨rfl, hretry⟩ | ⟨rfl, rfl⟩
        · cases retry with
          | none => exact ⟨htold, .inl rfl⟩
          | some again =>
              obtain ⟨hendpoint, token, hbearer, howns⟩ := hretry again rfl
              obtain ⟨endpoint, bearer⟩ := again
              obtain rfl : endpoint = request.endpoint := hendpoint
              obtain rfl : bearer = some token := hbearer
              exact follows_followRetry hsteady (hagain token howns)
        · exact ⟨htold, .inr ⟨rfl, a, rfl, ‹_›⟩⟩
      · exact ⟨htold, .inl rfl⟩

theorem follows_during_call {α : Type} {block : PhoneProg α} {P : α → Holder → Prop}
    (hblock : block.Follows (userProtocol world) holder (Contract.Ends P fun _ _ => True)) :
    (during .call block).Follows (userProtocol world) holder (Contract.Ends P fun _ _ => True) := by
  refine ⟨trivial, fun _ holder' hnext => ?_⟩
  obtain rfl : holder' = holder := hnext
  refine (hblock.tryCatch (G := fun _ _ => True) ?_).bind ?_
  · exact fun _ _ _ => ⟨trivial, fun _ _ _ => trivial⟩
  · intro a holder'' ha
    refine ⟨trivial, fun _ holder''' hnext => ?_⟩
    obtain rfl : holder''' = holder'' := hnext
    exact ha

theorem follows_execute {endpoint : Endpoint} (hbeside : endpoint.Beside) :
    (execute world endpoint).Follows (userProtocol world) .idle
      (Contract.Ends (fun response holder' => holder' = .idle ∧ Told world endpoint response) fun _ _ => True) := by
  have hmay : ∀ bearer, userMay world (.send ⟨endpoint, bearer⟩) .idle := by
    intro bearer
    cases endpoint with
    | post id url body key => exact absurd rfl (hbeside id url body key)
    | _ => trivial
  have hintercept : (intercept endpoint).Follows (userProtocol world) .idle
      (Contract.Ends (fun request holder' => holder' = .idle ∧ request.endpoint = endpoint) fun _ _ => True) := by
    unfold intercept
    split
    · exact ⟨rfl, rfl⟩
    · refine ⟨trivial, fun tokens holder' hnext => ?_⟩
      obtain ⟨rfl, -⟩ := hnext
      exact ⟨rfl, rfl⟩
  apply follows_during_call
  refine hintercept.bind ?_
  rintro ⟨endpoint', bearer⟩ holder' ⟨rfl, rfl⟩
  have hidle : Holder.idle.Steady := trivial
  refine (follows_follow hidle (hmay bearer) fun token _ => hmay (some token)).weaken ?_
    fun _ _ h => h
  rintro response holder' ⟨htold, rfl | ⟨rfl, -⟩⟩
  · exact ⟨rfl, htold⟩
  · exact ⟨rfl, htold⟩

theorem follows_execute_row {row : OutboxRow} {url : String} {userId : String} {rows : List ℕ}
    (hid : row.id ∈ rows) (hurl : (row.endpoint url).unauthenticated = false) :
    (execute world (row.endpoint url)).Follows (userProtocol world) (.passing userId rows)
      (Contract.Ends (Fetched world (.passing userId rows) (row.endpoint url)) fun _ _ => True) := by
  apply follows_during_call
  unfold intercept
  rw [hurl]
  refine ⟨trivial, fun tokens holder' hnext => ?_⟩
  obtain ⟨rfl, hreads, hsome⟩ := hnext
  cases tokens with
  | none => exact absurd rfl (hsome userId rows rfl)
  | some current =>
      refine follows_follow trivial ?_ ?_
      · exact ⟨userId, rows, current.accessToken, rfl, hid, rfl, (hreads current rfl).2 userId rows rfl⟩
      · exact fun token howns => ⟨userId, rows, token, rfl, hid, rfl, howns userId rows rfl⟩

/-! ### Outside a pass -/

/-- A command that changes nothing for a thread outside a pass. -/
def Plain : Command → Prop
  | .begin work => work = .call
  | .writeTokens .. => False
  | .send request => request.endpoint.Beside
  | .insert write => write.path ∈ floorPaths
  | .pendingFor _ => False
  | _ => True

theorem plain_stays (c : Command) (hplain : Plain c) : (userProtocol world).may c .idle ∧
    ∀ r holder', (userProtocol world).next c r .idle holder' → holder' = .idle := by
  cases c with
  | begin work =>
      obtain rfl := hplain
      exact ⟨trivial, fun _ _ h => h⟩
  | finish work =>
      cases work with
      | _ => exact ⟨trivial, fun _ _ h => h⟩
  | readTokens => exact ⟨trivial, fun _ _ h => h.1⟩
  | send request =>
      obtain ⟨endpoint, bearer⟩ := request
      cases endpoint with
      | post id url body key => exact absurd rfl (hplain id url body key)
      | _ => exact ⟨trivial, fun _ _ h => h.1⟩
  | insert write => exact ⟨hplain, fun _ _ h => h⟩
  | writeTokens => cases hplain
  | pendingFor => cases hplain
  | _ => exact ⟨trivial, fun _ _ h => h⟩

/-- The thread is outside a pass when the program ends. -/
def Idles {α : Type} (world : World) (p : PhoneProg α) : Prop :=
  p.Follows (userProtocol world) .idle (Contract.Ends (fun _ holder' => holder' = .idle) fun _ _ => True)

theorem idles_of_plain {α : Type} {p : PhoneProg α} (hp : p.Issues Plain) : Idles world p :=
  (Prog.Follows.of_quiet hp (Prog.returns_true p) plain_stays).weaken (fun _ _ h => h.2) fun _ _ _ => trivial

theorem Idles.bind {α β : Type} {p : PhoneProg α} {f : α → PhoneProg β} (hp : Idles world p)
    (hf : ∀ a, Idles world (f a)) : Idles world (p >>= f) := by
  refine Prog.Follows.bind hp fun a holder' hholder => ?_
  obtain rfl := hholder
  exact hf a

theorem idles_execute {endpoint : Endpoint} (hbeside : endpoint.Beside) : Idles world (execute world endpoint) :=
  (follows_execute hbeside).weaken (fun _ _ h => h.1) fun _ _ h => h

theorem idles_bodyOf {α : Type} (read : String → Option α) (a : Answer) : Idles world (bodyOf read a) := by
  apply idles_of_plain
  unfold bodyOf
  split
  · split
    · trivial
    · trivial
  · trivial

theorem idles_signOut : Idles world (signOut world) := by
  refine ⟨trivial, fun tokens holder' hnext => ?_⟩
  obtain ⟨rfl, -⟩ := hnext
  refine Idles.bind ?_ fun _ => idles_of_plain ⟨trivial, fun _ => ⟨trivial, fun _ => trivial⟩⟩
  split
  · exact rfl
  · exact idles_execute fun _ _ _ _ h => (by cases h)

theorem idles_offline : Idles world offline := by
  refine idles_of_plain ⟨trivial, fun known => ⟨trivial, fun tokens => ?_⟩⟩
  cases tokens with
  | none => trivial
  | some _ =>
      cases known with
      | none => trivial
      | some _ => trivial

theorem idles_profileRefused (a : Answer) : Idles world (profileRefused world a) := by
  apply idles_of_plain
  refine Prog.Issues.bind ?_ fun shown => ⟨trivial, fun tokens => Prog.Issues.bind ?_ fun _ => trivial⟩
  · split
    · exact ⟨trivial, fun _ => trivial⟩
    · trivial
  · split
    · exact ⟨trivial, fun _ => ⟨trivial, fun _ => trivial⟩⟩
    · trivial

theorem idles_profileRead (user : CurrentUser) : Idles world (profileRead world user) := by
  unfold profileRead
  split
  · exact idles_of_plain ⟨trivial, fun _ => trivial⟩
  · exact idles_signOut.bind fun _ => rfl

theorem idles_currentUser : Idles world (currentUser world) := by
  refine (idles_execute fun _ _ _ _ h => (by cases h)).bind fun response => ?_
  cases response with
  | none => exact idles_offline
  | some a =>
      refine (idles_bodyOf _ a).bind fun user => ?_
      cases user with
      | none => exact idles_profileRefused a
      | some user => exact idles_profileRead user

theorem idles_signInAnswered {email password deviceLabel : String} {a : Answer}
    (htold : Told world (.createSession email password deviceLabel) (some a)) :
    Idles world (signInAnswered world a) := by
  unfold signInAnswered bodyOf
  split
  · rename_i hbody
    split
    · rename_i tokens hread
      change Idles world (if a.status ≠ 201 then _ else _)
      split
      · exact rfl
      · refine ⟨⟨trivial, htold hbody.1 tokens hread, Holder.owns_idle _ _⟩, fun _ holder' hnext => ?_⟩
        obtain rfl : holder' = .idle := hnext
        exact idles_currentUser
    · trivial
  · exact rfl

theorem idles_signIn (email password deviceLabel : String) :
    Idles world (signIn world email password deviceLabel) := by
  refine Prog.Follows.bind (follows_execute fun _ _ _ _ h => (by cases h)) fun response holder' h => ?_
  obtain ⟨rfl, htold⟩ := h
  cases response with
  | none => exact rfl
  | some a => exact idles_signInAnswered htold

theorem plain_signedInUser : signedInUser.Issues Plain := by
  refine ⟨trivial, fun userId => ?_⟩
  cases userId with
  | none => trivial
  | some _ => trivial

theorem plain_enqueue {write : NewRow} (hpath : write.path ∈ floorPaths) : (enqueue write).Issues Plain :=
  ⟨hpath, fun _ => ⟨trivial, fun _ => trivial⟩⟩

section Taps

variable {D : Type} (encoding : Encoding D)

theorem plain_queueCheckIn (storeId : ℤ) (fix : Option (Fix D)) (now : Instant) :
    (queueCheckIn encoding storeId fix now).Issues Plain :=
  Prog.Issues.bind plain_signedInUser fun _ => ⟨trivial, fun _ => plain_enqueue (by simp [floorPaths])⟩

theorem plain_queueQrScan (scan : Scan) (productId storeId : ℤ) (customerId : Option String) :
    (queueQrScan encoding scan productId storeId customerId).Issues Plain :=
  Prog.Issues.bind plain_signedInUser fun _ => plain_enqueue (by simp [floorPaths])

theorem plain_queueRecoClick (customerId : String) (storeId productId : ℤ) (labelCode : String) (rank : ℤ)
    (now : Instant) : (queueRecoClick encoding customerId storeId productId labelCode rank now).Issues Plain := by
  refine Prog.Issues.bind plain_signedInUser fun _ => ?_
  split
  · trivial
  · exact ⟨trivial, fun _ => plain_enqueue (by simp [floorPaths])⟩

theorem plain_queueSale (customerId : String) (storeId channelId : ℤ) (lines : List SaleLineRequest)
    (now : OffsetDateTime) : (queueSale encoding customerId storeId channelId lines now).Issues Plain :=
  Prog.Issues.bind plain_signedInUser fun _ => ⟨trivial, fun _ => plain_enqueue (by simp [floorPaths])⟩

end Taps

/-! ### A pass -/

/-- Resolving a path against the gateway's address keeps what the path ends with. -/
def World.ResolvesEnd (world : World) : Prop := ∀ path url, world.resolve path = some url →
  (Endpoint.read url).unauthenticated = (Endpoint.read path).unauthenticated

theorem authenticated_floorPath : ∀ path ∈ floorPaths, (Endpoint.read path).unauthenticated = false := by
  decide +kernel

section Pass

variable {userId : String} {ids : List ℕ} {row : OutboxRow}

/-- The pass goes on only while it holds a token of its user. -/
def Dealt (userId : String) (ids : List ℕ) (stop : Option WorkResult) (holder : Holder) : Prop :=
  stop = none → holder = .passing userId ids

theorem follows_mark {url : String} {response : Response}
    (hfetched : Fetched world (.passing userId ids) (row.endpoint url) response holder) :
    (mark row (.ofResponse world response)).Follows (userProtocol world) holder
      (Contract.Ends (Dealt userId ids) fun _ _ => True) := by
  rcases hfetched.2 with rfl | ⟨rfl, a, rfl, hstatus⟩
  · cases Attempt.ofResponse world response with
    | done status body correlationId replayed =>
        refine ⟨trivial, fun _ holder' hnext => ?_⟩
        obtain rfl : holder' = .passing userId ids := hnext
        exact fun _ => rfl
    | refused error =>
        refine ⟨trivial, fun _ holder' hnext => ?_⟩
        obtain rfl : holder' = .passing userId ids := hnext
        exact fun _ => rfl
    | retry => exact fun h => (by cases h)
    | waitForSession => exact fun h => (by cases h)
  · have hwaits : Attempt.ofResponse world (some a) = .waitForSession := by
      have hfails : a.isSuccessful = false := by
        unfold Answer.isSuccessful
        rw [hstatus]
        rfl
      simp [Attempt.ofResponse, Attempt.of, hfails, hstatus]
    rw [hwaits]
    exact fun h => (by cases h)

theorem follows_sendRow (hresolves : World.ResolvesEnd world) (hid : row.id ∈ ids)
    (hpath : row.write.path ∈ floorPaths) :
    (sendRow world row).Follows (userProtocol world) (.passing userId ids)
      (Contract.Ends (Dealt userId ids) fun _ _ => True) := by
  refine ⟨trivial, fun _ holder' hnext => ?_⟩
  obtain rfl : holder' = .passing userId ids := hnext
  change (sendTo world row (world.resolve row.write.path)).Follows _ _ _
  cases hurl : world.resolve row.write.path with
  | none =>
      refine ⟨trivial, fun _ holder' hnext => ?_⟩
      obtain rfl : holder' = .passing userId ids := hnext
      exact fun _ => rfl
  | some url =>
      have hend : (row.endpoint url).unauthenticated = false :=
        (hresolves _ _ hurl).trans (authenticated_floorPath _ hpath)
      exact (follows_execute_row hid hend).bind fun response holder' hfetched => follows_mark hfetched

theorem follows_sendRows (hresolves : World.ResolvesEnd world) (rows : List OutboxRow)
    (hids : ∀ row ∈ rows, row.id ∈ ids) (hpaths : ∀ row ∈ rows, row.write.path ∈ floorPaths) :
    (sendRows world rows).Follows (userProtocol world) (.passing userId ids)
      (Contract.Ends (fun _ _ => True) fun _ _ => True) := by
  induction rows with
  | nil => trivial
  | cons row rest ih =>
      have hrow := @follows_sendRow _ userId _ row hresolves (hids row List.mem_cons_self)
        (hpaths row List.mem_cons_self)
      refine hrow.bind fun stop holder' hdealt => ?_
      cases stop with
      | some result => trivial
      | none =>
          obtain rfl := hdealt rfl
          exact ih (fun row' hrow' => hids row' (List.mem_cons_of_mem _ hrow'))
            fun row' hrow' => hpaths row' (List.mem_cons_of_mem _ hrow')

theorem follows_drain (hresolves : World.ResolvesEnd world) : (drain world).Follows (userProtocol world) .started
    (Contract.Ends (fun _ _ => True) fun _ _ => True) := by
  refine ⟨trivial, fun userId holder' hnext => ?_⟩
  cases userId with
  | none => trivial
  | some userId =>
      obtain rfl : holder' = .named userId := hnext
      refine ⟨trivial, fun tokens holder' hnext => ?_⟩
      rcases hnext with ⟨rfl, rfl⟩ | ⟨current, rfl, rfl⟩
      · trivial
      · refine ⟨rfl, fun rows holder' hnext => ?_⟩
        obtain ⟨rfl, hpaths⟩ := hnext
        exact follows_sendRows hresolves rows (fun row hrow => List.mem_map_of_mem hrow) hpaths

theorem follows_doWork (hresolves : World.ResolvesEnd world) : (doWork world).Follows (userProtocol world) .idle
    (Contract.Ends (fun _ _ => True) fun _ _ => True) := by
  refine ⟨rfl, fun _ holder' hnext => ?_⟩
  obtain rfl : holder' = .started := hnext
  refine ((follows_drain hresolves).tryCatch (G := fun _ _ => True) ?_).bind ?_
  · exact fun _ _ _ => ⟨trivial, fun _ _ _ => trivial⟩
  · exact fun _ _ _ => ⟨trivial, fun _ _ _ => trivial⟩

end Pass

theorem follows_program {D : Type} (encoding : Encoding D) (hresolves : World.ResolvesEnd world) (call : Call D) :
    (call.program world encoding).Follows (userProtocol world) .idle
      (Contract.Ends (fun _ _ => True) fun _ _ => True) := by
  have hidles : ∀ {α : Type} {p : PhoneProg α} (_ : Idles world p) (f : α → Done),
      (p >>= fun a => .ret (f a)).Follows (userProtocol world) .idle
        (Contract.Ends (fun _ _ => True) fun _ _ => True) :=
    fun hp f => Prog.Follows.bind (hp.weaken (fun _ _ _ => trivial) fun _ _ h => h) fun _ _ _ => trivial
  cases call with
  | queueCheckIn storeId fix now => exact hidles (idles_of_plain (plain_queueCheckIn encoding storeId fix now)) .queued
  | queueQrScan scan productId storeId customerId =>
      exact hidles (idles_of_plain (plain_queueQrScan encoding scan productId storeId customerId)) .queued
  | queueRecoClick customerId storeId productId labelCode rank now =>
      exact hidles
        (idles_of_plain (plain_queueRecoClick encoding customerId storeId productId labelCode rank now)) .queued
  | queueSale customerId storeId channelId lines now =>
      exact hidles (idles_of_plain (plain_queueSale encoding customerId storeId channelId lines now)) .queued
  | doWork => exact (follows_doWork hresolves).bind fun _ _ _ => trivial
  | dismiss id => exact ⟨trivial, fun _ _ _ => trivial⟩
  | signIn email password deviceLabel => exact hidles (idles_signIn email password deviceLabel) .session
  | currentUser => exact hidles idles_currentUser .session
  | signOut => exact hidles idles_signOut fun _ => .signedOut
  | read url => exact hidles (idles_execute fun _ _ _ _ h => (by cases h)) .shown

end Calls

/-! ### Whole runs -/

section Runs

variable {T : Type} [DecidableEq T] {world : World}

omit [DecidableEq T] in
theorem oneUsers_installed : world.OneUsers (T := T) .installed :=
  ⟨⟨.nil, fun _ h => (by cases h)⟩, fun _ _ h => (by cases h), fun _ h => (by cases h), fun _ h => (by cases h)⟩

/-- **Floor writes are sent as the user who made them.** In every run that keeps the tokens and the user one
user's, a request for a row carries an access token of a session of the row's user. -/
theorem floor_users {D : Type} (encoding : Encoding D) (hresolves : World.ResolvesEnd world) (calls : T → Call D)
    {cfg : Config T Command Reply Thrown Done (Phone T)}
    (hrun : (userMachine T world).Reaches
      (Config.initial (fun t => (calls t).program world encoding) .installed) cfg) :
    ∀ t id url body key bearer k, cfg.threads t = some (.call (.send ⟨.post id url body key, bearer⟩) k) →
      ∀ row ∈ cfg.state.outbox, row.id = id →
        ∃ token, bearer = some token ∧ world.owner token = row.write.userId := by
  have hstart : (userContract T world).Obeys (fun _ => userProtocol world)
      (fun _ => Contract.Ends (fun _ _ => True) fun _ _ => True)
      (Config.initial (fun t => (calls t).program world encoding) .installed) :=
    Contract.Obeys.initial oneUsers_installed fun t =>
      ⟨.idle, trivial, follows_program encoding hresolves (calls t)⟩
  have hobeys := hstart.reaches userContract_implements userContract_closed hrun
  rintro t id url body key bearer k hthread row hrow rfl
  obtain ⟨holder, hat, userId, rows, token, rfl, hid, rfl, howner⟩ := hobeys.issues hthread
  obtain ⟨-, -, hrows⟩ : _ ∧ _ ∧ ∀ id ∈ rows, OfUser cfg.state userId id := hat
  exact ⟨token, rfl, howner.trans ((hrows row.id hid).2 row hrow rfl).symm⟩

end Runs

/-! ### Two users of one phone -/

section Corner

/-- Sessions 0 of Ana and 1 of Ben; answers are read off single words. -/
def cornerWorld : World where
  envelope body := if body = "revoked" then some ⟨"session_revoked", "", none⟩ else none
  tokenResult body :=
    if body = "ana" then some ⟨"a1", "a2"⟩ else if body = "ben" then some ⟨"b1", "b2"⟩ else none
  currentUser body := if body = "ana" then some ⟨"ana", "Ana", "STORE_MANAGER"⟩ else none
  resolve path := some path
  session token := if token = "a1" ∨ token = "a2" then 0 else 1
  user id := if id = 0 then "ana" else "ben"
  settles _ := false

def cornerEncoding : Encoding Unit where
  instant _ := "now"
  offsetDateTime _ := "now"
  checkIn _ := "check-in"
  engagementEvent _ := "event"
  sale _ := "sale"

inductive CornerThread where
  | ana
  | taps
  | looks
  | ben
  | works
  deriving DecidableEq

def CornerThread.all : List CornerThread := [.ana, .taps, .looks, .ben, .works]

theorem CornerThread.mem_all (t : CornerThread) : t ∈ all := by
  cases t with
  | _ => decide

/-- Ana signs in and checks in; Ben signs in; a screen reads the stores, and a pass works. -/
def cornerCalls : CornerThread → Call Unit
  | .ana => .signIn "ana@mosaiq" "ana" "phone"
  | .taps => .queueCheckIn 3 none .epoch
  | .looks => .read "api/stores/v1/stores"
  | .ben => .signIn "ben@mosaiq" "ben" "phone"
  | .works => .doWork

/-- The screen is told that the session is over, and users-service does not answer Ben. -/
def cornerScript : Script CornerThread := fun _ request =>
  match request.endpoint with
  | .createSession _ password _ => (some { status := 201, body := password }, false)
  | .getCurrentUser =>
    if request.authorization = some "a1" then (some { status := 200, body := "ana" }, false) else (none, false)
  | .read _ => (some { status := 401, body := "revoked" }, false)
  | .post .. => (some { status := 201, body := "" }, false)
  | _ => (none, false)

def cornerStart : Config CornerThread Command Reply Thrown Done (Phone CornerThread) :=
  Config.initial (fun t => (cornerCalls t).program cornerWorld cornerEncoding) .installed

def cornerTurn (t : CornerThread) (c : Command) (s : Phone CornerThread) :
    Option (Reply c × Phone CornerThread) :=
  s.respond cornerWorld cornerScript t c

/-- `OneUser`, where these are all the threads. -/
def oneUserAmong (threads : List CornerThread) (t : CornerThread) (c : Command) (s : Phone CornerThread) : Bool :=
  match c with
  | .writeTokens _ tokens =>
    decide (∀ profile ∈ s.session, profile.userId = cornerWorld.owner tokens.accessToken) &&
      decide (∀ u ∈ threads, u ≠ t → s.under .pass u = true → ∃ current ∈ s.tokens,
        cornerWorld.owner current.accessToken = cornerWorld.owner tokens.accessToken)
  | .clearTokens _ => decide (∀ u ∈ threads, u ≠ t → s.under .pass u = false)
  | .signedIn profile => decide (∀ tokens ∈ s.tokens, profile.userId = cornerWorld.owner tokens.accessToken)
  | _ => true

theorem oneUser_of_among {t : CornerThread} {c : Command} {s : Phone CornerThread}
    (h : oneUserAmong CornerThread.all t c s = true) : OneUser cornerWorld t c s := by
  cases c with
  | writeTokens origin tokens =>
      obtain ⟨hnamed, hpasses⟩ := (Bool.and_eq_true _ _).mp h
      refine ⟨fun profile hprofile => of_decide_eq_true hnamed profile hprofile, fun u hne hunder => ?_⟩
      exact of_decide_eq_true hpasses u u.mem_all hne hunder
  | clearTokens ending => exact fun u hne => of_decide_eq_true h u u.mem_all hne
  | signedIn profile => exact fun tokens htokens => of_decide_eq_true h tokens htokens
  | _ => trivial

def heedingTurn (t : CornerThread) (c : Command) (s : Phone CornerThread) :
    Option (Reply c × Phone CornerThread) :=
  if oneUserAmong CornerThread.all t c s then cornerTurn t c s else none

theorem step_of_heedingTurn (t : CornerThread) (c : Command) (s : Phone CornerThread) (r : Reply c)
    (s' : Phone CornerThread) (h : heedingTurn t c s = some (r, s')) :
    (userMachine CornerThread cornerWorld).step t c s r s' := by
  unfold heedingTurn at h
  split at h
  · exact ⟨oneUser_of_among ‹_›, step_of_respond h⟩
  · cases h

/-- The row a thread is about to send, and the token it sends with it. -/
def posting : Option (PhoneProg Done) → Option (ℕ × Option String)
  | some (.call (.send ⟨.post id _ _ _, bearer⟩) _) => some (id, bearer)
  | _ => none

theorem send_of_posting {p : Option (PhoneProg Done)} {id : ℕ} {bearer : Option String}
    (h : posting p = some (id, bearer)) :
    ∃ url body key k, p = some (.call (.send ⟨.post id url body key, bearer⟩) k) := by
  unfold posting at h
  split at h
  · obtain ⟨rfl, rfl⟩ := Prod.mk.inj (Option.some.inj h)
    exact ⟨_, _, _, _, rfl⟩
  · cases h

/-- Ana's check-in is sent with her token. -/
theorem floor_users_corner : ∃ cfg, (userMachine CornerThread cornerWorld).Reaches cornerStart cfg ∧
    ∃ row ∈ cfg.state.outbox, posting (cfg.threads .works) = some (row.id, some "a1") ∧
      cornerWorld.owner "a1" = row.write.userId := by
  have hends : ((schedule heedingTurn (List.replicate 9 .ana ++ List.replicate 4 .taps ++ List.replicate 7 .works)
      cornerStart).any fun cfg => cfg.state.outbox.any fun row =>
        decide (posting (cfg.threads .works) = some (row.id, some "a1"))) = true := by
    decide +kernel
  obtain ⟨cfg, hcfg, hposts⟩ := (Option.any_eq_true _ _).mp hends
  have hrun := Machine.reaches_of_schedule _ step_of_heedingTurn _ hcfg
  obtain ⟨row, hrow, hposting⟩ := List.any_eq_true.mp hposts
  obtain ⟨url, body, key, k, hthread⟩ := send_of_posting (of_decide_eq_true hposting)
  obtain ⟨token, htoken, howner⟩ := floor_users cornerEncoding (fun path url h => by
    obtain rfl := Option.some.inj h
    rfl) cornerCalls hrun .works row.id url body key (some "a1") k hthread row hrow rfl
  obtain rfl := Option.some.inj htoken
  exact ⟨cfg, hrun, row, hrow, of_decide_eq_true hposting, howner⟩

/-- Ana's session is ended by a service, Ben signs in while users-service does not answer, and her check-in is
sent with his token. -/
theorem sent_as_another : ∃ cfg, (phoneMachine CornerThread cornerWorld True).Reaches cornerStart cfg ∧
    ∃ e ∈ cfg.state.wire, ∃ row ∈ cfg.state.outbox, ∃ url, e.request.endpoint = row.endpoint url ∧
      ¬∃ token, e.request.authorization = some token ∧ cornerWorld.owner token = row.write.userId := by
  have hends : ((schedule cornerTurn (List.replicate 9 .ana ++ List.replicate 4 .taps ++ List.replicate 5 .looks ++
      List.replicate 10 .ben ++ List.replicate 8 .works) cornerStart).any fun cfg =>
        cfg.state.wire.any fun e => cfg.state.outbox.any fun row =>
          decide (e.request.endpoint = row.endpoint row.write.path ∧ e.request.authorization = some "b1" ∧
            row.write.userId = "ana")) = true := by
    decide +kernel
  obtain ⟨cfg, hcfg, hsent⟩ := (Option.any_eq_true _ _).mp hends
  have hturn : ∀ t c s r s', cornerTurn t c s = some (r, s') →
      (phoneMachine CornerThread cornerWorld True).step t c s r s' := fun t c s r s' h => step_of_respond h
  have hrun := Machine.reaches_of_schedule _ hturn _ hcfg
  obtain ⟨e, he, hrows⟩ := List.any_eq_true.mp hsent
  obtain ⟨row, hrow, hposted⟩ := List.any_eq_true.mp hrows
  obtain ⟨hendpoint, hbearer, huser⟩ := of_decide_eq_true hposted
  refine ⟨cfg, hrun, e, he, row, hrow, row.write.path, hendpoint, ?_⟩
  rintro ⟨token, htoken, howner⟩
  obtain rfl := Option.some.inj (hbearer.symm.trans htoken)
  rw [huser] at howner
  exact absurd howner (by decide)

end Corner
end RetailSegmentation.Floor.Sender
