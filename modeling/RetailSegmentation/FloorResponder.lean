import RetailSegmentation.FloorPhone

/-! The phone run by a script: what the services answer to each request is read off it, and checked against
what they may answer. -/

namespace RetailSegmentation.Floor

open Program

section Scripts

variable {T : Type} (world : World)

/-- What a request is answered, and whether it leaves its sale recorded. -/
abbrev Script (T : Type) := Phone T → Request → Response × Bool

instance (s : Phone T) (tokens : Tokens) (id : ℕ) : Decidable (world.Issues s tokens id) :=
  inferInstanceAs (Decidable (_ ∧ _ ∧ _ ∧ _ ∧ _))

def World.issuedBySignIn (s : Phone T) (a : Answer) : Option (List String) :=
  match world.tokenResult a.body with
  | none => some []
  | some tokens =>
    if world.Issues s tokens (world.session tokens.accessToken) ∧
        ∀ token ∈ s.issued, world.session token ≠ world.session tokens.accessToken then
      some [tokens.accessToken, tokens.refreshToken]
    else none

def World.issuedByRefresh (s : Phone T) (refreshToken : String) (a : Answer) : Option (List String) :=
  match world.tokenResult a.body with
  | none => some []
  | some tokens =>
    if world.Issues s tokens (world.session refreshToken) then some [tokens.accessToken, tokens.refreshToken]
    else none

def World.namedBy (bearer : Option String) (a : Answer) : Option (List String) :=
  match world.currentUser a.body, bearer with
  | none, _ => some []
  | some _, none => none
  | some user, some token => if user.userId = world.owner token then some [] else none

/-- The tokens an answer issues; `none` where it may not be given. -/
def World.issuedBy (s : Phone T) (endpoint : Endpoint) (bearer : Option String) (a : Answer) :
    Option (List String) :=
  match endpoint with
  | .createSession .. => world.issuedBySignIn s a
  | .refreshSession refreshToken => world.issuedByRefresh s refreshToken a
  | .getCurrentUser => world.namedBy bearer a
  | _ => some []

variable {world} in
theorem answers_of_issuedBy {s : Phone T} {endpoint : Endpoint} {bearer : Option String} {a : Answer}
    {issued : List String} (h : world.issuedBy s endpoint bearer a = some issued) :
    world.Answers s endpoint bearer a issued := by
  cases endpoint with
  | createSession email password deviceLabel =>
      change world.issuedBySignIn s a = some issued at h
      unfold World.issuedBySignIn at h
      split at h
      · obtain rfl := Option.some.inj h
        exact .notSignedIn email password deviceLabel bearer a fun _ => ‹_›
      · split at h
        · rename_i hissues
          obtain rfl := Option.some.inj h
          exact .signedIn email password deviceLabel bearer a _ ‹_› hissues.1 hissues.2
        · cases h
  | refreshSession refreshToken =>
      change world.issuedByRefresh s refreshToken a = some issued at h
      unfold World.issuedByRefresh at h
      split at h
      · obtain rfl := Option.some.inj h
        exact .notRefreshed refreshToken bearer a fun _ => ‹_›
      · split at h
        · obtain rfl := Option.some.inj h
          exact .refreshed refreshToken bearer a _ ‹_› ‹_›
        · cases h
  | deleteCurrentSession =>
      obtain rfl := Option.some.inj h
      exact .deleted bearer a
  | getCurrentUser =>
      change world.namedBy bearer a = some issued at h
      unfold World.namedBy at h
      split at h
      · rename_i hnone
        obtain rfl := Option.some.inj h
        exact .user _ a fun _ user huser => by cases hnone.symm.trans huser
      · cases h
      · rename_i user token hread
        split at h
        · rename_i howner
          obtain rfl := Option.some.inj h
          refine .user (some token) a fun _ user' huser' => ⟨token, rfl, ?_⟩
          obtain rfl := Option.some.inj (hread.symm.trans huser')
          exact howner
        · cases h
  | post row url body key =>
      obtain rfl := Option.some.inj h
      exact .posted row url body key bearer a
  | read url =>
      obtain rfl := Option.some.inj h
      exact .shown url bearer a

/-- What sales-service has recorded after the request, where it `records` its sale. -/
def recordedBy (s : Phone T) (request : Request) (records : Bool) : List String :=
  if records then request.saleKey.toList ++ s.recorded else s.recorded

def World.Fits (s : Phone T) (request : Request) (a : Answer) (records : Bool) : Prop :=
  (a.isSuccessful = true → request.saleKey.isSome = true → records = true) ∧
    (a.FinalRefusal → records = false ∧ ∀ key ∈ request.saleKey, key ∉ s.recorded)

instance (s : Phone T) (request : Request) (a : Answer) (records : Bool) :
    Decidable (World.Fits s request a records) :=
  inferInstanceAs (Decidable (_ ∧ _))

theorem subset_recordedBy (s : Phone T) (request : Request) (records : Bool) :
    s.recorded ⊆ recordedBy s request records := by
  unfold recordedBy
  split
  · exact List.subset_append_right _ _
  · exact List.Subset.refl _

theorem own_recordedBy (s : Phone T) (request : Request) (records : Bool) :
    ∀ key ∈ recordedBy s request records, key ∈ s.recorded ∨ request.saleKey = some key := by
  intro key hkey
  unfold recordedBy at hkey
  split at hkey
  · rcases List.mem_append.mp hkey with hnew | hold
    · exact .inr (Option.mem_toList.mp hnew)
    · exact .inl hold
  · exact .inl hkey

variable {world} in
theorem records_of_fits {s : Phone T} {request : Request} {a : Answer} {records : Bool}
    (h : World.Fits s request a records) : world.Records s request (some a) (recordedBy s request records) := by
  refine ⟨subset_recordedBy s request records, own_recordedBy s request records, ?_, ?_, ?_⟩
  · rintro _ ⟨⟩ hsuccess key hkey
    obtain rfl := h.1 hsuccess (Option.isSome_iff_exists.mpr ⟨key, hkey⟩)
    refine List.mem_append_left _ ?_
    rw [hkey]
    exact List.mem_singleton_self key
  · rintro _ ⟨⟩ hfinal
    obtain rfl := (h.2 hfinal).1
    rfl
  · rintro _ ⟨⟩ hfinal - key hkey
    exact (h.2 hfinal).2 key hkey

variable {world} in
theorem records_none (s : Phone T) (request : Request) (records : Bool) :
    world.Records s request none (recordedBy s request records) :=
  ⟨subset_recordedBy s request records, own_recordedBy s request records, fun _ h => (by cases h),
    fun _ h => (by cases h), fun _ h => (by cases h)⟩

def Phone.sent (script : Script T) (s : Phone T) (request : Request) : Option (Response × Phone T) :=
  match script s request with
  | (none, records) => some (none, { s.exchange request none (recordedBy s request records) with issued := s.issued })
  | (some a, records) =>
    match world.issuedBy s request.endpoint request.authorization a with
    | none => none
    | some issued =>
      if World.Fits s request a records then
        some (some a, { s.exchange request (some a) (recordedBy s request records) with issued := issued ++ s.issued })
      else none

def Phone.acquired (t : T) (s : Phone T) : Option (Unit × Phone T) :=
  if s.lock = none then some ((), { s with lock := some t }) else none

def Phone.drawn (uuid : String) (s : Phone T) : Option (String × Phone T) :=
  if uuid ∈ s.uuids then none else some (uuid, { s with uuids := uuid :: s.uuids })

variable [DecidableEq T]

/-- One command of thread `t`, as the script answers it. -/
def Phone.respond (script : Script T) (t : T) (c : Command) (s : Phone T) : Option (Reply c × Phone T) :=
  match c with
  | .readTokens => some (s.tokens, s)
  | .writeTokens _ tokens => some ((), { s with tokens := some tokens })
  | .clearTokens _ => some ((), { s with tokens := none })
  | .readUserId => some (s.session.map Profile.userId, s)
  | .readProfile => some (s.session, s)
  | .signedIn profile => some ((), { s with session := some profile })
  | .signedOut => some ((), { s with session := none })
  | .readLastFailure => some (s.lastFailure, s)
  | .writeLastFailure error => some ((), { s with lastFailure := error })
  | .acquire => s.acquired t
  | .release => some ((), { s with lock := none })
  | .begin work => some ((), s.setUnder work t true)
  | .finish work => some ((), s.setUnder work t false)
  | .send request => s.sent world script request
  | .randomUuid => s.drawn (String.ofList (List.replicate (s.uuids.length + 1) 'a'))
  | .schedule => some ((), s)
  | .insert write => some (s.lastId + 1, s.push write)
  | .pendingFor userId => some (s.pending userId, s)
  | .countAttempt id => some ((), s.update id OutboxRow.attempted)
  | .markDone id status body correlationId code =>
    some ((), s.update id fun row => row.done status body correlationId code)
  | .markRefused id status code message correlationId =>
    some ((), s.update id fun row => row.refused status code message correlationId)
  | .dismiss id => some (s.outbox.length - (s.remove id).outbox.length, s.remove id)

variable {world} {script : Script T} {t : T}

theorem step_of_sent {s s' : Phone T} {request : Request} {r : Response}
    (h : s.sent world script request = some (r, s')) : s.Step world t (.send request) r s' := by
  unfold Phone.sent at h
  split at h
  · obtain ⟨rfl, rfl⟩ := Prod.mk.inj (Option.some.inj h)
    exact .unanswered request s.issued _ (List.Subset.refl _) (records_none s request _)
  · split at h
    · cases h
    · split at h
      · obtain ⟨rfl, rfl⟩ := Prod.mk.inj (Option.some.inj h)
        exact .answered request _ _ _ (answers_of_issuedBy ‹_›) (records_of_fits ‹_›)
      · cases h

omit [DecidableEq T] in
theorem script_of_sent {s s' : Phone T} {request : Request} {r : Response}
    (h : s.sent world script request = some (r, s')) : (script s request).1 = r := by
  unfold Phone.sent at h
  split at h
  · rename_i hscript
    obtain ⟨rfl, -⟩ := Prod.mk.inj (Option.some.inj h)
    rw [hscript]
  · rename_i hscript
    split at h
    · cases h
    · split at h
      · obtain ⟨rfl, -⟩ := Prod.mk.inj (Option.some.inj h)
        rw [hscript]
      · cases h

theorem step_of_respond {c : Command} {s s' : Phone T} {r : Reply c}
    (h : s.respond world script t c = some (r, s')) : s.Step world t c r s' := by
  cases c with
  | send request => exact step_of_sent h
  | acquire =>
      change s.acquired t = some (r, s') at h
      unfold Phone.acquired at h
      split at h
      · obtain ⟨rfl, rfl⟩ := Prod.mk.inj (Option.some.inj h)
        exact .acquire ‹_›
      · cases h
  | randomUuid =>
      change s.drawn _ = some (r, s') at h
      unfold Phone.drawn at h
      split at h
      · cases h
      · obtain ⟨rfl, rfl⟩ := Prod.mk.inj (Option.some.inj h)
        exact .randomUuid _ ‹_›
  | _ =>
      obtain ⟨rfl, rfl⟩ := Prod.mk.inj (Option.some.inj h)
      constructor

end Scripts
end RetailSegmentation.Floor
