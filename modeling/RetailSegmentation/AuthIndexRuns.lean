import RetailSegmentation.AuthRefresh

/-! Every live session is indexed, in the interleavings where no write to the index overlooks one. -/

namespace RetailSegmentation.Sessions

open Program Redis

section Runs

variable {T : Type} [DecidableEq T]

/-- The interleavings in which every write to the index meets the condition on it. -/
def heedingMachine (T : Type) [DecidableEq T] (setting : Setting) : Machine T Command Reply (AuthDb T) :=
  (authMachine T setting).guard fun _ c db => heeds c db = true

variable {setting : Setting} {calls : T → Call} {cfg cfg' : AuthConfig T} {now : ℕ}

theorem heedingMachine_implements :
    (sessionContract T True).Implements (heedingMachine T setting) fun _ => keeping True setting :=
  sessionContract_implements fun _ _ _ _ _ h => ⟨fun _ => h.1, h.2⟩

theorem heedingMachine_closed : (sessionContract T True).Closed (heedingMachine T setting) :=
  sessionContract_closed (fun _ _ ⟨now, _, h⟩ => ⟨now, h⟩) fun _ _ _ h => h

/-- A session is in the set of its user, and its user among the users with sessions. -/
def InIndex (db : AuthDb T) (sid : Sid) : Prop :=
  ∃ session sids users, db.store.get (.session sid) = some session ∧
    db.store.get (.members (.userSids session.userId)) = some sids ∧ sid ∈ sids ∧
    db.store.get (.members .sessionUsers) = some users ∧ session.userId ∈ users

omit [DecidableEq T] in
theorem session_of_live {db : AuthDb T} (hsound : Sound db) {sid : Sid}
    (hlive : db.store.keys (.live sid) ≠ none) : ∃ e, db.store.keys (.session sid) = some e := by
  obtain ⟨l, hl⟩ := Option.ne_none_iff_exists'.mp hlive
  have htwin := hsound.twin sid
  rw [hl] at htwin
  obtain ⟨e, he, -⟩ := Option.map_eq_some_iff.mp htwin.symm
  exact ⟨e, he⟩

omit [DecidableEq T] in
theorem inIndex_of_live {db : AuthDb T} (hsound : Sound db) (hindexed : Indexed db) {sid : Sid}
    (hlive : db.store.keys (.live sid) ≠ none) : InIndex db sid := by
  obtain ⟨e, he⟩ := session_of_live hsound hlive
  obtain ⟨⟨sids, hsids, hsid, -⟩, users, husers, huser, -⟩ := hindexed sid e he
  have hget : ∀ {k : Key} {entry : Entry (Value k)}, db.store.keys k = some entry →
      db.store.get k = some entry.value := fun h => congrArg (Option.map Entry.value) h
  exact ⟨e.value, sids.value, users.value, hget he, hget hsids, hsid, hget husers, huser⟩

/-- **Every live session is indexed**, and a revocation of its user that starts then ends it, in every
interleaving whose writes to the index all meet the condition. -/
theorem session_index (setting : Setting) (calls : T → Call) (now : ℕ) {cfg : AuthConfig T}
    (hrun : (heedingMachine T setting).Reaches (initial setting calls now) cfg) :
    (∀ sid, cfg.state.store.keys (.live sid) ≠ none → InIndex cfg.state sid) ∧
    ∀ t userIds cfg' done, calls t = .revokeUsers userIds →
      cfg.threads t = some ((calls t).program setting) → (heedingMachine T setting).Reaches cfg cfg' →
      cfg'.threads t = some (.ret done) → ∀ sid session, cfg.state.store.keys (.live sid) ≠ none →
        cfg.state.store.get (.session sid) = some session → session.userId ∈ userIds →
        cfg'.state.store.keys (.live sid) = none := by
  have hobeys : Fulfilling True setting calls cfg :=
    fulfilling_initial.reaches heedingMachine_implements heedingMachine_closed hrun
  obtain ⟨hsound, hindexed⟩ := hobeys.inv
  refine ⟨fun sid => inIndex_of_live hsound (hindexed trivial), ?_⟩
  intro t userIds cfg' done ht hstart hlater hdone sid session hlive hsession huser
  have hcreated : Created cfg.state sid := by
    obtain ⟨e, he⟩ := session_of_live hsound hlive
    exact hsound.session sid (by rw [he]; simp)
  have hat : Stage.At t cfg.state ⟨{.created sid, .ofUser session.userId sid}, .idle⟩ := by
    refine ⟨fun fact h => ?_, trivial⟩
    rcases h with rfl | rfl
    · exact hcreated
    · exact .inr ⟨session, hsession, rfl⟩
  have hfollow := hobeys.follow hstart hat (follows_program (calls t) _)
  have hobeys' := hfollow.reaches heedingMachine_implements heedingMachine_closed hlater
  obtain ⟨stage, hat', hfulfils⟩ := hobeys'.ended hdone
  rw [Function.update_self, ht] at hfulfils
  have hdead := hfulfils trivial _ huser sid (.inr rfl) (.inl rfl)
  have hdead : Dead cfg'.state sid := hat'.facts _ hdead
  exact hdead.2.1

end Runs

/-! ### A sign-in, and a revocation of its user -/

/-- Whether a call has returned. -/
def returned : Option (AuthProg Done) → Bool
  | some (.ret _) => true
  | _ => false

theorem ret_of_returned {p : Option (AuthProg Done)} (h : returned p = true) : ∃ done, p = some (.ret done) := by
  unfold returned at h
  split at h
  · exact ⟨_, rfl⟩
  · cases h

/-- `true` signs in, and `false` ends the sessions of the user. -/
def indexCalls : Bool → Call
  | true => .signIn "ada@mosaiq.test" "secret"
  | false => .revokeUsers ["ada"]

/-- An answer, where its step meets the condition. -/
def heedingRespond (t : Bool) (c : Command) (db : AuthDb Bool) : Option (Reply c × AuthDb Bool) :=
  if heeds c db = true then respond t c db else none

theorem step_of_heedingRespond {t : Bool} {c : Command} {r : Reply c} {db db' : AuthDb Bool}
    (h : heedingRespond t c db = some (r, db')) : (heedingMachine Bool .plain).step t c db r db' := by
  unfold heedingRespond at h
  split_ifs at h with hheeds
  exact ⟨hheeds, step_of_respond h⟩

/-- The sign-in, and then the revocation, which ends its session. -/
theorem session_index_corner : ∃ cfg cfg' : AuthConfig Bool,
    (heedingMachine Bool .plain).Reaches (initial .plain indexCalls 1000) cfg ∧
    cfg.state.store.keys (.live "a") ≠ none ∧ InIndex cfg.state "a" ∧
    (heedingMachine Bool .plain).Reaches cfg cfg' ∧ cfg'.state.store.keys (.live "a") = none := by
  have hrun : ((schedule heedingRespond (List.replicate 7 true) (initial .plain indexCalls 1000)).any fun cfg =>
      (cfg.state.store.keys (.live "a")).isSome = true ∧
      cfg.state.store.get (.session "a") = some ⟨"ada", "ANALYST", 43201, "hash"⟩ ∧
      (schedule heedingRespond (List.replicate 9 false) cfg).any fun cfg' => returned (cfg'.threads false)) =
        true := by
    decide +kernel
  obtain ⟨cfg, hcfg, hends⟩ := (Option.any_eq_true _ _).mp hrun
  obtain ⟨hlive, hsession, hrevoked⟩ := of_decide_eq_true hends
  obtain ⟨cfg', hcfg', hreturned⟩ := (Option.any_eq_true _ _).mp hrevoked
  obtain ⟨done, hdone⟩ := ret_of_returned hreturned
  have hturn : ∀ t (c : Command) db r db', heedingRespond t c db = some (r, db') →
      (heedingMachine Bool .plain).step t c db r db' := fun _ _ _ _ _ => step_of_heedingRespond
  have hreaches := Machine.reaches_of_schedule _ hturn _ hcfg
  have hlater := Machine.reaches_of_schedule _ hturn _ hcfg'
  have hstart : cfg.threads false = some ((indexCalls false).program .plain) :=
    threads_of_schedule _ (by decide) hcfg
  have hlive : cfg.state.store.keys (.live "a") ≠ none := Option.isSome_iff_ne_none.mp hlive
  obtain ⟨hindexed, hrevokes⟩ := session_index .plain indexCalls 1000 hreaches
  exact ⟨cfg, cfg', hreaches, hlive, hindexed "a" hlive, hlater,
    hrevokes false ["ada"] cfg' done rfl hstart hlater hdone "a" _ hlive hsession (by decide)⟩

/-- The sign-in between the revocation's read of the user's set and its deletion: the session stays, and
nothing leads to it. -/
theorem sign_in_unindexed : ∃ cfg : AuthConfig Bool,
    (authMachine Bool .plain).Reaches (initial .plain indexCalls 1000) cfg ∧
    (∀ t, ∃ done, cfg.threads t = some (.ret done)) ∧
    cfg.state.store.keys (.live "a") ≠ none ∧ ¬ InIndex cfg.state "a" := by
  have hrun : ((schedule respond (List.replicate 1 false ++ List.replicate 7 true ++ List.replicate 4 false)
      (initial .plain indexCalls 1000)).any fun cfg =>
        returned (cfg.threads true) = true ∧ returned (cfg.threads false) = true ∧
        (cfg.state.store.keys (.live "a")).isSome = true ∧
        (cfg.state.store.get (.members .sessionUsers)).isNone = true) = true := by
    decide +kernel
  obtain ⟨cfg, hcfg, hends⟩ := (Option.any_eq_true _ _).mp hrun
  obtain ⟨htrue, hfalse, hlive, hnone⟩ := of_decide_eq_true hends
  have hturn : ∀ t (c : Command) db r db', respond t c db = some (r, db') →
      (authMachine Bool .plain).step t c db r db' := fun _ _ _ _ _ => step_of_respond
  refine ⟨cfg, Machine.reaches_of_schedule _ hturn _ hcfg, fun t => ?_, Option.isSome_iff_ne_none.mp hlive, ?_⟩
  · cases t with
    | true => exact ret_of_returned htrue
    | false => exact ret_of_returned hfalse
  · rintro ⟨session, sids, users, -, -, -, husers, -⟩
    cases (Option.isNone_iff_eq_none.mp hnone).symm.trans husers

end RetailSegmentation.Sessions
