import RetailSegmentation.AuthSessionRuns

/-! What each function of auth-service issues, and what it knows where it ends. -/

namespace RetailSegmentation.Sessions

open Program Redis

section Calls

variable {indexed : Prop} {setting : Setting} {stage : Stage}

/-! ### Commands -/

/-- Redis has failed, or did not confirm an append. -/
abbrev Down (e : AuthFailure) (_ : Stage) : Prop := e = .api authUnavailable

theorem down_of_troubles {c : Command} (hviewed : c.viewed = false) {e : Trouble} (h : Troubles c e) :
    AuthFailure.api (unavailable e) = .api authUnavailable := by
  cases e with
  | database => cases hviewed.symm.trans h
  | redis => rfl
  | watch => rfl

theorem follows_ask {c : Command} {P : Answer c → Stage → Prop} {F : AuthFailure → Stage → Prop}
    (hmay : (keeping indexed setting).may c stage)
    (hnext : ∀ v, Told stage c v → P v (stage.answered indexed setting c v))
    (hfails : ∀ e, Troubles c e → F (.api (unavailable e)) (stage.troubled e)) :
    (ask c).Follows (keeping indexed setting) stage (Contract.Ends P F) := by
  refine ⟨hmay, fun r stage' h => ?_⟩
  cases r with
  | ok v =>
      obtain ⟨htold, rfl⟩ := h
      exact hnext v htold
  | error e =>
      obtain ⟨htroubles, rfl⟩ := h
      exact hfails e htroubles

theorem follows_step {α : Type} {c : Command} {f : Answer c → AuthProg α} {P : α → Stage → Prop}
    {F : AuthFailure → Stage → Prop} (hmay : (keeping indexed setting).may c stage)
    (hnext : ∀ v, Told stage c v →
      (f v).Follows (keeping indexed setting) (stage.answered indexed setting c v) (Contract.Ends P F))
    (hfails : ∀ e, Troubles c e → F (.api (unavailable e)) (stage.troubled e)) :
    (ask c >>= f).Follows (keeping indexed setting) stage (Contract.Ends P F) := by
  apply (follows_ask (P := fun v stage' => Told stage c v ∧ stage' = stage.answered indexed setting c v)
    hmay (fun v htold => ⟨htold, rfl⟩) hfails).bind
  rintro v _ ⟨htold, rfl⟩
  exact hnext v htold

theorem follows_redis {α : Type} {c : Command} {f : Answer c → AuthProg α} {P : α → Stage → Prop}
    (hviewed : c.viewed = false) (hmay : (keeping indexed setting).may c stage)
    (hnext : ∀ v, Told stage c v →
      (f v).Follows (keeping indexed setting) (stage.answered indexed setting c v) (Contract.Ends P Down)) :
    (ask c >>= f).Follows (keeping indexed setting) stage (Contract.Ends P Down) :=
  follows_step hmay hnext fun _ => down_of_troubles hviewed

theorem learnt (facts : Set Fact) : stage.facts ⊆ (stage.learn facts).facts := Set.subset_union_left

/-! ### Pipelines -/

theorem follows_pipeline_append {first second : List Write} {R : Stage → Prop} {P : Unit → Stage → Prop}
    (hfirst : (pipeline first).Follows (keeping indexed setting) stage (Contract.Ends (fun _ => R) Down))
    (hsecond : ∀ stage', R stage' →
      (pipeline second).Follows (keeping indexed setting) stage' (Contract.Ends P Down)) :
    (pipeline (first ++ second)).Follows (keeping indexed setting) stage (Contract.Ends P Down) := by
  induction first generalizing stage with
  | nil => exact hsecond stage hfirst
  | cons write rest ih =>
      refine ⟨hfirst.1, fun r stage' h => ?_⟩
      cases r with
      | ok v => exact ih (hfirst.2 (.ok v) stage' h)
      | error e => exact hfirst.2 (.error e) stage' h

theorem follows_writes {writes : List Write} {P : Stage → Prop} {write : Write} (hmay : MayWrite stage write)
    (hrest : (pipeline writes).Follows (keeping indexed setting)
      (stage.answered indexed setting (.write write) ()) (Contract.Ends (fun _ => P) Down)) :
    (pipeline (write :: writes)).Follows (keeping indexed setting) stage (Contract.Ends (fun _ => P) Down) :=
  follows_redis rfl hmay fun _ _ => hrest

/-- A session whose hash was read is known to have been created, and is dead before it leaves the index. -/
theorem follows_revocation (families : List (Sid × List Fingerprint)) (sid : Sid) (session : Option Session)
    (hknown : session.isSome = true → .created sid ∈ stage.facts) :
    (pipeline (revocation families (sid, session))).Follows (keeping indexed setting) stage
      (Contract.Ends (fun _ stage' => stage.facts ⊆ stage'.facts ∧
        (.created sid ∈ stage.facts → .dead sid ∈ stage'.facts)) Down) := by
  have hdead : .created sid ∈ stage.facts → Fact.dead sid ∈ (stage.answered indexed setting
      (.write (.del (revoked sid ((families.lookup sid).getD [])))) ()).facts :=
    fun hcreated => .inr ⟨sid, _, rfl, hcreated, rfl⟩
  apply follows_writes (.inl ⟨sid, _, rfl⟩)
  cases session with
  | none => exact ⟨learnt _, hdead⟩
  | some session =>
      dsimp only
      split_ifs
      · exact ⟨learnt _, hdead⟩
      · apply follows_writes (.inr (.inr (.inl ⟨_, _, rfl, hdead (hknown rfl)⟩)))
        exact ⟨(learnt _).trans (learnt _), fun hcreated => learnt _ (hdead hcreated)⟩

theorem follows_revocations (families : List (Sid × List Fingerprint)) (sessions : List (Sid × Option Session))
    (hknown : ∀ e ∈ sessions, e.2.isSome = true → .created e.1 ∈ stage.facts) :
    (pipeline (sessions.flatMap (revocation families))).Follows (keeping indexed setting) stage
      (Contract.Ends (fun _ stage' => stage.facts ⊆ stage'.facts ∧
        ∀ e ∈ sessions, .created e.1 ∈ stage.facts → .dead e.1 ∈ stage'.facts) Down) := by
  induction sessions generalizing stage with
  | nil => exact ⟨subset_rfl, fun _ h => absurd h List.not_mem_nil⟩
  | cons e rest ih =>
      obtain ⟨hhead, hrest⟩ := List.forall_mem_cons.mp hknown
      rw [List.flatMap_cons]
      apply follows_pipeline_append (follows_revocation families e.1 e.2 hhead)
      rintro between ⟨hgrows, hdead⟩
      apply (ih fun e he hsome => hgrows (hrest e he hsome)).weaken _ fun _ _ h => h
      rintro - stage' ⟨hgrows', hdead'⟩
      refine ⟨hgrows.trans hgrows', List.forall_mem_cons.mpr ⟨fun h => hgrows' (hdead h), fun e he h => ?_⟩⟩
      exact hdead' e he (hgrows h)

theorem follows_unindexings (users : List UserId) :
    (pipeline (users.flatMap unindexing)).Follows (keeping indexed setting) stage
      (Contract.Ends (fun _ stage' => stage.facts ⊆ stage'.facts) Down) := by
  induction users generalizing stage with
  | nil => exact fun _ h => h
  | cons user rest ih =>
      rw [List.flatMap_cons]
      apply follows_writes (.inr (.inl ⟨user, rfl⟩))
      apply follows_writes (.inr (.inr (.inr ⟨user, rfl⟩)))
      exact ih.weaken (fun _ _ h => ((learnt _).trans (learnt _)).trans h) fun _ _ h => h

/-! ### Revocation -/

theorem follows_readSessions (sids : List Sid) :
    (readSessions sids).Follows (keeping indexed setting) stage
      (Contract.Ends (fun sessions stage' => stage.facts ⊆ stage'.facts ∧ sessions.map Prod.fst = sids ∧
        ∀ e ∈ sessions, e.2.isSome = true → .created e.1 ∈ stage'.facts) Down) := by
  induction sids generalizing stage with
  | nil => exact ⟨subset_rfl, rfl, fun _ h => absurd h List.not_mem_nil⟩
  | cons sid rest ih =>
      apply follows_redis rfl
      · trivial
      · intro session _
        apply ih.bind
        rintro others stage' ⟨hgrows, hsids, hknown⟩
        refine ⟨(learnt _).trans hgrows, by rw [List.map_cons, hsids], ?_⟩
        exact List.forall_mem_cons.mpr ⟨fun hsome => hgrows (.inr ⟨hsome, rfl⟩), hknown⟩

theorem follows_readFamilies (sids : List Sid) :
    (readFamilies sids).Follows (keeping indexed setting) stage
      (Contract.Ends (fun _ stage' => stage.facts ⊆ stage'.facts) Down) := by
  induction sids generalizing stage with
  | nil => exact fun _ h => h
  | cons sid rest ih =>
      apply follows_redis rfl
      · trivial
      · intro family _
        apply ih.bind
        exact fun _ _ hgrows => (learnt _).trans hgrows

theorem follows_requireAof (acknowledged : ℕ) (P : Stage → Prop) (hP : P stage) :
    (requireAof acknowledged).Follows (keeping indexed setting) stage
      (Contract.Ends (fun _ => P) Down) := by
  unfold requireAof
  split_ifs
  · rfl
  · exact hP

/-- Every session that is known to have been created is dead where its revocation ends. -/
theorem follows_revokeSessions (sids : List Sid) (deleteUserSets : List UserId) :
    (revokeSessions sids deleteUserSets).Follows (keeping indexed setting) stage
      (Contract.Ends (fun _ stage' => stage.facts ⊆ stage'.facts ∧
        ∀ sid ∈ sids, .created sid ∈ stage.facts → .dead sid ∈ stage'.facts) Down) := by
  unfold revokeSessions
  dsimp only
  split_ifs with hnone
  · refine ⟨subset_rfl, fun sid hsid => ?_⟩
    have hmem : sid ∈ sids.eraseDups := List.mem_eraseDups.mpr hsid
    rw [hnone.1] at hmem
    exact absurd hmem List.not_mem_nil
  · apply (follows_readSessions sids.eraseDups).bind
    rintro sessions s₁ ⟨h₁, hsids, hknown⟩
    apply (follows_readFamilies sids.eraseDups).bind
    rintro families s₂ h₂
    apply Prog.Follows.bind (P := fun _ s => s₂.facts ⊆ s.facts ∧
      ∀ e ∈ sessions, .created e.1 ∈ s₂.facts → .dead e.1 ∈ s.facts)
    · apply follows_pipeline_append
        (follows_revocations families sessions fun e he hsome => h₂ (hknown e he hsome))
      rintro s₃ ⟨h₃, hdead⟩
      apply (follows_unindexings _).weaken _ fun _ _ h => h
      exact fun _ s₄ h₄ => ⟨h₃.trans h₄, fun e he hcreated => h₄ (hdead e he hcreated)⟩
    · rintro - s₄ ⟨h₄, hdead⟩
      have hends : stage.facts ⊆ s₄.facts ∧ ∀ sid ∈ sids, .created sid ∈ stage.facts → .dead sid ∈ s₄.facts := by
        refine ⟨(h₁.trans h₂).trans h₄, fun sid hsid hcreated => ?_⟩
        have hmem : sid ∈ sessions.map Prod.fst := by
          rw [hsids]
          exact List.mem_eraseDups.mpr hsid
        obtain ⟨e, he, rfl⟩ := List.mem_map.mp hmem
        exact hdead e he (h₂ (h₁ hcreated))
      apply follows_redis rfl
      · trivial
      · intro _ _
        apply follows_redis rfl
        · trivial
        · exact fun acknowledged _ => follows_requireAof acknowledged _ hends

theorem follows_revokeSession (sid : Sid) :
    (revokeSession sid).Follows (keeping indexed setting) stage
      (Contract.Ends (fun _ stage' => stage.facts ⊆ stage'.facts ∧
        (.created sid ∈ stage.facts → .dead sid ∈ stage'.facts)) Down) :=
  (follows_revokeSessions [sid] []).weaken
    (fun _ _ h => ⟨h.1, h.2 sid (List.mem_singleton_self sid)⟩) fun _ _ h => h

/-- Where the index can be relied on, the sets of users hold all their sessions that are not dead. -/
theorem follows_userSids (users : List UserId) :
    (userSids users).Follows (keeping indexed setting) stage
      (Contract.Ends (fun sids stage' => stage.facts ⊆ stage'.facts ∧
        (indexed → ∀ user ∈ users, ∀ sid, .ofUser user sid ∈ stage.facts → sid ∈ sids ∨ .dead sid ∈ stage'.facts))
        Down) := by
  induction users generalizing stage with
  | nil => exact ⟨subset_rfl, fun _ _ h => absurd h List.not_mem_nil⟩
  | cons user rest ih =>
      apply follows_redis rfl
      · trivial
      · intro sids _
        apply ih.bind
        rintro others stage' ⟨hgrows, hothers⟩
        refine ⟨(learnt _).trans hgrows, fun hi => List.forall_mem_cons.mpr ⟨fun sid h => ?_, ?_⟩⟩
        · by_cases hmem : sid ∈ sids
          · exact .inl (List.mem_append_left _ hmem)
          · exact .inr (hgrows (.inr ⟨hi, user, sid, rfl, h, hmem, rfl⟩))
        · intro user' huser' sid h
          exact (hothers hi user' huser' sid (learnt _ h)).imp_left (List.mem_append_right _)

theorem follows_revokeUsers (userIds : List UserId) :
    (revokeUsers userIds).Follows (keeping indexed setting) stage
      (Contract.Ends (fun _ stage' => indexed → ∀ user ∈ userIds, ∀ sid, .ofUser user sid ∈ stage.facts →
        .created sid ∈ stage.facts → .dead sid ∈ stage'.facts) Down) := by
  unfold revokeUsers
  dsimp only
  split_ifs with hnone
  · intro _ user huser
    have hmem : user ∈ userIds.eraseDups := List.mem_eraseDups.mpr huser
    rw [hnone] at hmem
    exact absurd hmem List.not_mem_nil
  · apply (follows_userSids userIds.eraseDups).bind
    rintro sids s₁ ⟨h₁, hsids⟩
    apply (follows_revokeSessions sids _).weaken _ fun _ _ h => h
    rintro - s₂ ⟨h₂, hdead⟩ hi user huser sid hofUser hcreated
    rcases hsids hi user (List.mem_eraseDups.mpr huser) sid hofUser with hmem | h
    · exact hdead sid hmem (h₁ hcreated)
    · exact h₂ h

/-! ### Refresh -/

/-- Redis has failed, or the attempts have run out. -/
abbrev Halted (e : AuthFailure) (_ : Stage) : Prop := e = .api authUnavailable ∨ e = .unfinished

theorem halted_of_troubles {c : Command} (hviewed : c.viewed = false) (e : Trouble) (h : Troubles c e) :
    AuthFailure.api (unavailable e) = .api authUnavailable ∨ AuthFailure.api (unavailable e) = .unfinished :=
  .inl (down_of_troubles hviewed h)

theorem follows_unwatch {α : Type} {P : α → Stage → Prop} {F : AuthFailure → Stage → Prop} {a : α}
    (hP : ∀ stage', stage'.facts = stage.facts → P a stage')
    (hF : ∀ stage', F (.api authUnavailable) stage') :
    (ask .unwatch >>= fun _ => .ret a).Follows (keeping indexed setting) stage (Contract.Ends P F) := by
  apply follows_step
  · trivial
  · exact fun _ _ => hP _ rfl
  · intro e h
    rw [down_of_troubles rfl h]
    exact hF _

theorem follows_rotateRefresh (old new : Fingerprint) (sid : Sid) (expiresAt attempts : ℕ)
    (hphase : stage.phase = .drew new) :
    (rotateRefresh old new sid expiresAt attempts).Follows (keeping indexed setting) stage
      (Contract.Ends (fun outcome stage' => stage.facts ⊆ stage'.facts ∧
        (outcome = .success → .spent old ∈ stage'.facts)) Halted) := by
  induction attempts generalizing stage with
  | zero => exact .inr rfl
  | succ attempts ih =>
      apply follows_step
      · trivial
      · rintro - -
        apply follows_step
        · trivial
        · intro entry _
          have hsaw : (stage.phase.afterWatch (.refresh old)).afterEntry old entry = .saw old new entry := by
            rw [hphase]
            exact if_pos rfl
          cases entry with
          | none => exact follows_unwatch (fun s h => ⟨h ▸ learnt _, nofun⟩) fun _ => .inl rfl
          | some current =>
              dsimp only
              split_ifs with hstate hsid
              · exact follows_unwatch (fun s h => ⟨h ▸ learnt _, nofun⟩) fun _ => .inl rfl
              · exact follows_unwatch (fun s h => ⟨h ▸ learnt _, nofun⟩) fun _ => .inl rfl
              · have hentry : current = ⟨some sid, some .current⟩ := by
                  rw [← not_not.mp hstate, ← not_not.mp hsid]
                subst hentry
                refine ⟨.inr ⟨old, new, sid, expiresAt, rfl, hsaw⟩, fun r stage' h => ?_⟩
                cases r with
                | ok v =>
                    obtain ⟨-, rfl⟩ := h
                    exact ⟨(learnt _).trans (learnt _), fun _ => .inr ⟨old, mem_rotation_state.mpr rfl, rfl⟩⟩
                | error e =>
                    obtain ⟨htroubles, rfl⟩ := h
                    cases e with
                    | watch =>
                        apply (ih _).weaken _ fun _ _ h => h
                        · exact congrArg Phase.released hsaw
                        · exact fun _ _ h => ⟨(learnt _).trans h.1, h.2⟩
                    | database => cases htroubles
                    | redis => exact .inl rfl
        · exact halted_of_troubles rfl
      · exact halted_of_troubles rfl

/-- A call that answers `refresh_reused` knows the session of its token to be dead. -/
def Reused (fingerprint : Fingerprint) (e : AuthFailure) (stage : Stage) : Prop :=
  e = .api refreshReused → ∃ sid, .issued fingerprint sid ∈ stage.facts ∧ .dead sid ∈ stage.facts

theorem reused_of_troubles (fingerprint : Fingerprint) (stage : Stage) (e : Trouble) :
    Reused fingerprint (.api (unavailable e)) stage := by
  intro h
  cases e <;> exact absurd h (by decide)

theorem reused_of_halted {fingerprint : Fingerprint} {e : AuthFailure} (h : Halted e stage) :
    Reused fingerprint e stage := by
  rcases h with rfl | rfl
  · exact fun h => absurd h (by decide)
  · exact fun h => absurd h (by decide)

theorem follows_tokenResult (userId : UserId) (sid : Sid) (role : String) (expiresAt : ℕ) (refreshToken : String)
    (fingerprint : Fingerprint) :
    (tokenResult setting userId sid role expiresAt refreshToken).Follows (keeping indexed setting) stage
      (Contract.Ends (fun _ stage' => stage'.facts = stage.facts) (Reused fingerprint)) := by
  apply follows_step
  · trivial
  · intro now _
    apply follows_step
    · trivial
    · exact fun _ _ => rfl
    · exact fun e _ => reused_of_troubles fingerprint _ e
  · exact fun e _ => reused_of_troubles fingerprint _ e

theorem follows_refusal {α : Type} {P : α → Stage → Prop} {fingerprint : Fingerprint} {sid : Sid}
    {error : ApiError} (hissued : .issued fingerprint sid ∈ stage.facts) (hcreated : .created sid ∈ stage.facts) :
    (revokeSession sid >>= fun _ => .raise (.api error)).Follows (keeping indexed setting) stage
      (Contract.Ends P (Reused fingerprint)) := by
  apply Prog.Follows.bind (P := fun _ stage' => stage.facts ⊆ stage'.facts ∧ .dead sid ∈ stage'.facts)
  · apply (follows_revokeSession sid).weaken
    · exact fun _ _ h => ⟨h.1, h.2 hcreated⟩
    · exact fun _ _ h => reused_of_halted (.inl h)
  · exact fun _ _ h _ => ⟨sid, h.1 hissued, h.2⟩

theorem follows_settle (session : Session) (sid : Sid) (newToken : String) (outcome : Rotation)
    {old : Fingerprint} (hissued : .issued old sid ∈ stage.facts) (hcreated : .created sid ∈ stage.facts)
    (hspent : outcome = .success → .spent old ∈ stage.facts) :
    (settle setting session sid newToken outcome).Follows (keeping indexed setting) stage
      (Contract.Ends (fun _ stage' => .spent old ∈ stage'.facts ∧ .issued old sid ∈ stage'.facts)
        (Reused old)) := by
  cases outcome with
  | rotated => exact follows_refusal hissued hcreated
  | missing =>
      apply follows_step
      · trivial
      · intro now _
        split_ifs
        · exact fun h => absurd h (by decide)
        · exact fun h => absurd h (by decide)
      · exact fun e _ => reused_of_troubles old _ e
  | success =>
      apply (follows_tokenResult _ _ _ _ _ old).weaken _ fun _ _ h => h
      intro _ stage' h
      rw [h]
      exact ⟨hspent rfl, hissued⟩

theorem follows_renew (old : Fingerprint) (sid : Sid) (session : Session) (attempts : ℕ)
    (hidle : stage.phase = .idle) (hissued : .issued old sid ∈ stage.facts)
    (hcreated : .created sid ∈ stage.facts) :
    (renew setting old sid session attempts).Follows (keeping indexed setting) stage
      (Contract.Ends (fun _ stage' => .spent old ∈ stage'.facts ∧ .issued old sid ∈ stage'.facts)
        (Reused old)) := by
  apply follows_step
  · trivial
  · intro credential _
    split_ifs
    · exact follows_refusal hissued hcreated
    · apply follows_step
      · trivial
      · intro newToken _
        apply Prog.Follows.bind (P := fun outcome stage' => stage.facts ⊆ stage'.facts ∧
          (outcome = .success → .spent old ∈ stage'.facts))
        · apply (follows_rotateRefresh old _ sid _ attempts _).weaken
          · exact fun _ _ h => h
          · exact fun _ _ h => reused_of_halted h
          · change stage.phase.afterToken _ = _
            rw [hidle]
            rfl
        · rintro outcome stage' ⟨hgrows, hspent⟩
          exact follows_settle session sid newToken outcome (hgrows hissued) (hgrows hcreated) hspent
      · exact fun e _ => reused_of_troubles old _ e
  · exact fun e _ => reused_of_troubles old _ e

/-- A refresh that succeeds has spent its token, whose session it did not know to be dead. -/
theorem follows_refresh (token : String) (attempts : ℕ) (hidle : stage.phase = .idle) :
    (refresh setting token attempts).Follows (keeping indexed setting) stage
      (Contract.Ends (fun _ stage' => .spent (setting.refreshFingerprint token) ∈ stage'.facts ∧
        ∃ sid, .issued (setting.refreshFingerprint token) sid ∈ stage'.facts ∧ .dead sid ∉ stage.facts)
        (Reused (setting.refreshFingerprint token))) := by
  apply follows_step
  · trivial
  · intro entry hnamed
    cases entry with
    | none => exact fun h => absurd h (by decide)
    | some entry =>
        obtain ⟨sid, hsid, hne⟩ := hnamed entry rfl
        have hfacts : ∀ fact, fact = .issued (setting.refreshFingerprint token) sid ∨ fact = .created sid →
            fact ∈ (stage.answered indexed setting (.hgetallRefresh (setting.refreshFingerprint token))
              (some entry)).facts := fun fact h => .inr ⟨entry, sid, rfl, hsid, h⟩
        have hissued := hfacts _ (.inl rfl)
        have hcreated := hfacts _ (.inr rfl)
        have hrevoke : revokeNamed sid = revokeSession sid := if_neg hne
        dsimp only
        rw [hsid, Option.getD_some, hrevoke]
        split_ifs
        · exact follows_refusal hissued hcreated
        · apply follows_step
          · trivial
          · intro session htold
            cases session with
            | none => exact follows_refusal (learnt _ hissued) (learnt _ hcreated)
            | some session =>
                have halive : .dead sid ∉ stage.facts := fun h => htold rfl (learnt _ h)
                apply follows_step
                · trivial
                · intro now _
                  split_ifs
                  · exact follows_refusal (learnt _ hissued) (learnt _ hcreated)
                  · apply (follows_renew _ sid session attempts _ (learnt _ hissued)
                      (learnt _ hcreated)).weaken _ fun _ _ h => h
                    · change stage.phase.afterEntry _ _ = _
                      rw [hidle]
                      rfl
                    · exact fun _ _ h => ⟨h.1, sid, h.2, halive⟩
                · exact fun e _ => reused_of_troubles _ _ e
          · exact fun e _ => reused_of_troubles _ _ e
  · exact fun e _ => reused_of_troubles _ _ e

/-! ### Sign-in and reconciliation -/

theorem follows_signIn (email password : String) (hidle : stage.phase = .idle) :
    (signIn setting email password).Follows (keeping indexed setting) stage
      (Contract.Ends (fun _ _ => True) fun _ _ => True) := by
  apply follows_step
  · trivial
  · intro credential _
    cases credential with
    | none => trivial
    | some credential =>
        dsimp only
        split_ifs
        · trivial
        · apply follows_step
          · trivial
          · intro now _
            apply follows_step
            · trivial
            · intro sid _
              apply follows_step
              · trivial
              · intro refreshToken _
                apply follows_step
                · refine .inl ⟨sid, _, _, _, _, _, rfl, ?_⟩
                  change (stage.phase.afterUuid sid).afterToken _ = _
                  rw [hidle]
                  rfl
                · intro _ _
                  apply (follows_tokenResult _ _ _ _ _ "").weaken
                  · exact fun _ _ _ => trivial
                  · exact fun _ _ _ => trivial
                · exact fun _ _ => trivial
              · exact fun _ _ => trivial
            · exact fun _ _ => trivial
          · exact fun _ _ => trivial
  · exact fun _ _ => trivial

/-- Whether a call may always issue a command. -/
abbrev Free (indexed : Prop) (setting : Setting) (c : Command) : Prop :=
  ∀ stage, (keeping indexed setting).may c stage

theorem issues_ask {P : Command → Prop} {c : Command} (hc : P c) : (ask c).Issues P := by
  refine ⟨hc, fun r => ?_⟩
  cases r <;> trivial

theorem issues_step {α : Type} {P : Command → Prop} {c : Command} {f : Answer c → AuthProg α} (hc : P c)
    (hf : ∀ v, (f v).Issues P) : (ask c >>= f).Issues P := (issues_ask hc).bind hf

theorem issues_snapshotSids {P : Command → Prop} (hsession : ∀ sid, P (.hgetallSession sid))
    (result : List (Sid × Session)) (sids : List Sid) : (snapshotSids result sids).Issues P := by
  induction sids generalizing result with
  | nil => trivial
  | cons sid rest ih =>
      apply issues_step (hsession sid)
      intro session
      cases session with
      | none => exact ih result
      | some session => exact ih _

theorem issues_snapshotUsers {P : Command → Prop} (hsession : ∀ sid, P (.hgetallSession sid))
    (hmembers : ∀ set, P (.smembers set)) (result : List (Sid × Session)) (users : List UserId) :
    (snapshotUsers result users).Issues P := by
  induction users generalizing result with
  | nil => trivial
  | cons user rest ih =>
      apply issues_step (hmembers _)
      exact fun sids => (issues_snapshotSids hsession result sids).bind fun result => ih result

theorem free_comparison : comparison.Issues (Free indexed setting) := by
  apply Prog.Issues.bind
  · apply issues_step
    · exact fun _ => trivial
    · exact fun users => issues_snapshotUsers (fun _ _ => trivial) (fun _ _ => trivial) [] users
  · intro sessions
    apply Prog.Issues.bind
    · unfold credentialsByUser
      split_ifs
      · trivial
      · exact issues_ask fun _ => trivial
    · exact fun _ => trivial

theorem follows_revokeUnmatched (sids : List Sid) :
    (revokeUnmatched sids).Follows (keeping indexed setting) stage
      (Contract.Ends (fun _ _ => True) fun _ _ => True) := by
  unfold revokeUnmatched
  split_ifs
  · trivial
  · apply Prog.Follows.tryCatch (F := fun _ _ => True)
    · apply ((follows_revokeSessions sids []).weaken (fun _ _ _ => trivial) fun _ _ _ => trivial).bind
      exact fun _ _ (_ : True) => trivial
    · intro e _ _
      cases e <;> trivial

theorem follows_runOnce : (runOnce setting).Follows (keeping indexed setting) stage
    (Contract.Ends (fun _ _ => True) fun _ _ => True) := by
  apply Prog.Follows.bind (P := fun _ _ => True)
  · apply Prog.Follows.of_issues
    apply Prog.Issues.tryCatch
    · apply free_comparison.bind
      exact fun _ => trivial
    · intro e
      cases e <;> trivial
  · intro found stage' _
    cases found with
    | none => trivial
    | some found => exact follows_revokeUnmatched _

/-! ### Calls -/

/-- What a call that started with `facts` has done where it ends. -/
def Fulfils (indexed : Prop) (setting : Setting) (facts : Set Fact) (call : Call) :
    Except AuthFailure Done → Stage → Prop :=
  Contract.Ends
    (fun _ stage => match call with
      | .refresh token _ => .spent (setting.refreshFingerprint token) ∈ stage.facts ∧
        ∃ sid, .issued (setting.refreshFingerprint token) sid ∈ stage.facts ∧ .dead sid ∉ facts
      | .revokeUsers userIds => indexed → ∀ user ∈ userIds, ∀ sid, .ofUser user sid ∈ facts →
        .created sid ∈ facts → .dead sid ∈ stage.facts
      | _ => True)
    fun e stage => match call with
      | .refresh token _ => Reused (setting.refreshFingerprint token) e stage
      | _ => True

theorem follows_program (call : Call) (facts : Set Fact) :
    (call.program setting).Follows (keeping indexed setting) ⟨facts, .idle⟩
      (Fulfils indexed setting facts call) := by
  cases call with
  | signIn email password =>
      exact (follows_signIn email password rfl).bind fun _ _ _ => trivial
  | refresh token attempts => exact (follows_refresh token attempts rfl).bind fun _ _ h => h
  | signOut sid =>
      exact ((follows_revokeSession sid).weaken (fun _ _ h => h) fun _ _ _ => trivial).bind
        fun _ _ _ => trivial
  | revokeUsers userIds =>
      exact ((follows_revokeUsers userIds).weaken (fun _ _ h => h) fun _ _ _ => trivial).bind
        fun _ _ h => h
  | reconcile => exact follows_runOnce.bind fun _ _ _ => trivial

end Calls
end RetailSegmentation.Sessions
