import RetailSegmentation.AuthSessionCalls

/-! Refresh rotation is single-use, and revocation is final, whatever the interleaving. -/

namespace RetailSegmentation.Sessions

open Program Redis

/-! ### The database read of a refresh -/

/-- Whether a command may change a key. -/
def Command.writes : Command → Bool
  | write _ => true
  | exec _ => true
  | _ => false

/-- A command that does not read the credential view. -/
abbrev Unviewed (c : Command) : Prop := c.viewed = false

/-- Nothing is written before the credential view is read, and a read that fails is the end. -/
def ReadsFirst {α : Type} : AuthProg α → Prop
  | .ret _ => True
  | .raise _ => True
  | .call c k => (c.viewed = true → k (.error .database) = .raise (.api databaseUnavailable)) ∧
    (c.writes = true → ∀ r, (k r).Issues Unviewed) ∧ ∀ r, ReadsFirst (k r)

section Reads

variable {α β : Type} {setting : Setting}

theorem readsFirst_of_issues {p : AuthProg α} (hp : p.Issues Unviewed) : ReadsFirst p := by
  induction p with
  | ret a => trivial
  | raise e => trivial
  | call c k ih => exact ⟨fun h => absurd h (by simp [hp.1]), fun _ => hp.2, fun r => ih r (hp.2 r)⟩

theorem ReadsFirst.bind {p : AuthProg α} {f : α → AuthProg β} (hp : ReadsFirst p)
    (hf : ∀ a, (f a).Issues Unviewed) : ReadsFirst (p >>= f) := by
  induction p with
  | ret a => exact readsFirst_of_issues (hf a)
  | raise e => trivial
  | call c k ih =>
      obtain ⟨hend, hsilent, hrest⟩ := hp
      refine ⟨fun h => ?_, fun h r => (hsilent h r).bind hf, fun r => ih r (hrest r)⟩
      change k (.error .database) >>= f = _
      rw [hend h]
      rfl

theorem readsFirst_step {c : Command} {f : Answer c → AuthProg α} (hwrites : c.writes = false)
    (hf : ∀ v, ReadsFirst (f v)) : ReadsFirst (ask c >>= f) := by
  refine ⟨fun _ => rfl, fun h => absurd h (by simp [hwrites]), fun r => ?_⟩
  cases r with
  | ok v => exact hf v
  | error e => trivial

theorem unviewed_step {c : Command} {f : Answer c → AuthProg α} (hviewed : c.viewed = false)
    (hf : ∀ v, (f v).Issues Unviewed) : (ask c >>= f).Issues Unviewed := issues_step hviewed hf

theorem issues_readSessions (sids : List Sid) : (readSessions sids).Issues Unviewed := by
  induction sids with
  | nil => trivial
  | cons sid rest ih => exact unviewed_step rfl fun _ => ih.bind fun _ => trivial

theorem issues_readFamilies (sids : List Sid) : (readFamilies sids).Issues Unviewed := by
  induction sids with
  | nil => trivial
  | cons sid rest ih => exact unviewed_step rfl fun _ => ih.bind fun _ => trivial

theorem issues_pipeline (writes : List Write) : (pipeline writes).Issues Unviewed := by
  induction writes with
  | nil => trivial
  | cons write rest ih => exact unviewed_step rfl fun _ => ih

theorem issues_revokeSession (sid : Sid) : (revokeSession sid).Issues Unviewed := by
  unfold revokeSession revokeSessions
  dsimp only
  split_ifs
  · trivial
  · apply (issues_readSessions _).bind
    intro sessions
    apply (issues_readFamilies _).bind
    intro families
    apply (issues_pipeline _).bind
    rintro -
    apply unviewed_step rfl
    rintro -
    apply unviewed_step rfl
    intro acknowledged
    unfold requireAof
    split_ifs <;> trivial

theorem issues_refusal (sid : Sid) (error : ApiError) :
    (revokeSession sid >>= fun _ => (.raise (.api error) : AuthProg α)).Issues Unviewed :=
  (issues_revokeSession sid).bind fun _ => trivial

theorem issues_tokenResult (userId : UserId) (sid : Sid) (role : String) (expiresAt : ℕ) (refreshToken : String) :
    (tokenResult setting userId sid role expiresAt refreshToken).Issues Unviewed :=
  unviewed_step rfl fun _ => unviewed_step rfl fun _ => trivial

theorem issues_settle (session : Session) (sid : Sid) (newToken : String) (outcome : Rotation) :
    (settle setting session sid newToken outcome).Issues Unviewed := by
  cases outcome with
  | rotated => exact issues_refusal sid _
  | missing =>
      apply unviewed_step rfl
      intro now
      split_ifs <;> trivial
  | success => exact issues_tokenResult ..

theorem issues_rotateRefresh (old new : Fingerprint) (sid : Sid) (expiresAt attempts : ℕ) :
    (rotateRefresh old new sid expiresAt attempts).Issues Unviewed := by
  induction attempts with
  | zero => trivial
  | succ attempts ih =>
      apply unviewed_step rfl
      rintro -
      apply unviewed_step rfl
      intro entry
      cases entry with
      | none => exact unviewed_step rfl fun _ => trivial
      | some current =>
          dsimp only
          split_ifs
          · exact unviewed_step rfl fun _ => trivial
          · exact unviewed_step rfl fun _ => trivial
          · refine ⟨rfl, fun r => ?_⟩
            cases r with
            | ok _ => trivial
            | error e =>
                cases e with
                | watch => exact ih
                | _ => trivial

theorem readsFirst_renew (old : Fingerprint) (sid : Sid) (session : Session) (attempts : ℕ) :
    ReadsFirst (renew setting old sid session attempts) := by
  apply readsFirst_step rfl
  intro credential
  split_ifs
  · exact readsFirst_of_issues (issues_refusal sid _)
  · apply readsFirst_step rfl
    intro newToken
    exact readsFirst_of_issues ((issues_rotateRefresh _ _ _ _ _).bind fun _ => issues_settle ..)

theorem readsFirst_revokeNamed (sid : Sid) (error : ApiError) :
    ReadsFirst (revokeNamed sid >>= fun _ => (.raise (.api error) : AuthProg α)) := by
  unfold revokeNamed
  split_ifs
  · trivial
  · exact readsFirst_of_issues (issues_refusal sid error)

theorem readsFirst_refresh (token : String) (attempts : ℕ) : ReadsFirst (refresh setting token attempts) := by
  apply readsFirst_step rfl
  intro entry
  cases entry with
  | none => trivial
  | some entry =>
      dsimp only
      split_ifs
      · exact readsFirst_revokeNamed _ _
      · apply readsFirst_step rfl
        intro session
        cases session with
        | none => exact readsFirst_revokeNamed _ _
        | some session =>
            apply readsFirst_step rfl
            intro now
            split_ifs
            · exact readsFirst_revokeNamed _ _
            · exact readsFirst_renew ..

end Reads

/-! ### Runs -/

section Runs

variable {T : Type} [DecidableEq T]

abbrev AuthConfig (T : Type) : Type := Config T Command Reply AuthFailure Done (AuthDb T)

/-- All calls at their beginning, and no key yet. -/
def initial (setting : Setting) (calls : T → Call) (now : ℕ) : AuthConfig T :=
  Config.initial (fun t => (calls t).program setting) (.empty now)

abbrev Fulfilling (indexed : Prop) (setting : Setting) (calls : T → Call) (cfg : AuthConfig T) : Prop :=
  (sessionContract T indexed).Obeys (fun _ => keeping indexed setting)
    (fun t => Fulfils indexed setting ∅ (calls t)) cfg

variable {setting : Setting} {calls : T → Call} {cfg cfg' : AuthConfig T} {now : ℕ}

omit [DecidableEq T] in
theorem sound_empty (now : ℕ) : Sound (.empty now : AuthDb T) where
  sids _ _ _ h := absurd h List.not_mem_nil
  named _ _ h := absurd h List.not_mem_nil
  tokens _ _ _ h := absurd h List.not_mem_nil
  drawn _ h := by
    obtain ⟨_, _, h, -⟩ := h
    exact absurd h List.not_mem_nil
  issuedDrawn _ _ h := by
    obtain ⟨_, _, h, -⟩ := h
    exact absurd h List.not_mem_nil
  issuedCreated _ _ h := by
    obtain ⟨_, _, h, -⟩ := h
    exact absurd h List.not_mem_nil
  issuedOnce _ _ _ h := by
    obtain ⟨_, _, h, -⟩ := h
    exact absurd h List.not_mem_nil
  twin _ := rfl
  session _ h := absurd rfl h
  entry _ _ h := by cases h
  current _ _ _ h := by
    obtain ⟨_, h, -⟩ := h
    cases h
  spentIssued _ _ h := by
    obtain ⟨_, h, -⟩ := h
    exact absurd h List.not_mem_nil
  spentPast _ _ _ h := by
    obtain ⟨_, h, -⟩ := h
    exact absurd h List.not_mem_nil
  spentOnce _ _ _ h := by
    obtain ⟨_, h, -⟩ := h
    exact absurd h List.not_mem_nil

omit [DecidableEq T] in
theorem fulfilling_initial {indexed : Prop} : Fulfilling indexed setting calls (initial setting calls now) := by
  apply Contract.Obeys.initial
  · exact ⟨sound_empty now, fun _ _ _ h => by cases h⟩
  · exact fun t => ⟨⟨∅, .idle⟩, ⟨fun _ h => h.elim, trivial⟩, follows_program (calls t) ∅⟩

theorem authMachine_implements :
    (sessionContract T False).Implements (authMachine T setting) fun _ => keeping False setting :=
  sessionContract_implements fun _ _ _ _ _ h => ⟨False.elim, h⟩

theorem authMachine_closed : (sessionContract T False).Closed (authMachine T setting) :=
  sessionContract_closed (fun _ _ ⟨now, _, h⟩ => ⟨now, h⟩) fun _ _ _ h => h

theorem grows_of_step {Q : T → Except AuthFailure Done → Stage → Prop}
    (hobeys : (sessionContract T False).Obeys (fun _ => keeping False setting) Q cfg)
    (hstep : (authMachine T setting).Step cfg cfg') : Grows cfg.state cfg'.state := by
  cases hstep with
  | command hthread hstep => exact hobeys.guar authMachine_implements hthread hstep
  | env henv =>
      obtain ⟨now, -, rfl⟩ := henv
      exact (Loses.tick hobeys.inv.1 now).grows hobeys.inv.1
  | @halt t s' hhalt =>
      obtain rfl := hhalt
      have hkept : Kept False t cfg.state (cfg.state.abandon t) := Kept.abandon hobeys.inv.1 False.elim
      exact hkept.grows

theorem grows_of_reaches {Q : T → Except AuthFailure Done → Stage → Prop}
    (hobeys : (sessionContract T False).Obeys (fun _ => keeping False setting) Q cfg)
    (hrun : (authMachine T setting).Reaches cfg cfg') : Grows cfg.state cfg'.state := by
  induction hrun with
  | refl => exact ⟨fun _ h => h, fun _ h => h.2, fun _ _ h => .inl h⟩
  | tail hrun hstep ih =>
      exact ih.trans (grows_of_step (hobeys.reaches authMachine_implements authMachine_closed hrun) hstep)

theorem keys_of_step {db db' : AuthDb T} {t : T} {c : Command} {r : Reply c}
    (hstep : db.Step setting t c r db') (hwrites : c.writes = false) : db'.store.keys = db.store.keys := by
  cases hstep with
  | answered hanswer => cases hanswer <;> first | rfl | cases hwrites
  | lost hanswer => cases hanswer <;> first | rfl | cases hwrites
  | _ => rfl

/-! ### Rotation -/

omit [DecidableEq T] in
theorem single_use (hobeys : Fulfilling False setting calls cfg) {t u : T} {token token' : String}
    {attempts attempts' : ℕ} {done done' : Done} (ht : calls t = .refresh token attempts)
    (hu : calls u = .refresh token' attempts')
    (hsame : setting.refreshFingerprint token = setting.refreshFingerprint token')
    (hdone : cfg.threads t = some (.ret done)) (hdone' : cfg.threads u = some (.ret done')) : t = u := by
  obtain ⟨stage, hat, hfulfils⟩ := hobeys.ended hdone
  obtain ⟨stage', hat', hfulfils'⟩ := hobeys.ended hdone'
  rw [ht] at hfulfils
  rw [hu] at hfulfils'
  have hspent : Spent cfg.state t (setting.refreshFingerprint token) := hat.facts _ hfulfils.1
  have hspent' : Spent cfg.state u (setting.refreshFingerprint token') := hat'.facts _ hfulfils'.1
  exact hobeys.inv.1.spentOnce t u _ hspent (hsame ▸ hspent')

omit [DecidableEq T] in
theorem reuse_ends (hobeys : Fulfilling False setting calls cfg) {t : T} {token : String} {attempts : ℕ}
    {sid : Sid} (ht : calls t = .refresh token attempts)
    (hissued : Issued cfg.state (setting.refreshFingerprint token) sid)
    (hreused : cfg.threads t = some (.raise (.api refreshReused))) : Absent cfg.state sid := by
  obtain ⟨stage, hat, hfulfils⟩ := hobeys.raised hreused
  rw [ht] at hfulfils
  obtain ⟨sid', hissued', hdead⟩ := hfulfils rfl
  have hissued' : Issued cfg.state (setting.refreshFingerprint token) sid' := hat.facts _ hissued'
  obtain rfl := hobeys.inv.1.issuedOnce _ sid sid' hissued hissued'
  have hdead : Dead cfg.state sid := hat.facts _ hdead
  exact hdead.2

omit [DecidableEq T] in
theorem dead_of_unlive (hsound : Sound cfg.state) {sid : Sid} (hcreated : Created cfg.state sid)
    (hlive : cfg.state.store.keys (.live sid) = none) : Dead cfg.state sid := by
  refine ⟨hcreated, hlive, ?_⟩
  have htwin := hsound.twin sid
  rw [hlive] at htwin
  exact Option.map_eq_none_iff.mp htwin.symm

/-- A refresh that starts after the end of a session does not succeed with a token of it. -/
theorem late_refresh (hobeys : Fulfilling False setting calls cfg) {t : T} {token : String} {attempts : ℕ}
    {sid : Sid} (ht : calls t = .refresh token attempts) (hdead : Dead cfg.state sid)
    (hstart : cfg.threads t = some ((calls t).program setting))
    (hrun : (authMachine T setting).Reaches cfg cfg')
    (hissued : Issued cfg'.state (setting.refreshFingerprint token) sid) (done : Done) :
    cfg'.threads t ≠ some (.ret done) := by
  intro hdone
  have hat : Stage.At t cfg.state ⟨{.dead sid}, .idle⟩ := by
    refine ⟨fun fact h => ?_, trivial⟩
    obtain rfl := Set.mem_singleton_iff.mp h
    exact hdead
  have hfollow := hobeys.follow hstart hat (follows_program (calls t) {.dead sid})
  have hobeys' := hfollow.reaches authMachine_implements authMachine_closed hrun
  obtain ⟨stage, hat', hfulfils⟩ := hobeys'.ended hdone
  rw [Function.update_self, ht] at hfulfils
  obtain ⟨-, sid', hissued', halive⟩ := hfulfils
  have hissued' : Issued cfg'.state (setting.refreshFingerprint token) sid' := hat'.facts _ hissued'
  obtain rfl := hobeys'.inv.1.issuedOnce _ sid sid' hissued hissued'
  exact halive rfl

theorem readsFirst_residual (hrun : (authMachine T setting).Reaches (initial setting calls now) cfg) {t : T}
    {token : String} {attempts : ℕ} (ht : calls t = .refresh token attempts) :
    ∀ p, cfg.threads t = some p → ReadsFirst p := by
  refine Machine.residual (fun _ _ r h => h.2.2 r) hrun fun p hp => ?_
  obtain rfl : (calls t).program setting = p := Option.some.inj hp
  rw [ht]
  exact (readsFirst_refresh token attempts).bind fun _ => trivial

theorem keys_before_read (hrun : (authMachine T setting).Reaches (initial setting calls now) cfg) {t : T}
    {token : String} {attempts : ℕ} (ht : calls t = .refresh token attempts) {c : Command}
    {k : Reply c → AuthProg Done} {r : Reply c} {db : AuthDb T} (hthread : cfg.threads t = some (.call c k))
    (hstep : (authMachine T setting).step t c cfg.state r db)
    (hlater : (authMachine T setting).Reaches ⟨Function.update cfg.threads t (some (k r)), db⟩ cfg')
    {userId : UserId} {k' : Reply (.credentialByUser userId) → AuthProg Done}
    (hread : cfg'.threads t = some (.call (.credentialByUser userId) k')) :
    db.store.keys = cfg.state.store.keys := by
  have hfirst := readsFirst_residual hrun ht _ hthread
  cases hwrites : c.writes with
  | false => exact keys_of_step hstep hwrites
  | true =>
      have hsilent : ∀ p, cfg'.threads t = some p → p.Issues Unviewed := by
        refine Machine.residual (fun _ _ r h => h.2 r) hlater fun p hp => ?_
        obtain rfl : k r = p := Option.some.inj ((Function.update_self t _ _).symm.trans hp)
        exact hfirst.2.1 hwrites r
      cases (hsilent _ hread).1

/-- What holds of the refreshes of sessions in a configuration, and of what may follow it. -/
structure Rotates (setting : Setting) (calls : T → Call) (cfg : AuthConfig T) : Prop where
  /-- Of the refreshes that present one token, at most one succeeds. -/
  singleUse : ∀ t u token token' attempts attempts' done done', calls t = .refresh token attempts →
    calls u = .refresh token' attempts' →
    setting.refreshFingerprint token = setting.refreshFingerprint token' →
    cfg.threads t = some (.ret done) → cfg.threads u = some (.ret done') → t = u
  /-- A session has at most one current entry. -/
  oneCurrent : ∀ fingerprint fingerprint' sid, CurrentEntry cfg.state fingerprint sid →
    CurrentEntry cfg.state fingerprint' sid → fingerprint = fingerprint'
  /-- Where a refresh answers `refresh_reused`, liveness key and session hash are gone. -/
  reuseEnds : ∀ t token attempts sid, calls t = .refresh token attempts →
    Issued cfg.state (setting.refreshFingerprint token) sid →
    cfg.threads t = some (.raise (.api refreshReused)) → Absent cfg.state sid
  /-- A liveness key that is gone stays gone, and no refresh that starts then succeeds. -/
  final : ∀ sid cfg', Created cfg.state sid → cfg.state.store.keys (.live sid) = none →
    (authMachine T setting).Reaches cfg cfg' → cfg'.state.store.keys (.live sid) = none ∧
      ∀ t token attempts done, calls t = .refresh token attempts →
        cfg.threads t = some ((calls t).program setting) →
        Issued cfg'.state (setting.refreshFingerprint token) sid → cfg'.threads t ≠ some (.ret done)
  /-- A refresh writes nothing before it reads the credential view. -/
  readsFirst : ∀ t token attempts c (k : Reply c → AuthProg Done) r db cfg' userId k',
    calls t = .refresh token attempts → cfg.threads t = some (.call c k) →
    (authMachine T setting).step t c cfg.state r db →
    (authMachine T setting).Reaches ⟨Function.update cfg.threads t (some (k r)), db⟩ cfg' →
    cfg'.threads t = some (.call (.credentialByUser userId) k') → db.store.keys = cfg.state.store.keys
  /-- A refresh whose read of the credential view fails ends there. -/
  failedRead : ∀ t token attempts userId k, calls t = .refresh token attempts →
    cfg.threads t = some (.call (.credentialByUser userId) k) →
    k (.error .database) = .raise (.api databaseUnavailable)

/-- **Refresh rotation is single-use and revocation is final**, in every interleaving of any calls. -/
theorem refresh_rotation (setting : Setting) (calls : T → Call) (now : ℕ) {cfg : AuthConfig T}
    (hrun : (authMachine T setting).Reaches (initial setting calls now) cfg) : Rotates setting calls cfg := by
  have hobeys : Fulfilling False setting calls cfg :=
    fulfilling_initial.reaches authMachine_implements authMachine_closed hrun
  refine ⟨?_, hobeys.inv.1.current, ?_, ?_, ?_, ?_⟩
  · exact fun t u token token' attempts attempts' done done' ht hu hsame hdone hdone' =>
      single_use hobeys ht hu hsame hdone hdone'
  · exact fun t token attempts sid ht hissued hreused => reuse_ends hobeys ht hissued hreused
  · intro sid cfg' hcreated hlive hlater
    have hdead := dead_of_unlive hobeys.inv.1 hcreated hlive
    refine ⟨((grows_of_reaches hobeys hlater).dead sid hdead).1, ?_⟩
    exact fun t token attempts done ht hstart hissued =>
      late_refresh hobeys ht hdead hstart hlater hissued done
  · exact fun t token attempts c k r db cfg' userId k' ht hthread hstep hlater hread =>
      keys_before_read hrun ht hthread hstep hlater hread
  · exact fun t token attempts userId k ht hthread => (readsFirst_residual hrun ht _ hthread).1 rfl

end Runs

/-! ### A sign-in, a refresh, and its token again -/

/-- The setting whose functions on texts leave them, and whose passwords all verify. -/
def Setting.plain : Setting where
  lower := id
  verifyPassword _ _ := true
  dummyHash := ""
  passwordFingerprint := id
  refreshFingerprint := id
  issuer := "mosaiq-auth"
  accessTtl := 600
  sessionTtl := 43200

def analyst : Credential := ⟨"ada", "hash", true, "ANALYST"⟩

/-- Answers of a server whose credential view always shows the analyst. -/
def respond {T : Type} [DecidableEq T] (t : T) : (c : Command) → AuthDb T → Option (Reply c × AuthDb T)
  | .time, db => some (.ok (db.store.now / 1000), db)
  | .uuid, db =>
    let sid := ["a", "b", "c", "d"].getD db.sids.length "z"
    if sid = "" ∨ sid ∈ db.sids.map Prod.fst then none
    else some (.ok sid, { db with sids := (sid, t) :: db.sids })
  | .token, db =>
    let token := ["x", "y"].getD db.tokens.length "z"
    if token ∈ db.tokens.map Prod.fst then none
    else some (.ok token, { db with tokens := (token, t) :: db.tokens })
  | .credentialByEmail _, db => some (.ok (some analyst), db)
  | .credentialByUser _, db => some (.ok (some analyst), db)
  | .credentialsByUser _, db => some (.ok [analyst], db)
  | .hgetallRefresh fingerprint, db => some (.ok (db.store.get (.refresh fingerprint)), db)
  | .hgetallSession sid, db => some (.ok (db.store.get (.session sid)), db)
  | .smembers set, db => some (.ok ((db.store.get (.members set)).getD []), db)
  | .write write, db => some (.ok (), db.written write)
  | .watch key, db => some (.ok (), { db with store := db.store.watch t key })
  | .unwatch, db => some (.ok (), db.abandon t)
  | .exec writes, db => if db.store.dirty t = false then some (.ok (), db.execute t writes) else none
  | .waitAof, db => some (.ok 1, db)

theorem step_of_respond {T : Type} [DecidableEq T] {t : T} {c : Command} {r : Reply c} {db db' : AuthDb T}
    (h : respond t c db = some (r, db')) : (authMachine T .plain).step t c db r db' := by
  cases c with
  | uuid =>
      unfold respond at h
      dsimp only at h
      split_ifs at h with hused
      obtain ⟨rfl, rfl⟩ := Prod.mk.inj (Option.some.inj h)
      obtain ⟨hne, hmem⟩ := not_or.mp hused
      exact .uuid _ hne fun u hu => hmem (List.mem_map.mpr ⟨_, hu, rfl⟩)
  | token =>
      unfold respond at h
      dsimp only at h
      split_ifs at h with hmem
      obtain ⟨rfl, rfl⟩ := Prod.mk.inj (Option.some.inj h)
      exact .token _ fun u hu => hmem (List.mem_map.mpr ⟨_, hu, rfl⟩)
  | exec writes =>
      unfold respond at h
      dsimp only at h
      split_ifs at h with hclean
      obtain ⟨rfl, rfl⟩ := Prod.mk.inj (Option.some.inj h)
      exact .answered (.exec writes hclean)
  | smembers set =>
      obtain ⟨rfl, rfl⟩ := Prod.mk.inj (Option.some.inj h)
      exact .answered (.smembers set _ (.refl _))
  | _ =>
      obtain ⟨rfl, rfl⟩ := Prod.mk.inj (Option.some.inj h)
      first
      | exact .time
      | exact .credentialByEmail _ _
      | exact .credentialByUser _ _
      | exact .credentialsByUser _ _
      | exact .answered (by constructor)

/-- Whether a call has ended, and with which error. -/
def failure : Option (AuthProg Done) → Option AuthFailure
  | some (.raise e) => some e
  | _ => none

theorem raise_of_failure {p : Option (AuthProg Done)} {e : AuthFailure} (h : failure p = some e) :
    p = some (.raise e) := by
  unfold failure at h
  split at h
  · rw [Option.some.inj h]
  · cases h

/-- A sign-in, and two refreshes of the token it returns. -/
def reuseCalls : Fin 3 → Call
  | 0 => .signIn "ada@mosaiq.test" "secret"
  | _ => .refresh "x" 1

/-- The sign-in, a refresh that succeeds, and one of the same token that ends the session. -/
theorem refresh_rotation_corner : ∃ cfg : AuthConfig (Fin 3),
    (authMachine (Fin 3) .plain).Reaches (initial .plain reuseCalls 1000) cfg ∧
    Rotates .plain reuseCalls cfg ∧ Issued cfg.state "y" "a" ∧
    cfg.threads 2 = some (.raise (.api refreshReused)) := by
  have hrun : ((schedule respond (List.replicate 7 0 ++ List.replicate 10 1 ++ List.replicate 7 2)
      (initial .plain reuseCalls 1000)).any fun cfg =>
        (cfg.state.executed.any fun e => Write.hsetRefresh "y" "a" ∈ e.2) ∧
        failure (cfg.threads 2) = some (.api refreshReused)) = true := by
    decide +kernel
  obtain ⟨cfg, hcfg, hends⟩ := (Option.any_eq_true _ _).mp hrun
  obtain ⟨hissued, hreused⟩ := of_decide_eq_true hends
  obtain ⟨⟨t, writes⟩, hmem, hwrite⟩ := List.any_eq_true.mp hissued
  have hreaches := Machine.reaches_of_schedule (authMachine (Fin 3) .plain)
    (fun _ _ _ _ _ => step_of_respond) _ hcfg
  exact ⟨cfg, hreaches, refresh_rotation .plain reuseCalls 1000 hreaches,
    ⟨t, writes, hmem, of_decide_eq_true hwrite⟩, raise_of_failure hreused⟩

end RetailSegmentation.Sessions
