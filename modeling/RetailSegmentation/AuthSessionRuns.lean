import Mathlib.Data.Set.Insert
import RetailSegmentation.AuthSessionIndex

/-! Every interleaving of auth-service's calls: what a call knows at each point, what it may then issue, and
that nothing the others do takes it away. -/

namespace RetailSegmentation.Sessions

open Program Redis

/-! ### Stages -/

/-- What a call may have learnt; once it holds, it holds for good. -/
inductive Fact where
  | created (sid : Sid)
  | issued (fingerprint : Fingerprint) (sid : Sid)
  | dead (sid : Sid)
  | ofUser (userId : UserId) (sid : Sid)
  | spent (fingerprint : Fingerprint)

/-- The names a call has drawn and not used, and the entry it watches. -/
inductive Phase where
  | idle
  | drewSid (sid : Sid)
  | ready (sid : Sid) (fingerprint : Fingerprint)
  | drew (new : Fingerprint)
  | watched (old new : Fingerprint)
  | saw (old new : Fingerprint) (entry : Option RefreshEntry)

/-- What a call knows, and what it is about. -/
structure Stage where
  facts : Set Fact
  phase : Phase

section Runs

variable {T : Type}

def Fact.Holds (t : T) (db : AuthDb T) : Fact → Prop
  | created sid => Created db sid
  | issued fingerprint sid => Issued db fingerprint sid
  | dead sid => Dead db sid
  | ofUser userId sid => OfUser db userId sid
  | spent fingerprint => Spent db t fingerprint

def OwnSid (t : T) (db : AuthDb T) (sid : Sid) : Prop := (sid, t) ∈ db.sids ∧ ¬ Created db sid

def OwnToken (t : T) (db : AuthDb T) (fingerprint : Fingerprint) : Prop :=
  (fingerprint, t) ∈ db.tokens ∧ ∀ sid, ¬ Issued db fingerprint sid

def Phase.At (t : T) (db : AuthDb T) : Phase → Prop
  | idle => True
  | drewSid sid => OwnSid t db sid
  | ready sid fingerprint => OwnSid t db sid ∧ OwnToken t db fingerprint
  | drew new => OwnToken t db new
  | watched old new => OwnToken t db new ∧ Key.refresh old ∈ db.store.watched t
  | saw old new entry => OwnToken t db new ∧ Key.refresh old ∈ db.store.watched t ∧
    (db.store.dirty t = false → db.store.get (.refresh old) = entry)

structure Stage.At (t : T) (db : AuthDb T) (stage : Stage) : Prop where
  facts : ∀ fact ∈ stage.facts, fact.Holds t db
  phase : stage.phase.At t db

variable {db db' : AuthDb T} {t u : T} {stage : Stage}

theorem Fact.Holds.mono {fact : Fact} (h : fact.Holds t db) (hgrows : Grows db db') : fact.Holds t db' := by
  cases fact with
  | created sid => exact Created.mono h hgrows.executed
  | issued fingerprint sid => exact Issued.mono h hgrows.executed
  | dead sid => exact Dead.mono h hgrows
  | ofUser userId sid => exact OfUser.mono h hgrows
  | spent fingerprint => exact Spent.mono h hgrows.executed

theorem OwnSid.leaves {sid : Sid} (h : OwnSid u db sid) (hleaves : Leaves u db db') : OwnSid u db' sid := by
  obtain ⟨hmem, hcreated⟩ := hleaves.sids sid h.1
  exact ⟨hmem, fun hc => h.2 (hcreated hc)⟩

theorem OwnToken.leaves {fingerprint : Fingerprint} (h : OwnToken u db fingerprint) (hleaves : Leaves u db db') :
    OwnToken u db' fingerprint := by
  obtain ⟨hmem, hissued⟩ := hleaves.tokens fingerprint h.1
  exact ⟨hmem, fun sid hi => h.2 sid (hissued sid hi)⟩

theorem Phase.At.leaves {phase : Phase} (h : phase.At u db) (hleaves : Leaves u db db') : phase.At u db' := by
  cases phase with
  | idle => trivial
  | drewSid sid => exact OwnSid.leaves h hleaves
  | ready sid fingerprint => exact ⟨h.1.leaves hleaves, h.2.leaves hleaves⟩
  | drew new => exact OwnToken.leaves h hleaves
  | watched old new => exact ⟨h.1.leaves hleaves, hleaves.shows.watched ▸ h.2⟩
  | saw old new entry =>
      obtain ⟨hown, hwatched, hentry⟩ := h
      refine ⟨hown.leaves hleaves, hleaves.shows.watched ▸ hwatched, fun hclean => ?_⟩
      obtain ⟨hclean, hsame⟩ := hleaves.shows.same hclean
      rw [Store.get, hsame _ hwatched]
      exact hentry hclean

/-! ### The protocol -/

/-- What is left to a call whose connection has been given up. -/
def Phase.released : Phase → Phase
  | watched _ new => drew new
  | saw _ new _ => drew new
  | phase => phase

def Phase.afterUuid (sid : Sid) : Phase → Phase
  | idle => drewSid sid
  | phase => phase

def Phase.afterToken (fingerprint : Fingerprint) : Phase → Phase
  | idle => drew fingerprint
  | drewSid sid => ready sid fingerprint
  | phase => phase

def Phase.afterWatch (key : Key) : Phase → Phase
  | drew new => match key with
    | .refresh old => watched old new
    | _ => drew new
  | phase => phase

def Phase.afterEntry (fingerprint : Fingerprint) (entry : Option RefreshEntry) : Phase → Phase
  | watched old new => if old = fingerprint then saw old new entry else watched old new
  | phase => phase

def entryFacts (fingerprint : Fingerprint) (entry : Option RefreshEntry) : Set Fact :=
  {fact | ∃ e sid, entry = some e ∧ e.sid = some sid ∧ (fact = .issued fingerprint sid ∨ fact = .created sid)}

def sessionFacts (sid : Sid) (session : Option Session) : Set Fact :=
  {fact | session.isSome = true ∧ fact = .created sid}

/-- Where the index can be relied on, a session of the user that is not in the user's set is dead. -/
def membersFacts (indexed : Prop) (facts : Set Fact) (set : SetKey) (members : List String) : Set Fact :=
  {fact | indexed ∧ ∃ userId sid, set = .userSids userId ∧ .ofUser userId sid ∈ facts ∧ sid ∉ members ∧
    fact = .dead sid}

/-- The new facts of a `DEL`. -/
def deletedFacts (facts : Set Fact) (write : Write) : Set Fact :=
  {fact | ∃ sid family, write = .del (revoked sid family) ∧ .created sid ∈ facts ∧ fact = .dead sid}

/-- The new facts of a MULTI block. -/
def executedFacts (writes : List Write) : Set Fact :=
  {fact | ∃ fingerprint, .hsetState fingerprint .rotated ∈ writes ∧ fact = .spent fingerprint}

def Stage.learn (stage : Stage) (facts : Set Fact) : Stage := { stage with facts := stage.facts ∪ facts }

def Stage.answered (indexed : Prop) (setting : Setting) (stage : Stage) : (c : Command) → Answer c → Stage
  | .uuid, sid => { stage with phase := stage.phase.afterUuid sid }
  | .token, token => { stage with phase := stage.phase.afterToken (setting.refreshFingerprint token) }
  | .hgetallRefresh fingerprint, entry =>
    { stage with phase := stage.phase.afterEntry fingerprint entry }.learn (entryFacts fingerprint entry)
  | .hgetallSession sid, session => stage.learn (sessionFacts sid session)
  | .smembers set, members => stage.learn (membersFacts indexed stage.facts set members)
  | .write write, _ => stage.learn (deletedFacts stage.facts write)
  | .watch key, _ => { stage with phase := stage.phase.afterWatch key }
  | .unwatch, _ => { stage with phase := stage.phase.released }
  | .exec writes, _ => { stage with phase := .idle }.learn (executedFacts writes)
  | _, _ => stage

/-- Where an error leads. -/
def Stage.troubled (stage : Stage) : Trouble → Stage
  | .database => stage
  | .redis => { stage with phase := .idle }
  | .watch => { stage with phase := stage.phase.released }

/-- An entry names its session, and a session that is known to be dead is not read. -/
def Told (stage : Stage) : (c : Command) → Answer c → Prop
  | .hgetallRefresh _, entry => ∀ e, entry = some e → ∃ sid, e.sid = some sid ∧ sid ≠ ""
  | .hgetallSession sid, session => session.isSome = true → .dead sid ∉ stage.facts
  | _, _ => True

/-- Which commands an error can answer. -/
def Troubles (c : Command) : Trouble → Prop
  | .database => c.viewed = true
  | .redis => c.sent = true
  | .watch => ∃ writes, c = .exec writes

def MayWrite (stage : Stage) (write : Write) : Prop :=
  (∃ sid family, write = .del (revoked sid family)) ∨
  (∃ userId, write = .del [.members (.userSids userId)]) ∨
  (∃ userId sid, write = .srem (.userSids userId) sid ∧ .dead sid ∈ stage.facts) ∨
  ∃ userId, write = .srem .sessionUsers userId

/-- The MULTI blocks of a sign-in, under names of its own, and of a rotation of a current entry. -/
def MayExecute (stage : Stage) (writes : List Write) : Prop :=
  (∃ sid userId role expiresAt passwordFingerprint refreshHash,
    writes = creation sid userId role expiresAt passwordFingerprint refreshHash ∧
      stage.phase = .ready sid refreshHash) ∨
  ∃ old new sid expiresAt, writes = rotation old new sid expiresAt ∧
    stage.phase = .saw old new (some ⟨some sid, some .current⟩)

def keeping (indexed : Prop) (setting : Setting) : Protocol Command Reply Stage where
  may c stage := match c with
    | .write write => MayWrite stage write
    | .exec writes => MayExecute stage writes
    | _ => True
  next c r stage stage' := match r with
    | .ok v => Told stage c v ∧ stage' = stage.answered indexed setting c v
    | .error e => Troubles c e ∧ stage' = stage.troubled e

def sessionContract (T : Type) (indexed : Prop) : Contract T Command Reply (AuthDb T) Stage where
  inv db := Sound db ∧ (indexed → Indexed db)
  at_ t stage db := Stage.At t db stage
  guar _ _ db _ db' := Grows db db'

/-! ### What every step keeps -/

structure Kept (indexed : Prop) (t : T) (db db' : AuthDb T) : Prop where
  sound : Sound db'
  index : indexed → Indexed db'
  grows : Grows db db'
  leaves : ∀ u ≠ t, Leaves u db db'

variable {indexed : Prop} {db'' : AuthDb T}

theorem Kept.trans (h : Kept indexed t db db') (h' : Kept indexed t db' db'') : Kept indexed t db db'' :=
  ⟨h'.sound, h'.index, h.grows.trans h'.grows, fun u hu => (h.leaves u hu).trans (h'.leaves u hu)⟩

theorem Kept.of_loses (hsound : Sound db) (h : Loses db db') (hindex : indexed → Indexed db')
    (hshows : ∀ u ≠ t, Store.Shows u db.store db'.store) : Kept indexed t db db' :=
  ⟨h.sound hsound, hindex, h.grows hsound, fun u hu => h.leaves (hshows u hu)⟩

theorem Kept.of_keys (hsound : Sound db) (hindex : indexed → Indexed db) (hquiet : Quiet db db')
    (hkeys : db'.store.keys = db.store.keys) (hshows : ∀ u ≠ t, Store.Shows u db.store db'.store) :
    Kept indexed t db db' := by
  have hloses := Loses.of_keys hquiet hkeys
  refine .of_loses hsound hloses (fun hi => ?_) hshows
  exact indexed_of_sets (hindex hi) hloses fun set => by rw [hkeys]

theorem Kept.refl (hsound : Sound db) (hindex : indexed → Indexed db) : Kept indexed t db db :=
  .of_keys hsound hindex ⟨rfl, rfl, rfl⟩ rfl fun u _ => .refl u _

variable [DecidableEq T]

theorem Kept.abandon (hsound : Sound db) (hindex : indexed → Indexed db) : Kept indexed t db (db.abandon t) :=
  .of_keys hsound hindex ⟨rfl, rfl, rfl⟩ rfl fun _ hu => .unwatch hu _

theorem Phase.At.released {phase : Phase} (h : phase.At t db) : phase.released.At t (db.abandon t) := by
  cases phase with
  | idle => trivial
  | drewSid sid => exact h
  | ready sid fingerprint => exact h
  | drew new => exact h
  | watched old new => exact h.1
  | saw old new entry => exact h.1

/-! ### Writes -/

omit [DecidableEq T] in
theorem kept_write (hsound : Sound db) (hindex : indexed → Indexed db) (hat : stage.At t db) {write : Write}
    (hmay : MayWrite stage write) (hheeds : indexed → write.heeds db = true) :
    Kept indexed t db (db.written write) := by
  have hshows : ∀ u ≠ t, Store.Shows u db.store (db.written write).store := fun u _ => shows_apply u write
  rcases hmay with ⟨sid, family, rfl⟩ | ⟨userId, rfl⟩ | ⟨userId, sid, rfl, hdead⟩ | ⟨userId, rfl⟩
  · exact .of_loses hsound (loses_revoked db sid family)
      (fun hi => indexed_revoked (hindex hi) sid family) hshows
  · exact .of_loses hsound (loses_unindexed db userId)
      (fun hi => indexed_unindexed hsound (hindex hi) userId (hheeds hi)) hshows
  · have hdead : Dead db sid := hat.facts _ hdead
    exact .of_loses hsound (loses_srem db _ _)
      (fun hi => indexed_srem_sid (hindex hi) userId sid hdead.2) hshows
  · exact .of_loses hsound (loses_srem db _ _)
      (fun hi => indexed_srem_user hsound (hindex hi) userId (hheeds hi)) hshows

theorem kept_execute (hsound : Sound db) (hindex : indexed → Indexed db) (hat : stage.At t db)
    {writes : List Write} (hmay : MayExecute stage writes) (hclean : db.store.dirty t = false)
    (hheeds : indexed → writes.all (Write.heeds db) = true) : Kept indexed t db (db.execute t writes) := by
  have hphase := hat.phase
  rcases hmay with ⟨sid, userId, role, expiresAt, passwordFingerprint, refreshHash, rfl, hready⟩ |
    ⟨old, new, sid, expiresAt, rfl, hsaw⟩
  · rw [hready] at hphase
    obtain ⟨⟨hsid, hnew⟩, htoken, hunissued⟩ := hphase
    exact ⟨sound_creation hsound hsid hnew htoken hunissued,
      fun hi => indexed_creation hsound (hindex hi) (hheeds hi), grows_creation hsound hnew,
      fun u hu => leaves_creation hu hsound hsid htoken⟩
  · rw [hsaw] at hphase
    obtain ⟨⟨htoken, hunissued⟩, -, hentry⟩ := hphase
    have hcurrent : CurrentEntry db old sid := ⟨_, hentry hclean, rfl, rfl⟩
    exact ⟨sound_rotation hsound hcurrent htoken hunissued, fun hi => indexed_rotation (hindex hi),
      grows_rotation, fun u hu => leaves_rotation hu hsound htoken⟩

theorem kept_answers {setting : Setting} (hsound : Sound db) (hindex : indexed → Indexed db)
    (hat : stage.At t db) {c : Command} {v : Answer c} (hmay : (keeping indexed setting).may c stage)
    (hheeds : indexed → heeds c db = true) (hanswer : db.Answers t c v db') : Kept indexed t db db' := by
  cases hanswer with
  | write write => exact kept_write hsound hindex hat hmay hheeds
  | exec writes hclean => exact kept_execute hsound hindex hat hmay hclean hheeds
  | watch key => exact .of_keys hsound hindex ⟨rfl, rfl, rfl⟩ rfl fun _ hu => .watch hu _ key
  | unwatch => exact .abandon hsound hindex
  | _ => exact .refl hsound hindex

/-! ### What a reply shows -/

section Replies

variable {setting : Setting}

omit [DecidableEq T] in
theorem At.learn {facts : Set Fact} (hat : stage.At t db) (hfacts : ∀ fact ∈ facts, fact.Holds t db) :
    (stage.learn facts).At t db :=
  ⟨fun fact h => h.elim (hat.facts fact) (hfacts fact), hat.phase⟩

omit [DecidableEq T] in
theorem told_entry (hsound : Sound db) (fingerprint : Fingerprint) :
    Told stage (.hgetallRefresh fingerprint) (db.store.get (.refresh fingerprint)) := by
  intro e he
  obtain ⟨sid, hsid, hissued⟩ := hsound.entry fingerprint e he
  obtain ⟨u, hu⟩ := hsound.drawn sid (hsound.issuedCreated fingerprint sid hissued)
  exact ⟨sid, hsid, hsound.named sid u hu⟩

omit [DecidableEq T] in
theorem at_entry (hsound : Sound db) (hat : stage.At t db) (fingerprint : Fingerprint) :
    (stage.answered indexed setting (.hgetallRefresh fingerprint)
      (db.store.get (.refresh fingerprint))).At t db := by
  refine At.learn ⟨hat.facts, ?_⟩ ?_
  · have hphase := hat.phase
    change (stage.phase.afterEntry _ _).At t db
    cases h : stage.phase with
    | watched old new =>
        rw [h] at hphase
        by_cases hsame : old = fingerprint
        · subst hsame
          rw [Phase.afterEntry, if_pos rfl]
          exact ⟨hphase.1, hphase.2, fun _ => rfl⟩
        · rw [Phase.afterEntry, if_neg hsame]
          exact hphase
    | _ => rwa [h] at hphase
  · rintro fact ⟨entry, sid, hentry, hsid, rfl | rfl⟩
    · obtain ⟨sid', hsid', hissued⟩ := hsound.entry fingerprint entry hentry
      obtain rfl := Option.some.inj (hsid.symm.trans hsid')
      exact hissued
    · obtain ⟨sid', hsid', hissued⟩ := hsound.entry fingerprint entry hentry
      obtain rfl := Option.some.inj (hsid.symm.trans hsid')
      exact hsound.issuedCreated fingerprint sid hissued

omit [DecidableEq T] in
theorem keys_of_get {sid : Sid} {session : Session} (h : db.store.get (.session sid) = some session) :
    ∃ e, db.store.keys (.session sid) = some e ∧ e.value = session := Option.map_eq_some_iff.mp h

omit [DecidableEq T] in
theorem at_session (hsound : Sound db) (hat : stage.At t db) (sid : Sid) :
    Told stage (.hgetallSession sid) (db.store.get (.session sid)) ∧
      (stage.answered indexed setting (.hgetallSession sid) (db.store.get (.session sid))).At t db := by
  constructor
  · intro hsome hdead
    obtain ⟨session, hsession⟩ := Option.isSome_iff_exists.mp hsome
    obtain ⟨e, he, -⟩ := keys_of_get hsession
    have hdead : Dead db sid := hat.facts _ hdead
    cases hdead.2.2.symm.trans he
  · refine At.learn hat ?_
    rintro fact ⟨hsome, rfl⟩
    obtain ⟨session, hsession⟩ := Option.isSome_iff_exists.mp hsome
    obtain ⟨e, he, -⟩ := keys_of_get hsession
    exact hsound.session sid (by rw [he]; simp)

omit [DecidableEq T] in
theorem at_members (hindex : indexed → Indexed db) (hat : stage.At t db) {set : SetKey} {members : List String}
    (hperm : members.Perm ((db.store.get (.members set)).getD [])) :
    (stage.answered indexed setting (.smembers set) members).At t db := by
  refine At.learn hat ?_
  rintro fact ⟨hi, userId, sid, rfl, hofUser, hnot, rfl⟩
  rcases hat.facts _ hofUser with hdead | ⟨session, hsession, huser⟩
  · exact hdead
  · obtain ⟨e, he, rfl⟩ := keys_of_get hsession
    obtain ⟨⟨sids, hsids, hmem, -⟩, -⟩ := hindex hi sid e he
    rw [huser] at hsids
    refine absurd (hperm.mem_iff.mpr ?_) hnot
    rw [Store.get, hsids]
    exact hmem

theorem at_watch (hat : stage.At t db) (key : Key) :
    (stage.answered indexed setting (.watch key) ()).At t { db with store := db.store.watch t key } := by
  have hwatched : ∀ k, k ∈ db.store.watched t ∨ k = key → k ∈ (db.store.watch t key).watched t := by
    intro k hk
    have hself : (db.store.watch t key).watched t = key :: db.store.watched t := Function.update_self ..
    rw [hself]
    exact List.mem_cons.mpr hk.symm
  refine ⟨hat.facts, ?_⟩
  have hphase := hat.phase
  change (stage.phase.afterWatch key).At t _
  cases h : stage.phase with
  | idle => trivial
  | drewSid sid => rwa [h] at hphase
  | ready sid fingerprint => rwa [h] at hphase
  | drew new =>
      rw [h] at hphase
      cases key with
      | refresh old => exact ⟨hphase, hwatched _ (.inr rfl)⟩
      | _ => exact hphase
  | watched old new =>
      rw [h] at hphase
      exact ⟨hphase.1, hwatched _ (.inl hphase.2)⟩
  | saw old new entry =>
      rw [h] at hphase
      exact ⟨hphase.1, hwatched _ (.inl hphase.2.1), hphase.2.2⟩

theorem at_answers (hsound : Sound db) (hindex : indexed → Indexed db) (hat : stage.At t db) {c : Command}
    {v : Answer c} (hgrows : Grows db db') (hanswer : db.Answers t c v db') :
    Told stage c v ∧ (stage.answered indexed setting c v).At t db' := by
  cases hanswer with
  | hgetallRefresh fingerprint => exact ⟨told_entry hsound fingerprint, at_entry hsound hat fingerprint⟩
  | hgetallSession sid => exact at_session hsound hat sid
  | smembers set members hperm => exact ⟨trivial, at_members hindex hat hperm⟩
  | write write =>
      have hkept : stage.At t (db.written write) := by
        refine ⟨fun fact h => (hat.facts fact h).mono hgrows, hat.phase.leaves ?_⟩
        exact ⟨fun _ h => ⟨h, fun h => h⟩, fun _ h => ⟨h, fun _ h => h⟩, shows_apply t write⟩
      refine ⟨trivial, At.learn hkept ?_⟩
      rintro fact ⟨sid, family, rfl, hcreated, rfl⟩
      have hcreated : Created db sid := hat.facts _ hcreated
      exact ⟨hcreated.mono hgrows.executed, absent_revoked db sid family⟩
  | watch key => exact ⟨trivial, at_watch hat key⟩
  | unwatch => exact ⟨trivial, fun fact h => (hat.facts fact h).mono hgrows, hat.phase.released⟩
  | exec writes hclean =>
      have hidle : ({ stage with phase := .idle } : Stage).At t (db.execute t writes) :=
        ⟨fun fact h => (hat.facts fact h).mono hgrows, trivial⟩
      refine ⟨trivial, At.learn hidle ?_⟩
      rintro fact ⟨fingerprint, hmem, rfl⟩
      exact ⟨writes, List.mem_cons_self, hmem⟩
  | waitAof acknowledged => exact ⟨trivial, hat⟩

omit [DecidableEq T] in
theorem at_uuid (hsound : Sound db) (hat : stage.At t db) {sid : Sid} (hfresh : ∀ u, (sid, u) ∉ db.sids) :
    (stage.answered indexed setting .uuid sid).At t { db with sids := (sid, t) :: db.sids } := by
  refine ⟨fun fact h => (hat.facts fact h).mono (grows_drawSid sid), ?_⟩
  have hphase := hat.phase.leaves (leaves_drawSid (t := t) t sid)
  change (stage.phase.afterUuid sid).At t _
  cases h : stage.phase with
  | idle =>
      refine ⟨List.mem_cons_self, fun hcreated => ?_⟩
      obtain ⟨u, hu⟩ := hsound.drawn sid hcreated
      exact hfresh u hu
  | _ => rwa [h] at hphase

omit [DecidableEq T] in
theorem at_token (hsound : Sound db) (hat : stage.At t db) {token : String}
    (hfresh : ∀ u, (setting.refreshFingerprint token, u) ∉ db.tokens) :
    (stage.answered indexed setting .token token).At t
      { db with tokens := (setting.refreshFingerprint token, t) :: db.tokens } := by
  have hown : OwnToken t ({ db with tokens := (setting.refreshFingerprint token, t) :: db.tokens } : AuthDb T)
      (setting.refreshFingerprint token) := by
    refine ⟨List.mem_cons_self, fun sid hissued => ?_⟩
    obtain ⟨u, hu⟩ := hsound.issuedDrawn _ sid hissued
    exact hfresh u hu
  refine ⟨fun fact h => (hat.facts fact h).mono (grows_drawToken _), ?_⟩
  have hphase := hat.phase.leaves (leaves_drawToken (t := t) t (setting.refreshFingerprint token))
  change (stage.phase.afterToken _).At t _
  cases h : stage.phase with
  | idle => exact hown
  | drewSid sid =>
      rw [h] at hphase
      exact ⟨hphase, hown⟩
  | _ => rwa [h] at hphase

omit [DecidableEq T] in
theorem at_troubled (hat : stage.At t db) (hgrows : Grows db db') : (stage.troubled .redis).At t db' :=
  ⟨fun fact h => (hat.facts fact h).mono hgrows, trivial⟩

end Replies

/-! ### Every command -/

omit [DecidableEq T] in
theorem Kept.leads (hkept : Kept indexed t db db') {c : Command} {r : Reply c} {P : Stage → Prop} {stage' : Stage}
    (hat' : stage'.At t db') (hnext : P stage') :
    (sessionContract T indexed).guar t c db r db' ∧ (sessionContract T indexed).Keeps t db db' ∧
      ∃ stage', (sessionContract T indexed).at_ t stage' db' ∧ P stage' :=
  ⟨hkept.grows, ⟨⟨hkept.sound, hkept.index⟩, fun u hu _ hat => ⟨fun fact hf => (hat.facts fact hf).mono hkept.grows,
    hat.phase.leaves (hkept.leaves u hu)⟩⟩, stage', hat', hnext⟩

/-- The commands a call may issue keep the contract and lead where the protocol says, on every machine that
heeds the index where the contract relies on it. -/
theorem sessionContract_implements {M : Machine T Command Reply (AuthDb T)} {setting : Setting}
    (hmachine : ∀ t c db r db', M.step t c db r db' →
      (indexed → heeds c db = true) ∧ db.Step setting t c r db') :
    (sessionContract T indexed).Implements M fun _ => keeping indexed setting := by
  rintro t c stage hmay db r db' ⟨hsound, hindex⟩ hat hstep
  have hat : stage.At t db := hat
  obtain ⟨hheeds, hstep⟩ := hmachine t c db r db' hstep
  have hself : Kept indexed t db db := .refl hsound hindex
  have habandoned : Kept indexed t db (db.abandon t) := .abandon hsound hindex
  cases hstep with
  | time => exact hself.leads hat ⟨trivial, rfl⟩
  | uuid sid hne hfresh =>
      have hkept : Kept indexed t db { db with sids := (sid, t) :: db.sids } :=
        ⟨sound_drawSid hsound hne hfresh, hindex, grows_drawSid sid, fun u _ => leaves_drawSid u sid⟩
      exact hkept.leads (at_uuid hsound hat hfresh) ⟨trivial, rfl⟩
  | token token hfresh =>
      have hkept : Kept indexed t db
          { db with tokens := (setting.refreshFingerprint token, t) :: db.tokens } :=
        ⟨sound_drawToken hsound hfresh, hindex, grows_drawToken _, fun u _ => leaves_drawToken u _⟩
      exact hkept.leads (at_token hsound hat hfresh) ⟨trivial, rfl⟩
  | credentialByEmail emailLower found => exact hself.leads hat ⟨trivial, rfl⟩
  | credentialByUser userId found => exact hself.leads hat ⟨trivial, rfl⟩
  | credentialsByUser userIds found => exact hself.leads hat ⟨trivial, rfl⟩
  | unreachable c hviewed => exact hself.leads hat ⟨hviewed, rfl⟩
  | answered hanswer =>
      have hkept := kept_answers hsound hindex hat hmay hheeds hanswer
      obtain ⟨htold, hat'⟩ := at_answers hsound hindex hat hkept.grows hanswer
      exact hkept.leads hat' ⟨htold, rfl⟩
  | failed c hsent => exact habandoned.leads (at_troubled hat habandoned.grows) ⟨hsent, rfl⟩
  | lost hanswer =>
      have hkept := kept_answers hsound hindex hat hmay hheeds hanswer
      have hkept' := hkept.trans (.abandon hkept.sound hkept.index)
      refine hkept'.leads (at_troubled hat hkept'.grows) ⟨?_, rfl⟩
      cases hanswer <;> rfl
  | touched writes hdirty =>
      have hreleased : ({ stage with phase := stage.phase.released } : Stage).At t (db.abandon t) :=
        ⟨fun fact h => (hat.facts fact h).mono habandoned.grows, hat.phase.released⟩
      exact habandoned.leads hreleased ⟨⟨writes, rfl⟩, rfl⟩

theorem sessionContract_closed {M : Machine T Command Reply (AuthDb T)}
    (henv : ∀ db db', M.env db db' → ∃ now, db' = { db with store := db.store.tick now })
    (hhalt : ∀ t db db', M.halt t db db' → db' = db.abandon t) : (sessionContract T indexed).Closed M where
  env db db' hinv h := by
    obtain ⟨now, rfl⟩ := henv db db' h
    obtain ⟨hsound, hindex⟩ := hinv
    have hloses := Loses.tick hsound now
    have hleaves : ∀ u, Leaves u db { db with store := db.store.tick now } :=
      fun u => hloses.leaves (.tick u db.store now)
    refine ⟨⟨hloses.sound hsound, fun hi => indexed_tick hsound (hindex hi) now⟩, fun t stage hat => ?_⟩
    exact ⟨fun fact hf => (hat.facts fact hf).mono (hloses.grows hsound), hat.phase.leaves (hleaves t)⟩
  halt t db db' hinv h := by
    obtain rfl := hhalt t db db' h
    obtain ⟨hsound, hindex⟩ := hinv
    have hkept : Kept indexed t db (db.abandon t) := .abandon hsound hindex
    exact ⟨⟨hkept.sound, hkept.index⟩, fun u hu stage hat =>
      ⟨fun fact hf => (hat.facts fact hf).mono hkept.grows, hat.phase.leaves (hkept.leaves u hu)⟩⟩

end Runs
end RetailSegmentation.Sessions
