import RetailSegmentation.AuthSessions

/-! What every state of auth-service's keys satisfies, and what each command leaves of it. -/

namespace RetailSegmentation.Sessions

open Program Redis

section Facts

variable {T : Type}

/-! ### What has happened -/

/-- Some sign-in has set the liveness key. -/
def Created (db : AuthDb T) (sid : Sid) : Prop :=
  ∃ t writes, (t, writes) ∈ db.executed ∧ Write.setLive sid ∈ writes

/-- A sign-in or a rotation has made the entry of a refresh token of session `sid`. -/
def Issued (db : AuthDb T) (fingerprint : Fingerprint) (sid : Sid) : Prop :=
  ∃ t writes, (t, writes) ∈ db.executed ∧ Write.hsetRefresh fingerprint sid ∈ writes

/-- `t` has rotated a refresh token. -/
def Spent (db : AuthDb T) (t : T) (fingerprint : Fingerprint) : Prop :=
  ∃ writes, (t, writes) ∈ db.executed ∧ Write.hsetState fingerprint .rotated ∈ writes

def Absent (db : AuthDb T) (sid : Sid) : Prop :=
  db.store.keys (.live sid) = none ∧ db.store.keys (.session sid) = none

/-- A session that was, and is no more. -/
def Dead (db : AuthDb T) (sid : Sid) : Prop := Created db sid ∧ Absent db sid

def OfUser (db : AuthDb T) (userId : UserId) (sid : Sid) : Prop :=
  Dead db sid ∨ ∃ session, db.store.get (.session sid) = some session ∧ session.userId = userId

/-- An entry whose token may be rotated. -/
def CurrentEntry (db : AuthDb T) (fingerprint : Fingerprint) (sid : Sid) : Prop :=
  ∃ entry, db.store.get (.refresh fingerprint) = some entry ∧ entry.state = some .current ∧ entry.sid = some sid

/-- The drawn names are owned, and the keys fit what has happened. -/
structure Sound (db : AuthDb T) : Prop where
  sids : ∀ sid t u, (sid, t) ∈ db.sids → (sid, u) ∈ db.sids → t = u
  named : ∀ sid t, (sid, t) ∈ db.sids → sid ≠ ""
  tokens : ∀ fingerprint t u, (fingerprint, t) ∈ db.tokens → (fingerprint, u) ∈ db.tokens → t = u
  drawn : ∀ sid, Created db sid → ∃ t, (sid, t) ∈ db.sids
  issuedDrawn : ∀ fingerprint sid, Issued db fingerprint sid → ∃ t, (fingerprint, t) ∈ db.tokens
  issuedCreated : ∀ fingerprint sid, Issued db fingerprint sid → Created db sid
  issuedOnce : ∀ fingerprint sid sid', Issued db fingerprint sid → Issued db fingerprint sid' → sid = sid'
  twin : ∀ sid, (db.store.keys (.live sid)).map Entry.deadline = (db.store.keys (.session sid)).map Entry.deadline
  session : ∀ sid, db.store.keys (.session sid) ≠ none → Created db sid
  entry : ∀ fingerprint entry, db.store.get (.refresh fingerprint) = some entry →
    ∃ sid, entry.sid = some sid ∧ Issued db fingerprint sid
  current : ∀ fingerprint fingerprint' sid, CurrentEntry db fingerprint sid → CurrentEntry db fingerprint' sid →
    fingerprint = fingerprint'
  spentIssued : ∀ t fingerprint, Spent db t fingerprint → ∃ sid, Issued db fingerprint sid
  spentPast : ∀ t fingerprint sid, Spent db t fingerprint → ¬ CurrentEntry db fingerprint sid
  spentOnce : ∀ t u fingerprint, Spent db t fingerprint → Spent db u fingerprint → t = u

/-- A set lasts at least as long as a session does. -/
def Outlasts (d d' : Option ℕ) : Prop := ∀ x, d = some x → ∃ y, d' = some y ∧ y ≤ x

/-- Set `set` holds `member`, and lasts as long as a key with deadline `d`. -/
def Holds (db : AuthDb T) (set : SetKey) (member : String) (d : Option ℕ) : Prop :=
  ∃ e, db.store.keys (.members set) = some e ∧ member ∈ e.value ∧ Outlasts e.deadline d

/-- Every live session is in its user's set, and its user among the users with sessions, for as long as it
lasts. -/
def Indexed (db : AuthDb T) : Prop :=
  ∀ sid e, db.store.keys (.session sid) = some e →
    Holds db (.userSids e.value.userId) sid e.deadline ∧ Holds db .sessionUsers e.value.userId e.deadline

/-! ### What commands leave -/

/-- What has happened has happened, and a session is what it was, or dead. -/
structure Grows (db db' : AuthDb T) : Prop where
  executed : ∀ e ∈ db.executed, e ∈ db'.executed
  dead : ∀ sid, Dead db sid → Absent db' sid
  session : ∀ sid session, db.store.get (.session sid) = some session →
    db'.store.get (.session sid) = some session ∨ Dead db' sid

/-- What connection `u` has drawn stays its own to use, and what it watches shows. -/
structure Leaves (u : T) (db db' : AuthDb T) : Prop where
  sids : ∀ sid, (sid, u) ∈ db.sids → (sid, u) ∈ db'.sids ∧ (Created db' sid → Created db sid)
  tokens : ∀ fingerprint, (fingerprint, u) ∈ db.tokens → (fingerprint, u) ∈ db'.tokens ∧
    ∀ sid, Issued db' fingerprint sid → Issued db fingerprint sid
  shows : Store.Shows u db.store db'.store

variable {db db' db'' : AuthDb T} {t u : T} {sid : Sid} {fingerprint : Fingerprint}

theorem Created.mono (h : Created db sid) (hexecuted : ∀ e ∈ db.executed, e ∈ db'.executed) : Created db' sid := by
  obtain ⟨t, writes, hmem, hwrite⟩ := h
  exact ⟨t, writes, hexecuted _ hmem, hwrite⟩

theorem Issued.mono (h : Issued db fingerprint sid) (hexecuted : ∀ e ∈ db.executed, e ∈ db'.executed) :
    Issued db' fingerprint sid := by
  obtain ⟨t, writes, hmem, hwrite⟩ := h
  exact ⟨t, writes, hexecuted _ hmem, hwrite⟩

theorem Spent.mono (h : Spent db t fingerprint) (hexecuted : ∀ e ∈ db.executed, e ∈ db'.executed) :
    Spent db' t fingerprint := by
  obtain ⟨writes, hmem, hwrite⟩ := h
  exact ⟨writes, hexecuted _ hmem, hwrite⟩

theorem Dead.mono (h : Dead db sid) (hgrows : Grows db db') : Dead db' sid :=
  ⟨h.1.mono hgrows.executed, hgrows.dead sid h⟩

theorem OfUser.mono {userId : UserId} (h : OfUser db userId sid) (hgrows : Grows db db') :
    OfUser db' userId sid := by
  rcases h with h | ⟨session, hsession, huser⟩
  · exact .inl (h.mono hgrows)
  · exact (hgrows.session sid session hsession).symm.imp id fun h => ⟨session, h, huser⟩

theorem Grows.trans (h : Grows db db') (h' : Grows db' db'') : Grows db db'' := by
  refine ⟨fun e he => h'.executed e (h.executed e he), fun s hs => h'.dead s (hs.mono h), fun s session hs => ?_⟩
  rcases h.session s session hs with hs | hs
  · exact h'.session s session hs
  · exact .inr (hs.mono h')

theorem Leaves.trans (h : Leaves u db db') (h' : Leaves u db' db'') : Leaves u db db'' := by
  refine ⟨fun s hs => ?_, fun f hf => ?_, h.shows.trans h'.shows⟩
  · obtain ⟨hs', hcreated⟩ := h.sids s hs
    obtain ⟨hs'', hcreated'⟩ := h'.sids s hs'
    exact ⟨hs'', fun hc => hcreated (hcreated' hc)⟩
  · obtain ⟨hf', hissued⟩ := h.tokens f hf
    obtain ⟨hf'', hissued'⟩ := h'.tokens f hf'
    exact ⟨hf'', fun s hi => hissued s (hissued' s hi)⟩

/-! ### Keys that go -/

/-- A step that draws and executes nothing. -/
structure Quiet (db db' : AuthDb T) : Prop where
  sids : db'.sids = db.sids
  tokens : db'.tokens = db.tokens
  executed : db'.executed = db.executed

theorem Quiet.created (h : Quiet db db') : Created db' sid ↔ Created db sid := by
  unfold Created
  rw [h.executed]

theorem Quiet.issued (h : Quiet db db') : Issued db' fingerprint sid ↔ Issued db fingerprint sid := by
  unfold Issued
  rw [h.executed]

theorem Quiet.spent (h : Quiet db db') : Spent db' t fingerprint ↔ Spent db t fingerprint := by
  unfold Spent
  rw [h.executed]

/-- The keys that are not sets are as they were, or gone, and liveness key and session hash go together. -/
structure Loses (db db' : AuthDb T) : Prop extends Quiet db db' where
  keys : ∀ k, (∀ set, k ≠ .members set) → db'.store.keys k = none ∨ db'.store.keys k = db.store.keys k
  together : ∀ sid, Absent db' sid ∨ db'.store.keys (.live sid) = db.store.keys (.live sid) ∧
    db'.store.keys (.session sid) = db.store.keys (.session sid)

theorem Loses.entry (h : Loses db db') {entry : RefreshEntry}
    (hentry : db'.store.get (.refresh fingerprint) = some entry) :
    db.store.get (.refresh fingerprint) = some entry := by
  unfold Store.get at hentry ⊢
  rcases h.keys (.refresh fingerprint) (by simp) with hnone | hsame
  · rw [hnone] at hentry
    cases hentry
  · rwa [hsame] at hentry

theorem Loses.current (h : Loses db db') (hcurrent : CurrentEntry db' fingerprint sid) :
    CurrentEntry db fingerprint sid := by
  obtain ⟨entry, hentry, hstate⟩ := hcurrent
  exact ⟨entry, h.entry hentry, hstate⟩

theorem Loses.grows (h : Loses db db') (hsound : Sound db) : Grows db db' := by
  refine ⟨fun e he => h.executed ▸ he, fun s hs => ?_, fun s session hs => ?_⟩
  · rcases h.together s with habsent | ⟨hlive, hsession⟩
    · exact habsent
    · exact ⟨hlive.trans hs.2.1, hsession.trans hs.2.2⟩
  · rcases h.together s with habsent | ⟨-, hsession⟩
    · refine .inr ⟨h.created.mpr (hsound.session s fun hnone => ?_), habsent⟩
      rw [Store.get, hnone] at hs
      cases hs
    · rw [Store.get, hsession]
      exact .inl hs

theorem Loses.leaves (h : Loses db db') (hshows : Store.Shows u db.store db'.store) : Leaves u db db' :=
  ⟨fun _ hs => ⟨h.sids ▸ hs, h.created.mp⟩, fun _ hf => ⟨h.tokens ▸ hf, fun _ => h.issued.mp⟩, hshows⟩

theorem Loses.sound (h : Loses db db') (hsound : Sound db) : Sound db' where
  sids s t u ht hu := hsound.sids s t u (h.sids ▸ ht) (h.sids ▸ hu)
  named s t ht := hsound.named s t (h.sids ▸ ht)
  tokens f t u ht hu := hsound.tokens f t u (h.tokens ▸ ht) (h.tokens ▸ hu)
  drawn s hs := h.sids ▸ hsound.drawn s (h.created.mp hs)
  issuedDrawn f s hs := h.tokens ▸ hsound.issuedDrawn f s (h.issued.mp hs)
  issuedCreated f s hs := h.created.mpr (hsound.issuedCreated f s (h.issued.mp hs))
  issuedOnce f s s' hs hs' := hsound.issuedOnce f s s' (h.issued.mp hs) (h.issued.mp hs')
  twin s := by
    rcases h.together s with habsent | ⟨hlive, hsession⟩
    · rw [habsent.1, habsent.2]
      rfl
    · rw [hlive, hsession]
      exact hsound.twin s
  session s hs := by
    refine h.created.mpr (hsound.session s ?_)
    rcases h.together s with habsent | ⟨-, hsession⟩
    · exact absurd habsent.2 hs
    · rwa [hsession] at hs
  entry f e he := by
    obtain ⟨s, hs, hissued⟩ := hsound.entry f e (h.entry he)
    exact ⟨s, hs, h.issued.mpr hissued⟩
  current f f' s hf hf' := hsound.current f f' s (h.current hf) (h.current hf')
  spentIssued t f hf := by
    obtain ⟨s, hs⟩ := hsound.spentIssued t f (h.spent.mp hf)
    exact ⟨s, h.issued.mpr hs⟩
  spentPast t f s hf hcurrent := hsound.spentPast t f s (h.spent.mp hf) (h.current hcurrent)
  spentOnce t u f ht hu := hsound.spentOnce t u f (h.spent.mp ht) (h.spent.mp hu)

theorem Loses.of_keys (hquiet : Quiet db db') (hkeys : db'.store.keys = db.store.keys) : Loses db db' :=
  ⟨hquiet, fun _ _ => .inr (by rw [hkeys]), fun _ => .inr ⟨by rw [hkeys], by rw [hkeys]⟩⟩

theorem Loses.tick (hsound : Sound db) (now : ℕ) : Loses db { db with store := db.store.tick now } := by
  refine ⟨⟨rfl, rfl, rfl⟩, fun k _ => ?_, fun s => ?_⟩
  · change (db.store.keys k).filter _ = none ∨ (db.store.keys k).filter _ = _
    cases db.store.keys k with
    | none => exact .inl rfl
    | some e =>
        by_cases halive : e.Alive now
        · exact .inr (by simp [halive])
        · exact .inl (by simp [halive])
  · have htwin := hsound.twin s
    change ((db.store.keys (.live s)).filter _ = none ∧ (db.store.keys (.session s)).filter _ = none) ∨
      (db.store.keys (.live s)).filter _ = _ ∧ (db.store.keys (.session s)).filter _ = _
    cases hlive : db.store.keys (.live s) with
    | none =>
        rw [hlive] at htwin
        have hsession : db.store.keys (.session s) = none := Option.map_eq_none_iff.mp htwin.symm
        exact .inl ⟨rfl, by rw [hsession]; rfl⟩
    | some l =>
        rw [hlive] at htwin
        obtain ⟨e, hsession, hdeadline⟩ := Option.map_eq_some_iff.mp htwin.symm
        rw [hsession]
        have hsame : e.Alive now ↔ l.Alive now := by rw [Entry.Alive, Entry.Alive, hdeadline]
        by_cases halive : l.Alive now
        · exact .inr ⟨by simp [halive], by simp [hsame, halive]⟩
        · exact .inl ⟨by simp [halive], by simp [hsame, halive]⟩

end Facts
end RetailSegmentation.Sessions
