import RetailSegmentation.AuthSessionKeys

/-! What the draws, the MULTI blocks and the single writes of auth-service do to its keys. -/

namespace RetailSegmentation.Sessions

open Program Redis

section Draws

variable {T : Type} {db : AuthDb T} {t u : T}

/-! ### Draws -/

theorem sound_drawSid (hsound : Sound db) {sid : Sid} (hne : sid ≠ "") (hfresh : ∀ u, (sid, u) ∉ db.sids) :
    Sound { db with sids := (sid, t) :: db.sids } :=
  { hsound with
    sids := fun s u v hu hv => by
      rcases List.mem_cons.mp hu with hu | hu <;> rcases List.mem_cons.mp hv with hv | hv
      · rw [(Prod.mk.inj hu).2, (Prod.mk.inj hv).2]
      · exact absurd ((Prod.mk.inj hu).1 ▸ hv) (hfresh v)
      · exact absurd ((Prod.mk.inj hv).1 ▸ hu) (hfresh u)
      · exact hsound.sids s u v hu hv
    named := fun s u hu => by
      rcases List.mem_cons.mp hu with hu | hu
      · rwa [(Prod.mk.inj hu).1]
      · exact hsound.named s u hu
    drawn := fun s hs => by
      obtain ⟨u, hu⟩ := hsound.drawn s hs
      exact ⟨u, List.mem_cons_of_mem _ hu⟩ }

theorem sound_drawToken (hsound : Sound db) {fingerprint : Fingerprint}
    (hfresh : ∀ u, (fingerprint, u) ∉ db.tokens) :
    Sound { db with tokens := (fingerprint, t) :: db.tokens } :=
  { hsound with
    tokens := fun f u v hu hv => by
      rcases List.mem_cons.mp hu with hu | hu <;> rcases List.mem_cons.mp hv with hv | hv
      · rw [(Prod.mk.inj hu).2, (Prod.mk.inj hv).2]
      · exact absurd ((Prod.mk.inj hu).1 ▸ hv) (hfresh v)
      · exact absurd ((Prod.mk.inj hv).1 ▸ hu) (hfresh u)
      · exact hsound.tokens f u v hu hv
    issuedDrawn := fun f s hs => by
      obtain ⟨u, hu⟩ := hsound.issuedDrawn f s hs
      exact ⟨u, List.mem_cons_of_mem _ hu⟩ }

theorem grows_drawSid (sid : Sid) : Grows db { db with sids := (sid, t) :: db.sids } :=
  ⟨fun _ h => h, fun _ h => h.2, fun _ _ h => .inl h⟩

theorem grows_drawToken (fingerprint : Fingerprint) :
    Grows db { db with tokens := (fingerprint, t) :: db.tokens } :=
  ⟨fun _ h => h, fun _ h => h.2, fun _ _ h => .inl h⟩

theorem leaves_drawSid (u : T) (sid : Sid) : Leaves u db { db with sids := (sid, t) :: db.sids } :=
  ⟨fun _ h => ⟨List.mem_cons_of_mem _ h, fun h => h⟩, fun _ h => ⟨h, fun _ h => h⟩, .refl u _⟩

theorem leaves_drawToken (u : T) (fingerprint : Fingerprint) :
    Leaves u db { db with tokens := (fingerprint, t) :: db.tokens } :=
  ⟨fun _ h => ⟨h, fun h => h⟩, fun _ h => ⟨List.mem_cons_of_mem _ h, fun _ h => h⟩, .refl u _⟩

end Draws

/-! ### MULTI blocks -/

section Multi

variable {T : Type} {store : Store T Key Value} {sid : Sid} {userId : UserId} {role : String} {expiresAt : ℕ}
  {passwordFingerprint : String} {old new refreshHash : Fingerprint}

theorem creation_keys : (applyAll store
      (creation sid userId role expiresAt passwordFingerprint refreshHash)).keys =
    Function.update (Function.update (Function.update (Function.update (Function.update (Function.update
      store.keys
      (.session sid) (Store.lasting store.now ⟨userId, role, expiresAt, passwordFingerprint⟩ (expiresAt * 1000)))
      (.members (.userSids userId)) (Store.lasting store.now
        (((store.get (.members (.userSids userId))).getD []).insert sid) (expiresAt * 1000)))
      (.refresh refreshHash) (Store.lasting store.now ⟨some sid, some .current⟩
        ((expiresAt + expiredRefreshGraceSeconds) * 1000)))
      (.members (.family sid)) (Store.lasting store.now
        (((store.get (.members (.family sid))).getD []).insert refreshHash)
        ((expiresAt + expiredRefreshGraceSeconds) * 1000)))
      (.live sid) (Store.lasting store.now "1" (expiresAt * 1000)))
      (.members .sessionUsers) (Store.lasting store.now
        (((store.get (.members .sessionUsers)).getD []).insert userId) (expiresAt * 1000)) := by
  simp only [applyAll, creation, List.foldl_cons, List.foldl_nil, Write.apply, Store.write,
    Store.expireAt_set_keys, Store.expireAt_set_now, Store.get]
  simp

theorem rotation_keys : (applyAll store (rotation old new sid expiresAt)).keys =
    Function.update (Function.update (Function.update store.keys
      (.refresh old) (some ⟨⟨(store.get (.refresh old)).bind RefreshEntry.sid, some .rotated⟩,
        (store.keys (.refresh old)).bind Entry.deadline⟩))
      (.refresh new) (Store.lasting store.now ⟨some sid, some .current⟩
        ((expiresAt + expiredRefreshGraceSeconds) * 1000)))
      (.members (.family sid)) (Store.lasting store.now
        (((store.get (.members (.family sid))).getD []).insert new)
        ((expiresAt + expiredRefreshGraceSeconds) * 1000)) := by
  simp only [applyAll, rotation, List.foldl_cons, List.foldl_nil, Write.apply, Store.write,
    Store.expireAt_set_keys, Store.expireAt_set_now, Store.get]
  simp [Store.set]

theorem creation_session (s : Sid) : (applyAll store
      (creation sid userId role expiresAt passwordFingerprint refreshHash)).keys (.session s) =
    if s = sid then
      Store.lasting store.now ⟨userId, role, expiresAt, passwordFingerprint⟩ (expiresAt * 1000)
    else store.keys (.session s) := by
  rw [creation_keys]
  by_cases h : s = sid
  · subst h
    simp
  · simp [h]

theorem creation_live (s : Sid) : (applyAll store
      (creation sid userId role expiresAt passwordFingerprint refreshHash)).keys (.live s) =
    if s = sid then Store.lasting store.now "1" (expiresAt * 1000) else store.keys (.live s) := by
  rw [creation_keys]
  by_cases h : s = sid
  · subst h
    simp
  · simp [h]

theorem creation_refresh (f : Fingerprint) : (applyAll store
      (creation sid userId role expiresAt passwordFingerprint refreshHash)).keys (.refresh f) =
    if f = refreshHash then
      Store.lasting store.now ⟨some sid, some .current⟩ ((expiresAt + expiredRefreshGraceSeconds) * 1000)
    else store.keys (.refresh f) := by
  rw [creation_keys]
  by_cases h : f = refreshHash
  · subst h
    simp
  · simp [h]

theorem creation_userSids (user : UserId) : (applyAll store
      (creation sid userId role expiresAt passwordFingerprint refreshHash)).keys (.members (.userSids user)) =
    if user = userId then
      Store.lasting store.now (((store.get (.members (.userSids user))).getD []).insert sid) (expiresAt * 1000)
    else store.keys (.members (.userSids user)) := by
  rw [creation_keys]
  by_cases h : user = userId
  · subst h
    simp
  · simp [h]

theorem creation_sessionUsers : (applyAll store
      (creation sid userId role expiresAt passwordFingerprint refreshHash)).keys (.members .sessionUsers) =
    Store.lasting store.now (((store.get (.members .sessionUsers)).getD []).insert userId)
      (expiresAt * 1000) := by
  rw [creation_keys]
  simp

theorem rotation_refresh (f : Fingerprint) :
    (applyAll store (rotation old new sid expiresAt)).keys (.refresh f) =
    if f = new then
      Store.lasting store.now ⟨some sid, some .current⟩ ((expiresAt + expiredRefreshGraceSeconds) * 1000)
    else if f = old then
      some ⟨⟨(store.get (.refresh old)).bind RefreshEntry.sid, some .rotated⟩,
        (store.keys (.refresh old)).bind Entry.deadline⟩
    else store.keys (.refresh f) := by
  rw [rotation_keys]
  by_cases hnew : f = new
  · subst hnew
    simp
  · by_cases hold : f = old
    · subst hold
      simp [hnew]
    · simp [hnew, hold]

theorem rotation_others {k : Key} (hrefresh : ∀ f, k ≠ .refresh f) (hfamily : ∀ s, k ≠ .members (.family s)) :
    (applyAll store (rotation old new sid expiresAt)).keys k = store.keys k := by
  rw [rotation_keys, Function.update_of_ne (hfamily sid), Function.update_of_ne (hrefresh new),
    Function.update_of_ne (hrefresh old)]

theorem shows_sremove (u : T) (set : SetKey) (member : String) :
    Store.Shows u store (sremove store set member) := by
  unfold sremove
  split
  · exact .refl u store
  · split_ifs
    · exact .del u store _
    · exact .set u store _

theorem shows_apply (u : T) (write : Write) : Store.Shows u store (write.apply store) := by
  cases write with
  | srem set member => exact shows_sremove u set member
  | expireAt key seconds => exact .expireAt u store key _
  | del keys => exact .dels u store keys
  | _ => exact .set u store _

theorem shows_applyAll (u : T) (writes : List Write) : Store.Shows u store (applyAll store writes) := by
  induction writes generalizing store with
  | nil => exact .refl u store
  | cons write rest ih => exact (shows_apply u write).trans ih

end Multi

theorem lasting_eq_some {α : Type} {now d : ℕ} {v : α} {e : Entry α} (h : Store.lasting now v d = some e) :
    now < d ∧ e = ⟨v, some d⟩ := by
  unfold Store.lasting at h
  split_ifs at h with hle
  exact ⟨not_le.mp hle, (Option.some.inj h).symm⟩

theorem lasting_deadline {α : Type} (now d : ℕ) (v : α) :
    (Store.lasting now v d).map Entry.deadline = if d ≤ now then none else some (some d) := by
  unfold Store.lasting
  split_ifs <;> rfl

section Executed

variable {T : Type} [DecidableEq T] {db : AuthDb T} {t u : T} {sid : Sid} {userId : UserId} {role : String}
  {expiresAt : ℕ} {passwordFingerprint : String} {old new refreshHash : Fingerprint} {writes : List Write}

theorem execute_created {s : Sid} :
    Created (db.execute t writes) s ↔ Write.setLive s ∈ writes ∨ Created db s := by
  constructor
  · rintro ⟨v, ws, hmem, hwrite⟩
    rcases List.mem_cons.mp hmem with h | h
    · exact .inl ((Prod.mk.inj h).2 ▸ hwrite)
    · exact .inr ⟨v, ws, h, hwrite⟩
  · rintro (h | h)
    · exact ⟨t, writes, List.mem_cons_self, h⟩
    · exact h.mono fun _ => List.mem_cons_of_mem _

theorem execute_issued {f : Fingerprint} {s : Sid} :
    Issued (db.execute t writes) f s ↔ Write.hsetRefresh f s ∈ writes ∨ Issued db f s := by
  constructor
  · rintro ⟨v, ws, hmem, hwrite⟩
    rcases List.mem_cons.mp hmem with h | h
    · exact .inl ((Prod.mk.inj h).2 ▸ hwrite)
    · exact .inr ⟨v, ws, h, hwrite⟩
  · rintro (h | h)
    · exact ⟨t, writes, List.mem_cons_self, h⟩
    · exact h.mono fun _ => List.mem_cons_of_mem _

theorem execute_spent {f : Fingerprint} :
    Spent (db.execute t writes) u f ↔ (u = t ∧ Write.hsetState f .rotated ∈ writes) ∨ Spent db u f := by
  constructor
  · rintro ⟨ws, hmem, hwrite⟩
    rcases List.mem_cons.mp hmem with h | h
    · obtain ⟨rfl, rfl⟩ := Prod.mk.inj h
      exact .inl ⟨rfl, hwrite⟩
    · exact .inr ⟨ws, h, hwrite⟩
  · rintro (⟨rfl, h⟩ | h)
    · exact ⟨writes, List.mem_cons_self, h⟩
    · exact h.mono fun _ => List.mem_cons_of_mem _

theorem execute_keys : (db.execute t writes).store.keys = (applyAll db.store writes).keys := rfl

theorem execute_get (k : Key) :
    (db.execute t writes).store.get k = ((applyAll db.store writes).keys k).map Entry.value := rfl

theorem execute_leaves (hu : u ≠ t)
    (hcreated : ∀ s, Write.setLive s ∈ writes → (s, t) ∈ db.sids) (hsound : Sound db)
    (hissued : ∀ f s, Write.hsetRefresh f s ∈ writes → (f, t) ∈ db.tokens) :
    Leaves u db (db.execute t writes) := by
  refine ⟨fun s hs => ⟨hs, fun h => ?_⟩, fun f hf => ⟨hf, fun s h => ?_⟩, ?_⟩
  · rcases execute_created.mp h with h | h
    · exact absurd (hsound.sids s u t hs (hcreated s h)) hu
    · exact h
  · rcases execute_issued.mp h with h | h
    · exact absurd (hsound.tokens f u t hf (hissued f s h)) hu
    · exact h
  · exact (shows_applyAll u writes).trans (.unwatch hu _)

/-! ### A sign-in -/

theorem mem_creation_live {s : Sid} :
    Write.setLive s ∈ creation sid userId role expiresAt passwordFingerprint refreshHash ↔ s = sid := by
  simp [creation]

theorem mem_creation_refresh {f : Fingerprint} {s : Sid} :
    Write.hsetRefresh f s ∈ creation sid userId role expiresAt passwordFingerprint refreshHash ↔
      f = refreshHash ∧ s = sid := by
  simp [creation]

theorem not_mem_creation_state {f : Fingerprint} :
    Write.hsetState f .rotated ∉ creation sid userId role expiresAt passwordFingerprint refreshHash := by
  simp [creation]

theorem creation_entry {f : Fingerprint} {entry : RefreshEntry} (h : (db.execute t
      (creation sid userId role expiresAt passwordFingerprint refreshHash)).store.get (.refresh f) = some entry) :
    (f = refreshHash ∧ entry = ⟨some sid, some .current⟩) ∨
      f ≠ refreshHash ∧ db.store.get (.refresh f) = some entry := by
  rw [execute_get, creation_refresh] at h
  split_ifs at h with hf
  · obtain ⟨e, he, rfl⟩ := Option.map_eq_some_iff.mp h
    obtain ⟨-, rfl⟩ := lasting_eq_some he
    exact .inl ⟨hf, rfl⟩
  · exact .inr ⟨hf, h⟩

theorem creation_current {f : Fingerprint} {s : Sid} (h : CurrentEntry (db.execute t
      (creation sid userId role expiresAt passwordFingerprint refreshHash)) f s) :
    (f = refreshHash ∧ s = sid) ∨ f ≠ refreshHash ∧ CurrentEntry db f s := by
  obtain ⟨entry, hentry, hstate, hsid⟩ := h
  rcases creation_entry hentry with ⟨rfl, rfl⟩ | ⟨hne, hentry⟩
  · exact .inl ⟨rfl, (Option.some.inj hsid).symm⟩
  · exact .inr ⟨hne, entry, hentry, hstate, hsid⟩

theorem sound_creation (hsound : Sound db) (hsid : (sid, t) ∈ db.sids) (hnew : ¬ Created db sid)
    (htoken : (refreshHash, t) ∈ db.tokens) (hunissued : ∀ s, ¬ Issued db refreshHash s) :
    Sound (db.execute t (creation sid userId role expiresAt passwordFingerprint refreshHash)) where
  sids := hsound.sids
  named := hsound.named
  tokens := hsound.tokens
  drawn s hs := by
    rcases execute_created.mp hs with h | h
    · obtain rfl := mem_creation_live.mp h
      exact ⟨t, hsid⟩
    · exact hsound.drawn s h
  issuedDrawn f s hs := by
    rcases execute_issued.mp hs with h | h
    · obtain ⟨rfl, rfl⟩ := mem_creation_refresh.mp h
      exact ⟨t, htoken⟩
    · exact hsound.issuedDrawn f s h
  issuedCreated f s hs := by
    refine execute_created.mpr ?_
    rcases execute_issued.mp hs with h | h
    · exact .inl (mem_creation_live.mpr (mem_creation_refresh.mp h).2)
    · exact .inr (hsound.issuedCreated f s h)
  issuedOnce f s s' hs hs' := by
    rcases execute_issued.mp hs with h | h <;> rcases execute_issued.mp hs' with h' | h'
    · rw [(mem_creation_refresh.mp h).2, (mem_creation_refresh.mp h').2]
    · exact absurd ((mem_creation_refresh.mp h).1 ▸ h') (hunissued s')
    · exact absurd ((mem_creation_refresh.mp h').1 ▸ h) (hunissued s)
    · exact hsound.issuedOnce f s s' h h'
  twin s := by
    rw [execute_keys, creation_live, creation_session]
    split_ifs
    · rw [lasting_deadline, lasting_deadline]
    · exact hsound.twin s
  session s hs := by
    refine execute_created.mpr ?_
    rw [execute_keys, creation_session] at hs
    split_ifs at hs with h
    · exact .inl (mem_creation_live.mpr h)
    · exact .inr (hsound.session s hs)
  entry f e he := by
    rcases creation_entry he with ⟨rfl, rfl⟩ | ⟨-, he⟩
    · exact ⟨sid, rfl, execute_issued.mpr (.inl (mem_creation_refresh.mpr ⟨rfl, rfl⟩))⟩
    · obtain ⟨s, hs, hissued⟩ := hsound.entry f e he
      exact ⟨s, hs, execute_issued.mpr (.inr hissued)⟩
  current f f' s hf hf' := by
    have hold : ∀ f, CurrentEntry db f s → s ≠ sid := by
      rintro f ⟨entry, hentry, -, hentrySid⟩ rfl
      obtain ⟨s', hs', hissued⟩ := hsound.entry f entry hentry
      obtain rfl := Option.some.inj (hentrySid.symm.trans hs')
      exact hnew (hsound.issuedCreated f s hissued)
    rcases creation_current hf with ⟨rfl, hs⟩ | ⟨-, hc⟩ <;> rcases creation_current hf' with ⟨rfl, hs'⟩ | ⟨-, hc'⟩
    · rfl
    · exact absurd hs (hold f' hc')
    · exact absurd hs' (hold f hc)
    · exact hsound.current f f' s hc hc'
  spentIssued u f hf := by
    rcases execute_spent.mp hf with ⟨-, h⟩ | h
    · exact absurd h not_mem_creation_state
    · obtain ⟨s, hs⟩ := hsound.spentIssued u f h
      exact ⟨s, execute_issued.mpr (.inr hs)⟩
  spentPast u f s hf hcurrent := by
    rcases execute_spent.mp hf with ⟨-, h⟩ | h
    · exact absurd h not_mem_creation_state
    · rcases creation_current hcurrent with ⟨rfl, -⟩ | ⟨-, hcurrent⟩
      · obtain ⟨s', hs'⟩ := hsound.spentIssued u f h
        exact hunissued s' hs'
      · exact hsound.spentPast u f s h hcurrent
  spentOnce u v f hu hv := by
    rcases execute_spent.mp hu with ⟨-, h⟩ | hu
    · exact absurd h not_mem_creation_state
    · rcases execute_spent.mp hv with ⟨-, h⟩ | hv
      · exact absurd h not_mem_creation_state
      · exact hsound.spentOnce u v f hu hv

theorem grows_creation (hsound : Sound db) (hnew : ¬ Created db sid) :
    Grows db (db.execute t (creation sid userId role expiresAt passwordFingerprint refreshHash)) := by
  refine ⟨fun _ => List.mem_cons_of_mem _, fun s hs => ?_, fun s session hs => ?_⟩
  · have hne : s ≠ sid := by
      rintro rfl
      exact hnew hs.1
    refine ⟨?_, ?_⟩
    · rw [execute_keys, creation_live, if_neg hne]
      exact hs.2.1
    · rw [execute_keys, creation_session, if_neg hne]
      exact hs.2.2
  · have hne : s ≠ sid := by
      rintro rfl
      refine hnew (hsound.session s fun hnone => ?_)
      rw [Store.get, hnone] at hs
      cases hs
    rw [execute_get, creation_session, if_neg hne]
    exact .inl hs

theorem leaves_creation (hu : u ≠ t) (hsound : Sound db) (hsid : (sid, t) ∈ db.sids)
    (htoken : (refreshHash, t) ∈ db.tokens) :
    Leaves u db (db.execute t (creation sid userId role expiresAt passwordFingerprint refreshHash)) := by
  refine execute_leaves hu (fun s h => ?_) hsound fun f s h => ?_
  · obtain rfl := mem_creation_live.mp h
    exact hsid
  · obtain ⟨rfl, rfl⟩ := mem_creation_refresh.mp h
    exact htoken

/-! ### A rotation -/

theorem not_mem_rotation_live {s : Sid} : Write.setLive s ∉ rotation old new sid expiresAt := by
  simp [rotation]

theorem mem_rotation_refresh {f : Fingerprint} {s : Sid} :
    Write.hsetRefresh f s ∈ rotation old new sid expiresAt ↔ f = new ∧ s = sid := by
  simp [rotation]

theorem mem_rotation_state {f : Fingerprint} :
    Write.hsetState f .rotated ∈ rotation old new sid expiresAt ↔ f = old := by
  simp [rotation]

theorem rotation_created {s : Sid} :
    Created (db.execute t (rotation old new sid expiresAt)) s ↔ Created db s := by
  rw [execute_created, or_iff_right not_mem_rotation_live]

theorem rotation_entry (hcurrent : CurrentEntry db old sid) {f : Fingerprint} {entry : RefreshEntry}
    (h : (db.execute t (rotation old new sid expiresAt)).store.get (.refresh f) = some entry) :
    (f = new ∧ entry = ⟨some sid, some .current⟩) ∨ (f = old ∧ entry = ⟨some sid, some .rotated⟩) ∨
      f ≠ new ∧ f ≠ old ∧ db.store.get (.refresh f) = some entry := by
  rw [execute_get, rotation_refresh] at h
  split_ifs at h with hnew hold
  · obtain ⟨e, he, rfl⟩ := Option.map_eq_some_iff.mp h
    obtain ⟨-, rfl⟩ := lasting_eq_some he
    exact .inl ⟨hnew, rfl⟩
  · obtain ⟨entry', hentry', -, hsid⟩ := hcurrent
    rw [hentry', Option.bind_some, hsid] at h
    exact .inr (.inl ⟨hold, (Option.some.inj h).symm⟩)
  · exact .inr (.inr ⟨hnew, hold, h⟩)

theorem rotation_current (hcurrent : CurrentEntry db old sid) {f : Fingerprint} {s : Sid}
    (h : CurrentEntry (db.execute t (rotation old new sid expiresAt)) f s) :
    (f = new ∧ s = sid) ∨ f ≠ new ∧ f ≠ old ∧ CurrentEntry db f s := by
  obtain ⟨entry, hentry, hstate, hsid⟩ := h
  rcases rotation_entry hcurrent hentry with ⟨rfl, rfl⟩ | ⟨-, rfl⟩ | ⟨hnew, hold, hentry⟩
  · exact .inl ⟨rfl, (Option.some.inj hsid).symm⟩
  · cases hstate
  · exact .inr ⟨hnew, hold, entry, hentry, hstate, hsid⟩

omit [DecidableEq T] in
theorem CurrentEntry.issued (hsound : Sound db) (h : CurrentEntry db old sid) : Issued db old sid := by
  obtain ⟨entry, hentry, -, hsid⟩ := h
  obtain ⟨s, hs, hissued⟩ := hsound.entry old entry hentry
  obtain rfl := Option.some.inj (hsid.symm.trans hs)
  exact hissued

theorem sound_rotation (hsound : Sound db) (hcurrent : CurrentEntry db old sid)
    (htoken : (new, t) ∈ db.tokens) (hunissued : ∀ s, ¬ Issued db new s) :
    Sound (db.execute t (rotation old new sid expiresAt)) where
  sids := hsound.sids
  named := hsound.named
  tokens := hsound.tokens
  drawn s hs := hsound.drawn s (rotation_created.mp hs)
  issuedDrawn f s hs := by
    rcases execute_issued.mp hs with h | h
    · obtain ⟨rfl, rfl⟩ := mem_rotation_refresh.mp h
      exact ⟨t, htoken⟩
    · exact hsound.issuedDrawn f s h
  issuedCreated f s hs := by
    refine rotation_created.mpr ?_
    rcases execute_issued.mp hs with h | h
    · obtain ⟨rfl, rfl⟩ := mem_rotation_refresh.mp h
      exact hsound.issuedCreated old s (hcurrent.issued hsound)
    · exact hsound.issuedCreated f s h
  issuedOnce f s s' hs hs' := by
    rcases execute_issued.mp hs with h | h <;> rcases execute_issued.mp hs' with h' | h'
    · rw [(mem_rotation_refresh.mp h).2, (mem_rotation_refresh.mp h').2]
    · exact absurd ((mem_rotation_refresh.mp h).1 ▸ h') (hunissued s')
    · exact absurd ((mem_rotation_refresh.mp h').1 ▸ h) (hunissued s)
    · exact hsound.issuedOnce f s s' h h'
  twin s := by
    rw [execute_keys, rotation_others (by simp) (by simp), rotation_others (by simp) (by simp)]
    exact hsound.twin s
  session s hs := by
    rw [execute_keys, rotation_others (by simp) (by simp)] at hs
    exact rotation_created.mpr (hsound.session s hs)
  entry f e he := by
    rcases rotation_entry hcurrent he with ⟨rfl, rfl⟩ | ⟨rfl, rfl⟩ | ⟨-, -, he⟩
    · exact ⟨sid, rfl, execute_issued.mpr (.inl (mem_rotation_refresh.mpr ⟨rfl, rfl⟩))⟩
    · exact ⟨sid, rfl, execute_issued.mpr (.inr (hcurrent.issued hsound))⟩
    · obtain ⟨s, hs, hissued⟩ := hsound.entry f e he
      exact ⟨s, hs, execute_issued.mpr (.inr hissued)⟩
  current f f' s hf hf' := by
    rcases rotation_current hcurrent hf with ⟨rfl, rfl⟩ | ⟨-, hold, hc⟩ <;>
      rcases rotation_current hcurrent hf' with ⟨rfl, hs'⟩ | ⟨-, hold', hc'⟩
    · rfl
    · exact absurd (hsound.current f' old s hc' hcurrent) hold'
    · exact absurd (hsound.current f old s hc (hs' ▸ hcurrent)) hold
    · exact hsound.current f f' s hc hc'
  spentIssued u f hf := by
    rcases execute_spent.mp hf with ⟨-, h⟩ | h
    · obtain rfl := mem_rotation_state.mp h
      exact ⟨sid, execute_issued.mpr (.inr (hcurrent.issued hsound))⟩
    · obtain ⟨s, hs⟩ := hsound.spentIssued u f h
      exact ⟨s, execute_issued.mpr (.inr hs)⟩
  spentPast u f s hf hcurrent' := by
    rcases rotation_current hcurrent hcurrent' with ⟨rfl, rfl⟩ | ⟨-, hne, hcurrent'⟩
    · rcases execute_spent.mp hf with ⟨-, h⟩ | h
      · obtain rfl := mem_rotation_state.mp h
        exact hunissued s (hcurrent.issued hsound)
      · obtain ⟨s', hs'⟩ := hsound.spentIssued u f h
        exact hunissued s' hs'
    · rcases execute_spent.mp hf with ⟨-, h⟩ | h
      · exact hne (mem_rotation_state.mp h)
      · exact hsound.spentPast u f s h hcurrent'
  spentOnce u v f hu hv := by
    rcases execute_spent.mp hu with ⟨rfl, h⟩ | h <;> rcases execute_spent.mp hv with ⟨rfl, h'⟩ | h'
    · rfl
    · obtain rfl := mem_rotation_state.mp h
      exact absurd hcurrent (hsound.spentPast v f sid h')
    · obtain rfl := mem_rotation_state.mp h'
      exact absurd hcurrent (hsound.spentPast u f sid h)
    · exact hsound.spentOnce u v f h h'

theorem grows_rotation : Grows db (db.execute t (rotation old new sid expiresAt)) := by
  refine ⟨fun _ => List.mem_cons_of_mem _, fun s hs => ⟨?_, ?_⟩, fun s session hs => .inl ?_⟩
  · exact (rotation_others (by simp) (by simp)).trans hs.2.1
  · exact (rotation_others (by simp) (by simp)).trans hs.2.2
  · rw [execute_get, rotation_others (by simp) (by simp)]
    exact hs

theorem leaves_rotation (hu : u ≠ t) (hsound : Sound db) (htoken : (new, t) ∈ db.tokens) :
    Leaves u db (db.execute t (rotation old new sid expiresAt)) := by
  refine execute_leaves hu (fun s h => absurd h not_mem_rotation_live) hsound fun f s h => ?_
  obtain ⟨rfl, rfl⟩ := mem_rotation_refresh.mp h
  exact htoken

end Executed

/-! ### Single writes -/

section Written

variable {T : Type} {db : AuthDb T} {sid : Sid} {family : List Fingerprint}

theorem sremove_keys {store : Store T Key Value} {set : SetKey} {member : String} {k : Key}
    (hne : k ≠ .members set) : (sremove store set member).keys k = store.keys k := by
  unfold sremove
  split
  · rfl
  · split_ifs
    · exact Store.del_keys_of_ne hne
    · exact Store.set_keys_of_ne _ hne

theorem loses_revoked (db : AuthDb T) (sid : Sid) (family : List Fingerprint) :
    Loses db (db.written (.del (revoked sid family))) := by
  refine ⟨⟨rfl, rfl, rfl⟩, fun k _ => ?_, fun s => ?_⟩
  · change (db.store.dels _).keys k = none ∨ (db.store.dels _).keys k = _
    rw [Store.dels_keys]
    split_ifs
    · exact .inl rfl
    · exact .inr rfl
  · change ((db.store.dels _).keys (.live s) = none ∧ (db.store.dels _).keys (.session s) = none) ∨
      (db.store.dels _).keys (.live s) = _ ∧ (db.store.dels _).keys (.session s) = _
    rw [Store.dels_keys, Store.dels_keys]
    by_cases hs : s = sid
    · subst hs
      exact .inl ⟨by simp [revoked], by simp [revoked]⟩
    · exact .inr ⟨by simp [revoked, hs], by simp [revoked, hs]⟩

theorem absent_revoked (db : AuthDb T) (sid : Sid) (family : List Fingerprint) :
    Absent (db.written (.del (revoked sid family))) sid := by
  change (db.store.dels _).keys (.live sid) = none ∧ (db.store.dels _).keys (.session sid) = none
  rw [Store.dels_keys, Store.dels_keys]
  exact ⟨by simp [revoked], by simp [revoked]⟩

theorem loses_sets {write : Write} (hothers : ∀ k, (∀ set, k ≠ .members set) →
    (write.apply db.store).keys k = db.store.keys k) : Loses db (db.written write) :=
  ⟨⟨rfl, rfl, rfl⟩, fun k hk => .inr (hothers k hk),
    fun s => .inr ⟨hothers _ (by simp), hothers _ (by simp)⟩⟩

theorem loses_unindexed (db : AuthDb T) (userId : UserId) :
    Loses db (db.written (.del [.members (.userSids userId)])) := by
  refine loses_sets fun k hk => ?_
  change (db.store.dels _).keys k = _
  rw [Store.dels_keys, if_neg (by simpa using hk _)]

theorem loses_srem (db : AuthDb T) (set : SetKey) (member : String) :
    Loses db (db.written (.srem set member)) := loses_sets fun _ hk => sremove_keys (hk set)

end Written
end RetailSegmentation.Sessions
