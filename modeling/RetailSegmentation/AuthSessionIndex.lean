import RetailSegmentation.AuthSessionSteps

/-! The index of the live sessions: the set of each user, and the set of the users with sessions. -/

namespace RetailSegmentation.Sessions

open Program Redis

section Index

variable {T : Type}

/-! ### What a step may do to the index -/

/-- The sessions there are, with the deadlines they share with their liveness keys. -/
def AuthDb.sessions (db : AuthDb T) : List (Session × Option ℕ) :=
  db.sids.filterMap fun e => (db.store.keys (.session e.1)).map fun s => (s.value, s.deadline)

/-- A deadline that is ahead, and not after `seconds`. -/
def endsBy (now seconds : ℕ) (deadline : Option ℕ) : Bool :=
  deadline.any fun d => d ≤ seconds * 1000 && now < seconds * 1000

/-- The condition on a write to the index: no EXPIREAT lets a set end before a session it indexes, and no
DEL or SREM takes a user with a live session out of it. -/
def Write.heeds (db : AuthDb T) : Write → Bool
  | expireAt (.members (.userSids userId)) seconds =>
    db.sessions.all fun e => e.1.userId ≠ userId || endsBy db.store.now seconds e.2
  | expireAt (.members .sessionUsers) seconds => db.sessions.all fun e => endsBy db.store.now seconds e.2
  | del keys => db.sessions.all fun e => .members (.userSids e.1.userId) ∉ keys
  | srem .sessionUsers userId => db.sessions.all fun e => e.1.userId ≠ userId
  | _ => true

def heeds (c : Command) (db : AuthDb T) : Bool :=
  match c with
  | .write write => write.heeds db
  | .exec writes => writes.all (Write.heeds db)
  | _ => true

variable {db db' : AuthDb T} {sid : Sid} {userId : UserId} {d : Option ℕ}

theorem mem_sessions (hsound : Sound db) {e : Entry Session} (h : db.store.keys (.session sid) = some e) :
    (e.value, e.deadline) ∈ db.sessions := by
  obtain ⟨t, ht⟩ := hsound.drawn sid (hsound.session sid (by rw [h]; simp))
  exact List.mem_filterMap.mpr ⟨(sid, t), ht, by rw [h]; rfl⟩

theorem endsBy_eq_true {now seconds : ℕ} (h : endsBy now seconds d = true) :
    (∃ x, d = some x ∧ x ≤ seconds * 1000) ∧ now < seconds * 1000 := by
  obtain ⟨x, rfl, hx⟩ := (Option.any_eq_true _ _).mp h
  obtain ⟨hle, hlt⟩ := Bool.and_eq_true_iff.mp hx
  exact ⟨⟨x, rfl, of_decide_eq_true hle⟩, of_decide_eq_true hlt⟩

/-! ### The index after a step -/

theorem Holds.congr {set : SetKey} {member : String} (h : Holds db set member d)
    (hkeys : db'.store.keys (.members set) = db.store.keys (.members set)) : Holds db' set member d := by
  obtain ⟨e, he, hmem, hlasts⟩ := h
  exact ⟨e, hkeys.trans he, hmem, hlasts⟩

theorem Indexed.of_holds (hindexed : Indexed db)
    (hsession : ∀ s e, db'.store.keys (.session s) = some e → db.store.keys (.session s) = some e)
    (huser : ∀ s e, db'.store.keys (.session s) = some e → Holds db (.userSids e.value.userId) s e.deadline →
      Holds db' (.userSids e.value.userId) s e.deadline)
    (husers : ∀ s e, db'.store.keys (.session s) = some e → Holds db .sessionUsers e.value.userId e.deadline →
      Holds db' .sessionUsers e.value.userId e.deadline) : Indexed db' := by
  intro s e he
  obtain ⟨hs, hu⟩ := hindexed s e (hsession s e he)
  exact ⟨huser s e he hs, husers s e he hu⟩

theorem Loses.sessions (h : Loses db db') {s : Sid} {e : Entry Session}
    (he : db'.store.keys (.session s) = some e) : db.store.keys (.session s) = some e := by
  rcases h.keys (.session s) (by simp) with hnone | hsame
  · rw [hnone] at he
    cases he
  · rwa [hsame] at he

theorem indexed_of_sets (hindexed : Indexed db) (h : Loses db db')
    (hsets : ∀ set, db'.store.keys (.members set) = db.store.keys (.members set)) : Indexed db' :=
  hindexed.of_holds (fun _ _ => h.sessions) (fun _ _ _ hholds => hholds.congr (hsets _))
    fun _ _ _ hholds => hholds.congr (hsets _)

theorem indexed_tick (hsound : Sound db) (hindexed : Indexed db) (now : ℕ) :
    Indexed { db with store := db.store.tick now } := by
  have halive : ∀ s e, ({ db with store := db.store.tick now } : AuthDb T).store.keys (.session s) = some e →
      e.Alive now := by
    intro s e he
    exact of_decide_eq_true (Option.filter_eq_some_iff.mp he).2
  have hholds : ∀ (set : SetKey) (member : String) (d : Option ℕ), (∀ x, d = some x → now ≤ x) →
      Holds db set member d → Holds { db with store := db.store.tick now } set member d := by
    rintro set member d hd ⟨e, he, hmem, hlasts⟩
    refine ⟨e, Option.filter_eq_some_iff.mpr ⟨he, decide_eq_true fun x hx => ?_⟩, hmem, hlasts⟩
    obtain ⟨y, hy, hle⟩ := hlasts x hx
    exact (hd y hy).trans hle
  refine hindexed.of_holds (fun s e => (Loses.tick hsound now).sessions) ?_ ?_
  · exact fun s e he => hholds _ _ _ (halive s e he)
  · exact fun s e he => hholds _ _ _ (halive s e he)

theorem indexed_revoked (hindexed : Indexed db) (sid : Sid) (family : List Fingerprint) :
    Indexed (db.written (.del (revoked sid family))) := by
  have hsets : ∀ set, (∀ s, set ≠ .family s) → (db.written (.del (revoked sid family))).store.keys (.members set) =
      db.store.keys (.members set) := by
    intro set hset
    change (db.store.dels _).keys _ = _
    rw [Store.dels_keys, if_neg (by simpa [revoked] using hset sid)]
  exact hindexed.of_holds (fun _ _ => (loses_revoked db sid family).sessions)
    (fun _ _ _ hholds => hholds.congr (hsets _ (by simp)))
    fun _ _ _ hholds => hholds.congr (hsets _ (by simp))

theorem indexed_unindexed (hsound : Sound db) (hindexed : Indexed db) (userId : UserId)
    (hheeds : Write.heeds db (.del [.members (.userSids userId)]) = true) :
    Indexed (db.written (.del [.members (.userSids userId)])) := by
  have hsets : ∀ set, set ≠ .userSids userId →
      (db.written (.del [.members (.userSids userId)])).store.keys (.members set) =
        db.store.keys (.members set) := by
    intro set hset
    change (db.store.dels _).keys _ = _
    rw [Store.dels_keys, if_neg (by simpa using hset)]
  refine hindexed.of_holds (fun _ _ => (loses_unindexed db userId).sessions) (fun s e he hholds => ?_)
    fun _ _ _ hholds => hholds.congr (hsets _ (by simp))
  have hsession := (loses_unindexed db userId).sessions he
  have hnot := of_decide_eq_true (List.all_eq_true.mp hheeds _ (mem_sessions hsound hsession))
  exact hholds.congr (hsets _ (by simpa using hnot))

theorem Holds.srem {set set' : SetKey} {member gone : String} (h : Holds db set member d)
    (hne : set = set' → member ≠ gone) : Holds (db.written (.srem set' gone)) set member d := by
  obtain ⟨e, he, hmem, hlasts⟩ := h
  by_cases hset : set = set'
  · subst hset
    have hkept : member ∈ e.value.filter (· ≠ gone) :=
      List.mem_filter.mpr ⟨hmem, decide_eq_true (hne rfl)⟩
    have hget : db.store.get (.members set) = some e.value := by rw [Store.get, he]; rfl
    refine ⟨⟨e.value.filter (· ≠ gone), e.deadline⟩, ?_, hkept, hlasts⟩
    change (sremove db.store set gone).keys _ = _
    unfold sremove
    rw [hget]
    dsimp only
    rw [if_neg (List.ne_nil_of_mem hkept), Store.write, Store.set_keys_self, he]
    rfl
  · exact ⟨e, (sremove_keys (by simpa using hset)).trans he, hmem, hlasts⟩

theorem indexed_srem_sid (hindexed : Indexed db) (userId : UserId) (sid : Sid) (habsent : Absent db sid) :
    Indexed (db.written (.srem (.userSids userId) sid)) := by
  refine hindexed.of_holds (fun _ _ => (loses_srem db _ _).sessions) (fun s e he hholds => ?_)
    fun _ _ _ hholds => hholds.srem (by simp)
  refine hholds.srem fun _ => ?_
  rintro rfl
  cases habsent.2.symm.trans ((loses_srem db _ _).sessions he)

theorem indexed_srem_user (hsound : Sound db) (hindexed : Indexed db) (userId : UserId)
    (hheeds : Write.heeds db (.srem .sessionUsers userId) = true) :
    Indexed (db.written (.srem .sessionUsers userId)) := by
  refine hindexed.of_holds (fun _ _ => (loses_srem db _ _).sessions)
    (fun _ _ _ hholds => hholds.srem (by simp)) fun s e he hholds => hholds.srem fun _ => ?_
  exact of_decide_eq_true
    (List.all_eq_true.mp hheeds _ (mem_sessions hsound ((loses_srem db _ _).sessions he)))

theorem holds_lasting {set : SetKey} {member : String} {members : List String} {now e x : ℕ}
    (hkeys : db.store.keys (.members set) = Store.lasting now members e) (hmem : member ∈ members)
    (hahead : now < e) (hx : x ≤ e) : Holds db set member (some x) := by
  refine ⟨⟨members, some e⟩, ?_, hmem, ?_⟩
  · rw [hkeys, Store.lasting, if_neg (not_le.mpr hahead)]
  · rintro y hy
    obtain rfl := Option.some.inj hy
    exact ⟨x, rfl, hx⟩

theorem mem_getD_insert {store : Store T Key Value} {set : SetKey} {e : Entry (List String)}
    {member added : String} (he : store.keys (.members set) = some e) (hmem : member ∈ e.value) :
    member ∈ ((store.get (.members set)).getD []).insert added := by
  rw [Store.get, he]
  exact List.mem_insert_of_mem hmem

variable [DecidableEq T] {t : T} {role : String} {expiresAt : ℕ} {passwordFingerprint : String}
  {old new refreshHash : Fingerprint}

theorem indexed_rotation (hindexed : Indexed db) : Indexed (db.execute t (rotation old new sid expiresAt)) := by
  have hkeys : ∀ k, (∀ f, k ≠ .refresh f) → (∀ s, k ≠ .members (.family s)) →
      (db.execute t (rotation old new sid expiresAt)).store.keys k = db.store.keys k :=
    fun k => rotation_others
  exact hindexed.of_holds (fun s e he => (hkeys _ (by simp) (by simp)).symm.trans he)
    (fun s e _ hholds => hholds.congr (hkeys _ (by simp) (by simp)))
    fun s e _ hholds => hholds.congr (hkeys _ (by simp) (by simp))

theorem indexed_creation (hsound : Sound db) (hindexed : Indexed db)
    (hheeds : (creation sid userId role expiresAt passwordFingerprint refreshHash).all (Write.heeds db) = true) :
    Indexed (db.execute t (creation sid userId role expiresAt passwordFingerprint refreshHash)) := by
  have husers := List.all_eq_true.mp hheeds (.expireAt (.members .sessionUsers) expiresAt) (by simp [creation])
  intro s e he
  rw [execute_keys, creation_session] at he
  split_ifs at he with hs
  · obtain ⟨hahead, rfl⟩ := lasting_eq_some he
    subst hs
    constructor
    · have hkeys : (db.execute t (creation s userId role expiresAt passwordFingerprint refreshHash)).store.keys
          (.members (.userSids userId)) = _ := (creation_userSids userId).trans (if_pos rfl)
      exact holds_lasting hkeys List.mem_insert_self hahead le_rfl
    · exact holds_lasting creation_sessionUsers List.mem_insert_self hahead le_rfl
  · have hmem := mem_sessions hsound he
    obtain ⟨⟨x, hx, hle⟩, hahead⟩ := endsBy_eq_true (List.all_eq_true.mp husers _ hmem)
    obtain ⟨⟨sids, hsids, hsid, hlasts⟩, users, husersKey, hin, hlasts'⟩ := hindexed s e he
    have hx : e.deadline = some x := hx
    rw [hx] at hlasts ⊢
    constructor
    · by_cases hsame : e.value.userId = userId
      · have hkeys : (db.execute t (creation sid userId role expiresAt passwordFingerprint refreshHash)).store.keys
            (.members (.userSids e.value.userId)) = _ :=
          (creation_userSids e.value.userId).trans (if_pos hsame)
        exact holds_lasting hkeys (mem_getD_insert hsids hsid) hahead hle
      · exact ⟨sids, ((creation_userSids e.value.userId).trans (if_neg hsame)).trans hsids, hsid, hlasts⟩
    · exact holds_lasting creation_sessionUsers (mem_getD_insert husersKey hin) hahead hle

end Index
end RetailSegmentation.Sessions
