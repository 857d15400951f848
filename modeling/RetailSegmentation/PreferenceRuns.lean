import RetailSegmentation.PreferenceSets

/-! Every interleaving of replaces and reads of one customer. Only the holder of the advisory lock has
uncommitted rows, so the committed sets are what the history of commits makes of the first ones. -/

namespace RetailSegmentation.Preferences

open Program Transactions

/-! ### Sets -/

theorem mem_idsOf {rows : AList fun _ : Key => Unit} {set : PreferenceSet} {id : ℤ} :
    id ∈ idsOf rows set ↔ (set, id) ∈ rows := by
  rw [idsOf, List.mem_insertionSort, AList.mem_keys, List.mem_map]
  constructor
  · rintro ⟨⟨set', id'⟩, hk, rfl⟩
    obtain ⟨hmem, hset⟩ := List.mem_filter.mp hk
    obtain rfl : set' = set := of_decide_eq_true hset
    exact hmem
  · intro hk
    exact ⟨(set, id), List.mem_filter.mpr ⟨hk, decide_eq_true rfl⟩, rfl⟩

theorem nodup_idsOf (rows : AList fun _ : Key => Unit) (set : PreferenceSet) : (idsOf rows set).Nodup := by
  apply (List.perm_insertionSort _ _).nodup_iff.mpr
  apply List.Nodup.map_on _ (rows.keys_nodup.filter _)
  rintro ⟨set₁, id₁⟩ h₁ ⟨set₂, id₂⟩ h₂ rfl
  obtain rfl : set₁ = set := of_decide_eq_true (List.mem_filter.mp h₁).2
  obtain rfl : set₂ = set₁ := of_decide_eq_true (List.mem_filter.mp h₂).2
  rfl

theorem sorted_ext {l l' : List ℤ} (hl : l.Nodup) (hl' : l'.Nodup) (hsort : l.Pairwise (· ≤ ·))
    (hsort' : l'.Pairwise (· ≤ ·)) (hmem : ∀ id, id ∈ l ↔ id ∈ l') : l = l' :=
  List.Perm.eq_of_pairwise (fun _ _ _ _ hab hba => le_antisymm hab hba) hsort hsort'
    ((List.perm_ext_iff_of_nodup hl hl').mpr hmem)

theorem sorted_idsOf (rows : AList fun _ : Key => Unit) (set : PreferenceSet) :
    (idsOf rows set).Pairwise (· ≤ ·) := List.pairwise_insertionSort _ _

theorem idsOf_congr {rows rows' : AList fun _ : Key => Unit} {set : PreferenceSet}
    (h : ∀ id, (set, id) ∈ rows ↔ (set, id) ∈ rows') : idsOf rows set = idsOf rows' set := by
  apply sorted_ext (nodup_idsOf _ _) (nodup_idsOf _ _) (sorted_idsOf _ _) (sorted_idsOf _ _)
  intro id
  rw [mem_idsOf, mem_idsOf, h]

def submittedSet (ids : List (Option ℤ)) : List ℤ := ids.reduceOption.dedup.insertionSort (· ≤ ·)

theorem mem_submittedSet {ids : List (Option ℤ)} {id : ℤ} : id ∈ submittedSet ids ↔ some id ∈ ids := by
  rw [submittedSet, List.mem_insertionSort, List.mem_dedup, List.reduceOption_mem_iff]

theorem idsOf_eq_submittedSet {rows : AList fun _ : Key => Unit} {set : PreferenceSet}
    {ids : List (Option ℤ)} (h : ∀ id, (set, id) ∈ rows ↔ some id ∈ ids) :
    idsOf rows set = submittedSet ids := by
  refine sorted_ext (nodup_idsOf _ _) ?_ (sorted_idsOf _ _) (List.pairwise_insertionSort _ _) fun id => ?_
  · exact (List.perm_insertionSort _ _).nodup_iff.mpr (List.nodup_dedup _)
  · rw [mem_idsOf, mem_submittedSet, h]

@[simp] theorem profileOf_ids (rows : AList fun _ : Key => Unit) (set : PreferenceSet) :
    (profileOf rows).ids set = idsOf rows set := by
  cases set <;> rfl

theorem Profile.ext_ids {p p' : Profile} (h : ∀ set, p.ids set = p'.ids set) : p = p' := by
  have hchannels : p.preferredChannelIds = p'.preferredChannelIds := h .preferredChannels
  have hcategories : p.interestCategoryIds = p'.interestCategoryIds := h .interestCategories
  cases p
  cases p'
  exact congr (congrArg Profile.mk hchannels) hcategories

theorem Profile.ids_replace (p : Profile) (set set' : PreferenceSet) (ids : List ℤ) :
    (p.replace set ids).ids set' = if set' = set then ids else p.ids set' := by
  cases set <;> cases set' <;> rfl

/-! ### What the history of commits makes of the sets -/

/-- What a committed call leaves. -/
def Call.apply : Call → Profile → Profile
  | put _ set body, p => match submittedIds set body with
    | .ok ids => p.replace set (submittedSet ids)
    | .error _ => p
  | read, p => p

section Runs

variable {T : Type}

def profileAfter (calls : T → Call) (start : Profile) (commits : List T) : Profile :=
  commits.foldl (fun p t => (calls t).apply p) start

@[simp] theorem profileAfter_append (calls : T → Call) (start : Profile) (commits : List T) (t : T) :
    profileAfter calls start (commits ++ [t]) = (calls t).apply (profileAfter calls start commits) := by
  rw [profileAfter, List.foldl_append]
  rfl

/-- The first submitted id that references nothing is at `index`. -/
structure FirstUnknown (refs : References) (set : PreferenceSet) (ids : List (Option ℤ)) (index : ℕ) :
    Prop where
  earlier : ∀ i < index, ∃ id, ids[i]? = some (some id) ∧ refs.hasReference set id
  unknown : ∃ item, ids[index]? = some item ∧ ∀ id, item = some id → ¬ refs.hasReference set id

/-- Why a `PUT` fails. -/
inductive Refused (refs : References) (set : PreferenceSet) (body : Option (List (Option JsonNumber))) :
    Failure → Prop where
  | body {e : ApiError} (herror : submittedIds set body = .error e) : Refused refs set body (.api e)
  | customer (hnone : ¬ refs.hasCustomer) : Refused refs set body (.api customerNotFound)
  | unknown {ids : List (Option ℤ)} {index : ℕ} (hids : submittedIds set body = .ok ids)
      (hfirst : FirstUnknown refs set ids index) : Refused refs set body (.api (set.unknown index))
  | repeated {ids : List (Option ℤ)} (hids : submittedIds set body = .ok ids)
      (hnodup : ¬ ids.reduceOption.Nodup) : Refused refs set body (.database (.uniqueViolation set.primaryKey))
  | aborted {e : DbError} (habort : IsAbort e) : Refused refs set body (.database e)

/-! ### What a transaction may rely on -/

/-- A `PUT` whose list is accepted. -/
structure Submission where
  actor : String
  set : PreferenceSet
  ids : List (Option ℤ)

def Call.submission : Call → Option Submission
  | put actor set body => match submittedIds set body with
    | .ok ids => some ⟨actor, set, ids⟩
    | .error _ => none
  | read => none

theorem Call.apply_eq {call : Call} {s : Submission} (h : call.submission = some s) (p : Profile) :
    call.apply p = p.replace s.set (submittedSet s.ids) := by
  cases call with
  | read => cases h
  | put actor set body =>
      rw [Call.submission] at h
      rw [Call.apply]
      split at h
      · obtain rfl := Option.some.inj h
        rfl
      · cases h

/-- How far a call has come: `current` is what the set held, `inserted` what it has added to it. -/
inductive Stage where
  | idle
  | opened
  | locked
  | listed (current : List ℤ)
  | working (current inserted : List ℤ)
  | replaced (profile : Profile)
  | done (profile : Profile)
  | served (answer : Option Profile)

/-- Transaction `t` has written nothing. -/
structure Clean (t : T) (db : PreferenceDb T) : Prop where
  pending : db.rows.pending t = ∅
  owner : ∀ k, db.rows.owner k ≠ some t

/-- Transaction `t` holds the lock, and carries its caller. -/
structure Inside (s : Submission) (t : T) (db : PreferenceDb T) : Prop where
  lock : db.lock = some t
  actor : db.actor t = some s.actor
  uncommitted : t ∉ db.commits

/-- The set as transaction `t` has changed it so far. -/
structure Working (refs : References) (s : Submission) (current inserted : List ℤ) (t : T)
    (db : PreferenceDb T) : Prop where
  found : current = idsOf db.rows.rows s.set
  added : ∀ id ∈ inserted, some id ∈ s.ids ∧ id ∉ current
  sees : ∀ id, (db.rows.get t (s.set, id)).isSome ↔ (id ∈ current ∧ some id ∈ s.ids) ∨ id ∈ inserted
  others : ∀ set ≠ s.set, ∀ id, (db.rows.pending t).lookup (set, id) = none
  references : ∀ set id, (db.rows.get t (set, id)).isSome → refs.hasReference set id
  unchanged : submittedSet s.ids = current → db.rows.pending t = ∅

/-- The set as transaction `t` will commit it. -/
structure Replaced (refs : References) (s : Submission) (profile : Profile) (t : T) (db : PreferenceDb T) :
    Prop where
  view : profile = profileOf (db.rows.view t)
  replaces : profile = (profileOf db.rows.rows).replace s.set (submittedSet s.ids)
  references : ∀ set id, (db.rows.get t (set, id)).isSome → refs.hasReference set id
  unchanged : submittedSet s.ids = idsOf db.rows.rows s.set → db.rows.pending t = ∅

/-- What holds of transaction `t` at each stage of its call. -/
def At (refs : References) (calls : T → Call) (start : Profile) (t : T) (db : PreferenceDb T) :
    Stage → Prop
  | .idle => (Clean t db ∧ db.lock ≠ some t) ∧ t ∉ db.commits
  | .served answer => (Clean t db ∧ db.lock ≠ some t) ∧ t ∉ db.commits ∧ ∃ earlier,
      earlier <+: db.commits ∧
      answer = if refs.hasCustomer then some (profileAfter calls start earlier) else none
  | .done profile => (Clean t db ∧ db.lock ≠ some t) ∧ ∃ earlier,
      earlier ++ [t] <+: db.commits ∧ profile = profileAfter calls start (earlier ++ [t])
  | .opened => (Clean t db ∧ db.lock ≠ some t) ∧ t ∉ db.commits ∧ ∃ s,
      (calls t).submission = some s ∧ db.actor t = some s.actor
  | .locked => ∃ s, (calls t).submission = some s ∧ Inside s t db ∧ Clean t db
  | .listed current => ∃ s, (calls t).submission = some s ∧ Inside s t db ∧ Clean t db ∧
      current = idsOf db.rows.rows s.set
  | .working current inserted => ∃ s, (calls t).submission = some s ∧ Inside s t db ∧
      Working refs s current inserted t db
  | .replaced profile => ∃ s, (calls t).submission = some s ∧ Inside s t db ∧ Replaced refs s profile t db

/-- The committed sets are what the history makes of the first ones, and refer to what exists. -/
structure Consistent (refs : References) (calls : T → Call) (start : Profile) (db : PreferenceDb T) :
    Prop where
  sets : profileOf db.rows.rows = profileAfter calls start db.commits
  references : ∀ set id, (set, id) ∈ db.rows.rows → refs.hasReference set id

/-- What transaction `u` may rely on is left alone: others change the rows only under the lock. -/
structure Leaves (u : T) (db db' : PreferenceDb T) : Prop where
  pending : db'.rows.pending u = db.rows.pending u
  owner : ∀ k, db'.rows.owner k = some u ↔ db.rows.owner k = some u
  lock : db'.lock = some u ↔ db.lock = some u
  actor : db'.actor u = db.actor u
  commits : db.commits <+: db'.commits
  uncommitted : u ∉ db.commits → u ∉ db'.commits
  rows : db.lock = some u → db'.rows.rows = db.rows.rows

variable {refs : References} {calls : T → Call} {start : Profile} {t u : T} {db db' : PreferenceDb T}

theorem Leaves.refl (u : T) (db : PreferenceDb T) : Leaves u db db :=
  ⟨rfl, fun _ => Iff.rfl, Iff.rfl, rfl, List.prefix_rfl, fun h => h, fun _ => rfl⟩

theorem Leaves.clean (h : Leaves u db db') (hclean : Clean u db) : Clean u db' :=
  ⟨h.pending.trans hclean.pending, fun k => (h.owner k).not.mpr (hclean.owner k)⟩

theorem Leaves.inside {s : Submission} (h : Leaves u db db') (hin : Inside s u db) : Inside s u db' :=
  ⟨h.lock.mpr hin.lock, h.actor.trans hin.actor, h.uncommitted hin.uncommitted⟩

theorem Leaves.get {s : Submission} (h : Leaves u db db') (hin : Inside s u db) (k : Key) :
    db'.rows.get u k = db.rows.get u k := by
  rw [Table.get, Table.get, h.pending, h.rows hin.lock]

theorem Leaves.view {s : Submission} (h : Leaves u db db') (hin : Inside s u db) :
    db'.rows.view u = db.rows.view u := by
  rw [Table.view, Table.view, h.pending, h.rows hin.lock]

theorem At.leaves {stage : Stage} (hat : At refs calls start u db stage) (h : Leaves u db db') :
    At refs calls start u db' stage := by
  cases stage with
  | idle => exact ⟨⟨h.clean hat.1.1, h.lock.not.mpr hat.1.2⟩, h.uncommitted hat.2⟩
  | served answer =>
      obtain ⟨⟨hclean, hlock⟩, hnot, earlier, hprefix, hanswer⟩ := hat
      exact ⟨⟨h.clean hclean, h.lock.not.mpr hlock⟩, h.uncommitted hnot, earlier,
        hprefix.trans h.commits, hanswer⟩
  | done profile =>
      obtain ⟨⟨hclean, hlock⟩, earlier, hprefix, hprofile⟩ := hat
      exact ⟨⟨h.clean hclean, h.lock.not.mpr hlock⟩, earlier, hprefix.trans h.commits, hprofile⟩
  | opened =>
      obtain ⟨⟨hclean, hlock⟩, hnot, s, hs, hactor⟩ := hat
      exact ⟨⟨h.clean hclean, h.lock.not.mpr hlock⟩, h.uncommitted hnot, s, hs, h.actor.trans hactor⟩
  | locked =>
      obtain ⟨s, hs, hin, hclean⟩ := hat
      exact ⟨s, hs, h.inside hin, h.clean hclean⟩
  | listed current =>
      obtain ⟨s, hs, hin, hclean, hcurrent⟩ := hat
      exact ⟨s, hs, h.inside hin, h.clean hclean, by rw [h.rows hin.lock, hcurrent]⟩
  | working current inserted =>
      obtain ⟨s, hs, hin, hwork⟩ := hat
      refine ⟨s, hs, h.inside hin, ?_, hwork.added, fun id => ?_, ?_, fun set id => ?_, ?_⟩
      · rw [h.rows hin.lock, hwork.found]
      · rw [h.get hin, hwork.sees]
      · rw [h.pending]
        exact hwork.others
      · rw [h.get hin]
        exact hwork.references set id
      · rw [h.pending]
        exact hwork.unchanged
  | replaced profile =>
      obtain ⟨s, hs, hin, hdone⟩ := hat
      refine ⟨s, hs, h.inside hin, ?_, ?_, fun set id => ?_, ?_⟩
      · rw [h.view hin, hdone.view]
      · rw [h.rows hin.lock, hdone.replaces]
      · rw [h.get hin]
        exact hdone.references set id
      · rw [h.pending, h.rows hin.lock]
        exact hdone.unchanged

/-! ### Workflows -/

namespace Stage

def after : Stage → Stage
  | replaced profile => done profile
  | stage => stage

def undone : Stage → Stage
  | done profile => done profile
  | served answer => served answer
  | _ => idle

end Stage

/-- What a `PUT` may do at each stage. -/
def replacing (refs : References) (s : Submission) : Workflow Statement Result DbError Stage where
  may statement stage := match statement, stage with
    | .setConfig sub, .idle => sub = s.actor
    | .customerExists, .opened => True
    | .lockCustomer, .opened => True
    | .current set, .locked => set = s.set
    | .remove set kept, .listed _ => set = s.set ∧ kept = s.ids.reduceOption
    | .insert set id, .working current _ => set = s.set ∧ some id ∈ s.ids ∧ id ∉ current
    | .readReplaced, .working current inserted => ∀ id, some id ∈ s.ids → id ∈ current ∨ id ∈ inserted
    | _, _ => False
  next statement v stage stage' := match statement, v, stage with
    | .setConfig _, _, _ => stage' = .opened
    | .customerExists, found, _ => found = refs.hasCustomer ∧ stage' = .opened
    | .lockCustomer, _, _ => stage' = .locked
    | .current set, current, _ =>
      stage' = .listed current ∧ ∀ id ∈ current, refs.hasReference set id
    | .remove _ _, _, .listed current => stage' = .working current []
    | .insert set id, _, .working current inserted =>
      refs.hasReference set id ∧ stage' = .working current (id :: inserted)
    | .readReplaced, (profile, actor), _ => actor = some s.actor ∧ stage' = .replaced profile
    | _, _, _ => False
  fails statement e stage := match statement, stage with
    | .insert set id, .working _ inserted =>
      (e = .uniqueViolation set.primaryKey ∧ id ∈ inserted) ∨
      (e = .foreignKeyViolation set.referenceKey ∧ ¬ refs.hasReference set id) ∨
      (e = .foreignKeyViolation set.customerKey ∧ ¬ refs.hasCustomer)
    | _, _ => False
  aborts := IsAbort
  commits stage := match stage with
    | .replaced _ => True
    | _ => False
  after := Stage.after
  undone := Stage.undone
  losesReplies := False

def reading : Workflow Statement Result DbError Stage where
  may statement stage := statement = .readProfile ∧ stage = .idle
  next statement v _ stage' := match statement, v with
    | .readProfile, answer => stage' = .served answer
    | _, _ => False
  fails _ _ _ := False
  aborts := IsAbort
  commits _ := False
  after := Stage.after
  undone := Stage.undone
  losesReplies := False

def workflow (refs : References) (call : Call) : Workflow Statement Result DbError Stage :=
  match call.submission with
  | some s => replacing refs s
  | none => reading

@[simp] theorem workflow_undone (refs : References) (call : Call) :
    (workflow refs call).undone = Stage.undone := by
  unfold workflow
  split <;> rfl

@[simp] theorem workflow_after (refs : References) (call : Call) : (workflow refs call).after = Stage.after := by
  unfold workflow
  split <;> rfl

theorem replaced_of_commits {call : Call} {stage : Stage} (h : (workflow refs call).commits stage) :
    ∃ profile, stage = .replaced profile := by
  unfold workflow at h
  split at h
  · cases stage with
    | replaced profile => exact ⟨profile, rfl⟩
    | _ => exact h.elim
  · exact h.elim

variable (refs calls start) in
def preferenceContract : Contract T (Request Statement) (Reply Result DbError) (PreferenceDb T) Stage where
  inv := Consistent refs calls start
  at_ t stage db := At refs calls start t db stage
  guar _ _ _ _ _ := True

end Runs

section Statements

variable {T : Type} [DecidableEq T] {refs : References} {calls : T → Call} {start : Profile} {t u : T}
  {db db' : PreferenceDb T}

/-- What the DELETE of the rows `ks` leaves. -/
structure Deleted (t : T) (ks : List Key) (tb tb' : Table T Key Unit) : Prop where
  rows : tb'.rows = tb.rows
  other : ∀ u ≠ t, tb'.pending u = tb.pending u ∧ ∀ k, tb'.owner k = some u ↔ tb.owner k = some u
  get : ∀ k, tb'.get t k = if k ∈ ks then none else tb.get t k
  pending : ∀ k ∉ ks, (tb'.pending t).lookup k = (tb.pending t).lookup k
  nothing : ks = [] → tb' = tb

theorem deleteRows_deleted {ks : List Key} {tb tb' : Table T Key Unit}
    (hdelete : PreferenceDb.deleteRows t ks tb = some tb') : Deleted t ks tb tb' := by
  induction ks generalizing tb with
  | nil =>
      obtain rfl : tb = tb' := Option.some.inj hdelete
      exact ⟨rfl, fun u _ => ⟨rfl, fun _ => Iff.rfl⟩, fun k => by simp, fun k _ => rfl, fun _ => rfl⟩
  | cons k ks ih =>
      rw [PreferenceDb.deleteRows] at hdelete
      split_ifs at hdelete with hfree
      have hrest := ih hdelete
      refine ⟨hrest.rows, fun u hu => ?_, fun k' => ?_, fun k' hk' => ?_, nofun⟩
      · obtain ⟨hpending, howner⟩ := hrest.other u hu
        refine ⟨hpending.trans (Table.put_pending_other hfree none hu), fun k' => ?_⟩
        exact (howner k').trans (Table.put_owner_other hfree none hu k')
      · rw [hrest.get, Table.put_get_eq_update]
        by_cases hk : k' = k
        · subst hk
          simp
        · simp [hk]
      · obtain ⟨hne, hk'⟩ := not_or.mp (List.mem_cons.not.mp hk')
        rw [hrest.pending k' hk', Table.put_pending_self, AList.lookup_insert_ne hne]

omit [DecidableEq T] in
theorem leaves_of_locked (hu : u ≠ t) (hlock : db.lock = some t) (hlock' : db'.lock ≠ some u)
    (hpending : db'.rows.pending u = db.rows.pending u)
    (howner : ∀ k, db'.rows.owner k = some u ↔ db.rows.owner k = some u)
    (hactor : db'.actor u = db.actor u) (hcommits : db.commits <+: db'.commits)
    (hnot : u ∉ db.commits → u ∉ db'.commits) : Leaves u db db' := by
  have hne : db.lock ≠ some u := by
    rw [hlock]
    exact fun h => hu (Option.some.inj h).symm
  exact ⟨hpending, howner, iff_of_false hlock' hne, hactor, hcommits, hnot, fun h => absurd h hne⟩

theorem rollback_leaves (hu : u ≠ t) (db : PreferenceDb T) : Leaves u db (db.rollback t) where
  pending := Table.rollback_pending_other t hu
  owner := Table.rollback_owner_other t hu
  lock := release_other hu db.lock
  actor := Function.update_of_ne hu _ _
  commits := List.prefix_rfl
  uncommitted h := h
  rows _ := rfl

theorem rollback_clean (t : T) (db : PreferenceDb T) :
    Clean t (db.rollback t) ∧ (db.rollback t).lock ≠ some t := by
  refine ⟨⟨Table.rollback_pending_self t, Table.rollback_owner_self t⟩, ?_⟩
  exact release_self t db.lock

theorem commit_clean (t : T) (db : PreferenceDb T) :
    Clean t (db.commit t) ∧ (db.commit t).lock ≠ some t := by
  refine ⟨⟨Table.commit_pending_self t, Table.commit_owner_self t⟩, ?_⟩
  exact release_self t db.lock

omit [DecidableEq T] in
theorem keeps_of_leaves (hinv : Consistent refs calls start db')
    (hleaves : ∀ u ≠ t, Leaves u db db') : (preferenceContract refs calls start).Keeps t db db' :=
  ⟨hinv, fun u hu _ hat => At.leaves hat (hleaves u hu)⟩

/-! ### Commit and rollback -/

theorem preference_rollsBack : RollsBack (preferenceContract refs calls start) (preferenceServer refs)
    fun t => workflow refs (calls t) := by
  intro t stage db hinv hat
  have hclean := rollback_clean t db
  refine ⟨keeps_of_leaves ⟨hinv.sets, hinv.references⟩ fun u hu => rollback_leaves hu db, ?_, fun _ _ => trivial⟩
  rw [workflow_undone]
  cases stage with
  | done profile => exact ⟨hclean, hat.2⟩
  | served answer => exact ⟨hclean, hat.2⟩
  | idle => exact ⟨hclean, hat.2⟩
  | opened => exact ⟨hclean, hat.2.1⟩
  | locked =>
      obtain ⟨s, -, hin, -⟩ := hat
      exact ⟨hclean, hin.uncommitted⟩
  | listed current =>
      obtain ⟨s, -, hin, -⟩ := hat
      exact ⟨hclean, hin.uncommitted⟩
  | working current inserted =>
      obtain ⟨s, -, hin, -⟩ := hat
      exact ⟨hclean, hin.uncommitted⟩
  | replaced profile =>
      obtain ⟨s, -, hin, -⟩ := hat
      exact ⟨hclean, hin.uncommitted⟩

theorem preference_commits : Commits (preferenceContract refs calls start) (preferenceServer refs)
    fun t => workflow refs (calls t) := by
  intro t stage db hinv hat hcommits
  obtain ⟨profile, rfl⟩ := replaced_of_commits hcommits
  obtain ⟨s, hs, hin, hdone⟩ := hat
  have hprofile : profile = profileAfter calls start (db.commits ++ [t]) := by
    rw [profileAfter_append, Call.apply_eq hs, ← hinv.sets, hdone.replaces]
  have hsets : profileOf (db.commit t).rows.rows = profileAfter calls start (db.commits ++ [t]) := by
    rw [← hprofile]
    exact hdone.view.symm
  have hinv' : Consistent refs calls start (db.commit t) := by
    refine ⟨hsets, fun set id hmem => hdone.references set id ?_⟩
    exact Table.mem_view.mp hmem
  have hcommitted : (db.commit t).commits = db.commits ++ [t] := rfl
  refine ⟨keeps_of_leaves hinv' fun u hu => ?_, ?_, fun _ => trivial⟩
  · refine leaves_of_locked hu hin.lock ((release_other hu db.lock).not.mpr ?_)
      (Table.commit_pending_other t hu) (Table.commit_owner_other t hu)
      (Function.update_of_ne hu _ _) (List.prefix_append _ _) fun hnot => ?_
    · rw [hin.lock]
      exact fun h => hu (Option.some.inj h).symm
    · change u ∉ (db.commit t).commits
      rw [hcommitted, List.mem_append, List.mem_singleton]
      exact not_or.mpr ⟨hnot, hu⟩
  · rw [workflow_after]
    exact ⟨commit_clean t db, db.commits, List.prefix_rfl, hprofile⟩

/-! ### Statements -/

omit [DecidableEq T] in
theorem At.clean_view (hclean : Clean t db) : db.rows.view t = db.rows.rows := by
  rw [Table.view, hclean.pending]
  rfl

omit [DecidableEq T] in
theorem keeps_self (hinv : Consistent refs calls start db) :
    (preferenceContract refs calls start).Keeps t db db :=
  keeps_of_leaves hinv fun u _ => .refl u db

theorem Working.of_remove {s : Submission} {current : List ℤ} {rows : Table T Key Unit}
    (hclean : Clean t db) (hinv : Consistent refs calls start db)
    (hcurrent : current = idsOf db.rows.rows s.set)
    (hdelete : PreferenceDb.deleteRows t (PreferenceDb.dropped (db.rows.view t) s.set s.ids.reduceOption)
      db.rows = some rows) : Working refs s current [] t { db with rows } := by
  have hdeleted := deleteRows_deleted hdelete
  have hview := At.clean_view hclean
  have hget : ∀ k, db.rows.get t k = db.rows.rows.lookup k := fun k => Table.get_eq_rows (hclean.owner k)
  have hmem : ∀ k, k ∈ PreferenceDb.dropped (db.rows.view t) s.set s.ids.reduceOption ↔
      k ∈ db.rows.rows ∧ k.1 = s.set ∧ k.2 ∉ s.ids.reduceOption := by
    intro k
    rw [PreferenceDb.dropped, List.mem_filter, hview, AList.mem_keys, decide_eq_true_iff]
  refine ⟨?_, nofun, fun id => ?_, fun set hset id => ?_, fun set id hsome => ?_, fun hsame => ?_⟩
  · rw [hcurrent]
    exact congrArg (idsOf · s.set) hdeleted.rows.symm
  · change (rows.get t (s.set, id)).isSome ↔ _
    have hiff := hmem (s.set, id)
    rw [hdeleted.get, hcurrent, mem_idsOf, ← List.reduceOption_mem_iff]
    split_ifs with hdropped
    · simp [(hiff.mp hdropped).2.2]
    · rw [hget, AList.lookup_isSome]
      by_cases hin : (s.set, id) ∈ db.rows.rows
      · have hkept : id ∈ s.ids.reduceOption := by
          by_contra hnot
          exact hdropped (hiff.mpr ⟨hin, rfl, hnot⟩)
        simp [hin, hkept]
      · simp [hin]
  · have hnot : (set, id) ∉ PreferenceDb.dropped (db.rows.view t) s.set s.ids.reduceOption :=
      fun h => hset ((hmem _).mp h).2.1
    change (rows.pending t).lookup (set, id) = none
    rw [hdeleted.pending _ hnot, hclean.pending]
    rfl
  · change (rows.get t (set, id)).isSome at hsome
    rw [hdeleted.get] at hsome
    split_ifs at hsome
    · cases hsome
    · rw [hget, AList.lookup_isSome] at hsome
      exact hinv.references set id hsome
  · have hnothing : PreferenceDb.dropped (db.rows.view t) s.set s.ids.reduceOption = [] := by
      apply List.eq_nil_iff_forall_not_mem.mpr
      rintro ⟨set, id⟩ hk
      obtain ⟨hin, rfl, hnot⟩ := (hmem _).mp hk
      have hsubmitted : id ∈ submittedSet s.ids := by
        rw [hsame, hcurrent]
        exact mem_idsOf.mpr hin
      exact hnot (List.reduceOption_mem_iff.mpr (mem_submittedSet.mp hsubmitted))
    change rows.pending t = ∅
    rw [hdeleted.nothing hnothing, hclean.pending]

theorem Working.insert {s : Submission} {current inserted : List ℤ} {id : ℤ}
    (hwork : Working refs s current inserted t db) (hfree : db.rows.Free t (s.set, id))
    (hid : some id ∈ s.ids) (hnew : id ∉ current) (hreference : refs.hasReference s.set id) :
    Working refs s current (id :: inserted) t
      { db with rows := db.rows.put t (s.set, id) (some ()) hfree } where
  found := hwork.found
  added id' hid' := by
    rcases List.mem_cons.mp hid' with rfl | hid'
    · exact ⟨hid, hnew⟩
    · exact hwork.added id' hid'
  sees id' := by
    change ((db.rows.put t (s.set, id) (some ()) hfree).get t (s.set, id')).isSome ↔ _
    by_cases hsame : id' = id
    · subst hsame
      simp
    · have hne : (s.set, id') ≠ (s.set, id) := fun h => hsame (congrArg Prod.snd h)
      rw [Table.put_get_of_ne hfree _ hne, hwork.sees, List.mem_cons, or_iff_right hsame]
  others set hset id' := by
    have hne : (set, id') ≠ (s.set, id) := fun h => hset (congrArg Prod.fst h)
    change ((db.rows.put t (s.set, id) (some ()) hfree).pending t).lookup (set, id') = none
    rw [Table.put_pending_self, AList.lookup_insert_ne hne]
    exact hwork.others set hset id'
  references set id' hsome := by
    change ((db.rows.put t (s.set, id) (some ()) hfree).get t (set, id')).isSome at hsome
    by_cases hk : (set, id') = (s.set, id)
    · obtain ⟨rfl, rfl⟩ := Prod.mk.inj hk
      exact hreference
    · rw [Table.put_get_of_ne hfree _ hk] at hsome
      exact hwork.references set id' hsome
  unchanged hsame := by
    have hin : id ∈ current := hsame ▸ mem_submittedSet.mpr hid
    exact absurd hin hnew

omit [DecidableEq T] in
theorem Working.replaced {s : Submission} {current inserted : List ℤ}
    (hwork : Working refs s current inserted t db)
    (hall : ∀ id, some id ∈ s.ids → id ∈ current ∨ id ∈ inserted) :
    Replaced refs s (profileOf (db.rows.view t)) t db where
  view := rfl
  replaces := by
    apply Profile.ext_ids
    intro set
    rw [Profile.ids_replace, profileOf_ids, profileOf_ids]
    split_ifs with hset
    · subst hset
      apply idsOf_eq_submittedSet
      intro id
      rw [Table.mem_view, hwork.sees]
      constructor
      · rintro (⟨-, hid⟩ | hid)
        · exact hid
        · exact (hwork.added id hid).1
      · intro hid
        exact (hall id hid).imp (fun h => ⟨h, hid⟩) fun h => h
    · apply idsOf_congr
      intro id
      rw [Table.mem_view, Table.get, hwork.others set hset id, AList.lookup_isSome]
  references := hwork.references
  unchanged hsame := hwork.unchanged (hsame.trans hwork.found.symm)

theorem replacing_answers {s : Submission} {statement : Statement} {stage : Stage} {v : Result statement}
    (hs : (calls t).submission = some s) (hinv : Consistent refs calls start db)
    (hat : At refs calls start t db stage) (hmay : (replacing refs s).may statement stage)
    (hanswer : PreferenceDb.answer refs t statement db = some (v, db')) :
    (preferenceContract refs calls start).Keeps t db db' ∧
      ∃ stage', At refs calls start t db' stage' ∧ (replacing refs s).next statement v stage stage' := by
  cases statement with
  | setConfig sub =>
      cases stage with
      | idle =>
          obtain rfl : sub = s.actor := hmay
          obtain ⟨-, rfl⟩ := Prod.mk.inj (Option.some.inj hanswer)
          refine ⟨keeps_of_leaves ⟨hinv.sets, hinv.references⟩ fun u hu => ?_, .opened, ?_, rfl⟩
          · exact ⟨rfl, fun _ => Iff.rfl, Iff.rfl, Function.update_of_ne hu _ _, List.prefix_rfl,
              fun h => h, fun _ => rfl⟩
          · exact ⟨⟨⟨hat.1.1.pending, hat.1.1.owner⟩, hat.1.2⟩, hat.2, s, hs, Function.update_self t _ _⟩
      | _ => exact hmay.elim
  | customerExists =>
      cases stage with
      | opened =>
          obtain ⟨rfl, rfl⟩ := Prod.mk.inj (Option.some.inj hanswer)
          exact ⟨keeps_self hinv, .opened, hat, rfl, rfl⟩
      | _ => exact hmay.elim
  | lockCustomer =>
      cases stage with
      | opened =>
          simp only [PreferenceDb.answer] at hanswer
          split_ifs at hanswer with hfree
          obtain ⟨-, rfl⟩ := Prod.mk.inj (Option.some.inj hanswer)
          obtain ⟨⟨hclean, -⟩, hnot, s', hs', hactor⟩ := hat
          refine ⟨keeps_of_leaves ⟨hinv.sets, hinv.references⟩ fun u hu => ?_, .locked, ?_, rfl⟩
          · have hne : db.lock ≠ some u := by
              rcases hfree with h | h <;> rw [h]
              · simp
              · exact fun h' => hu (Option.some.inj h').symm
            exact ⟨rfl, fun _ => Iff.rfl, iff_of_false (fun h => hu (Option.some.inj h).symm) hne, rfl,
              List.prefix_rfl, fun h => h, fun _ => rfl⟩
          · exact ⟨s', hs', ⟨rfl, hactor, hnot⟩, ⟨hclean.pending, hclean.owner⟩⟩
      | _ => exact hmay.elim
  | current set =>
      cases stage with
      | locked =>
          obtain rfl : set = s.set := hmay
          obtain ⟨rfl, rfl⟩ := Prod.mk.inj (Option.some.inj hanswer)
          obtain ⟨s', hs', hin, hclean⟩ := hat
          obtain rfl : s = s' := Option.some.inj (hs.symm.trans hs')
          refine ⟨keeps_self hinv, .listed _, ⟨s, hs, hin, hclean, by rw [At.clean_view hclean]⟩, rfl,
            fun id hid => hinv.references s.set id ?_⟩
          rw [At.clean_view hclean] at hid
          exact mem_idsOf.mp hid
      | _ => exact hmay.elim
  | remove set kept =>
      cases stage with
      | listed current =>
          obtain ⟨rfl, rfl⟩ : set = s.set ∧ kept = s.ids.reduceOption := hmay
          obtain ⟨rows, hdelete, heq⟩ := Option.map_eq_some_iff.mp hanswer
          obtain ⟨-, rfl⟩ := Prod.mk.inj heq
          obtain ⟨s', hs', hin, hclean, hcurrent⟩ := hat
          obtain rfl : s = s' := Option.some.inj (hs.symm.trans hs')
          have hdeleted := deleteRows_deleted hdelete
          refine ⟨keeps_of_leaves ⟨?_, ?_⟩ fun u hu => ?_, .working current [], ⟨s, hs,
            ⟨hin.lock, hin.actor, hin.uncommitted⟩, .of_remove hclean hinv hcurrent hdelete⟩, rfl⟩
          · change profileOf rows.rows = _
            rw [hdeleted.rows, hinv.sets]
          · change ∀ set id, (set, id) ∈ rows.rows → _
            rw [hdeleted.rows]
            exact hinv.references
          · obtain ⟨hpending, howner⟩ := hdeleted.other u hu
            exact leaves_of_locked hu hin.lock (by rw [hin.lock]; exact fun h => hu (Option.some.inj h).symm)
              hpending howner rfl List.prefix_rfl fun h => h
      | _ => exact hmay.elim
  | insert set id =>
      cases stage with
      | working current inserted =>
          obtain ⟨rfl, hid, hnew⟩ : set = s.set ∧ some id ∈ s.ids ∧ id ∉ current := hmay
          simp only [PreferenceDb.answer] at hanswer
          split_ifs at hanswer with hfree
          split at hanswer
          · rename_i hrefusal
            obtain ⟨-, rfl⟩ := Prod.mk.inj (Option.some.inj hanswer)
            have hreference : refs.hasReference s.set id := by
              unfold PreferenceDb.insertRefusal at hrefusal
              split_ifs at hrefusal with _ h
              simpa using h
            obtain ⟨s', hs', hin, hwork⟩ := hat
            obtain rfl : s = s' := Option.some.inj (hs.symm.trans hs')
            refine ⟨keeps_of_leaves ⟨hinv.sets, hinv.references⟩ fun u hu => ?_,
              .working current (id :: inserted), ⟨s, hs, ⟨hin.lock, hin.actor, hin.uncommitted⟩,
                hwork.insert hfree hid hnew hreference⟩, hreference, rfl⟩
            exact leaves_of_locked hu hin.lock (by rw [hin.lock]; exact fun h => hu (Option.some.inj h).symm)
              (Table.put_pending_other hfree _ hu) (Table.put_owner_other hfree _ hu) rfl List.prefix_rfl
              fun h => h
          · cases hanswer
      | _ => exact hmay.elim
  | readReplaced =>
      cases stage with
      | working current inserted =>
          obtain ⟨rfl, rfl⟩ := Prod.mk.inj (Option.some.inj hanswer)
          obtain ⟨s', hs', hin, hwork⟩ := hat
          obtain rfl : s = s' := Option.some.inj (hs.symm.trans hs')
          exact ⟨keeps_self hinv, .replaced _, ⟨s, hs, hin, hwork.replaced hmay⟩, hin.actor, rfl⟩
      | _ => exact hmay.elim
  | readProfile => exact hmay.elim

theorem preference_answers : Answers (preferenceContract refs calls start) (preferenceServer refs)
    (fun t => workflow refs (calls t)) fun _ _ _ => True := by
  intro t statement stage db v db' hinv hat hmay _ hanswer
  refine ⟨trivial, ?_⟩
  have hworkflow : workflow refs (calls t) = match (calls t).submission with
      | some s => replacing refs s
      | none => reading := rfl
  cases hs : (calls t).submission with
  | some s =>
      simp only [hworkflow, hs] at hmay ⊢
      exact replacing_answers hs hinv hat hmay hanswer
  | none =>
      simp only [hworkflow, hs] at hmay ⊢
      obtain ⟨rfl, rfl⟩ := hmay
      obtain ⟨rfl, rfl⟩ := Prod.mk.inj (Option.some.inj hanswer)
      refine ⟨keeps_self hinv, .served _, ⟨hat.1, hat.2, db.commits, List.prefix_rfl, ?_⟩, rfl⟩
      rw [At.clean_view hat.1.1, hinv.sets]

theorem preference_refuses : Refuses (preferenceContract refs calls start) (preferenceServer refs)
    fun t => workflow refs (calls t) := by
  have hworkflow : ∀ t, workflow refs (calls t) = match (calls t).submission with
      | some s => replacing refs s
      | none => reading := fun _ => rfl
  refine ⟨fun t statement stage db e hinv hat hmay hrefuse => ?_, fun t e habort => ?_, fun _ h => h.elim⟩
  · cases statement with
    | insert set id =>
        cases hs : (calls t).submission with
        | none =>
            simp only [hworkflow, hs] at hmay
            cases hmay.1
        | some s =>
            simp only [hworkflow, hs] at hmay ⊢
            cases stage with
            | working current inserted =>
                obtain ⟨rfl, hid, hnew⟩ : set = s.set ∧ some id ∈ s.ids ∧ id ∉ current := hmay
                obtain ⟨s', hs', -, hwork⟩ := hat
                obtain rfl : s = s' := Option.some.inj (hs.symm.trans hs')
                have hrefusal := hrefuse.2
                unfold PreferenceDb.insertRefusal at hrefusal
                split_ifs at hrefusal with hseen href hcust
                · obtain rfl := Option.some.inj hrefusal
                  refine .inl ⟨rfl, ?_⟩
                  exact ((hwork.sees id).mp hseen).resolve_left fun h => hnew h.1
                · obtain rfl := Option.some.inj hrefusal
                  exact .inr (.inl ⟨rfl, by simpa using href⟩)
                · obtain rfl := Option.some.inj hrefusal
                  exact .inr (.inr ⟨rfl, by simpa using hcust⟩)
            | _ => exact hmay.elim
    | _ => exact hrefuse.elim
  · cases hs : (calls t).submission with
    | none =>
        simp only [hworkflow, hs]
        exact habort
    | some s =>
        simp only [hworkflow, hs]
        exact habort

end Statements

end RetailSegmentation.Preferences
