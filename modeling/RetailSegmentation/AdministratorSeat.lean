import RetailSegmentation.UserDirectory

/-! The seat of the administrator, as a transaction leaves it: every write, commit and rollback, whoever
issues it. -/

namespace RetailSegmentation.Users

open Program Transactions

/-- `id` holds the role ADMIN, is active, and nobody else holds the role. -/
structure HoldsSeat (view : UserId → Option User) (id : UserId) : Prop where
  active : ∃ user, view id = some user ∧ user.roleId = adminRoleId ∧ user.isActive = true
  only : ∀ id' user, view id' = some user → user.roleId = adminRoleId → id' = id

def OneAdmin (view : UserId → Option User) : Prop := ∃ id, HoldsSeat view id

def NoAdmin (view : UserId → Option User) : Prop :=
  ∀ id user, view id = some user → user.roleId ≠ adminRoleId

/-! ### What is read of the seat -/

theorem holdsAdminCode_iff {setting : Setting} {user : User} :
    UserDb.holdsAdminCode setting user = true ↔ user.roleId = adminRoleId := by
  refine ⟨fun h => setting.roles.reserved _ (of_decide_eq_true h), fun h => decide_eq_true ?_⟩
  rw [h, setting.roles.admin]

theorem appUser_eq {setting : Setting} {id : UserId} {user : User} {shown : AppUser}
    (h : appUser setting id user = some shown) :
    shown.userId = id ∧ shown.roleId = user.roleId ∧ shown.isActive = user.isActive ∧
      (shown.roleCode = adminRoleCode ↔ user.roleId = adminRoleId) := by
  obtain ⟨code, hcode, rfl⟩ := Option.map_eq_some_iff.mp h
  refine ⟨rfl, rfl, rfl, fun hadmin => setting.roles.reserved _ (hadmin ▸ hcode), fun hrole => ?_⟩
  rw [hrole, setting.roles.admin] at hcode
  exact (Option.some.inj hcode).symm

theorem eq_singleton {α : Type} {l : List α} {a : α} (hnodup : l.Nodup) (hmem : a ∈ l)
    (hall : ∀ b ∈ l, b = a) : l = [a] := by
  cases l with
  | nil => exact absurd hmem List.not_mem_nil
  | cons b l =>
      obtain rfl := hall b List.mem_cons_self
      have hnil : l = [] := by
        rw [List.eq_nil_iff_forall_not_mem]
        intro c hc
        obtain rfl := hall c (List.mem_cons_of_mem _ hc)
        exact (List.nodup_cons.mp hnodup).1 hc
      rw [hnil]

section Counts

variable {rows : AList fun _ : UserId => User} {p : User → Bool}

theorem mem_filter_entries (hp : ∀ user, p user = true ↔ user.roleId = adminRoleId) {id : UserId} {user : User} :
    (⟨id, user⟩ : Sigma fun _ : UserId => User) ∈ rows.entries.filter (fun e => p e.2) ↔
      rows.lookup id = some user ∧ user.roleId = adminRoleId := by
  rw [List.mem_filter, ← AList.mem_lookup_iff, hp]
  rfl

theorem nodup_entries (rows : AList fun _ : UserId => User) : rows.entries.Nodup :=
  List.Nodup.of_map Sigma.fst rows.nodupKeys

theorem HoldsSeat.filter (hp : ∀ user, p user = true ↔ user.roleId = adminRoleId) {id : UserId}
    (hseat : HoldsSeat rows.lookup id) :
    ∃ user, rows.lookup id = some user ∧ rows.entries.filter (fun e => p e.2) = [⟨id, user⟩] := by
  obtain ⟨user, hrow, hrole, -⟩ := hseat.active
  refine ⟨user, hrow, eq_singleton ((nodup_entries rows).filter _)
    ((mem_filter_entries hp).mpr ⟨hrow, hrole⟩) ?_⟩
  rintro ⟨id', user'⟩ hmem
  obtain ⟨hrow', hrole'⟩ := (mem_filter_entries hp).mp hmem
  obtain rfl := hseat.only id' user' hrow' hrole'
  rw [Option.some.inj (hrow.symm.trans hrow')]

theorem HoldsSeat.count (hp : ∀ user, p user = true ↔ user.roleId = adminRoleId) {id : UserId}
    (hseat : HoldsSeat rows.lookup id) : (rows.entries.filter fun e => p e.2).length = 1 := by
  obtain ⟨user, -, hfilter⟩ := hseat.filter hp
  rw [hfilter]
  rfl

end Counts

/-! ### What a transaction does to the seat -/

/-- What the uncommitted versions of a transaction make of the seat: nothing, leave it empty, or give it to
one user. -/
inductive Seat where
  | quiet | vacant | held
  deriving DecidableEq, Repr

section Tables

variable {T : Type} [DecidableEq T]

/-- The versions transaction `t` has written. -/
def versions (tb : Table T UserId User) (t : T) (id : UserId) : Option User :=
  ((tb.pending t).lookup id).join

/-- Transaction `t` has written the row of the committed ADMIN. -/
def TouchesAdmin (tb : Table T UserId User) (t : T) : Prop :=
  ∃ id user, id ∈ tb.pending t ∧ tb.rows.lookup id = some user ∧ user.roleId = adminRoleId

def Seat.At (tb : Table T UserId User) (t : T) : Seat → Prop
  | .quiet => ¬ TouchesAdmin tb t ∧ NoAdmin (versions tb t)
  | .vacant => TouchesAdmin tb t ∧ NoAdmin (versions tb t)
  | .held => TouchesAdmin tb t ∧ OneAdmin (versions tb t)

variable {tb tb' : Table T UserId User} {t u : T} {seat : Seat}

omit [DecidableEq T] in
theorem get_of_versions {id : UserId} {user : User} (h : versions tb t id = some user) :
    tb.get t id = some user := by
  obtain ⟨v, hv, hjoin⟩ := Option.bind_eq_some_iff.mp h
  rw [Table.get, hv]
  exact hjoin

omit [DecidableEq T] in
theorem get_of_not_mem {id : UserId} (h : id ∉ tb.pending t) : tb.get t id = tb.rows.lookup id := by
  rw [Table.get, AList.lookup_eq_none.mpr h]

omit [DecidableEq T] in
theorem get_cases {id : UserId} {user : User} (h : tb.get t id = some user) :
    versions tb t id = some user ∨ id ∉ tb.pending t ∧ tb.rows.lookup id = some user := by
  by_cases hmem : id ∈ tb.pending t
  · obtain ⟨v, hv⟩ := Option.isSome_iff_exists.mp (AList.lookup_isSome.mpr hmem)
    rw [Table.get, hv] at h
    exact .inl (by rw [versions, hv]; exact h)
  · exact .inr ⟨hmem, (get_of_not_mem hmem).symm.trans h⟩

omit [DecidableEq T] in
theorem Seat.at_empty (hpending : tb.pending t = ∅) : Seat.At tb t .quiet := by
  refine ⟨fun ⟨id, _, hmem, _⟩ => ?_, fun id user h => ?_⟩
  · rw [hpending] at hmem
    exact AList.notMem_empty id hmem
  · rw [versions, hpending] at h
    cases h

omit [DecidableEq T] in
theorem Seat.At.view (hadmin : OneAdmin tb.rows.lookup) (hat : Seat.At tb t seat) (hseat : seat ≠ .vacant) :
    OneAdmin (tb.get t) := by
  obtain ⟨id, ⟨user, hrow, hrole, hactive⟩, honly⟩ := hadmin
  cases seat with
  | quiet =>
      obtain ⟨htouches, hnone⟩ := hat
      have hmem : id ∉ tb.pending t := fun hmem => htouches ⟨id, user, hmem, hrow, hrole⟩
      refine ⟨id, ⟨user, (get_of_not_mem hmem).trans hrow, hrole, hactive⟩, fun id' user' hget hrole' => ?_⟩
      rcases get_cases hget with h | ⟨-, h⟩
      · exact absurd hrole' (hnone id' user' h)
      · exact honly id' user' h hrole'
  | vacant => exact absurd rfl hseat
  | held =>
      obtain ⟨⟨x, xuser, hmem, hx, hxrole⟩, y, ⟨yuser, hy, hyrole, hyactive⟩, hyonly⟩ := hat
      refine ⟨y, ⟨yuser, get_of_versions hy, hyrole, hyactive⟩, fun id' user' hget hrole' => ?_⟩
      rcases get_cases hget with h | ⟨hnot, h⟩
      · exact hyonly id' user' h hrole'
      · have hsame : id' = x := (honly id' user' h hrole').trans (honly x xuser hx hxrole).symm
        exact absurd (hsame ▸ hmem) hnot

omit [DecidableEq T] in
theorem Seat.At.noAdmin (hadmin : OneAdmin tb.rows.lookup) (hat : Seat.At tb t .vacant) :
    NoAdmin (tb.get t) := by
  obtain ⟨⟨x, xuser, hmem, hx, hxrole⟩, hnone⟩ := hat
  obtain ⟨id, -, honly⟩ := hadmin
  intro id' user' hget hrole'
  rcases get_cases hget with h | ⟨hnot, h⟩
  · exact hnone id' user' h hrole'
  · have hsame : id' = x := (honly id' user' h hrole').trans (honly x xuser hx hxrole).symm
    exact hnot (hsame ▸ hmem)

omit [DecidableEq T] in
theorem Seat.At.active (hadmin : OneAdmin tb.rows.lookup) (hat : Seat.At tb t seat) {id : UserId} {user : User}
    (hget : tb.get t id = some user) (hrole : user.roleId = adminRoleId) : user.isActive = true := by
  by_cases hseat : seat = .vacant
  · subst hseat
    exact absurd hrole (hat.noAdmin hadmin id user hget)
  · obtain ⟨y, ⟨yuser, hy, -, hactive⟩, honly⟩ := hat.view hadmin hseat
    obtain rfl := honly id user hget hrole
    rwa [Option.some.inj (hget.symm.trans hy)]

omit [DecidableEq T] in
/-- Others leave to a transaction the versions it has written, and the rows it has written them of. -/
theorem Seat.At.around (hat : Seat.At tb u seat) (hpending : tb'.pending u = tb.pending u)
    (hrows : ∀ k, tb.owner k = some u → tb'.rows.lookup k = tb.rows.lookup k) : Seat.At tb' u seat := by
  have hversions : versions tb' u = versions tb u := by
    funext id
    rw [versions, versions, hpending]
  have htouches : TouchesAdmin tb' u ↔ TouchesAdmin tb u := by
    constructor
    · rintro ⟨id, user, hmem, hrow, hrole⟩
      rw [hpending] at hmem
      exact ⟨id, user, hmem, (hrows id (tb.owned u id hmem)).symm.trans hrow, hrole⟩
    · rintro ⟨id, user, hmem, hrow, hrole⟩
      exact ⟨id, user, hpending ▸ hmem, (hrows id (tb.owned u id hmem)).trans hrow, hrole⟩
  cases seat with
  | quiet => exact ⟨htouches.not.mpr hat.1, hversions ▸ hat.2⟩
  | vacant => exact ⟨htouches.mpr hat.1, hversions ▸ hat.2⟩
  | held => exact ⟨htouches.mpr hat.1, hversions ▸ hat.2⟩

/-! ### Writes -/

section Put

variable {k : UserId} {user : User} (hfree : tb.Free t k)

theorem versions_put_self : versions (tb.put t k (some user) hfree) t k = some user := by
  rw [versions, Table.put_pending_self, AList.lookup_insert]
  rfl

theorem versions_put_of_ne {id : UserId} (hne : id ≠ k) :
    versions (tb.put t k (some user) hfree) t id = versions tb t id := by
  rw [versions, Table.put_pending_self, AList.lookup_insert_ne hne, versions]

theorem mem_pending_put {id : UserId} : id ∈ (tb.put t k (some user) hfree).pending t ↔
    id = k ∨ id ∈ tb.pending t := by
  rw [Table.put_pending_self, AList.mem_insert]

theorem TouchesAdmin.put (h : TouchesAdmin tb t) : TouchesAdmin (tb.put t k (some user) hfree) t := by
  obtain ⟨id, admin, hmem, hrow, hrole⟩ := h
  exact ⟨id, admin, (mem_pending_put hfree).mpr (.inr hmem), hrow, hrole⟩

theorem Seat.held_put (hadmin : OneAdmin tb.rows.lookup) (hrole : user.roleId = adminRoleId)
    (hactive : user.isActive = true)
    (hothers : ∀ id ≠ k, ∀ other, tb.get t id = some other → other.roleId ≠ adminRoleId) :
    Seat.At (tb.put t k (some user) hfree) t .held := by
  obtain ⟨x, ⟨xuser, hx, hxrole, -⟩, -⟩ := hadmin
  refine ⟨⟨x, xuser, (mem_pending_put hfree).mpr ?_, hx, hxrole⟩, k,
    ⟨user, versions_put_self hfree, hrole, hactive⟩, fun id other hversion hother => ?_⟩
  · by_contra h
    obtain ⟨hne, hnot⟩ := not_or.mp h
    exact hothers x hne xuser ((get_of_not_mem hnot).trans hx) hxrole
  · by_contra hne
    rw [versions_put_of_ne hfree hne] at hversion
    exact hothers id hne other (get_of_versions hversion) hother

theorem Seat.At.put_plain (hat : Seat.At tb t seat) (hrole : user.roleId ≠ adminRoleId)
    (hold : ∀ old, tb.get t k = some old → old.roleId ≠ adminRoleId) :
    Seat.At (tb.put t k (some user) hfree) t seat := by
  have hnone : NoAdmin (versions tb t) → NoAdmin (versions (tb.put t k (some user) hfree) t) := by
    intro h id other hversion
    by_cases hne : id = k
    · subst hne
      rw [versions_put_self] at hversion
      rwa [← Option.some.inj hversion]
    · rw [versions_put_of_ne hfree hne] at hversion
      exact h id other hversion
  cases seat with
  | quiet =>
      refine ⟨fun ⟨id, admin, hmem, hrow, hadmin⟩ => ?_, hnone hat.2⟩
      have hnot : id ∉ tb.pending t := fun hmem => hat.1 ⟨id, admin, hmem, hrow, hadmin⟩
      rcases (mem_pending_put hfree).mp hmem with rfl | hmem
      · exact hold admin ((get_of_not_mem hnot).trans hrow) hadmin
      · exact hnot hmem
  | vacant => exact ⟨hat.1.put hfree, hnone hat.2⟩
  | held =>
      obtain ⟨htouches, y, ⟨yuser, hy, hyrole, hyactive⟩, hyonly⟩ := hat
      have hne : y ≠ k := by
        rintro rfl
        exact hold yuser (get_of_versions hy) hyrole
      refine ⟨htouches.put hfree, y, ⟨yuser, (versions_put_of_ne hfree hne).trans hy, hyrole, hyactive⟩,
        fun id other hversion hother => ?_⟩
      by_cases hk : id = k
      · subst hk
        rw [versions_put_self] at hversion
        exact absurd hother (Option.some.inj hversion ▸ hrole)
      · rw [versions_put_of_ne hfree hk] at hversion
        exact hyonly id other hversion hother

theorem Seat.At.put_demoted (hadmin : OneAdmin tb.rows.lookup) (hat : Seat.At tb t seat) {old : User}
    (hget : tb.get t k = some old) (hold : old.roleId = adminRoleId) (hrole : user.roleId ≠ adminRoleId) :
    Seat.At (tb.put t k (some user) hfree) t .vacant := by
  have hseat : seat ≠ .vacant := by
    rintro rfl
    exact hat.noAdmin hadmin k old hget hold
  obtain ⟨y, -, honly⟩ := hat.view hadmin hseat
  obtain rfl := honly k old hget hold
  refine ⟨?_, fun id other hversion hother => ?_⟩
  · rcases get_cases hget with h | ⟨-, hrow⟩
    · cases seat with
      | quiet => exact absurd hold (hat.2 k old h)
      | vacant => exact absurd rfl hseat
      | held => exact hat.1.put hfree
    · exact ⟨k, old, (mem_pending_put hfree).mpr (.inl rfl), hrow, hold⟩
  · by_cases hk : id = k
    · subst hk
      rw [versions_put_self] at hversion
      exact hrole (Option.some.inj hversion ▸ hother)
    · rw [versions_put_of_ne hfree hk] at hversion
      exact hk (honly id other (get_of_versions hversion) hother)

end Put
end Tables

/-! ### What a write that is answered has done -/

section Writes

variable {T : Type} [DecidableEq T] {setting : Setting} {t : T} {db db' : UserDb T} {id : UserId} {user : User}

theorem tryEntries_ok {entries : List Entry} {done : Unit}
    (h : db.tryEntries setting t id entries = .ok done) :
    ∀ entry ∈ entries, ∀ id' ≠ id, ∀ other, db.users.get t id' = some other →
      entry ∉ other.entries setting := by
  induction entries with
  | nil => exact fun _ hmem => absurd hmem List.not_mem_nil
  | cons entry rest ih =>
      rw [UserDb.tryEntries] at h
      split_ifs at h with htouched hany
      intro entry' hmem id' hne other hget
      rcases List.mem_cons.mp hmem with rfl | hmem
      · intro hentry
        rw [← Table.lookup_view] at hget
        exact hany (List.any_eq_true.mpr ⟨⟨id', other⟩, AList.mem_lookup_iff.mp hget,
          decide_eq_true ⟨hne, hentry⟩⟩)
      · exact ih h entry' hmem id' hne other hget

theorem mem_entries_seat {user : User} : Entry.seat ∈ user.entries setting ↔ user.roleId = adminRoleId := by
  unfold User.entries
  split_ifs with h <;> simp [h]

theorem write_ok (h : db.write setting t id user = .ok db') : ∃ hfree : db.users.Free t id,
    db'.users = db.users.put t id (some user) hfree ∧ (user.roleId = adminRoleId →
      ∀ id' ≠ id, ∀ other, db.users.get t id' = some other → other.roleId ≠ adminRoleId) := by
  unfold UserDb.write at h
  split at h
  · cases h
  · split_ifs at h with hfree hforeign
    · split at h <;> cases h
    · split at h
      · cases h
      · rename_i htried
        obtain rfl := Except.ok.inj h
        refine ⟨hfree, rfl, fun hrole id' hne other hget hother => ?_⟩
        exact tryEntries_ok htried .seat (mem_entries_seat.mpr hrole) id' hne other hget
          (mem_entries_seat.mpr hother)

theorem update_ok {change : User → User} (h : db.update setting t id change = .ok db') :
    (db.users.get t id = none ∧ db' = db) ∨
      ∃ old, db.users.get t id = some old ∧ db.write setting t id (change old) = .ok db' := by
  unfold UserDb.update at h
  split at h
  · rename_i hnone
    exact .inl ⟨hnone, (Except.ok.inj h).symm⟩
  · rename_i old hold
    exact .inr ⟨old, hold, h⟩

theorem insert_ok (h : db.insert setting t id user = .ok db') :
    db.users.get t id = none ∧ db.write setting t id user = .ok db' := by
  unfold UserDb.insert at h
  split at h
  · cases h
  · split_ifs at h with hsome
    exact ⟨by simpa using hsome, h⟩

theorem written_some {s : Statement} {v w : Result s} {drawn : UserId}
    (h : db.written setting drawn t s v = some (w, db')) :
    w = v ∧ db.writes setting drawn t s = .ok db' := by
  unfold UserDb.written at h
  split at h
  · rename_i after hafter
    obtain ⟨rfl, rfl⟩ := Prod.mk.inj (Option.some.inj h)
    exact ⟨rfl, hafter⟩
  · cases h

end Writes

/-! ### What transactions leave to each other -/

section Leaves

variable {T : Type}

/-- The rows transaction `u` has locked, and the versions it has written, are left alone. -/
structure Leaves (u : T) (db db' : UserDb T) : Prop where
  pending : db'.users.pending u = db.users.pending u
  owner : ∀ k, db'.users.owner k = some u ↔ db.users.owner k = some u
  rows : ∀ k, db.users.owner k = some u → db'.users.rows.lookup k = db.users.rows.lookup k

variable {t u : T} {db db' : UserDb T}

theorem Leaves.refl (u : T) (db : UserDb T) : Leaves u db db := ⟨rfl, fun _ => Iff.rfl, fun _ _ => rfl⟩

theorem Leaves.get (h : Leaves u db db') {k : UserId} (howner : db.users.owner k = some u) :
    db'.users.get u k = db.users.get u k := by
  rw [Table.get, Table.get, h.pending, h.rows k howner]

theorem Leaves.seat (h : Leaves u db db') {seat : Seat} (hat : Seat.At db.users u seat) :
    Seat.At db'.users u seat := hat.around h.pending h.rows

variable [DecidableEq T]

theorem leaves_put (hu : u ≠ t) {k : UserId} {user : User} (hfree : db.users.Free t k)
    (hdb : db'.users = db.users.put t k (some user) hfree) : Leaves u db db' := by
  refine ⟨?_, fun k' => ?_, fun k' _ => ?_⟩
  · rw [hdb, Table.put_pending_other hfree _ hu]
  · rw [hdb, Table.put_owner_other hfree _ hu]
  · rw [hdb, Table.put_rows]

omit [DecidableEq T] in
theorem leaves_lock (hu : u ≠ t) {k : UserId} (hfree : db.users.Free t k) :
    Leaves u db { db with users := db.users.lock t k hfree } :=
  ⟨rfl, Table.lock_owner_other hfree hu, fun _ _ => rfl⟩

theorem leaves_rollback (hu : u ≠ t) (db : UserDb T) : Leaves u db (db.rollback t) :=
  ⟨Table.rollback_pending_other t hu, Table.rollback_owner_other t hu, fun _ _ => rfl⟩

theorem leaves_commit (hu : u ≠ t) (db : UserDb T) : Leaves u db (db.commit t) :=
  ⟨Table.commit_pending_other t hu, Table.commit_owner_other t hu, (Table.Around.commit hu).rows⟩

theorem commit_lookup (t : T) (db : UserDb T) : (db.commit t).users.rows.lookup = db.users.get t :=
  funext fun k => Table.commit_rows t k

end Leaves

/-! ### Two users -/

def admin : User := ⟨adminRoleId, "Ada", "ada@mosaiq.test", "", true⟩

def analyst : User := ⟨2, "Bea", "bea@mosaiq.test", "", true⟩

def twoUsers : AList fun _ : UserId => User := (AList.singleton 1 admin).insert 2 analyst

theorem twoUsers_oneAdmin : OneAdmin twoUsers.lookup := by
  refine ⟨1, ⟨admin, rfl, rfl, rfl⟩, fun id user hrow hrole => ?_⟩
  have hmem : (⟨id, user⟩ : Sigma fun _ : UserId => User) ∈ [⟨2, analyst⟩, ⟨1, admin⟩] :=
    AList.mem_lookup_iff.mp hrow
  rcases List.mem_cons.mp hmem with h | h
  · obtain ⟨rfl, hanalyst⟩ := Sigma.mk.inj h
    obtain rfl := eq_of_heq hanalyst
    cases hrole
  · obtain ⟨rfl, -⟩ := Sigma.mk.inj (List.mem_singleton.mp h)
    rfl

end RetailSegmentation.Users
