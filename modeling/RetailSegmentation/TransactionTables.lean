import Mathlib.Data.List.AList
import Mathlib.Logic.Function.Basic

/-! Tables under READ COMMITTED. A table holds the committed rows, the uncommitted versions of each
open transaction and the owner of each row lock. A transaction reads its own versions over the
committed rows, writes only rows it owns, and on commit its versions become the committed rows. -/

namespace Transactions

variable {T K V : Type} [DecidableEq K]

/-- Make `version` the row of key `k`; `none` deletes it. -/
def setRow (rows : AList fun _ : K => V) (k : K) : Option V → AList fun _ : K => V
  | some v => rows.insert k v
  | none => rows.erase k

theorem lookup_setRow (rows : AList fun _ : K => V) (k k' : K) (version : Option V) :
    (setRow rows k version).lookup k' = if k' = k then version else rows.lookup k' := by
  split_ifs with hk
  · subst hk
    cases version with
    | some v => exact AList.lookup_insert _
    | none => exact AList.lookup_erase _ _
  · cases version with
    | some v => exact AList.lookup_insert_ne hk
    | none => exact AList.lookup_erase_ne hk

def overlay (versions : List (Sigma fun _ : K => Option V)) (rows : AList fun _ : K => V) :
    AList fun _ : K => V :=
  versions.foldl (fun acc e => setRow acc e.1 e.2) rows

theorem lookup_overlay (versions : List (Sigma fun _ : K => Option V)) (hnodup : versions.NodupKeys)
    (rows : AList fun _ : K => V) (k : K) :
    (overlay versions rows).lookup k = match versions.dlookup k with
      | some v => v
      | none => rows.lookup k := by
  induction versions generalizing rows with
  | nil => rfl
  | cons e versions ih =>
      obtain ⟨key, version⟩ := e
      have htail := (List.nodupKeys_cons.mp hnodup).2
      have hnew : key ∉ versions.keys := List.notMem_keys_of_nodupKeys_cons hnodup
      change (overlay versions (setRow rows key version)).lookup k = _
      rw [ih htail, lookup_setRow]
      by_cases hk : k = key
      · subst hk
        rw [List.dlookup_eq_none.mpr hnew, List.dlookup_cons_eq]
        exact if_pos rfl
      · rw [List.dlookup_cons_ne _ _ hk, if_neg hk]

/-! ### Locks -/

section Locks

variable [DecidableEq T] {t u : T}

/-- What `t` releases, no other has held. -/
theorem release_other (hu : u ≠ t) (holder : Option T) :
    (if holder = some t then none else holder) = some u ↔ holder = some u := by
  split_ifs with h
  · rw [h]
    exact ⟨nofun, fun h' => absurd (Option.some.inj h').symm hu⟩
  · rfl

theorem release_self (t : T) (holder : Option T) : (if holder = some t then none else holder) ≠ some t := by
  split_ifs with h
  · simp
  · exact h

end Locks

/-! ### Tables -/

/-- A keyed table. Only the owner of a row holds an uncommitted version of it. -/
structure Table (T K V : Type) [DecidableEq K] where
  rows : AList fun _ : K => V
  pending : T → AList fun _ : K => Option V
  owner : K → Option T
  owned : ∀ t k, k ∈ pending t → owner k = some t

namespace Table

/-- No open transaction has touched these rows. -/
def ofRows (rows : AList fun _ : K => V) : Table T K V where
  rows := rows
  pending := fun _ => ∅
  owner := fun _ => none
  owned := fun _ k hk => absurd hk (AList.notMem_empty k)

variable (tb : Table T K V)

/-- The version of row `k` transaction `t` reads. -/
def get (t : T) (k : K) : Option V :=
  match (tb.pending t).lookup k with
  | some v => v
  | none => tb.rows.lookup k

/-- Every row as transaction `t` reads it. -/
def view (t : T) : AList fun _ : K => V := overlay (tb.pending t).entries tb.rows

/-- Row `k` is locked by no transaction other than `t`. -/
def Free (t : T) (k : K) : Prop := tb.owner k = none ∨ tb.owner k = some t

instance [DecidableEq T] (t : T) (k : K) : Decidable (tb.Free t k) :=
  inferInstanceAs (Decidable (_ ∨ _))

def lock (t : T) (k : K) (hfree : tb.Free t k) : Table T K V where
  rows := tb.rows
  pending := tb.pending
  owner := Function.update tb.owner k (some t)
  owned u k' hk' := by
    have howner := tb.owned u k' hk'
    by_cases hk : k' = k
    · subst hk
      rcases hfree with hnone | hself
      · exact absurd (hnone.symm.trans howner) (by simp)
      · rw [Function.update_self, ← hself, howner]
    · rw [Function.update_of_ne hk, howner]

variable [DecidableEq T]

/-- Write a version of row `k` (`none`: delete it), taking its lock. -/
def put (t : T) (k : K) (v : Option V) (hfree : tb.Free t k) : Table T K V where
  rows := tb.rows
  pending := Function.update tb.pending t ((tb.pending t).insert k v)
  owner := Function.update tb.owner k (some t)
  owned u k' hk' := by
    by_cases hu : u = t
    · subst hu
      rw [Function.update_self, AList.mem_insert] at hk'
      by_cases hk : k' = k
      · rw [hk, Function.update_self]
      · rw [Function.update_of_ne hk, tb.owned u k' (hk'.resolve_left hk)]
    · rw [Function.update_of_ne hu] at hk'
      exact (tb.lock t k hfree).owned u k' hk'

private theorem owned_release (t : T) (u : T) (k : K)
    (hk : k ∈ Function.update tb.pending t ∅ u) :
    (if tb.owner k = some t then none else tb.owner k) = some u := by
  by_cases hu : u = t
  · subst hu
    rw [Function.update_self] at hk
    exact absurd hk (AList.notMem_empty k)
  · rw [Function.update_of_ne hu] at hk
    have howner := tb.owned u k hk
    rw [if_neg (by rw [howner]; exact fun h => hu (Option.some.inj h)), howner]

def commit (t : T) : Table T K V where
  rows := tb.view t
  pending := Function.update tb.pending t ∅
  owner k := if tb.owner k = some t then none else tb.owner k
  owned := tb.owned_release t

def rollback (t : T) : Table T K V where
  rows := tb.rows
  pending := Function.update tb.pending t ∅
  owner k := if tb.owner k = some t then none else tb.owner k
  owned := tb.owned_release t

/-! ### What each operation leaves to read -/

omit [DecidableEq T]

variable {tb}

theorem lookup_view (t : T) (k : K) : (tb.view t).lookup k = tb.get t k :=
  lookup_overlay _ (tb.pending t).nodupKeys _ _

theorem pending_eq_none {t : T} {k : K} (howner : tb.owner k ≠ some t) :
    (tb.pending t).lookup k = none :=
  AList.lookup_eq_none.mpr fun hk => howner (tb.owned t k hk)

theorem get_eq_rows {t : T} {k : K} (howner : tb.owner k ≠ some t) : tb.get t k = tb.rows.lookup k := by
  rw [get, pending_eq_none howner]

/-- A transaction that has written nothing reads what is committed. -/
theorem get_of_empty {t : T} (hpending : tb.pending t = ∅) (k : K) : tb.get t k = tb.rows.lookup k := by
  rw [get, hpending]
  rfl

theorem view_of_empty {t : T} (hpending : tb.pending t = ∅) : tb.view t = tb.rows := by
  rw [view, hpending]
  rfl

theorem Free.owner_ne {t u : T} {k : K} (hfree : tb.Free t k) (hu : u ≠ t) : tb.owner k ≠ some u := by
  rcases hfree with h | h <;> rw [h]
  · simp
  · exact fun h' => hu (Option.some.inj h').symm

@[simp] theorem ofRows_rows (rows : AList fun _ : K => V) : (ofRows rows : Table T K V).rows = rows := rfl

@[simp] theorem ofRows_owner (rows : AList fun _ : K => V) (k : K) :
    (ofRows rows : Table T K V).owner k = none := rfl

@[simp] theorem ofRows_pending (rows : AList fun _ : K => V) (t : T) :
    (ofRows rows : Table T K V).pending t = ∅ := rfl

@[simp] theorem ofRows_get (rows : AList fun _ : K => V) (t : T) (k : K) :
    (ofRows rows : Table T K V).get t k = rows.lookup k :=
  get_eq_rows (by simp)

section Lock

variable {t : T} {k : K} (hfree : tb.Free t k)

@[simp] theorem lock_rows : (tb.lock t k hfree).rows = tb.rows := rfl

@[simp] theorem lock_pending (u : T) : (tb.lock t k hfree).pending u = tb.pending u := rfl

@[simp] theorem lock_get (u : T) (k' : K) : (tb.lock t k hfree).get u k' = tb.get u k' := rfl

@[simp] theorem lock_owner_self : (tb.lock t k hfree).owner k = some t := Function.update_self k _ _

theorem lock_owner_of_ne {k' : K} (hk : k' ≠ k) : (tb.lock t k hfree).owner k' = tb.owner k' :=
  Function.update_of_ne hk _ _

theorem lock_owner_other {u : T} (hu : u ≠ t) (k' : K) :
    (tb.lock t k hfree).owner k' = some u ↔ tb.owner k' = some u := by
  by_cases hk : k' = k
  · subst hk
    rw [lock_owner_self]
    exact ⟨fun h => absurd (Option.some.inj h).symm hu, fun h => absurd h (hfree.owner_ne hu)⟩
  · rw [lock_owner_of_ne hfree hk]

variable [DecidableEq T] (v : Option V)

@[simp] theorem put_rows : (tb.put t k v hfree).rows = tb.rows := rfl

@[simp] theorem put_pending_self : (tb.put t k v hfree).pending t = (tb.pending t).insert k v :=
  Function.update_self t _ _

theorem put_pending_other {u : T} (hu : u ≠ t) : (tb.put t k v hfree).pending u = tb.pending u :=
  Function.update_of_ne hu _ _

@[simp] theorem put_owner_self : (tb.put t k v hfree).owner k = some t := Function.update_self k _ _

theorem put_owner_of_ne {k' : K} (hk : k' ≠ k) : (tb.put t k v hfree).owner k' = tb.owner k' :=
  Function.update_of_ne hk _ _

theorem put_owner_other {u : T} (hu : u ≠ t) (k' : K) :
    (tb.put t k v hfree).owner k' = some u ↔ tb.owner k' = some u :=
  lock_owner_other hfree hu k'

@[simp] theorem put_get_self : (tb.put t k v hfree).get t k = v := by
  rw [get, put_pending_self, AList.lookup_insert]

theorem put_get_of_ne {k' : K} (hk : k' ≠ k) : (tb.put t k v hfree).get t k' = tb.get t k' := by
  rw [get, put_pending_self, AList.lookup_insert_ne hk, put_rows, get]

theorem put_get_eq_update : (tb.put t k v hfree).get t = Function.update (tb.get t) k v := by
  funext k'
  by_cases hk : k' = k
  · rw [hk, put_get_self, Function.update_self]
  · rw [put_get_of_ne hfree v hk, Function.update_of_ne hk]

theorem put_get_other {u : T} (hu : u ≠ t) (k' : K) : (tb.put t k v hfree).get u k' = tb.get u k' := by
  rw [get, put_pending_other hfree v hu, put_rows, get]

end Lock

section End

variable [DecidableEq T] (t : T)

@[simp] theorem commit_rows (k : K) : (tb.commit t).rows.lookup k = tb.get t k := lookup_view t k

@[simp] theorem commit_pending_self : (tb.commit t).pending t = ∅ := Function.update_self t _ _

theorem commit_pending_other {u : T} (hu : u ≠ t) : (tb.commit t).pending u = tb.pending u :=
  Function.update_of_ne hu _ _

@[simp] theorem rollback_rows : (tb.rollback t).rows = tb.rows := rfl

@[simp] theorem rollback_pending_self : (tb.rollback t).pending t = ∅ := Function.update_self t _ _

theorem rollback_pending_other {u : T} (hu : u ≠ t) : (tb.rollback t).pending u = tb.pending u :=
  Function.update_of_ne hu _ _

theorem commit_owner_other {u : T} (hu : u ≠ t) (k : K) :
    (tb.commit t).owner k = some u ↔ tb.owner k = some u := release_other hu _

theorem rollback_owner_other {u : T} (hu : u ≠ t) (k : K) :
    (tb.rollback t).owner k = some u ↔ tb.owner k = some u := release_other hu _

theorem commit_owner_self (k : K) : (tb.commit t).owner k ≠ some t := release_self t _

theorem rollback_owner_self (k : K) : (tb.rollback t).owner k ≠ some t := commit_owner_self t k

@[simp] theorem rollback_get_self (k : K) : (tb.rollback t).get t k = tb.rows.lookup k :=
  get_eq_rows (rollback_owner_self t k)

theorem rollback_get_other {u : T} (hu : u ≠ t) (k : K) : (tb.rollback t).get u k = tb.get u k := by
  rw [get, rollback_pending_other t hu, rollback_rows, get]

/-- A row nobody else has a version of is read by another transaction as it was committed. -/
theorem commit_get_other {u : T} (hu : u ≠ t) (k : K) :
    (tb.commit t).get u k = if tb.owner k = some u then
      (match (tb.pending u).lookup k with | some v => v | none => tb.get t k) else tb.get t k := by
  rw [get, commit_pending_other t hu, commit_rows]
  split_ifs with h
  · rfl
  · rw [pending_eq_none h]

/-- A row `u` owns reads the same to `u` after the commit of another transaction. -/
theorem commit_get_owned {u : T} (hu : u ≠ t) {k : K} (howner : tb.owner k = some u) :
    (tb.commit t).get u k = tb.get u k := by
  have hother : tb.get t k = tb.rows.lookup k :=
    get_eq_rows (by rw [howner]; exact fun h => hu (Option.some.inj h))
  rw [commit_get_other t hu, if_pos howner, hother, get]

/-- Nor does committing it. -/
theorem commit_eq_self (hpending : tb.pending t = ∅) (howner : ∀ k, tb.owner k ≠ some t) :
    tb.commit t = tb := by
  have hview : tb.view t = tb.rows := view_of_empty hpending
  obtain ⟨rows, pending, owner, owned⟩ := tb
  simp only [commit, Table.mk.injEq]
  refine ⟨hview, ?_, funext fun k => if_neg (howner k)⟩
  rw [← hpending]
  exact Function.update_eq_self t pending

end End

theorem mem_view {t : T} {k : K} : k ∈ tb.view t ↔ (tb.get t k).isSome := by
  rw [← AList.lookup_isSome, lookup_view]

/-! ### What a transaction keeps while others move -/

/-- Transaction `t` holds the same rows, with the same versions over the same committed rows. -/
structure Around (t : T) (tb tb' : Table T K V) : Prop where
  owner : ∀ k, tb'.owner k = some t ↔ tb.owner k = some t
  rows : ∀ k, tb.owner k = some t → tb'.rows.lookup k = tb.rows.lookup k
  get : ∀ k, tb.owner k = some t → tb'.get t k = tb.get t k

namespace Around

variable {t u : T} {tb' tb'' : Table T K V}

theorem refl (tb : Table T K V) : Around t tb tb := ⟨fun _ => Iff.rfl, fun _ _ => rfl, fun _ _ => rfl⟩

theorem trans (h : Around t tb tb') (h' : Around t tb' tb'') : Around t tb tb'' where
  owner k := (h'.owner k).trans (h.owner k)
  rows k hk := (h'.rows k ((h.owner k).mpr hk)).trans (h.rows k hk)
  get k hk := (h'.get k ((h.owner k).mpr hk)).trans (h.get k hk)

theorem lock (hu : t ≠ u) {k : K} (hfree : tb.Free u k) : Around t tb (tb.lock u k hfree) :=
  ⟨lock_owner_other hfree hu, fun _ _ => rfl, fun _ _ => rfl⟩

variable [DecidableEq T]

theorem put (hu : t ≠ u) {k : K} (v : Option V) (hfree : tb.Free u k) :
    Around t tb (tb.put u k v hfree) :=
  ⟨put_owner_other hfree v hu, fun _ _ => rfl, fun k' _ => put_get_other hfree v hu k'⟩

theorem commit (hu : t ≠ u) : Around t tb (tb.commit u) where
  owner := commit_owner_other u hu
  rows k hk := by
    rw [commit_rows, get_eq_rows (by rw [hk]; exact fun h => hu (Option.some.inj h))]
  get k hk := commit_get_owned u hu hk

theorem rollback (hu : t ≠ u) : Around t tb (tb.rollback u) :=
  ⟨rollback_owner_other u hu, fun _ _ => rfl, fun k _ => rollback_get_other u hu k⟩

end Around

end Table

/-! ### Tables rows are only added to -/

/-- An append-only table: the committed rows, and those each open transaction has added. -/
structure Log (T V : Type) where
  rows : List V
  pending : T → List V

namespace Log

def ofRows (rows : List V) : Log T V := ⟨rows, fun _ => []⟩

variable (lg : Log T V)

/-- The rows transaction `t` reads. -/
def view (t : T) : List V := lg.rows ++ lg.pending t

variable [DecidableEq T]

def append (t : T) (v : V) : Log T V := ⟨lg.rows, Function.update lg.pending t (lg.pending t ++ [v])⟩

def commit (t : T) : Log T V := ⟨lg.view t, Function.update lg.pending t []⟩

def rollback (t : T) : Log T V := ⟨lg.rows, Function.update lg.pending t []⟩

variable {lg} (t : T)

@[simp] theorem append_rows (v : V) : (lg.append t v).rows = lg.rows := rfl

@[simp] theorem append_pending_self (v : V) : (lg.append t v).pending t = lg.pending t ++ [v] :=
  Function.update_self t _ _

theorem append_pending_other (v : V) {u : T} (hu : u ≠ t) : (lg.append t v).pending u = lg.pending u :=
  Function.update_of_ne hu _ _

@[simp] theorem append_view_self (v : V) : (lg.append t v).view t = lg.view t ++ [v] := by
  rw [view, append_pending_self, append_rows, view, List.append_assoc]

@[simp] theorem commit_rows : (lg.commit t).rows = lg.view t := rfl

@[simp] theorem commit_pending_self : (lg.commit t).pending t = [] := Function.update_self t _ _

theorem commit_pending_other {u : T} (hu : u ≠ t) : (lg.commit t).pending u = lg.pending u :=
  Function.update_of_ne hu _ _

@[simp] theorem rollback_rows : (lg.rollback t).rows = lg.rows := rfl

@[simp] theorem rollback_pending_self : (lg.rollback t).pending t = [] := Function.update_self t _ _

theorem rollback_pending_other {u : T} (hu : u ≠ t) : (lg.rollback t).pending u = lg.pending u :=
  Function.update_of_ne hu _ _

end Log
end Transactions
