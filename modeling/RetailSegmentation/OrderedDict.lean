import RetailSegmentation.GroupedRows

/-! Dictionaries used as queues: keys are taken out, moved to the end, and forgotten from the front. -/

namespace Grouping

variable {κ ν : Type} [DecidableEq κ]

/-- `d.pop(k, None)`. -/
def Dict.pop (d : Dict κ ν) (k : κ) : Dict κ ν := d.filter fun e => e.1 ≠ k

/-- `d.setdefault(k, v)`. -/
def Dict.setdefault (d : Dict κ ν) (k : κ) (v : ν) : Dict κ ν := d.change k v id

/-- `d.move_to_end(k)`. -/
def Dict.moveToEnd (d : Dict κ ν) (k : κ) : Dict κ ν := d.pop k ++ d.filter fun e => e.1 = k

/-- `d.popitem(last=False)` while there are more than `limit`. -/
def Dict.trim (limit : ℕ) (d : Dict κ ν) : Dict κ ν := d.drop (d.length - limit)

theorem lookup_filter_key (p : κ → Bool) (d : Dict κ ν) (k : κ) :
    (d.filter fun e => p e.1).lookup k = if p k then d.lookup k else none := by
  induction d with
  | nil => simp
  | cons e rest ih =>
      rw [List.filter_cons, lookup_entry]
      by_cases hk : k = e.1
      · subst hk
        by_cases hp : p e.1 = true
        · rw [if_pos hp, lookup_entry, if_pos rfl, if_pos rfl, if_pos hp]
        · rw [if_neg hp, ih, if_neg hp, if_neg hp]
      · rw [if_neg hk, ← ih]
        by_cases hp : p e.1 = true
        · rw [if_pos hp, lookup_entry, if_neg hk]
        · rw [if_neg hp]

theorem lookup_pop (d : Dict κ ν) (k k' : κ) : (d.pop k).lookup k' = if k' = k then none else d.lookup k' := by
  unfold Dict.pop
  rw [lookup_filter_key fun key => decide (key ≠ k)]
  by_cases hk : k' = k
  · simp [hk]
  · simp [hk]

@[simp] theorem lookup_moveToEnd (d : Dict κ ν) (k k' : κ) : (d.moveToEnd k).lookup k' = d.lookup k' := by
  unfold Dict.moveToEnd
  rw [List.lookup_append, lookup_pop, lookup_filter_key fun key => decide (key = k)]
  by_cases hk : k' = k
  · simp [hk]
  · simp [hk]

/-- What a key holds is what it held, or the default. -/
@[simp] theorem at_setdefault (d : Dict κ ν) (k k' : κ) (v : ν) : (d.setdefault k v).at k' v = d.at k' v := by
  unfold Dict.setdefault Dict.at
  rw [lookup_change]
  by_cases hk : k' = k
  · rw [if_pos hk, hk]
    rfl
  · rw [if_neg hk]

@[simp] theorem at_moveToEnd (d : Dict κ ν) (k k' : κ) (v : ν) : (d.moveToEnd k).at k' v = d.at k' v := by
  unfold Dict.at
  rw [lookup_moveToEnd]

theorem at_put (d : Dict κ ν) (k k' : κ) (v v' : ν) : (d.put k v).at k' v' = if k' = k then v else d.at k' v' := by
  unfold Dict.at
  rw [lookup_put]
  by_cases hk : k' = k
  · rw [if_pos hk, if_pos hk]
    rfl
  · rw [if_neg hk, if_neg hk]

theorem at_pop (d : Dict κ ν) (k k' : κ) (v : ν) : (d.pop k).at k' v = if k' = k then v else d.at k' v := by
  unfold Dict.at
  rw [lookup_pop]
  by_cases hk : k' = k
  · rw [if_pos hk, if_pos hk]
    rfl
  · rw [if_neg hk, if_neg hk]

/-! ### Keys -/

theorem keys_pop (d : Dict κ ν) (k : κ) : (d.pop k).keys = d.keys.filter fun key => key ≠ k := by
  unfold Dict.keys Dict.pop
  rw [List.filter_map]
  rfl

theorem keys_setdefault (d : Dict κ ν) (k : κ) (v : ν) :
    (d.setdefault k v).keys = if k ∈ d.keys then d.keys else d.keys ++ [k] := keys_change d k v id

theorem keys_moveToEnd_perm (d : Dict κ ν) (k : κ) : (d.moveToEnd k).keys.Perm d.keys := by
  have hsplit := List.filter_append_perm (fun e : κ × ν => decide (e.1 ≠ k)) d
  have hfilter : (d.filter fun e => !decide (e.1 ≠ k)) = d.filter fun e => e.1 = k :=
    List.filter_congr fun e _ => by simp
  rw [hfilter] at hsplit
  exact hsplit.map Prod.fst

theorem keys_moveToEnd {d : Dict κ ν} (hkeys : d.keys.Nodup) {k : κ} (hk : k ∈ d.keys) :
    (d.moveToEnd k).keys = (d.keys.filter fun key => key ≠ k) ++ [k] := by
  have hlast : (Dict.keys (d.filter fun e => e.1 = k)) = d.keys.filter fun key => key = k := by
    unfold Dict.keys
    rw [List.filter_map]
    rfl
  have hone : (d.keys.filter fun key => key = k) = [k] := by
    rw [List.filter_eq, List.count_eq_one_of_mem hkeys hk]
    rfl
  rw [← keys_pop, ← hone, ← hlast]
  exact List.map_append

theorem keys_put (d : Dict κ ν) (k : κ) (v : ν) :
    (d.put k v).keys = if k ∈ d.keys then d.keys else d.keys ++ [k] := keys_change d k v fun _ => v

theorem nodup_append_new {keys : List κ} (hkeys : keys.Nodup) (k : κ) :
    (if k ∈ keys then keys else keys ++ [k]).Nodup := by
  by_cases hk : k ∈ keys
  · rwa [if_pos hk]
  · rw [if_neg hk]
    exact List.nodup_append.mpr ⟨hkeys, List.nodup_singleton k, fun a ha b hb => by
      obtain rfl := List.mem_singleton.mp hb
      exact fun h => hk (h ▸ ha)⟩

theorem mem_append_new {keys : List κ} {k k' : κ} : k' ∈ (if k ∈ keys then keys else keys ++ [k]) ↔
    k' = k ∨ k' ∈ keys := by
  by_cases hk : k ∈ keys
  · rw [if_pos hk]
    exact ⟨.inr, fun h => h.elim (fun heq => heq ▸ hk) id⟩
  · rw [if_neg hk, List.mem_append, List.mem_singleton, or_comm]

/-- A dictionary with each of its keys once, and none but some. -/
structure Dict.Within (seen : List κ) (d : Dict κ ν) : Prop where
  nodup : d.keys.Nodup
  seen : ∀ k ∈ d.keys, k ∈ seen

section Within

variable {seen : List κ} {d : Dict κ ν} (h : d.Within seen)

include h

omit [DecidableEq κ] in
theorem Dict.Within.mono {seen' : List κ} (hseen : ∀ k ∈ seen, k ∈ seen') : d.Within seen' :=
  ⟨h.nodup, fun k hk => hseen k (h.seen k hk)⟩

theorem Dict.Within.of_keys {d' : Dict κ ν} {k : κ} (hk : k ∈ seen)
    (hkeys : d'.keys = if k ∈ d.keys then d.keys else d.keys ++ [k]) : d'.Within seen := by
  constructor
  · rw [hkeys]
    exact nodup_append_new h.nodup k
  · intro k' hk'
    rw [hkeys] at hk'
    exact (mem_append_new.mp hk').elim (fun heq => heq ▸ hk) (h.seen k')

theorem Dict.Within.setdefault {k : κ} (hk : k ∈ seen) (v : ν) : (d.setdefault k v).Within seen :=
  h.of_keys hk (keys_setdefault d k v)

theorem Dict.Within.put {k : κ} (hk : k ∈ seen) (v : ν) : (d.put k v).Within seen :=
  h.of_keys hk (keys_put d k v)

theorem Dict.Within.pop (k : κ) : (d.pop k).Within seen := by
  constructor
  · rw [keys_pop]
    exact h.nodup.filter _
  · intro k' hk'
    rw [keys_pop] at hk'
    exact h.seen k' (List.mem_of_mem_filter hk')

theorem Dict.Within.moveToEnd (k : κ) : (d.moveToEnd k).Within seen := by
  have hperm := keys_moveToEnd_perm d k
  exact ⟨hperm.nodup_iff.mpr h.nodup, fun k' hk' => h.seen k' (hperm.mem_iff.mp hk')⟩

/-- Nothing is forgotten while no more keys than fit have come in. -/
theorem Dict.Within.trim_eq {limit : ℕ} (hlimit : seen.dedup.length ≤ limit) : d.trim limit = d := by
  have hlength : d.keys.length ≤ seen.dedup.length :=
    (h.nodup.subperm fun k hk => List.mem_dedup.mpr (h.seen k hk)).length_le
  have hsame : d.keys.length = d.length := List.length_map ..
  unfold Dict.trim
  rw [Nat.sub_eq_zero_of_le (by omega), List.drop_zero]

end Within

/-! ### Forgetting -/

omit [DecidableEq κ] in
theorem keys_trim (limit : ℕ) (d : Dict κ ν) : (d.trim limit).keys = d.keys.drop (d.keys.length - limit) := by
  unfold Dict.trim Dict.keys
  rw [List.map_drop, List.length_map]

omit [DecidableEq κ] in
theorem Dict.Within.trim {seen : List κ} {d : Dict κ ν} (h : d.Within seen) (limit : ℕ) :
    (d.trim limit).Within seen := by
  constructor
  · rw [keys_trim]
    exact h.nodup.sublist (List.drop_sublist _ _)
  · intro k hk
    rw [keys_trim] at hk
    exact h.seen k (List.mem_of_mem_drop hk)

/-- A key that is not forgotten holds what it held. -/
theorem at_trim {d : Dict κ ν} (hkeys : d.keys.Nodup) (limit : ℕ) (k : κ) (v : ν) :
    (d.trim limit).at k v = if k ∈ (d.trim limit).keys then d.at k v else v := by
  by_cases hk : k ∈ (d.trim limit).keys
  · rw [if_pos hk]
    obtain ⟨u, hu⟩ := exists_lookup hk
    have hlookup : d.lookup k = some u := (lookup_eq_some hkeys).mpr (List.mem_of_mem_drop (mem_of_lookup hu))
    rw [Dict.at, Dict.at, hu, hlookup]
  · rw [if_neg hk, Dict.at, lookup_eq_none hk]
    rfl

omit [DecidableEq κ] in
/-- Of the keys at the end, the last ones are kept. -/
theorem mem_keys_trim {d : Dict κ ν} (hkeys : d.keys.Nodup) {front last : List κ} (hsplit : d.keys = front ++ last)
    (limit : ℕ) {k : κ} (hk : k ∈ last) : k ∈ (d.trim limit).keys ↔ k ∈ last.drop (last.length - limit) := by
  rw [hsplit] at hkeys
  have hnot : k ∉ front := fun hfront => (List.nodup_append.mp hkeys).2.2 k hfront k hk rfl
  rw [keys_trim, hsplit, List.length_append, List.drop_append, List.mem_append]
  have hfront : k ∉ front.drop (front.length + last.length - limit) := fun hmem => hnot (List.mem_of_mem_drop hmem)
  have hlength : front.length + last.length - limit - front.length = last.length - limit := by omega
  rw [hlength]
  exact or_iff_right hfront

end Grouping
