import Mathlib.Algebra.BigOperators.Group.List.Basic
import Mathlib.Data.Finset.Card
import Mathlib.Data.List.MinMax
import Mathlib.Data.List.Sort
import Mathlib.Tactic.Ring

/-! Rows by key: dictionaries filled row by row, joined and grouped rows, and orders in which no two rows
tie. What is asked of the rows does not depend on the order they come in. -/

namespace Grouping

variable {α β γ κ ν : Type}

/-! ### Dictionaries -/

/-- A dictionary, whose keys stay in the order they came in. -/
abbrev Dict (κ ν : Type) := List (κ × ν)

def Dict.keys (d : Dict κ ν) : List κ := d.map Prod.fst

section Dict

variable [DecidableEq κ]

/-- The value of a key, or `default`. -/
def Dict.at (d : Dict κ ν) (k : κ) (default : ν) : ν := (d.lookup k).getD default

/-- Change the value of a key, which is `default` where it has none yet. -/
def Dict.change (d : Dict κ ν) (k : κ) (default : ν) (f : ν → ν) : Dict κ ν :=
  match d with
  | [] => [(k, f default)]
  | e :: rest => if k = e.1 then (k, f e.2) :: rest else e :: change rest k default f

def tally (key : α → κ) (default : ν) (step : ν → α → ν) (rows : List α) : Dict κ ν :=
  rows.foldl (fun d row => d.change (key row) default fun v => step v row) []

theorem lookup_entry (e : κ × ν) (d : Dict κ ν) (k : κ) :
    List.lookup k (e :: d) = if k = e.1 then some e.2 else d.lookup k := by
  rw [List.lookup_cons]
  by_cases h : k = e.1
  · simp [h]
  · rw [beq_eq_false_iff_ne.mpr h, if_neg h]

theorem lookup_change (d : Dict κ ν) (k k' : κ) (default : ν) (f : ν → ν) :
    (d.change k default f).lookup k' = if k' = k then some (f (d.at k default)) else d.lookup k' := by
  unfold Dict.at
  induction d with
  | nil => exact lookup_entry (k, f default) [] k'
  | cons e rest ih =>
      unfold Dict.change
      by_cases hk : k = e.1
      · subst hk
        rw [if_pos rfl, lookup_entry, lookup_entry e rest e.1, if_pos rfl, lookup_entry e rest k']
        by_cases h : k' = e.1
        · simp [h]
        · simp [h]
      · rw [if_neg hk, lookup_entry, lookup_entry e rest k, if_neg hk, lookup_entry e rest k', ih]
        by_cases h : k' = e.1
        · subst h
          simp [Ne.symm hk]
        · simp [h]

theorem keys_change (d : Dict κ ν) (k : κ) (default : ν) (f : ν → ν) :
    (d.change k default f).keys = if k ∈ d.keys then d.keys else d.keys ++ [k] := by
  induction d with
  | nil => rfl
  | cons e rest ih =>
      unfold Dict.change
      by_cases hk : k = e.1
      · subst hk
        simp [Dict.keys]
      · have hkeys : ∀ l : Dict κ ν, Dict.keys (e :: l) = e.1 :: l.keys := fun _ => rfl
        rw [if_neg hk, hkeys, hkeys, ih]
        by_cases hmem : k ∈ Dict.keys rest
        · simp [hmem]
        · simp [hmem, hk]

theorem change_new {d : Dict κ ν} {k : κ} {default : ν} {f : ν → ν} (hk : k ∉ d.keys) :
    d.change k default f = d ++ [(k, f default)] := by
  induction d with
  | nil => rfl
  | cons e rest ih =>
      obtain ⟨hne, hrest⟩ := not_or.mp (List.mem_cons.not.mp hk)
      unfold Dict.change
      rw [if_neg hne, ih hrest]
      rfl

theorem nodup_keys_tally (key : α → κ) (default : ν) (step : ν → α → ν) (rows : List α) :
    (tally key default step rows).keys.Nodup := by
  induction rows using List.reverseRecOn with
  | nil => exact List.nodup_nil
  | append_singleton rows row ih =>
      have hsnoc : tally key default step (rows ++ [row]) =
          (tally key default step rows).change (key row) default fun v => step v row := by
        simp [tally]
      rw [hsnoc, keys_change]
      split_ifs with hmem
      · exact ih
      · exact List.nodup_append.mpr ⟨ih, List.nodup_singleton _, fun k hk k' hk' => by
          obtain rfl := List.mem_singleton.mp hk'
          rintro rfl
          exact hmem hk⟩

theorem mem_keys_tally {key : α → κ} {default : ν} {step : ν → α → ν} {rows : List α} {k : κ} :
    k ∈ (tally key default step rows).keys ↔ k ∈ rows.map key := by
  induction rows using List.reverseRecOn with
  | nil => rfl
  | append_singleton rows row ih =>
      have hsnoc : tally key default step (rows ++ [row]) =
          (tally key default step rows).change (key row) default fun v => step v row := by
        simp [tally]
      rw [hsnoc, keys_change, List.map_append, List.mem_append, ← ih]
      split_ifs with hmem
      · refine ⟨Or.inl, fun h => h.elim id fun hk => ?_⟩
        obtain rfl := List.mem_singleton.mp hk
        exact hmem
      · exact List.mem_append

/-- The value of a key is what its own rows make of it, in their order. -/
theorem at_tally (key : α → κ) (default : ν) (step : ν → α → ν) (rows : List α) (k : κ) :
    (tally key default step rows).at k default = (rows.filter fun row => key row = k).foldl step default := by
  induction rows using List.reverseRecOn with
  | nil => rfl
  | append_singleton rows row ih =>
      have hsnoc : tally key default step (rows ++ [row]) =
          (tally key default step rows).change (key row) default fun v => step v row := by
        simp [tally]
      rw [hsnoc, Dict.at, lookup_change, List.filter_append, List.foldl_append, ← ih]
      by_cases hk : k = key row
      · subst hk
        simp
      · have hnot : key row ≠ k := fun h => hk h.symm
        simp [hk, hnot, Dict.at]

/-- In a dictionary with no key twice, what is found is what is there. -/
theorem lookup_eq_some {d : Dict κ ν} (hkeys : d.keys.Nodup) {k : κ} {v : ν} : d.lookup k = some v ↔
    (k, v) ∈ d := by
  induction d with
  | nil => simp
  | cons e rest ih =>
      obtain ⟨hnot, hrest⟩ := List.nodup_cons.mp hkeys
      rw [lookup_entry, List.mem_cons]
      by_cases hk : k = e.1
      · subst hk
        have hother : (e.1, v) ∉ rest := fun hmem => hnot (List.mem_map.mpr ⟨_, hmem, rfl⟩)
        simp [hother, Prod.ext_iff, eq_comm]
      · have hne : (k, v) ≠ e := fun h => hk (congrArg Prod.fst h)
        simp [hk, hne, ih hrest]

theorem exists_lookup {d : Dict κ ν} {k : κ} (hk : k ∈ d.keys) : ∃ v, d.lookup k = some v := by
  induction d with
  | nil => cases hk
  | cons e rest ih =>
      rw [lookup_entry]
      by_cases heq : k = e.1
      · exact ⟨e.2, if_pos heq⟩
      · rw [if_neg heq]
        exact ih ((List.mem_cons.mp hk).resolve_left heq)

theorem mem_of_lookup {d : Dict κ ν} {k : κ} {v : ν} (h : d.lookup k = some v) : (k, v) ∈ d := by
  induction d with
  | nil => cases h
  | cons e rest ih =>
      rw [lookup_entry] at h
      by_cases heq : k = e.1
      · rw [if_pos heq] at h
        obtain rfl := Option.some.inj h
        exact heq ▸ List.mem_cons_self
      · rw [if_neg heq] at h
        exact List.mem_cons_of_mem e (ih h)

theorem lookup_eq_none {d : Dict κ ν} {k : κ} (hk : k ∉ d.keys) : d.lookup k = none := by
  rw [Option.eq_none_iff_forall_ne_some]
  exact fun v hv => hk (List.mem_map.mpr ⟨(k, v), mem_of_lookup hv, rfl⟩)

theorem lookup_perm {d d' : Dict κ ν} (hkeys : d.keys.Nodup) (h : d.Perm d') (k : κ) :
    d.lookup k = d'.lookup k := by
  have hkeys' : Dict.keys d' |>.Nodup := (h.map Prod.fst).nodup hkeys
  ext v
  rw [lookup_eq_some hkeys, lookup_eq_some hkeys', h.mem_iff]

theorem lookup_isSome {d : Dict κ ν} {k : κ} : (d.lookup k).isSome = true ↔ k ∈ d.keys := by
  by_cases hk : k ∈ d.keys
  · obtain ⟨v, hv⟩ := exists_lookup hk
    rw [hv]
    exact iff_of_true rfl hk
  · rw [lookup_eq_none hk]
    exact iff_of_false Bool.false_ne_true hk

/-- What is made of some of the entries is found under their keys. -/
theorem lookup_filterMap {d : Dict κ ν} (hkeys : d.keys.Nodup) (f : κ → ν → Option β) (k : κ) :
    List.lookup k (d.filterMap fun e => (f e.1 e.2).map fun v => (e.1, v)) = (d.lookup k).bind (f k) := by
  induction d with
  | nil => rfl
  | cons e d ih =>
      obtain ⟨hnot, hkeys⟩ := List.nodup_cons.mp hkeys
      rw [lookup_entry]
      by_cases hk : k = e.1
      · subst hk
        rw [if_pos rfl]
        cases hf : f e.1 e.2 with
        | none =>
            rw [List.filterMap_cons_none (by rw [hf]; rfl), ih hkeys, lookup_eq_none hnot]
            exact hf.symm
        | some v =>
            rw [List.filterMap_cons_some (b := (e.1, v)) (by rw [hf]; rfl), lookup_entry, if_pos rfl]
            exact hf.symm
      · rw [if_neg hk, ← ih hkeys]
        cases hf : f e.1 e.2 with
        | none => rw [List.filterMap_cons_none (by rw [hf]; rfl)]
        | some v => rw [List.filterMap_cons_some (b := (e.1, v)) (by rw [hf]; rfl), lookup_entry, if_neg hk]

theorem lookup_rows (key : α → κ) (f : α → ν) (rows : List α) (k : κ) :
    List.lookup k (rows.map fun row => (key row, f row)) = (rows.find? fun row => key row = k).map f := by
  induction rows with
  | nil => rfl
  | cons row rows ih =>
      rw [List.map_cons, lookup_entry, ih, List.find?_cons]
      by_cases hk : key row = k
      · simp [hk]
      · simp [hk, Ne.symm hk]

end Dict

/-! ### Totals -/

theorem foldl_insert [DecidableEq ν] (f : α → ν) (rows : List α) (s : Finset ν) :
    rows.foldl (fun ids row => insert (f row) ids) s = s ∪ (rows.map f).toFinset := by
  induction rows generalizing s with
  | nil => simp
  | cons row rows ih =>
      rw [List.foldl_cons, ih, List.map_cons, List.toFinset_cons]
      ext x
      simp only [Finset.mem_union, Finset.mem_insert]
      tauto

theorem foldl_add (f : α → ℤ) (rows : List α) (n : ℤ) :
    rows.foldl (fun total row => total + f row) n = n + (rows.map f).sum := by
  induction rows generalizing n with
  | nil => simp
  | cons row rows ih =>
      rw [List.foldl_cons, ih, List.map_cons, List.sum_cons]
      ring

theorem foldl_append_map (f : α → β) (rows : List α) (acc : List β) :
    rows.foldl (fun acc row => acc ++ [f row]) acc = acc ++ rows.map f := by
  induction rows generalizing acc with
  | nil => exact (List.append_nil acc).symm
  | cons row rows ih => rw [List.foldl_cons, ih, List.append_assoc, List.singleton_append, List.map_cons]

theorem foldl_succ (rows : List α) (n : ℕ) : rows.foldl (fun count _ => count + 1) n = n + rows.length := by
  induction rows generalizing n with
  | nil => rfl
  | cons row rows ih =>
      rw [List.foldl_cons, ih, List.length_cons]
      ring

/-- Two loops in one. -/
theorem foldl_both (f : ν → α → ν) (g : β → α → β) (rows : List α) (s : ν × β) :
    rows.foldl (fun s row => (f s.1 row, g s.2 row)) s = (rows.foldl f s.1, rows.foldl g s.2) := by
  induction rows generalizing s with
  | nil => rfl
  | cons row rows ih => exact ih _

/-- What succeeds on every row succeeds on all of them. -/
theorem mapM_ok {f : α → Except κ β} {g : α → β} {rows : List α} (h : ∀ row ∈ rows, f row = .ok (g row)) :
    rows.mapM f = .ok (rows.map g) := by
  induction rows with
  | nil => rfl
  | cons row rows ih =>
      rw [List.mapM_cons, h row List.mem_cons_self, ih fun row' hrow' => h row' (List.mem_cons_of_mem row hrow')]
      rfl

/-- A loop none of whose rounds fails. -/
theorem foldlM_ok {f : ν → α → Except κ ν} {g : ν → α → ν} {rows : List α}
    (h : ∀ row ∈ rows, ∀ s, f s row = .ok (g s row)) (s : ν) : rows.foldlM f s = .ok (rows.foldl g s) := by
  induction rows generalizing s with
  | nil => rfl
  | cons row rows ih =>
      rw [List.foldlM_cons, h row List.mem_cons_self]
      exact ih (fun row' hrow' => h row' (List.mem_cons_of_mem row hrow')) _

theorem exists_foldlM {f : ν → α → Except κ ν} {rows : List α}
    (h : ∀ row ∈ rows, ∀ s, ∃ s', f s row = .ok s') (s : ν) :
    ∃ s', rows.foldlM f s = .ok s' := by
  induction rows generalizing s with
  | nil => exact ⟨s, rfl⟩
  | cons row rows ih =>
      obtain ⟨s', hs'⟩ := h row List.mem_cons_self s
      obtain ⟨s'', hs''⟩ := ih (fun row' hrow' => h row' (List.mem_cons_of_mem row hrow')) s'
      refine ⟨s'', ?_⟩
      rw [List.foldlM_cons, hs']
      exact hs''

theorem exists_mapM {f : α → Except κ β} {rows : List α} (h : ∀ row ∈ rows, ∃ b, f row = .ok b) :
    ∃ bs, rows.mapM f = .ok bs ∧ bs.length = rows.length := by
  induction rows with
  | nil => exact ⟨[], rfl, rfl⟩
  | cons row rows ih =>
      obtain ⟨b, hb⟩ := h row List.mem_cons_self
      obtain ⟨bs, hbs, hlength⟩ := ih fun row' hrow' => h row' (List.mem_cons_of_mem row hrow')
      refine ⟨b :: bs, ?_, congrArg Nat.succ hlength⟩
      rw [List.mapM_cons, hb, hbs]
      rfl

/-- Where a row raises, and no row raises anything else, a run over the rows raises it. -/
theorem mapM_error {f : α → Except κ β} {e : κ} {rows : List α}
    (hrows : ∀ row ∈ rows, (∃ b, f row = .ok b) ∨ f row = .error e) (hraised : ∃ row ∈ rows, f row = .error e) :
    rows.mapM f = .error e := by
  induction rows with
  | nil => exact absurd hraised (by simp)
  | cons row rows ih =>
      rw [List.mapM_cons]
      obtain ⟨b, hok⟩ | hrow := hrows row List.mem_cons_self
      · obtain ⟨other, hother, hraise⟩ := hraised
        obtain rfl | hother := List.mem_cons.mp hother
        · cases hok.symm.trans hraise
        · rw [hok, ih (fun row' hrow' => hrows row' (List.mem_cons_of_mem _ hrow')) ⟨other, hother, hraise⟩]
          rfl
      · rw [hrow]
        rfl

theorem exists_of_mapM_error {f : α → Except κ β} {e : κ} {rows : List α} (h : rows.mapM f = .error e) :
    ∃ row ∈ rows, f row = .error e := by
  induction rows with
  | nil => cases h
  | cons row rows ih =>
      rw [List.mapM_cons] at h
      cases hrow : f row with
      | error raised =>
          rw [hrow] at h
          obtain rfl := Except.error.inj h
          exact ⟨row, List.mem_cons_self, hrow⟩
      | ok b =>
          cases hrest : rows.mapM f with
          | error raised =>
              rw [hrow, hrest] at h
              obtain rfl := Except.error.inj h
              obtain ⟨other, hother, hraised⟩ := ih hrest
              exact ⟨other, List.mem_cons_of_mem _ hother, hraised⟩
          | ok bs =>
              rw [hrow, hrest] at h
              cases h

/-- What succeeds on every row, with a result that leads back to it, does so on all of them. -/
theorem mapM_fits {f : α → Except κ β} {back : β → α} {P : β → Prop} {rows : List α}
    (h : ∀ row ∈ rows, ∃ b, f row = .ok b ∧ back b = row ∧ P b) :
    ∃ bs, rows.mapM f = .ok bs ∧ bs.map back = rows ∧ ∀ b ∈ bs, P b := by
  induction rows with
  | nil => exact ⟨[], rfl, rfl, fun _ hb => absurd hb List.not_mem_nil⟩
  | cons row rows ih =>
      obtain ⟨b, hb, rfl, hfits⟩ := h row List.mem_cons_self
      obtain ⟨bs, hbs, rfl, hall⟩ := ih fun row' hrow' => h row' (List.mem_cons_of_mem _ hrow')
      refine ⟨b :: bs, ?_, rfl, List.forall_mem_cons.mpr ⟨hfits, hall⟩⟩
      rw [List.mapM_cons, hb, hbs]
      rfl

theorem sum_indicator [DecidableEq κ] [AddCommMonoid ν] {keys : List κ} (hkeys : keys.Nodup) {x : κ}
    (hx : x ∈ keys)
    {v : ν} : (keys.map fun k => if x = k then v else 0).sum = v := by
  induction keys with
  | nil => cases hx
  | cons k keys ih =>
      obtain ⟨hnot, hkeys⟩ := List.nodup_cons.mp hkeys
      rw [List.map_cons, List.sum_cons]
      by_cases hk : x = k
      · subst hk
        have hrest : (keys.map fun k => if x = k then v else 0).sum = 0 := by
          refine List.sum_eq_zero fun n hn => ?_
          obtain ⟨k, hmem, rfl⟩ := List.mem_map.mp hn
          rw [if_neg fun h : x = k => hnot (h ▸ hmem)]
        rw [if_pos rfl, hrest, add_zero]
      · rw [if_neg hk, ih hkeys ((List.mem_cons.mp hx).resolve_left hk), zero_add]

/-- Rows that each fall under one of some keys, added up key by key. -/
theorem sum_by_key [DecidableEq κ] [AddCommMonoid ν] {key : α → κ} {keys : List κ} (hkeys : keys.Nodup)
    {rows : List α}
    (h : ∀ row ∈ rows, key row ∈ keys) (f : α → ν) :
    (keys.map fun k => ((rows.filter fun row => key row = k).map f).sum).sum = (rows.map f).sum := by
  induction rows with
  | nil => simp
  | cons row rows ih =>
      have hone : (keys.map fun k => if key row = k then f row else 0).sum = f row :=
        sum_indicator hkeys (h row List.mem_cons_self)
      have hcons : ∀ k, (((row :: rows).filter fun row => key row = k).map f).sum =
          (if key row = k then f row else 0) + ((rows.filter fun row => key row = k).map f).sum := by
        intro k
        by_cases hk : key row = k
        · simp [hk]
        · simp [hk]
      simp only [hcons]
      rw [List.sum_map_add, hone, ih fun row' hrow' => h row' (List.mem_cons_of_mem row hrow'), List.map_cons,
        List.sum_cons]

/-- Rows that each fall under one of some keys, put together key by key. -/
theorem flatMap_filter_perm [DecidableEq κ] {key : α → κ} {keys : List κ} (hkeys : keys.Nodup) {rows : List α}
    (h : ∀ row ∈ rows, key row ∈ keys) : (keys.flatMap fun k => rows.filter fun row => key row = k).Perm rows := by
  induction keys generalizing rows with
  | nil =>
      have hnone : rows = [] := List.eq_nil_iff_forall_not_mem.mpr fun row hrow => List.not_mem_nil (h row hrow)
      rw [hnone]
      rfl
  | cons k keys ih =>
      obtain ⟨hnot, hkeys⟩ := List.nodup_cons.mp hkeys
      have hother : ∀ row ∈ rows.filter fun row => !decide (key row = k), key row ∈ keys := fun row hrow => by
        obtain ⟨hmem, hne⟩ := List.mem_filter.mp hrow
        exact (List.mem_cons.mp (h row hmem)).resolve_left (by simpa using hne)
      have hrest : (keys.flatMap fun k' => (rows.filter fun row => !decide (key row = k)).filter fun row => key row = k') =
          keys.flatMap fun k' => rows.filter fun row => key row = k' := by
        refine List.flatMap_congr fun k' hk' => ?_
        rw [List.filter_filter]
        refine List.filter_congr fun row _ => ?_
        by_cases hrow : key row = k'
        · have hne : k' ≠ k := fun heq => hnot (heq ▸ hk')
          simp [hrow, hne]
        · simp [hrow]
      rw [List.flatMap_cons, ← hrest]
      exact ((ih hkeys hother).append_left _).trans (List.filter_append_perm _ rows)

/-- Rows that each fall under one of some keys, counted key by key. -/
theorem sum_filter_key [DecidableEq κ] {key : α → κ} {keys : List κ} (hkeys : keys.Nodup) {rows : List α}
    (h : ∀ row ∈ rows, key row ∈ keys) :
    (keys.map fun k => (rows.filter fun row => key row = k).length).sum = rows.length := by
  have hsum := sum_by_key hkeys h fun _ => 1
  simpa using hsum

/-! ### Tables of two keys -/

section Tables

variable [DecidableEq κ]

/-- `d[k]`, which has to be there. -/
def Dict.item (d : Dict κ ν) (k : κ) : Except κ ν :=
  match d.lookup k with
  | some v => return v
  | none => throw k

/-- `d[k] = v`. -/
def Dict.put (d : Dict κ ν) (k : κ) (v : ν) : Dict κ ν := d.change k v fun _ => v

/-- `{k: f(k) for k in keys}`. -/
def Dict.of (keys : List κ) (f : κ → ν) : Dict κ ν := keys.foldl (fun d k => d.put k (f k)) []

def grid (rows columns : List κ) (g : κ → κ → ν) : Dict κ (Dict κ ν) := .of rows fun row => .of columns (g row)

/-- `table[row][column] = f(table[row][column])`. -/
def adjust (table : Dict κ (Dict κ ν)) (row column : κ) (f : ν → ν) : Except κ (Dict κ (Dict κ ν)) := do
  let columns ← table.item row
  let value ← columns.item column
  return table.put row (columns.put column (f value))

variable {keys : List κ} {k : κ}

theorem of_distinct (hkeys : keys.Nodup) (f : κ → ν) : Dict.of keys f = keys.map fun k => (k, f k) := by
  unfold Dict.of
  induction keys using List.reverseRecOn with
  | nil => rfl
  | append_singleton keys k ih =>
      obtain ⟨hkeys, -, hnew⟩ := List.nodup_append.mp hkeys
      rw [List.foldl_append, ih hkeys, List.map_append]
      exact change_new fun hmem => hnew k (by simpa [Dict.keys] using hmem) k (List.mem_singleton_self k) rfl

theorem lookup_of (hkeys : keys.Nodup) (hk : k ∈ keys) (f : κ → ν) : (Dict.of keys f).lookup k = some (f k) := by
  have hdistinct : Dict.keys (keys.map fun k => (k, f k)) |>.Nodup := by
    unfold Dict.keys
    rw [List.map_map]
    exact hkeys.map fun _ _ h => h
  rw [of_distinct hkeys, lookup_eq_some hdistinct]
  exact List.mem_map_of_mem hk

theorem at_of (hkeys : keys.Nodup) (hk : k ∈ keys) (f : κ → ν) (default : ν) :
    (Dict.of keys f).at k default = f k := by
  unfold Dict.at
  rw [lookup_of hkeys hk]
  rfl

theorem item_of (hkeys : keys.Nodup) (hk : k ∈ keys) (f : κ → ν) : (Dict.of keys f).item k = .ok (f k) := by
  unfold Dict.item
  rw [lookup_of hkeys hk]
  rfl

theorem values_of (hkeys : keys.Nodup) (f : κ → ν) : (Dict.of keys f).map Prod.snd = keys.map f := by
  rw [of_distinct hkeys, List.map_map]
  rfl

theorem put_of (hkeys : keys.Nodup) (hk : k ∈ keys) (f : κ → ν) (v : ν) :
    (Dict.of keys f).put k v = .of keys (Function.update f k v) := by
  rw [of_distinct hkeys, of_distinct hkeys]
  unfold Dict.put
  induction keys with
  | nil => cases hk
  | cons k' keys ih =>
      obtain ⟨hnot, hkeys⟩ := List.nodup_cons.mp hkeys
      rw [List.map_cons, List.map_cons]
      unfold Dict.change
      by_cases heq : k = k'
      · subst heq
        have hrest : ∀ k' ∈ keys, (k', f k') = (k', Function.update f k v k') := by
          intro k' hk'
          have hne : k' ≠ k := fun h => hnot (h ▸ hk')
          rw [Function.update_of_ne hne]
        rw [if_pos rfl, Function.update_self, List.map_congr_left hrest]
      · rw [if_neg heq, Function.update_of_ne (Ne.symm heq), ih hkeys ((List.mem_cons.mp hk).resolve_left heq)]

theorem lookup_put (d : Dict κ ν) (k k' : κ) (v : ν) :
    (d.put k v).lookup k' = if k' = k then some v else d.lookup k' :=
  lookup_change d k k' v fun _ => v

theorem mem_put {d : Dict κ ν} {k : κ} {v : ν} {e : κ × ν} (h : e ∈ d.put k v) :
    e ∈ d ∨ e = (k, v) := by
  induction d with
  | nil => exact .inr (List.mem_singleton.mp h)
  | cons entry rest ih =>
      unfold Dict.put Dict.change at h
      split_ifs at h with hk
      · exact (List.mem_cons.mp h).symm.imp_left (List.mem_cons_of_mem _)
      · obtain rfl | h := List.mem_cons.mp h
        · exact .inl List.mem_cons_self
        · exact (ih h).imp_left (List.mem_cons_of_mem _)

theorem mem_foldl_put {key : α → κ} {value : α → ν} {rows : List α} {d : Dict κ ν}
    {e : κ × ν} (h : e ∈ rows.foldl (fun d row => d.put (key row) (value row)) d) :
    e ∈ d ∨ ∃ row ∈ rows, e = (key row, value row) := by
  induction rows generalizing d with
  | nil => exact .inl h
  | cons row rows ih =>
      obtain h | ⟨row', hrow', rfl⟩ := ih h
      · exact (mem_put h).imp_right fun heq => ⟨row, List.mem_cons_self, heq⟩
      · exact .inr ⟨row', List.mem_cons_of_mem _ hrow', rfl⟩

theorem mem_keys_foldl_put {key : α → κ} {value : α → ν} {rows : List α} {d : Dict κ ν} {k : κ}
    (h : k ∈ d.keys ∨ ∃ row ∈ rows, key row = k) :
    k ∈ (rows.foldl (fun d row => d.put (key row) (value row)) d).keys := by
  induction rows generalizing d with
  | nil => exact h.elim id fun hrow => by simp at hrow
  | cons row rows ih =>
      refine ih ?_
      have hput : k ∈ d.keys ∨ key row = k → k ∈ (d.put (key row) (value row)).keys := fun hk => by
        unfold Dict.put
        rw [keys_change]
        split_ifs with hmem
        · exact hk.elim id fun heq => heq ▸ hmem
        · exact List.mem_append.mpr (hk.imp_right fun heq => List.mem_singleton.mpr heq.symm)
      obtain hk | ⟨row', hrow', rfl⟩ := h
      · exact .inl (hput (.inl hk))
      · obtain rfl | hrest := List.mem_cons.mp hrow'
        · exact .inl (hput (.inr rfl))
        · exact .inr ⟨row', hrest, rfl⟩

/-- Some keys put to one value. -/
theorem lookup_foldl_put (keys : List κ) (v : ν) (d : Dict κ ν) (k : κ) :
    (keys.foldl (fun d k => d.put k v) d).lookup k = if k ∈ keys then some v else d.lookup k := by
  induction keys generalizing d with
  | nil => rfl
  | cons k' keys ih =>
      rw [List.foldl_cons, ih, lookup_put]
      by_cases hmem : k ∈ keys
      · rw [if_pos hmem, if_pos (List.mem_cons_of_mem k' hmem)]
      · by_cases heq : k = k'
        · rw [if_neg hmem, if_pos heq, if_pos (heq ▸ List.mem_cons_self)]
        · have hnot : k ∉ k' :: keys := List.mem_cons.not.mpr (not_or.mpr ⟨heq, hmem⟩)
          rw [if_neg hmem, if_neg heq, if_neg hnot]

/-- Rows under keys of their own, each put to its own value. -/
theorem lookup_filled {rows : List α} {key : α → κ} (hkeys : (rows.map key).Nodup) (f : α → ν)
    (d : Dict κ ν) {row : α}
    (hrow : row ∈ rows) : (rows.foldl (fun d row => d.put (key row) (f row)) d).lookup (key row) = some (f row) := by
  induction rows using List.reverseRecOn with
  | nil => cases hrow
  | append_singleton rows last ih =>
      rw [List.map_append] at hkeys
      obtain ⟨hkeys, -, hnew⟩ := List.nodup_append.mp hkeys
      rw [List.foldl_append, List.foldl_cons, List.foldl_nil, lookup_put]
      obtain hrow | hlast := List.mem_append.mp hrow
      · have hne : key row ≠ key last := hnew _ (List.mem_map_of_mem hrow) _ (List.mem_singleton_self _)
        rw [if_neg hne]
        exact ih hkeys hrow
      · obtain rfl := List.mem_singleton.mp hlast
        rw [if_pos rfl]

theorem lookup_filled_other {rows : List α} {key : α → κ} (f : α → ν) (d : Dict κ ν) {k : κ}
    (hk : k ∉ rows.map key) :
    (rows.foldl (fun d row => d.put (key row) (f row)) d).lookup k = d.lookup k := by
  induction rows generalizing d with
  | nil => rfl
  | cons row rows ih =>
      obtain ⟨hne, hk⟩ := not_or.mp (List.mem_cons.not.mp hk)
      rw [List.foldl_cons, ih _ hk, lookup_put, if_neg hne]

variable {rows columns : List κ} {row column : κ}

/-- A table of values with one cell changed. -/
theorem update_update (g : κ → κ → ν) (row column : κ) (v : ν) (r c : κ) :
    Function.update g row (Function.update (g row) column v) r c = if (row, column) = (r, c) then v else g r c := by
  by_cases hr : r = row
  · subst hr
    rw [Function.update_self]
    by_cases hc : c = column
    · subst hc
      rw [Function.update_self, if_pos rfl]
    · rw [Function.update_of_ne hc, if_neg fun h => hc (congrArg Prod.snd h).symm]
  · rw [Function.update_of_ne hr, if_neg fun h => hr (congrArg Prod.fst h).symm]

theorem row_grid (hrows : rows.Nodup) (hrow : row ∈ rows) (g : κ → κ → ν) :
    (grid rows columns g).at row [] = .of columns (g row) :=
  at_of hrows hrow _ _

theorem at_grid (hrows : rows.Nodup) (hcolumns : columns.Nodup) (hrow : row ∈ rows) (hcolumn : column ∈ columns)
    (g : κ → κ → ν) (default : ν) : ((grid rows columns g).at row []).at column default = g row column := by
  rw [row_grid hrows hrow, at_of hcolumns hcolumn]

theorem adjust_grid (hrows : rows.Nodup) (hcolumns : columns.Nodup) (hrow : row ∈ rows)
    (hcolumn : column ∈ columns)
    (g : κ → κ → ν) (f : ν → ν) : adjust (grid rows columns g) row column f =
      .ok (grid rows columns (Function.update g row (Function.update (g row) column (f (g row column))))) := by
  have hupdate : (fun r => Dict.of columns (Function.update g row
      (Function.update (g row) column (f (g row column))) r)) =
      Function.update (fun r => Dict.of columns (g r)) row
        (Dict.of columns (Function.update (g row) column (f (g row column)))) := by
    funext r
    by_cases hr : r = row
    · subst hr
      rw [Function.update_self, Function.update_self]
    · rw [Function.update_of_ne hr, Function.update_of_ne hr]
  unfold adjust grid
  rw [item_of hrows hrow, hupdate, ← put_of hrows hrow, ← put_of hcolumns hcolumn]
  simp only [bind, Except.bind, item_of hcolumns hcolumn]
  rfl

end Tables

/-! ### Joined and grouped rows -/

/-- `JOIN ... ON`. -/
def join (xs : List α) (ys : List β) (on : α → β → Bool) : List (α × β) :=
  xs.flatMap fun x => (ys.filter (on x)).map (x, ·)

theorem mem_join {xs : List α} {ys : List β} {on : α → β → Bool} {row : α × β} :
    row ∈ join xs ys on ↔ row.1 ∈ xs ∧ row.2 ∈ ys ∧ on row.1 row.2 = true := by
  obtain ⟨x, y⟩ := row
  simp [join]

/-- What `LEFT JOIN ... ON` makes of one left row and the rows it meets. -/
def outer (x : α) (met : List β) : List (α × Option β) :=
  if met.isEmpty then [(x, none)] else met.map fun y => (x, some y)

/-- `LEFT JOIN ... ON`. -/
def leftJoin (xs : List α) (ys : List β) (on : α → β → Bool) : List (α × Option β) :=
  xs.flatMap fun x => outer x (ys.filter (on x))

theorem mem_outer_some {x x' : α} {y : β} {met : List β} : (x', some y) ∈ outer x met ↔ x' = x ∧ y ∈ met := by
  cases met with
  | nil => simp [outer]
  | cons y' met =>
      change (x', some y) ∈ (y' :: met).map (fun y => (x, some y)) ↔ _
      rw [List.mem_map]
      constructor
      · rintro ⟨z, hz, heq⟩
        cases heq
        exact ⟨rfl, hz⟩
      · rintro ⟨rfl, hy⟩
        exact ⟨y, hy, rfl⟩

theorem mem_outer_none {x x' : α} {met : List β} : (x', none) ∈ outer x met ↔ x' = x ∧ met = [] := by
  cases met with
  | nil => simp [outer]
  | cons y' met =>
      change (x', none) ∈ (y' :: met).map (fun y => (x, some y)) ↔ _
      simp

theorem length_filter_outer (x : α) (met : List β) (p : β → Bool) :
    ((outer x met).filter fun r => r.2.any p).length = (met.filter p).length := by
  cases met with
  | nil => rfl
  | cons y met =>
      change (((y :: met).map fun y => (x, some y)).filter fun r => r.2.any p).length = _
      rw [List.filter_map, List.length_map]
      rfl

theorem mem_leftJoin_some {xs : List α} {ys : List β} {on : α → β → Bool} {x : α} {y : β} :
    (x, some y) ∈ leftJoin xs ys on ↔ x ∈ xs ∧ y ∈ ys ∧ on x y = true := by
  unfold leftJoin
  simp only [List.mem_flatMap, mem_outer_some, List.mem_filter]
  exact ⟨fun ⟨_, hx, rfl, hy⟩ => ⟨hx, hy⟩, fun ⟨hx, hy⟩ => ⟨x, hx, rfl, hy⟩⟩

theorem mem_leftJoin_none {xs : List α} {ys : List β} {on : α → β → Bool} {x : α} :
    (x, none) ∈ leftJoin xs ys on ↔ x ∈ xs ∧ ∀ y ∈ ys, on x y = false := by
  unfold leftJoin
  simp only [List.mem_flatMap, mem_outer_none, List.filter_eq_nil_iff, Bool.not_eq_true]
  exact ⟨fun ⟨_, hx, rfl, hy⟩ => ⟨hx, hy⟩, fun ⟨hx, hy⟩ => ⟨x, hx, rfl, hy⟩⟩

section Keys

variable [DecidableEq κ]

theorem filter_key {ys : List β} {key : β → κ} (hkeys : (ys.map key).Nodup) {y : β} (hy : y ∈ ys) :
    ys.filter (fun y' => key y' = key y) = [y] := by
  induction ys with
  | nil => cases hy
  | cons y' ys ih =>
      obtain ⟨hnot, hrest⟩ := List.nodup_cons.mp hkeys
      rcases List.mem_cons.mp hy with rfl | hy
      · rw [List.filter_cons_of_pos (by simp)]
        congr 1
        refine List.filter_eq_nil_iff.mpr fun y' hy' => ?_
        simp only [decide_eq_true_eq]
        exact fun h => hnot (List.mem_map.mpr ⟨y', hy', h⟩)
      · have hne : ¬ key y' = key y := fun h => hnot (List.mem_map.mpr ⟨y, hy, h.symm⟩)
        rw [List.filter_cons_of_neg (by simpa using hne)]
        exact ih hrest hy

theorem find_key {ys : List β} {key : β → κ} (hkeys : (ys.map key).Nodup) {y : β} (hy : y ∈ ys) :
    ys.find? (fun y' => key y' = key y) = some y := by
  rw [← List.head?_filter, filter_key hkeys hy]
  rfl

theorem eq_of_key {ys : List β} {key : β → κ} (hkeys : (ys.map key).Nodup) {y y' : β} (hy : y ∈ ys) (hy' : y' ∈ ys)
    (h : key y' = key y) : y' = y := by
  have hmem : y' ∈ ys.filter fun z => key z = key y := List.mem_filter.mpr ⟨hy', by simpa using h⟩
  rw [filter_key hkeys hy] at hmem
  exact List.mem_singleton.mp hmem

/-- What is left of a dictionary of counts without its zeros still counts the same. -/
theorem at_positive {d : Dict κ ℕ} (hkeys : d.keys.Nodup) (k : κ) :
    (((d.filter fun e => 0 < e.2).find? fun e => e.1 = k).map Prod.snd).getD 0 = d.at k 0 := by
  have hfound : ((d.filter fun e => 0 < e.2).find? fun e => e.1 = k).map Prod.snd =
      (d.lookup k).filter fun n => 0 < n := by
    ext n
    simp only [Option.map_eq_some_iff, Option.filter_eq_some_iff, decide_eq_true_eq]
    constructor
    · rintro ⟨e, he, rfl⟩
      obtain ⟨hmem, hpos⟩ := List.mem_filter.mp (List.mem_of_find?_eq_some he)
      have hkey : e.1 = k := by simpa using List.find?_some he
      refine ⟨(lookup_eq_some hkeys).mpr ?_, of_decide_eq_true hpos⟩
      rw [← hkey]
      exact hmem
    · rintro ⟨hlookup, hpos⟩
      have hmem : (k, n) ∈ d.filter fun e => 0 < e.2 :=
        List.mem_filter.mpr ⟨(lookup_eq_some hkeys).mp hlookup, decide_eq_true hpos⟩
      exact ⟨_, find_key (List.Nodup.sublist (List.filter_sublist.map Prod.fst) hkeys) hmem, rfl⟩
  unfold Dict.at
  rw [hfound]
  cases d.lookup k with
  | none => rfl
  | some n => cases n <;> rfl

/-- Where every row refers to one row of the other table, a join only adds columns. -/
theorem map_fst_join {xs : List α} {ys : List β} {key : β → κ} {ref : α → κ} (hkeys : (ys.map key).Nodup)
    (hrefs : ∀ x ∈ xs, ref x ∈ ys.map key) : (join xs ys fun x y => key y = ref x).map Prod.fst = xs := by
  induction xs with
  | nil => rfl
  | cons x xs ih =>
      obtain ⟨y, hy, hkey⟩ := List.mem_map.mp (hrefs x List.mem_cons_self)
      have hrest := ih fun x' hx' => hrefs x' (List.mem_cons_of_mem _ hx')
      have hone : ys.filter (fun y' => key y' = ref x) = [y] := by
        rw [← hkey]
        exact filter_key hkeys hy
      unfold join at hrest ⊢
      rw [List.flatMap_cons, List.map_append, hrest, hone]
      rfl

/-- Where every row refers to one row of the other table, a join adds that row. -/
theorem join_column {xs : List α} {ys : List β} {key : β → κ} {ref : α → κ} {f : α → β}
    (hkeys : (ys.map key).Nodup) (hf : ∀ x ∈ xs, f x ∈ ys ∧ key (f x) = ref x) :
    join xs ys (fun x y => key y = ref x) = xs.map fun x => (x, f x) := by
  induction xs with
  | nil => rfl
  | cons x xs ih =>
      obtain ⟨hmem, hkey⟩ := hf x List.mem_cons_self
      have hone : ys.filter (fun y => key y = ref x) = [f x] := hkey ▸ filter_key hkeys hmem
      have hrest := ih fun x' hx' => hf x' (List.mem_cons_of_mem x hx')
      unfold join at hrest ⊢
      rw [List.flatMap_cons, hone, hrest]
      rfl

theorem filter_eq_find {ys : List β} {key : β → κ} (hkeys : (ys.map key).Nodup) (k : κ) :
    ys.filter (fun y => key y = k) = (ys.find? fun y => key y = k).toList := by
  cases hfind : ys.find? (fun y => key y = k) with
  | none =>
      change _ = []
      rw [← List.head?_eq_none_iff, List.head?_filter, hfind]
  | some y =>
      have hkey : key y = k := by simpa using List.find?_some hfind
      exact hkey ▸ filter_key hkeys (List.mem_of_find?_eq_some hfind)

/-- Where no key is repeated, a join adds to a row what is found for it, and drops a row for which nothing is. -/
theorem join_key {xs : List α} {ys : List β} {key : β → κ} {ref : α → κ} (hkeys : (ys.map key).Nodup) :
    join xs ys (fun x y => key y = ref x) =
      xs.filterMap fun x => (ys.find? fun y => key y = ref x).map fun y => (x, y) := by
  induction xs with
  | nil => rfl
  | cons x xs ih =>
      unfold join at ih ⊢
      rw [List.flatMap_cons, ih, filter_eq_find hkeys, List.filterMap_cons]
      cases ys.find? fun y => key y = ref x <;> rfl

/-- Where no key is repeated, a row meets what is found for it, or nothing. -/
theorem leftJoin_key {xs : List α} {ys : List β} {key : β → κ} {ref : α → κ} (hkeys : (ys.map key).Nodup) :
    leftJoin xs ys (fun x y => key y = ref x) = xs.map fun x => (x, ys.find? fun y => key y = ref x) := by
  induction xs with
  | nil => rfl
  | cons x xs ih =>
      unfold leftJoin at ih ⊢
      rw [List.flatMap_cons, ih, List.map_cons, filter_eq_find hkeys]
      cases ys.find? fun y => key y = ref x <;> rfl

/-- The rows of a left join that belong to one left row. -/
theorem filter_leftJoin_key {xs : List α} {ys : List β} {on : α → β → Bool} {key : α → κ}
    (hkeys : (xs.map key).Nodup)
    {x : α} (hx : x ∈ xs) : (leftJoin xs ys on).filter (fun row => key row.1 = key x) = outer x (ys.filter (on x)) := by
  have hown : ∀ x' row, row ∈ outer x' (ys.filter (on x')) → row.1 = x' := by
    rintro x' ⟨x'', _ | y⟩ hrow
    · exact (mem_outer_none.mp hrow).1
    · exact (mem_outer_some.mp hrow).1
  induction xs with
  | nil => cases hx
  | cons x' xs ih =>
      obtain ⟨hnot, hkeys⟩ := List.nodup_cons.mp hkeys
      unfold leftJoin at ih ⊢
      rw [List.flatMap_cons, List.filter_append]
      obtain rfl | hx := List.mem_cons.mp hx
      · have hself : (outer x (ys.filter (on x))).filter (fun row => key row.1 = key x) = outer x (ys.filter (on x)) :=
          List.filter_eq_self.mpr fun row hrow => by simp [hown x row hrow]
        have hrest : (xs.flatMap fun x => outer x (ys.filter (on x))).filter (fun row => key row.1 = key x) = [] := by
          refine List.filter_eq_nil_iff.mpr fun row hrow => ?_
          obtain ⟨x', hx', hrow⟩ := List.mem_flatMap.mp hrow
          rw [hown x' row hrow, decide_eq_true_eq]
          exact fun h => hnot (List.mem_map.mpr ⟨x', hx', h⟩)
        rw [hself, hrest, List.append_nil]
      · have hother : (outer x' (ys.filter (on x'))).filter (fun row => key row.1 = key x) = [] := by
          refine List.filter_eq_nil_iff.mpr fun row hrow => ?_
          rw [hown x' row hrow, decide_eq_true_eq]
          exact fun h => hnot (List.mem_map.mpr ⟨x, hx, h.symm⟩)
        rw [hother, List.nil_append]
        exact ih hkeys hx

end Keys

/-- Conditions on the left rows may be asked before the join. -/
theorem filter_join {xs : List α} {ys : List β} {on : α → β → Bool} (p : α → Bool) :
    (join xs ys on).filter (fun row => p row.1) = join (xs.filter p) ys on := by
  induction xs with
  | nil => rfl
  | cons x xs ih =>
      unfold join at ih ⊢
      rw [List.flatMap_cons, List.filter_append, ih, List.filter_map]
      by_cases hp : p x = true
      · rw [List.filter_cons_of_pos hp, List.flatMap_cons]
        congr 2
        exact List.filter_eq_self.mpr fun _ _ => hp
      · rw [List.filter_cons_of_neg hp]
        have hnone : (ys.filter (on x)).filter ((fun row : α × β => p row.1) ∘ (x, ·)) = [] :=
          List.filter_eq_nil_iff.mpr fun _ _ => hp
        rw [hnone]
        rfl

/-- Conditions that only ask for the left columns may be asked of these alone. -/
theorem map_fst_filter {rows : List (α × β)} {p : α × β → Bool} {q : α → Bool} (h : ∀ r ∈ rows, p r = q r.1) :
    (rows.filter p).map Prod.fst = (rows.map Prod.fst).filter q := by
  rw [List.filter_map, List.filter_congr h]
  rfl

theorem length_filter_filterMap (f : α → Option β) (p : β → Bool) (rows : List α) :
    ((rows.filterMap f).filter p).length = (rows.filter fun row => (f row).any p).length := by
  induction rows with
  | nil => rfl
  | cons row rows ih =>
      cases hrow : f row with
      | none => simp [hrow, ih]
      | some b => cases hp : p b <;> simp [hrow, hp, ih]

/-- What is summed over a join is summed over each left row's own. -/
theorem sum_join {xs : List α} {ys : List β} {on : α → β → Bool} (f : β → ℤ) :
    ((join xs ys on).map fun row => f row.2).sum = (xs.map fun x => ((ys.filter (on x)).map f).sum).sum := by
  induction xs with
  | nil => rfl
  | cons x xs ih =>
      unfold join at ih ⊢
      rw [List.flatMap_cons, List.map_append, List.sum_append, ih, List.map_cons, List.sum_cons, List.map_map]
      rfl

/-- `count(DISTINCT ...)`. -/
def countDistinct [DecidableEq ν] (column : α → ν) (rows : List α) : ℤ := (rows.map column).toFinset.card

theorem countDistinct_nil [DecidableEq ν] (column : α → ν) : countDistinct column [] = 0 := by
  simp [countDistinct]

section Groups

variable [DecidableEq κ]

/-- `GROUP BY`: what `sum` makes of each key and its rows. -/
def groupBy (key : α → κ) (sum : κ → List α → γ) (rows : List α) : List γ :=
  (rows.map key).dedup.map fun k => sum k (rows.filter fun row => key row = k)

theorem mem_groupBy {key : α → κ} {sum : κ → List α → γ} {rows : List α} {g : γ} :
    g ∈ groupBy key sum rows ↔ ∃ row ∈ rows, g = sum (key row) (rows.filter fun row' => key row' = key row) := by
  unfold groupBy
  rw [List.mem_map]
  constructor
  · rintro ⟨k, hk, rfl⟩
    obtain ⟨row, hrow, rfl⟩ := List.mem_map.mp (List.mem_dedup.mp hk)
    exact ⟨row, hrow, rfl⟩
  · rintro ⟨row, hrow, rfl⟩
    exact ⟨key row, List.mem_dedup.mpr (List.mem_map_of_mem hrow), rfl⟩

/-- A column that the key fixes, and that fixes the key, is no more repeated than the key. -/
theorem nodup_groupBy [DecidableEq ν] {key : α → κ} {sum : κ → List α → γ} {rows : List α} {column : γ → ν}
    {q : κ → ν} (hcolumn : ∀ k group, column (sum k group) = q k)
    (hpart : ∀ row ∈ rows, ∀ row' ∈ rows, q (key row) = q (key row') → key row = key row') :
    ((groupBy key sum rows).map column).Nodup := by
  unfold groupBy
  rw [List.map_map]
  refine List.Nodup.map_on (fun k hk k' hk' h => ?_) (List.nodup_dedup _)
  obtain ⟨row, hrow, rfl⟩ := List.mem_map.mp (List.mem_dedup.mp hk)
  obtain ⟨row', hrow', rfl⟩ := List.mem_map.mp (List.mem_dedup.mp hk')
  refine hpart row hrow row' hrow' ?_
  rwa [Function.comp_apply, Function.comp_apply, hcolumn, hcolumn] at h

/-- The groups whose keys are picked are the groups of the rows whose keys are. -/
theorem filter_groupBy_perm {key : α → κ} {sum : κ → List α → γ} {rows : List α} {p : κ → Bool} {q : γ → Bool}
    (hq : ∀ k group, q (sum k group) = p k) :
    ((groupBy key sum rows).filter q).Perm (groupBy key sum (rows.filter fun row => p (key row))) := by
  have hkeys : ((rows.map key).dedup.filter p).Perm ((rows.filter fun row => p (key row)).map key).dedup := by
    refine (List.perm_ext_iff_of_nodup ((List.nodup_dedup _).filter p) (List.nodup_dedup _)).mpr fun k => ?_
    simp only [List.mem_filter, List.mem_dedup, List.mem_map]
    constructor
    · rintro ⟨⟨row, hrow, rfl⟩, hp⟩
      exact ⟨row, ⟨hrow, hp⟩, rfl⟩
    · rintro ⟨row, ⟨hrow, hp⟩, rfl⟩
      exact ⟨⟨row, hrow, rfl⟩, hp⟩
  have hfilter : (groupBy key sum rows).filter q =
      ((rows.map key).dedup.filter p).map fun k => sum k (rows.filter fun row => key row = k) := by
    unfold groupBy
    rw [List.filter_map]
    congr 1
    exact List.filter_congr fun k _ => hq k _
  rw [hfilter]
  refine (hkeys.map _).trans (.of_eq (List.map_congr_left fun k hk => ?_))
  obtain ⟨row, hrow, rfl⟩ := List.mem_map.mp (List.mem_dedup.mp hk)
  have hp := (List.mem_filter.mp hrow).2
  rw [List.filter_filter]
  congr 1
  refine List.filter_congr fun row' _ => ?_
  by_cases hkey : key row' = key row
  · simp [hkey, hp]
  · simp [hkey]

/-- What is found for a key is made of the key's rows, where there are any. -/
theorem find_groupBy {key : α → κ} {sum : κ → List α → γ} {rows : List α} {column : γ → κ}
    (hcolumn : ∀ k group, column (sum k group) = k) (k : κ) :
    (groupBy key sum rows).find? (fun g => column g = k) =
      if rows.filter (fun row => key row = k) = [] then none
      else some (sum k (rows.filter fun row => key row = k)) := by
  have hkeys : ((groupBy key sum rows).map column).Nodup :=
    nodup_groupBy (q := id) hcolumn fun _ _ _ _ h => h
  split_ifs with hnone
  · refine List.find?_eq_none.mpr fun g hg hk => ?_
    obtain ⟨row, hrow, rfl⟩ := mem_groupBy.mp hg
    have hkey : key row = k := by
      rw [hcolumn] at hk
      exact of_decide_eq_true hk
    exact List.not_mem_nil (hnone ▸ List.mem_filter.mpr ⟨hrow, decide_eq_true hkey⟩)
  · obtain ⟨row, hrow⟩ := List.exists_mem_of_ne_nil _ hnone
    obtain ⟨hmem, hkey⟩ := List.mem_filter.mp hrow
    obtain rfl := of_decide_eq_true hkey
    have hgroup : sum (key row) (rows.filter fun row' => key row' = key row) ∈ groupBy key sum rows :=
      mem_groupBy.mpr ⟨row, hmem, rfl⟩
    have hfind := find_key hkeys hgroup
    rwa [hcolumn] at hfind

/-- Where the left rows have distinct keys, the groups of a left join are one for each of them. -/
theorem groupBy_leftJoin_perm {xs : List α} {ys : List β} {on : α → β → Bool} {key : α → κ}
    {sum : κ → List (α × Option β) → γ} (hkeys : (xs.map key).Nodup) :
    (groupBy (fun row : α × Option β => key row.1) sum (leftJoin xs ys on)).Perm
      (xs.map fun x => sum (key x) (outer x (ys.filter (on x)))) := by
  have hdedup : ((leftJoin xs ys on).map fun row => key row.1).dedup.Perm (xs.map key) := by
    refine (List.perm_ext_iff_of_nodup (List.nodup_dedup _) hkeys).mpr fun k => ?_
    rw [List.mem_dedup, List.mem_map, List.mem_map]
    constructor
    · rintro ⟨⟨x, _ | y⟩, hrow, rfl⟩
      · exact ⟨x, (mem_leftJoin_none.mp hrow).1, rfl⟩
      · exact ⟨x, (mem_leftJoin_some.mp hrow).1, rfl⟩
    · rintro ⟨x, hx, rfl⟩
      cases hmet : ys.filter (on x) with
      | nil =>
        have hnone : ∀ y ∈ ys, on x y = false := fun y hy => by
          simpa using List.filter_eq_nil_iff.mp hmet y hy
        exact ⟨(x, none), mem_leftJoin_none.mpr ⟨hx, hnone⟩, rfl⟩
      | cons y met =>
        have hy : y ∈ ys.filter (on x) := hmet ▸ List.mem_cons_self
        obtain ⟨hmem, hon⟩ := List.mem_filter.mp hy
        exact ⟨(x, some y), mem_leftJoin_some.mpr ⟨hx, hmem, hon⟩, rfl⟩
  unfold groupBy
  refine (hdedup.map _).trans (.of_eq ?_)
  rw [List.map_map]
  refine List.map_congr_left fun x hx => ?_
  rw [Function.comp_apply, filter_leftJoin_key hkeys hx]

/-- A count that is nought of no rows is, for every key, the count of its rows. -/
theorem at_groupBy {key : α → κ} (F : List α → ν) {default : ν} (hempty : F [] = default) {rows : List α}
    {d : Dict κ ν} (hd : d.Perm (groupBy key (fun k group => (k, F group)) rows)) (k : κ) :
    d.at k default = F (rows.filter fun row => key row = k) := by
  have hkeys : (groupBy key (fun k group => (k, F group)) rows).map Prod.fst |>.Nodup :=
    nodup_groupBy (q := id) (fun _ _ => rfl) fun _ _ _ _ h => h
  unfold Dict.at
  rw [← lookup_perm hkeys hd.symm]
  by_cases hk : k ∈ rows.map key
  · obtain ⟨row, hrow, rfl⟩ := List.mem_map.mp hk
    rw [(lookup_eq_some hkeys).mpr (mem_groupBy.mpr ⟨row, hrow, rfl⟩)]
    rfl
  · have hnone : rows.filter (fun row => key row = k) = [] := by
      refine List.filter_eq_nil_iff.mpr fun row hrow => ?_
      simp only [decide_eq_true_eq]
      exact fun h => hk (List.mem_map.mpr ⟨row, hrow, h⟩)
    have hlook : (groupBy key (fun k group => (k, F group)) rows).lookup k = none := by
      refine Option.eq_none_iff_forall_ne_some.mpr fun v hv => ?_
      obtain ⟨row, hrow, heq⟩ := mem_groupBy.mp ((lookup_eq_some hkeys).mp hv)
      exact hk (List.mem_map.mpr ⟨row, hrow, (congrArg Prod.fst heq).symm⟩)
    rw [hlook, hnone, hempty]
    rfl

end Groups

/-! ### Orders without ties -/

section Orders

variable [LinearOrder κ]

def sortBy (key : α → κ) (rows : List α) : List α := rows.insertionSort fun a b => key a ≤ key b

def leastBy (key : α → κ) (rows : List α) : Option α := rows.argmin key

theorem perm_sortBy (key : α → κ) (rows : List α) : (sortBy key rows).Perm rows := List.perm_insertionSort _ rows

theorem mem_sortBy {key : α → κ} {rows : List α} {a : α} : a ∈ sortBy key rows ↔ a ∈ rows :=
  (perm_sortBy key rows).mem_iff

/-- The first of the sorted rows is one that no row comes before. -/
theorem head_sortBy {key : α → κ} {rows : List α} {a : α} (h : (sortBy key rows).head? = some a) :
    a ∈ rows ∧ ∀ b ∈ rows, key a ≤ key b := by
  obtain ⟨rest, hrest⟩ := List.head?_eq_some_iff.mp h
  have hsorted : (sortBy key rows).Pairwise fun a b => key a ≤ key b := List.pairwise_insertionSort _ rows
  rw [hrest] at hsorted
  have hmem : ∀ b, b ∈ rows ↔ b ∈ a :: rest := fun b => by rw [← hrest, mem_sortBy]
  refine ⟨(hmem a).mpr List.mem_cons_self, fun b hb => ?_⟩
  obtain rfl | hb := List.mem_cons.mp ((hmem b).mp hb)
  · exact le_rfl
  · exact (List.pairwise_cons.mp hsorted).1 b hb

theorem head_sortBy_eq_none {key : α → κ} {rows : List α} : (sortBy key rows).head? = none ↔ rows = [] := by
  rw [List.head?_eq_none_iff, ← List.length_eq_zero_iff, (perm_sortBy key rows).length_eq, List.length_eq_zero_iff]

theorem map_sortBy {key : α → κ} {key' : β → κ} {f : α → β} {rows : List α}
    (hkey : ∀ a ∈ rows, key' (f a) = key a) : (sortBy key rows).map f = sortBy key' (rows.map f) :=
  List.map_insertionSort _ _ f rows fun a ha b hb => by rw [hkey a ha, hkey b hb]

/-- What is picked of sorted rows is sorted by any key that orders the picked rows as the first one does. -/
theorem filter_sortBy {κ' : Type} [LinearOrder κ'] {key : α → κ} {key' : α → κ'} {rows : List α} {p : α → Bool}
    (hle : ∀ a b, p a = true → p b = true → key a ≤ key b → key' a ≤ key' b)
    (hkey : ∀ a ∈ rows.filter p, ∀ b ∈ rows.filter p, key' a = key' b → a = b) :
    (sortBy key rows).filter p = sortBy key' (rows.filter p) := by
  have hsorted : ((sortBy key rows).filter p).Pairwise fun a b => key' a ≤ key' b := by
    have hall : (sortBy key rows).Pairwise fun a b => key a ≤ key b := List.pairwise_insertionSort _ rows
    refine (hall.filter p).imp_of_mem fun ha hb hab => ?_
    exact hle _ _ (List.of_mem_filter ha) (List.of_mem_filter hb) hab
  have hsorted' : (sortBy key' (rows.filter p)).Pairwise fun a b => key' a ≤ key' b :=
    List.pairwise_insertionSort _ _
  have hperm : ((sortBy key rows).filter p).Perm (rows.filter p) := (perm_sortBy key rows).filter p
  refine List.Perm.eq_of_pairwise (fun a b ha hb hab hba => ?_) hsorted hsorted'
    (hperm.trans (perm_sortBy key' _).symm)
  exact hkey a (hperm.mem_iff.mp ha) b (mem_sortBy.mp hb) (le_antisymm hab hba)

variable {key : α → κ} {rows rows' : List α} (hkey : ∀ a ∈ rows, ∀ b ∈ rows, key a = key b → a = b)

include hkey

theorem sortBy_perm (h : rows.Perm rows') : sortBy key rows = sortBy key rows' := by
  have htotal : Std.Total fun a b : α => key a ≤ key b := ⟨fun a b => le_total _ _⟩
  have htrans : IsTrans α fun a b : α => key a ≤ key b := ⟨fun _ _ _ => le_trans⟩
  have hsorted := List.pairwise_insertionSort (fun a b : α => key a ≤ key b) rows
  have hsorted' := List.pairwise_insertionSort (fun a b : α => key a ≤ key b) rows'
  refine List.Perm.eq_of_pairwise (fun a b ha hb hab hba => ?_) hsorted hsorted'
    ((perm_sortBy key rows).trans (h.trans (perm_sortBy key rows').symm))
  exact hkey a (mem_sortBy.mp ha) b (h.mem_iff.mpr (mem_sortBy.mp hb)) (le_antisymm hab hba)

theorem mem_leastBy [DecidableEq α] {a : α} : a ∈ leastBy key rows ↔ a ∈ rows ∧ ∀ b ∈ rows, key a ≤ key b := by
  unfold leastBy
  rw [List.mem_argmin_iff]
  refine ⟨fun h => ⟨h.1, h.2.1⟩, fun h => ⟨h.1, h.2, fun b hb hle => ?_⟩⟩
  obtain rfl := hkey b hb a h.1 (le_antisymm hle (h.2 b hb))
  exact le_rfl

theorem leastBy_perm [DecidableEq α] (h : rows.Perm rows') : leastBy key rows = leastBy key rows' := by
  have hkey' : ∀ a ∈ rows', ∀ b ∈ rows', key a = key b → a = b :=
    fun a ha b hb => hkey a (h.mem_iff.mpr ha) b (h.mem_iff.mpr hb)
  ext a
  change a ∈ leastBy key rows ↔ a ∈ leastBy key rows'
  rw [mem_leastBy hkey, mem_leastBy hkey', h.mem_iff]
  simp only [h.mem_iff]

omit hkey in
theorem leastBy_map {key' : β → κ} {f : β → α} {others : List β} (h : ∀ b ∈ others, key (f b) = key' b) :
    leastBy key (others.map f) = (leastBy key' others).map f := by
  unfold leastBy
  induction others with
  | nil => rfl
  | cons b others ih =>
      have hothers := fun b' hb' => h b' (List.mem_cons_of_mem b hb')
      rw [List.map_cons, List.argmin_cons, List.argmin_cons, ih hothers]
      cases hleast : others.argmin key' with
      | none => rfl
      | some least =>
          have hleast' := h least (List.mem_cons_of_mem b (List.argmin_mem hleast))
          simp only [Option.map_some, hleast', h b List.mem_cons_self]
          split_ifs <;> rfl

end Orders
end Grouping
