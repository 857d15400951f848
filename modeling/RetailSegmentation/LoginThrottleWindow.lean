import Mathlib.Data.List.TakeWhile
import RetailSegmentation.LoginThrottle

/-! The throttle counts exactly the failures of the last `window_seconds`, as long as it has room for every
key; and the wait it answers with is long enough only where the failures that block leave the window that
soon. -/

namespace RetailSegmentation.LoginThrottle

open Grouping

section Sorted

variable {F : Type} [LinearOrder F]

theorem dropWhile_eq_filter {times : List F} (hsorted : times.Pairwise (· ≤ ·)) (cutoff : F) :
    times.dropWhile (fun t => t ≤ cutoff) = times.filter fun t => cutoff < t := by
  induction times with
  | nil => rfl
  | cons t times ih =>
      obtain ⟨hle, hsorted⟩ := List.pairwise_cons.mp hsorted
      rw [List.dropWhile_cons, List.filter_cons]
      by_cases ht : t ≤ cutoff
      · rw [if_pos (decide_eq_true ht), if_neg (by simpa using ht), ih hsorted]
      · have hall : times.filter (fun u => cutoff < u) = times :=
          List.filter_eq_self.mpr fun u hu => decide_eq_true ((not_le.mp ht).trans_le (hle u hu))
        rw [if_neg (by simpa using ht), if_pos (decide_eq_true (not_le.mp ht)), hall]

theorem le_of_mem_takeWhile {times : List F} {cutoff t : F} (ht : t ∈ times.takeWhile fun t => t ≤ cutoff) :
    t ≤ cutoff := by
  have hdecide := List.mem_takeWhile_imp ht
  exact of_decide_eq_true hdecide

end Sorted

/-- Fewer than `m` elements are left of a list once the first ones go: all but the last `m - 1` of it go. -/
theorem length_dropWhile_lt_iff {α : Type} {m : ℕ} (hm : 1 ≤ m) (p : α → Bool) (l : List α) :
    (l.dropWhile p).length < m ↔ ∀ a ∈ l.take (l.length + 1 - m), p a = true := by
  induction l with
  | nil => simp [Nat.lt_of_lt_of_le Nat.zero_lt_one hm]
  | cons a l ih =>
      rw [List.dropWhile_cons, List.length_cons]
      by_cases hfew : l.length + 1 < m
      · have hnone : l.length + 1 + 1 - m = 0 := by omega
        have hle := ((List.dropWhile_suffix p).length_le : (l.dropWhile p).length ≤ l.length)
        rw [hnone, List.take_zero]
        refine iff_of_true ?_ nofun
        split
        · omega
        · rw [List.length_cons]
          omega
      · have hsucc : l.length + 1 + 1 - m = (l.length + 1 - m) + 1 := by omega
        rw [hsucc, List.take_succ_cons, List.forall_mem_cons, ← ih]
        by_cases ha : p a = true
        · rw [if_pos ha, and_iff_right ha]
        · rw [if_neg ha, List.length_cons]
          exact iff_of_false (by omega) fun hand => ha hand.1

theorem length_dropWhile_dropWhile_le {α : Type} (p q : α → Bool) (l : List α) :
    ((l.dropWhile q).dropWhile p).length ≤ (l.dropWhile p).length := by
  induction l with
  | nil => exact le_rfl
  | cons a l ih =>
      rw [List.dropWhile_cons]
      by_cases hq : q a = true
      · have hsuffix : (l.dropWhile p).length ≤ ((a :: l).dropWhile p).length := by
          rw [List.dropWhile_cons]
          split
          · exact le_rfl
          · exact (List.dropWhile_suffix p).length_le.trans (Nat.le_succ _)
        rw [if_pos hq]
        exact ih.trans hsuffix
      · rw [if_neg hq]

section Runs

variable {κ F : Type} [DecidableEq κ] [LinearOrder F] (arith : TimeArithmetic F) (limits : Limits)

/-! ### What every history keeps -/

theorem within_recordKey {seen : List κ} {attempts : Attempts κ F} (h : attempts.Within seen) {key : κ}
    (hkey : key ∈ seen) (now : F) : (recordKey arith limits now attempts key).Within seen :=
  ((within_prune arith limits h hkey now).put hkey _).moveToEnd key

theorem within_recordKeys {seen : List κ} {attempts : Attempts κ F} (h : attempts.Within seen) {keys : List κ}
    (hkeys : ∀ key ∈ keys, key ∈ seen) (now : F) :
    (keys.foldl (recordKey arith limits now) attempts).Within seen := by
  induction keys generalizing attempts with
  | nil => exact h
  | cons key keys ih =>
      exact ih (within_recordKey arith limits h (hkeys key List.mem_cons_self) now) fun k hk =>
        hkeys k (List.mem_cons_of_mem key hk)

theorem within_step {seen : List κ} {attempts : Attempts κ F} (h : attempts.Within seen) {call : Call κ F}
    (hkeys : ∀ key ∈ call.keys, key ∈ seen) : (step arith limits attempts call).Within seen := by
  cases call with
  | check keys now => exact (within_checkKeys arith limits h hkeys now 0).trim _
  | recordFailure keys now => exact (within_recordKeys arith limits h hkeys now).trim _
  | clear keys =>
      change (clear keys attempts).Within seen
      clear hkeys
      induction keys generalizing attempts with
      | nil => exact h
      | cons key keys ih => exact ih (h.pop key)

theorem run_append (calls : List (Call κ F)) (call : Call κ F) :
    run arith limits (calls ++ [call]) = step arith limits (run arith limits calls) call := by
  unfold run
  rw [List.foldl_append]
  rfl

theorem within_run (calls : List (Call κ F)) :
    (run arith limits calls).Within (calls.flatMap Call.keys) := by
  induction calls using List.reverseRecOn with
  | nil => exact ⟨List.nodup_nil, nofun⟩
  | append_singleton calls call ih =>
      rw [run_append, List.flatMap_append, List.flatMap_singleton]
      exact within_step arith limits (ih.mono fun k hk => List.mem_append_left _ hk) fun key hkey =>
        List.mem_append_right _ hkey

/-! ### What is on record, and what has been -/

omit [LinearOrder F] in
theorem at_clear (keys : List κ) (attempts : Attempts κ F) (k : κ) :
    (clear keys attempts).at k [] = if k ∈ keys then [] else attempts.at k [] := by
  unfold clear
  induction keys generalizing attempts with
  | nil => rfl
  | cons key keys ih =>
      rw [List.foldl_cons, ih, at_pop]
      by_cases hk : k = key
      · simp [hk]
      · simp [hk]

theorem at_recordKey (now : F) (attempts : Attempts κ F) (key k : κ) :
    (recordKey arith limits now attempts key).at k [] =
      if k = key then live arith limits now (attempts.at key []) ++ [now] else attempts.at k [] := by
  unfold recordKey
  dsimp only
  rw [at_moveToEnd, at_put, prune_fst, at_prune]
  by_cases hk : k = key
  · rw [if_pos hk, if_pos hk]
  · rw [if_neg hk, if_neg hk, if_neg hk]

theorem recordKeys_window (now : F) (keys : List κ) (attempts : Attempts κ F) (k : κ) :
    ∃ dropped, attempts.at k [] ++ List.replicate (keys.count k) now =
        dropped ++ (keys.foldl (recordKey arith limits now) attempts).at k [] ∧
      ∀ t ∈ dropped, t ≤ arith.minus now limits.windowSeconds := by
  induction keys generalizing attempts with
  | nil => exact ⟨[], by simp, nofun⟩
  | cons key keys ih =>
      obtain ⟨dropped, heq, hdropped⟩ := ih (recordKey arith limits now attempts key)
      rw [at_recordKey] at heq
      rw [List.foldl_cons]
      by_cases hk : k = key
      · subst hk
        refine ⟨(attempts.at k []).takeWhile (fun t => t ≤ arith.minus now limits.windowSeconds) ++ dropped, ?_, ?_⟩
        · rw [if_pos rfl] at heq
          rw [List.count_cons_self, List.replicate_succ, List.append_assoc, ← heq, live, ← List.append_assoc,
            ← List.append_assoc, List.takeWhile_append_dropWhile, List.append_assoc]
          rfl
        · intro t ht
          rcases List.mem_append.mp ht with ht | ht
          · exact le_of_mem_takeWhile ht
          · exact hdropped t ht
      · rw [if_neg hk] at heq
        rw [List.count_cons_of_ne (Ne.symm hk)]
        exact ⟨dropped, heq, hdropped⟩

/-- What is on record of a key are its failures, less some that are out of every window from now on. -/
def Tracks (calls : List (Call κ F)) (attempts : Attempts κ F) : Prop :=
  ∀ k, ∃ dropped, failures k calls = dropped ++ attempts.at k [] ∧
    ∀ t ∈ dropped, ∀ now, (∀ c ∈ calls.filterMap Call.time, c ≤ now) → t ≤ arith.minus now limits.windowSeconds

omit [LinearOrder F] in
theorem failures_append (k : κ) (calls : List (Call κ F)) (call : Call κ F) :
    failures k (calls ++ [call]) = match call with
      | .check _ _ => failures k calls
      | .recordFailure keys now => failures k calls ++ List.replicate (keys.count k) now
      | .clear keys => if k ∈ keys then [] else failures k calls := by
  unfold failures
  rw [List.foldl_append]
  rfl

variable {arith limits}

theorem Tracks.step (hmono : Monotone fun now => arith.minus now limits.windowSeconds) {calls : List (Call κ F)}
    {attempts : Attempts κ F} {seen : List κ} (hwithin : attempts.Within seen) {call : Call κ F}
    (hkeys : ∀ key ∈ call.keys, key ∈ seen) (hroom : seen.dedup.length ≤ limits.maxKeys)
    (h : Tracks arith limits calls attempts) :
    Tracks arith limits (calls ++ [call]) (step arith limits attempts call) := by
  intro k
  obtain ⟨dropped, heq, hdropped⟩ := h k
  have hold : ∀ t ∈ dropped, ∀ now, (∀ c ∈ (calls ++ [call]).filterMap Call.time, c ≤ now) →
      t ≤ arith.minus now limits.windowSeconds := fun t ht now hnow =>
    hdropped t ht now fun c hc => hnow c (by
      rw [List.filterMap_append]
      exact List.mem_append_left _ hc)
  have htime : ∀ {at_ now : F}, call.time = some at_ → (∀ c ∈ (calls ++ [call]).filterMap Call.time, c ≤ now) →
      arith.minus at_ limits.windowSeconds ≤ arith.minus now limits.windowSeconds := fun hat hnow =>
    hmono (hnow _ (List.mem_filterMap.mpr ⟨call, List.mem_append_right _ (List.mem_singleton_self call), hat⟩))
  rw [failures_append]
  cases call with
  | check keys at_ =>
      have hstep : LoginThrottle.step arith limits attempts (.check keys at_) =
          (checkKeys arith limits at_ keys 0 attempts).2 :=
        (within_checkKeys arith limits hwithin hkeys at_ 0).trim_eq hroom
      rw [hstep, at_checkKeys]
      dsimp only
      by_cases hk : k ∈ keys
      · rw [if_pos hk]
        refine ⟨dropped ++ (attempts.at k []).takeWhile fun t => t ≤ arith.minus at_ limits.windowSeconds, ?_, ?_⟩
        · rw [heq, List.append_assoc, live, List.takeWhile_append_dropWhile]
        · intro t ht now hnow
          rcases List.mem_append.mp ht with ht | ht
          · exact hold t ht now hnow
          · exact (le_of_mem_takeWhile ht).trans (htime rfl hnow)
      · rw [if_neg hk]
        exact ⟨dropped, heq, hold⟩
  | recordFailure keys at_ =>
      have hstep : LoginThrottle.step arith limits attempts (.recordFailure keys at_) =
          keys.foldl (recordKey arith limits at_) attempts :=
        (within_recordKeys arith limits hwithin hkeys at_).trim_eq hroom
      obtain ⟨gone, hgone, hold'⟩ := recordKeys_window arith limits at_ keys attempts k
      rw [hstep]
      refine ⟨dropped ++ gone, ?_, ?_⟩
      · dsimp only
        rw [heq, List.append_assoc, hgone, List.append_assoc]
      · intro t ht now hnow
        rcases List.mem_append.mp ht with ht | ht
        · exact hold t ht now hnow
        · exact (hold' t ht).trans (htime rfl hnow)
  | clear keys =>
      change ∃ dropped, _ = dropped ++ (clear keys attempts).at k [] ∧ _
      rw [at_clear]
      dsimp only
      by_cases hk : k ∈ keys
      · rw [if_pos hk, if_pos hk]
        exact ⟨[], rfl, nofun⟩
      · rw [if_neg hk, if_neg hk]
        exact ⟨dropped, heq, hold⟩

theorem tracks_run (hmono : Monotone fun now => arith.minus now limits.windowSeconds) {calls : List (Call κ F)}
    (hroom : (calls.flatMap Call.keys).dedup.length ≤ limits.maxKeys) :
    Tracks arith limits calls (run arith limits calls) := by
  suffices hprefix : ∀ (before : List (Call κ F)), (∀ call ∈ before, call ∈ calls) →
      Tracks arith limits before (run arith limits before) from hprefix calls fun _ h => h
  intro before
  induction before using List.reverseRecOn with
  | nil => exact fun _ k => ⟨[], rfl, nofun⟩
  | append_singleton before call ih =>
      intro hsub
      have hbefore := ih fun c hc => hsub c (List.mem_append_left _ hc)
      have hseen : ∀ c ∈ before ++ [call], ∀ key ∈ c.keys, key ∈ calls.flatMap Call.keys := fun c hc key hkey =>
        List.mem_flatMap.mpr ⟨c, hsub c hc, hkey⟩
      rw [run_append]
      refine hbefore.step hmono ((within_run arith limits before).mono fun k hk => ?_) (fun key hkey => ?_) hroom
      · obtain ⟨c, hc, hkey⟩ := List.mem_flatMap.mp hk
        exact hseen c (List.mem_append_left _ hc) k hkey
      · exact hseen call (List.mem_append_right _ (List.mem_singleton_self call)) key hkey

omit [LinearOrder F] in
theorem mem_failures {k : κ} {calls : List (Call κ F)} {t : F} (ht : t ∈ failures k calls) :
    t ∈ calls.filterMap Call.time := by
  induction calls using List.reverseRecOn with
  | nil => cases ht
  | append_singleton calls call ih =>
      rw [List.filterMap_append]
      rw [failures_append] at ht
      cases call with
      | check keys now => exact List.mem_append_left _ (ih ht)
      | recordFailure keys now =>
          rcases List.mem_append.mp ht with ht | ht
          · exact List.mem_append_left _ (ih ht)
          · rw [List.eq_of_mem_replicate ht]
            exact List.mem_append_right _ (List.mem_singleton_self now)
      | clear keys =>
          dsimp only at ht
          split at ht
          · cases ht
          · exact List.mem_append_left _ (ih ht)

omit [DecidableEq κ] in
theorem Timely.of_append {calls : List (Call κ F)} {call : Call κ F} (h : Timely (calls ++ [call])) :
    Timely calls := by
  unfold Timely at h
  rw [List.filterMap_append] at h
  exact (List.pairwise_append.mp h).1

omit [DecidableEq κ] in
theorem Timely.le_time {calls : List (Call κ F)} {call : Call κ F} (h : Timely (calls ++ [call])) {now : F}
    (hnow : call.time = some now) : ∀ c ∈ calls.filterMap Call.time, c ≤ now := by
  unfold Timely at h
  rw [List.filterMap_append] at h
  exact fun c hc => (List.pairwise_append.mp h).2.2 c hc now (List.mem_filterMap.mpr ⟨call, List.mem_singleton_self call, hnow⟩)

theorem sorted_failures {k : κ} {calls : List (Call κ F)} (h : Timely calls) :
    (failures k calls).Pairwise (· ≤ ·) := by
  induction calls using List.reverseRecOn with
  | nil => exact List.Pairwise.nil
  | append_singleton calls call ih =>
      have hold := ih h.of_append
      rw [failures_append]
      cases call with
      | check keys now => exact hold
      | recordFailure keys now =>
          refine List.pairwise_append.mpr ⟨hold, List.pairwise_replicate.mpr (.inr le_rfl), fun t ht u hu => ?_⟩
          rw [List.eq_of_mem_replicate hu]
          exact h.le_time rfl t (mem_failures ht)
      | clear keys =>
          dsimp only
          split
          · exact List.Pairwise.nil
          · exact hold

/-! ### Blocked -/

theorem check_blocked (now : F) (keys : List κ) (attempts : Attempts κ F) :
    (check arith limits keys now attempts).1.blocked = true ↔
      ∃ key ∈ keys, limits.maxAttempts ≤ (live arith limits now (attempts.at key [])).length := by
  have hzero : 0 ≤ (checkKeys arith limits now keys 0 attempts).1 :=
    (le_checkKeys arith limits now keys 0 attempts 0).mpr (.inl le_rfl)
  have hone := le_checkKeys arith limits now keys 0 attempts 1
  have hblocked : (check arith limits keys now attempts).1.blocked = true ↔
      1 ≤ (checkKeys arith limits now keys 0 attempts).1 := by
    unfold check
    rw [decide_eq_true_eq]
    omega
  rw [hblocked, hone, or_iff_right (by omega)]
  refine exists_congr fun key => and_congr_right fun _ => ⟨?_, fun hmany => ?_⟩
  · rintro ⟨oldest, rest, hlive, hmany, -⟩
    rw [hlive]
    exact hmany
  · cases hlive : live arith limits now (attempts.at key []) with
    | nil =>
        rw [hlive] at hmany
        exact absurd (limits.one_le_attempts.trans hmany) (by simp)
    | cons oldest rest => exact ⟨oldest, rest, hlive, hlive ▸ hmany, le_max_left _ _⟩

/-- **The window is exact.** A check blocks exactly when one of its keys had enough failures in the last
`window_seconds`, counted since it was last cleared. -/
theorem check_blocked_iff (hmono : Monotone fun now => arith.minus now limits.windowSeconds)
    {calls : List (Call κ F)}
    {keys : List κ} {now : F} (htimely : Timely (calls ++ [.check keys now]))
    (hroom : ((calls ++ [Call.check keys now]).flatMap Call.keys).dedup.length ≤ limits.maxKeys) :
    (check arith limits keys now (run arith limits calls)).1.blocked = true ↔
      ∃ key ∈ keys, limits.maxAttempts ≤
        ((failures key calls).filter fun t => arith.minus now limits.windowSeconds < t ∧ t ≤ now).length := by
  have hcalls : (calls.flatMap Call.keys).dedup.length ≤ limits.maxKeys := by
    refine le_trans (List.Nodup.subperm (List.nodup_dedup _) fun k hk => ?_).length_le hroom
    rw [List.mem_dedup] at hk ⊢
    rw [List.flatMap_append]
    exact List.mem_append_left _ hk
  have hpast : ∀ c ∈ calls.filterMap Call.time, c ≤ now := htimely.le_time rfl
  rw [check_blocked]
  refine exists_congr fun key => and_congr_right fun _ => ?_
  obtain ⟨dropped, heq, hdropped⟩ := tracks_run hmono hcalls key
  have hsorted := sorted_failures (k := key) htimely.of_append
  have hwindow : (failures key calls).filter (fun t => arith.minus now limits.windowSeconds < t ∧ t ≤ now) =
      (failures key calls).filter fun t => arith.minus now limits.windowSeconds < t :=
    List.filter_congr fun t ht => by simp [hpast t (mem_failures ht)]
  have hgone : dropped.filter (fun t => arith.minus now limits.windowSeconds < t) = [] :=
    List.filter_eq_nil_iff.mpr fun t ht => by simpa using hdropped t ht now hpast
  rw [hwindow, heq, List.filter_append, hgone, List.nil_append]
  rw [heq] at hsorted
  rw [live, dropWhile_eq_filter (List.pairwise_append.mp hsorted).2.1]

end Runs

/-- A clock that counts milliseconds; `int()` truncates. -/
def milliseconds : TimeArithmetic ℤ where
  minus now seconds := now - 1000 * seconds
  plus now seconds := now + 1000 * seconds
  wait oldest seconds now := (oldest + 1000 * seconds - now).tdiv 1000

theorem check_blocked_third_failure :
    (check milliseconds (.of 2 60 10) ["ip"] 70000 (run milliseconds (.of 2 60 10)
        [.recordFailure ["ip", "user"] 5000, .recordFailure ["ip"] 20000,
          .check ["user"] 30000])).1.blocked = true ↔
      ∃ key ∈ ["ip"], 2 ≤ ((failures key [Call.recordFailure ["ip", "user"] 5000, .recordFailure ["ip"] 20000,
        .check ["user"] 30000]).filter fun t => (70000 : ℤ) - 60000 < t ∧ t ≤ 70000).length :=
  check_blocked_iff (fun _ _ hle => Int.sub_le_sub_right hle 60000) (by simp [Timely, Call.time]) (by decide)

section Waits

variable {κ F : Type} [DecidableEq κ] [LinearOrder F] {arith : TimeArithmetic F} {limits : Limits}

/-! ### The wait -/

theorem keys_prune {attempts : Attempts κ F} (hkeys : attempts.keys.Nodup) (key : κ) (now : F) :
    (prune arith limits key now attempts).2.keys = (attempts.keys.filter fun k => k ≠ key) ++ [key] := by
  have hnew : ∀ keys : List κ, ((if key ∈ keys then keys else keys ++ [key]).filter fun k => k ≠ key) =
      keys.filter fun k => k ≠ key := by
    intro keys
    split
    · rfl
    · simp
  have hwithin : attempts.Within (key :: attempts.keys) := ⟨hkeys, fun k hk => List.mem_cons_of_mem key hk⟩
  have hput := (hwithin.setdefault List.mem_cons_self ([] : List F)).put List.mem_cons_self
    (live arith limits now (attempts.at key []))
  have hmem : key ∈ ((attempts.setdefault key []).put key (live arith limits now (attempts.at key []))).keys := by
    rw [keys_put]
    exact mem_append_new.mpr (.inl rfl)
  have hmoved : (((attempts.setdefault key []).put key (live arith limits now (attempts.at key []))).moveToEnd key).keys =
      (attempts.keys.filter fun k => k ≠ key) ++ [key] := by
    rw [keys_moveToEnd hput.nodup hmem, keys_put, hnew, keys_setdefault, hnew]
  unfold prune
  simp only [at_setdefault]
  split
  · rw [keys_setdefault, keys_pop]
    unfold live at hmoved
    rw [hmoved]
    simp
  · exact hmoved

theorem keys_checkKeys {attempts : Attempts κ F} (hkeys : attempts.keys.Nodup) (now : F) (keys : List κ)
    (retryAfter : ℤ) :
    (checkKeys arith limits now keys retryAfter attempts).2.keys =
      (attempts.keys.filter fun k => k ∉ keys) ++ keys.dedup := by
  induction keys generalizing attempts retryAfter with
  | nil => simp [checkKeys]
  | cons key keys ih =>
      have hwithin : attempts.Within (key :: attempts.keys) := ⟨hkeys, fun k hk => List.mem_cons_of_mem key hk⟩
      have hpruned := (within_prune arith limits hwithin List.mem_cons_self now).nodup
      have hnext : ∀ r, (checkKeys arith limits now keys r (prune arith limits key now attempts).2).2.keys =
          (attempts.keys.filter fun k => k ∉ key :: keys) ++ (key :: keys).dedup := by
        intro r
        rw [ih hpruned, keys_prune hkeys, List.filter_append, List.filter_filter]
        have hfilter : (attempts.keys.filter fun k => decide (k ∉ keys) && decide (k ≠ key)) =
            attempts.keys.filter fun k => k ∉ key :: keys :=
          List.filter_congr fun k _ => by simp [Bool.and_comm]
        rw [hfilter, List.append_assoc]
        by_cases hkey : key ∈ keys
        · rw [List.dedup_cons_of_mem hkey]
          simp [hkey]
        · rw [List.dedup_cons_of_notMem hkey]
          simp [hkey]
      unfold checkKeys
      dsimp only
      split
      · exact hnext _
      · split
        · exact hnext _
        · exact hnext _

/-- The keys of a check that it does not itself forget: the last `max_keys` of them. -/
def retained (limits : Limits) (keys : List κ) : List κ := keys.dedup.drop (keys.dedup.length - limits.maxKeys)

theorem at_check {attempts : Attempts κ F} (hkeys : attempts.keys.Nodup) (now : F) {keys : List κ} {k : κ}
    (hk : k ∈ keys) :
    (check arith limits keys now attempts).2.at k [] =
      if k ∈ retained limits keys then live arith limits now (attempts.at k []) else [] := by
  have hwithin : attempts.Within (attempts.keys ++ keys) := ⟨hkeys, fun k hk => List.mem_append_left _ hk⟩
  have hchecked := within_checkKeys arith limits hwithin (fun key hkey => List.mem_append_right _ hkey) now 0
  unfold check
  dsimp only
  rw [at_trim hchecked.nodup, at_checkKeys, if_pos hk]
  simp only [mem_keys_trim hchecked.nodup (keys_checkKeys hkeys now keys 0) limits.maxKeys (List.mem_dedup.mpr hk)]
  rfl

def Idle (calls : List (Call κ F)) : Prop := ∀ call ∈ calls, ∀ keys now, call ≠ .recordFailure keys now

theorem live_idle (calls : List (Call κ F)) {later : List (Call κ F)} (hidle : Idle later) (now : F) (k : κ) :
    (live arith limits now ((run arith limits (calls ++ later)).at k [])).length ≤
      (live arith limits now ((run arith limits calls).at k [])).length := by
  induction later using List.reverseRecOn with
  | nil => rw [List.append_nil]
  | append_singleton later call ih =>
      have hbefore := ih fun c hc => hidle c (List.mem_append_left _ hc)
      have hwithin := within_run arith limits (calls ++ later)
      rw [← List.append_assoc, run_append]
      cases call with
      | check keys at_ =>
          have hchecked := within_checkKeys arith limits (hwithin.mono fun k hk => List.mem_append_left keys hk)
            (fun key hkey => List.mem_append_right _ hkey) at_ 0
          change (live arith limits now (((checkKeys arith limits at_ keys 0 _).2.trim limits.maxKeys).at k [])).length ≤ _
          rw [at_trim hchecked.nodup]
          split
          · rw [at_checkKeys]
            split
            · exact (length_dropWhile_dropWhile_le _ _ _).trans hbefore
            · exact hbefore
          · exact Nat.zero_le _
      | recordFailure keys at_ =>
          exact absurd rfl (hidle _ (List.mem_append_right _ (List.mem_singleton_self _)) keys at_)
      | clear keys =>
          change (live arith limits now ((clear keys _).at k [])).length ≤ _
          rw [at_clear]
          split
          · exact Nat.zero_le _
          · exact hbefore

theorem check_again {attempts : Attempts κ F} (hkeys : attempts.keys.Nodup) (keys : List κ) (now later : F) :
    (check arith limits keys later (check arith limits keys now attempts).2).1.blocked = true ↔
      ∃ key ∈ retained limits keys, limits.maxAttempts ≤
        (live arith limits later (live arith limits now (attempts.at key []))).length := by
  rw [check_blocked]
  constructor
  · rintro ⟨key, hkey, hmany⟩
    rw [at_check hkeys now hkey] at hmany
    by_cases hretained : key ∈ retained limits keys
    · rw [if_pos hretained] at hmany
      exact ⟨key, hretained, hmany⟩
    · rw [if_neg hretained] at hmany
      exact absurd (limits.one_le_attempts.trans hmany) (by simp [live])
  · rintro ⟨key, hretained, hmany⟩
    have hkey : key ∈ keys := List.mem_dedup.mp (List.mem_of_mem_drop hretained)
    refine ⟨key, hkey, ?_⟩
    rw [at_check hkeys now hkey, if_pos hretained]
    exact hmany

theorem check_after_idle (calls : List (Call κ F)) {later : List (Call κ F)} (hidle : Idle later) {now : F}
    {keys : List κ}
    (h : (check arith limits keys now (run arith limits (calls ++ later))).1.blocked = true) :
    (check arith limits keys now (run arith limits calls)).1.blocked = true := by
  rw [check_blocked] at h ⊢
  obtain ⟨key, hkey, hmany⟩ := h
  exact ⟨key, hkey, hmany.trans (live_idle calls hidle now key)⟩

theorem asks_retryAfter {keys : List κ} {now : F} {attempts : Attempts κ F} {seconds : ℤ}
    (h : (check arith limits keys now attempts).1 = ⟨true, seconds⟩) :
    (∃ key ∈ keys, Asks arith limits now (attempts.at key []) seconds) ∧
      ∀ n key, key ∈ keys → Asks arith limits now (attempts.at key []) n → n ≤ seconds := by
  have hseconds : (checkKeys arith limits now keys 0 attempts).1 = seconds :=
    congrArg ThrottleDecision.retryAfter h
  have hblocked : (checkKeys arith limits now keys 0 attempts).1 ≠ 0 :=
    of_decide_eq_true (congrArg ThrottleDecision.blocked h)
  have hle := le_checkKeys arith limits now keys 0 attempts
  rw [hseconds] at hle hblocked
  have hzero : 0 ≤ seconds := (hle 0).mpr (.inl le_rfl)
  refine ⟨?_, fun n key hkey hasks => (hle n).mpr (.inr ⟨key, hkey, hasks⟩)⟩
  exact ((hle seconds).mp le_rfl).resolve_left (by omega)

/-- The failures of a blocked key that would have to leave the window for it to be let through: all but the last
`max_attempts - 1`. -/
def excess (limits : Limits) (bucket : List F) : List F := bucket.take (bucket.length + 1 - limits.maxAttempts)

/-- **When Retry-After is honest.** After the seconds that a check answers with, and no failure in between,
the check blocks no more: exactly when, for each blocked key that the check has kept, all but its last
`max_attempts - 1` failures have left the window after the wait that one of the keys asks for. -/
theorem retryAfter_honest_iff (hmono : Monotone fun now => arith.minus now limits.windowSeconds)
    (hplus : ∀ now a b, a ≤ b → arith.plus now a ≤ arith.plus now b) (calls : List (Call κ F)) (keys : List κ) (now : F) :
    (∀ seconds later, (check arith limits keys now (run arith limits calls)).1 = ⟨true, seconds⟩ → Idle later →
        (check arith limits keys (arith.plus now seconds)
          (run arith limits (calls ++ .check keys now :: later))).1.blocked = false) ↔
      ∀ key ∈ retained limits keys,
        limits.maxAttempts ≤ (live arith limits now ((run arith limits calls).at key [])).length →
          ∃ n, (∃ asking ∈ keys, Asks arith limits now ((run arith limits calls).at asking []) n) ∧
            ∀ t ∈ excess limits (live arith limits now ((run arith limits calls).at key [])),
              t ≤ arith.minus (arith.plus now n) limits.windowSeconds := by
  have hnodup := (within_run arith limits calls).nodup
  -- a key is let through later when its excess is out of the window
  have hfew : ∀ bucket later, (live arith limits later bucket).length < limits.maxAttempts ↔
      ∀ t ∈ excess limits bucket, t ≤ arith.minus later limits.windowSeconds := by
    intro bucket later
    rw [live, length_dropWhile_lt_iff limits.one_le_attempts]
    simp only [decide_eq_true_eq, excess]
  constructor
  · intro hhonest key hretained hmany
    have hkey : key ∈ keys := List.mem_dedup.mp (List.mem_of_mem_drop hretained)
    obtain ⟨seconds, hcheck⟩ : ∃ seconds, (check arith limits keys now (run arith limits calls)).1 = ⟨true,
      seconds⟩ := by
      have hblocked := (check_blocked now keys (run arith limits calls)).mpr ⟨key, hkey, hmany⟩
      refine ⟨(check arith limits keys now (run arith limits calls)).1.retryAfter, ?_⟩
      rw [← hblocked]
    obtain ⟨hasks, -⟩ := asks_retryAfter hcheck
    have hafter := hhonest seconds [] hcheck nofun
    rw [run_append, ← Bool.not_eq_true] at hafter
    refine ⟨seconds, hasks, (hfew _ _).mp (not_le.mp fun hstill => hafter ?_)⟩
    exact (check_again hnodup keys now _).mpr ⟨key, hretained, hstill⟩
  · intro hcond seconds later hcheck hidle
    obtain ⟨-, hlongest⟩ := asks_retryAfter hcheck
    rw [← Bool.not_eq_true]
    intro hblocked
    have hsplit : calls ++ Call.check keys now :: later = (calls ++ [.check keys now]) ++ later := by simp
    rw [hsplit] at hblocked
    have hagain := check_after_idle _ hidle hblocked
    rw [run_append] at hagain
    obtain ⟨key, hretained, hmany⟩ := (check_again hnodup keys now _).mp hagain
    have hblockedNow := hmany.trans (List.dropWhile_suffix _).length_le
    obtain ⟨n, ⟨asking, hasking, hasks⟩, hgone⟩ := hcond key hretained hblockedNow
    refine absurd hmany (not_le.mpr ((hfew _ _).mpr fun t ht => ?_))
    exact (hgone t ht).trans (hmono (hplus now _ _ (hlongest n asking hasking hasks)))

end Waits

/-- Five sign-ins fail within the first second, and a sixth one is told after two seconds to wait for 58: by
then all five are still in the window. -/
theorem retryAfter_truncated :
    ¬ ∀ seconds later,
      (check milliseconds (.of 5 60 10) ["ip"] 2000 (run milliseconds (.of 5 60 10)
        ([500, 600, 700, 800, 900].map (Call.recordFailure ["ip"])))).1 = ⟨true, seconds⟩ → Idle later →
      (check milliseconds (.of 5 60 10) ["ip"] (2000 + 1000 * seconds) (run milliseconds (.of 5 60 10)
        ([500, 600, 700, 800, 900].map (Call.recordFailure ["ip"]) ++ .check ["ip"] 2000 :: later))).1.blocked = false := by
  intro hhonest
  exact absurd (hhonest 58 [] (by decide) nofun) (by decide)

theorem retryAfter_whole_seconds :
    (∀ seconds later,
      (check milliseconds (.of 2 60 10) ["ip"] 9000 (run milliseconds (.of 2 60 10)
        [.recordFailure ["ip"] 1000, .recordFailure ["ip"] 2000])).1 = ⟨true, seconds⟩ → Idle later →
      (check milliseconds (.of 2 60 10) ["ip"] (milliseconds.plus 9000 seconds) (run milliseconds (.of 2 60 10)
        ([.recordFailure ["ip"] 1000, .recordFailure ["ip"] 2000] ++ .check ["ip"] 9000 :: later))).1.blocked = false) ↔
    ∀ key ∈ retained (.of 2 60 10) ["ip"],
      2 ≤ (live milliseconds (.of 2 60 10) 9000 ((run milliseconds (.of 2 60 10)
        [.recordFailure ["ip"] 1000, .recordFailure ["ip"] 2000]).at key [])).length →
      ∃ n, (∃ asking ∈ ["ip"], Asks milliseconds (.of 2 60 10) 9000 ((run milliseconds (.of 2 60 10)
          [.recordFailure ["ip"] 1000, .recordFailure ["ip"] 2000]).at asking []) n) ∧
        ∀ t ∈ excess (.of 2 60 10) (live milliseconds (.of 2 60 10) 9000 ((run milliseconds (.of 2 60 10)
          [.recordFailure ["ip"] 1000, .recordFailure ["ip"] 2000]).at key [])),
          t ≤ milliseconds.minus (milliseconds.plus 9000 n) 60 :=
  retryAfter_honest_iff (fun _ _ hle => Int.sub_le_sub_right hle 60000)
    (fun now _ _ hle => Int.add_le_add_left (Int.mul_le_mul_of_nonneg_left hle (by decide)) now) _ ["ip"] 9000

end RetailSegmentation.LoginThrottle
