import Mathlib.Order.Monotone.Defs
import RetailSegmentation.OrderedDict

/-! The throttle of failed sign-ins (`web/services/login_throttle.py`): for every key, the times of its latest
failures, in a dictionary whose least recently used keys are forgotten first. A time is a float, of which the
throttle asks for comparisons and three operations. -/

namespace RetailSegmentation.LoginThrottle

open Grouping

/-- What the throttle computes with times: `now - seconds`, `now + seconds`, and `int(oldest + seconds - now)`. -/
structure TimeArithmetic (F : Type) where
  minus : F → ℤ → F
  plus : F → ℤ → F
  wait : F → ℤ → F → ℤ

/-- The settings of a throttle, which `__init__` keeps above zero. -/
structure Limits where
  maxAttempts : ℕ
  windowSeconds : ℤ
  maxKeys : ℕ
  one_le_attempts : 1 ≤ maxAttempts
  one_le_window : 1 ≤ windowSeconds
  one_le_keys : 1 ≤ maxKeys

def Limits.of (maxAttempts windowSeconds maxKeys : ℤ) : Limits where
  maxAttempts := (max 1 maxAttempts).toNat
  windowSeconds := max 1 windowSeconds
  maxKeys := (max 1 maxKeys).toNat
  one_le_attempts := by omega
  one_le_window := by omega
  one_le_keys := by omega

structure ThrottleDecision where
  blocked : Bool
  retryAfter : ℤ
  deriving DecidableEq, Repr

/-- The failures on record, by key, oldest first. -/
abbrev Attempts (κ F : Type) := Dict κ (List F)

section Throttle

variable {κ F : Type} [DecidableEq κ] [LinearOrder F] (arith : TimeArithmetic F) (limits : Limits)

def prune (key : κ) (now : F) (attempts : Attempts κ F) : List F × Attempts κ F :=
  let attempts := attempts.setdefault key []
  let bucket := (attempts.at key []).dropWhile fun t => t ≤ arith.minus now limits.windowSeconds
  let attempts := (attempts.put key bucket).moveToEnd key
  if bucket = [] then (bucket, (attempts.pop key).setdefault key []) else (bucket, attempts)

/-- The loop of `check`: the longest wait so far, and the failures on record. -/
def checkKeys (now : F) : List κ → ℤ → Attempts κ F → ℤ × Attempts κ F
  | [], retryAfter, attempts => (retryAfter, attempts)
  | key :: keys, retryAfter, attempts =>
    let pruned := prune arith limits key now attempts
    match pruned.1 with
    | [] => checkKeys now keys retryAfter pruned.2
    | oldest :: rest =>
      if limits.maxAttempts ≤ (oldest :: rest).length then
        checkKeys now keys (max retryAfter (max 1 (arith.wait oldest limits.windowSeconds now))) pruned.2
      else checkKeys now keys retryAfter pruned.2

def check (keys : List κ) (now : F) (attempts : Attempts κ F) : ThrottleDecision × Attempts κ F :=
  let checked := checkKeys arith limits now keys 0 attempts
  (⟨checked.1 ≠ 0, checked.1⟩, checked.2.trim limits.maxKeys)

def recordKey (now : F) (attempts : Attempts κ F) (key : κ) : Attempts κ F :=
  let pruned := prune arith limits key now attempts
  (pruned.2.put key (pruned.1 ++ [now])).moveToEnd key

def recordFailure (keys : List κ) (now : F) (attempts : Attempts κ F) : Attempts κ F :=
  (keys.foldl (recordKey arith limits now) attempts).trim limits.maxKeys

def clear (keys : List κ) (attempts : Attempts κ F) : Attempts κ F := keys.foldl Dict.pop attempts

/-! ### Histories -/

/-- A call of the throttle, with the time its clock shows. -/
inductive Call (κ F : Type) where
  | check (keys : List κ) (now : F)
  | recordFailure (keys : List κ) (now : F)
  | clear (keys : List κ)
  deriving DecidableEq, Repr

def Call.keys : Call κ F → List κ
  | .check keys _ => keys
  | .recordFailure keys _ => keys
  | .clear keys => keys

def Call.time : Call κ F → Option F
  | .check _ now => some now
  | .recordFailure _ now => some now
  | .clear _ => none

def step (attempts : Attempts κ F) : Call κ F → Attempts κ F
  | .check keys now => (check arith limits keys now attempts).2
  | .recordFailure keys now => recordFailure arith limits keys now attempts
  | .clear keys => clear keys attempts

/-- The failures on record after a history of calls, from none. -/
def run (calls : List (Call κ F)) : Attempts κ F := calls.foldl (step arith limits) []

/-- The failures a key has had since it was last cleared, oldest first. -/
def failures (key : κ) (calls : List (Call κ F)) : List F :=
  calls.foldl (fun times call => match call with
    | .check _ _ => times
    | .recordFailure keys now => times ++ List.replicate (keys.count key) now
    | .clear keys => if key ∈ keys then [] else times) []

/-- The clock never goes back. -/
def Timely (calls : List (Call κ F)) : Prop := (calls.filterMap Call.time).Pairwise (· ≤ ·)

/-! ### What a call does to each key -/

/-- The failures of a key that are still in the window. -/
def live (now : F) (bucket : List F) : List F :=
  bucket.dropWhile fun t => t ≤ arith.minus now limits.windowSeconds

theorem live_live {now later : F} (h : arith.minus now limits.windowSeconds ≤ arith.minus later limits.windowSeconds)
    (bucket : List F) : live arith limits later (live arith limits now bucket) = live arith limits later bucket := by
  unfold live
  induction bucket with
  | nil => rfl
  | cons t bucket ih =>
      rw [List.dropWhile_cons]
      by_cases ht : t ≤ arith.minus now limits.windowSeconds
      · rw [if_pos (decide_eq_true ht), List.dropWhile_cons, if_pos (decide_eq_true (ht.trans h)), ih]
      · rw [if_neg (by simpa using ht)]

theorem prune_fst (key : κ) (now : F) (attempts : Attempts κ F) :
    (prune arith limits key now attempts).1 = live arith limits now (attempts.at key []) := by
  unfold prune
  simp only [at_setdefault]
  split <;> rfl

theorem at_prune (key k : κ) (now : F) (attempts : Attempts κ F) :
    (prune arith limits key now attempts).2.at k [] =
      if k = key then live arith limits now (attempts.at key []) else attempts.at k [] := by
  unfold prune
  simp only [at_setdefault]
  split
  · rename_i hempty
    rw [at_setdefault, at_pop]
    by_cases hk : k = key
    · rw [if_pos hk, if_pos hk]
      exact hempty.symm
    · rw [if_neg hk, if_neg hk, at_moveToEnd, at_put, if_neg hk, at_setdefault]
  · rw [at_moveToEnd, at_put, at_setdefault]
    rfl

theorem within_prune {seen : List κ} {attempts : Attempts κ F} (h : attempts.Within seen) {key : κ}
    (hkey : key ∈ seen)
    (now : F) : (prune arith limits key now attempts).2.Within seen := by
  unfold prune
  dsimp only
  split
  · exact ((((h.setdefault hkey []).put hkey _).moveToEnd key).pop key).setdefault hkey []
  · exact ((h.setdefault hkey []).put hkey _).moveToEnd key

theorem at_checkKeys (now : F) (keys : List κ) (retryAfter : ℤ) (attempts : Attempts κ F) (k : κ) :
    (checkKeys arith limits now keys retryAfter attempts).2.at k [] =
      if k ∈ keys then live arith limits now (attempts.at k []) else attempts.at k [] := by
  induction keys generalizing retryAfter attempts with
  | nil => rfl
  | cons key keys ih =>
      have hnext : ∀ r, (checkKeys arith limits now keys r (prune arith limits key now attempts).2).2.at k [] =
          if k ∈ key :: keys then live arith limits now (attempts.at k []) else attempts.at k [] := by
        intro r
        rw [ih, at_prune]
        by_cases hkey : k = key
        · subst hkey
          rw [if_pos rfl, if_pos List.mem_cons_self, live_live arith limits le_rfl, ite_self]
        · rw [if_neg hkey]
          simp only [List.mem_cons, hkey, false_or]
      unfold checkKeys
      dsimp only
      split
      · exact hnext _
      · split
        · exact hnext _
        · exact hnext _

theorem within_checkKeys {seen : List κ} {attempts : Attempts κ F} (h : attempts.Within seen) {keys : List κ}
    (hkeys : ∀ key ∈ keys, key ∈ seen) (now : F) (retryAfter : ℤ) :
    (checkKeys arith limits now keys retryAfter attempts).2.Within seen := by
  induction keys generalizing retryAfter attempts with
  | nil => exact h
  | cons key keys ih =>
      have hpruned := within_prune arith limits h (hkeys key List.mem_cons_self) now
      have hrest := fun k hk => hkeys k (List.mem_cons_of_mem key hk)
      unfold checkKeys
      dsimp only
      split
      · exact ih hpruned hrest _
      · split
        · exact ih hpruned hrest _
        · exact ih hpruned hrest _

/-- A blocked key asks for a wait of at least `n` seconds. -/
def Asks (now : F) (bucket : List F) (n : ℤ) : Prop :=
  ∃ oldest rest, live arith limits now bucket = oldest :: rest ∧ limits.maxAttempts ≤ (oldest :: rest).length ∧
    n ≤ max 1 (arith.wait oldest limits.windowSeconds now)

theorem le_checkKeys (now : F) (keys : List κ) (retryAfter : ℤ) (attempts : Attempts κ F) (n : ℤ) :
    n ≤ (checkKeys arith limits now keys retryAfter attempts).1 ↔
      n ≤ retryAfter ∨ ∃ key ∈ keys, Asks arith limits now (attempts.at key []) n := by
  induction keys generalizing retryAfter attempts with
  | nil => simp [checkKeys]
  | cons key keys ih =>
      -- pruning a key changes no answer of another, nor its own a second time
      have hasks : ∀ k, Asks arith limits now ((prune arith limits key now attempts).2.at k []) n ↔
          Asks arith limits now (attempts.at k []) n := by
        intro k
        rw [at_prune]
        by_cases hk : k = key
        · rw [if_pos hk, Asks, live_live arith limits le_rfl, hk, Asks]
        · rw [if_neg hk]
      have hnext : ∀ r, n ≤ (checkKeys arith limits now keys r (prune arith limits key now attempts).2).1 ↔
          n ≤ r ∨ ∃ k ∈ keys, Asks arith limits now (attempts.at k []) n := by
        intro r
        rw [ih]
        exact or_congr_right (exists_congr fun k => and_congr_right fun _ => hasks k)
      have hfst := prune_fst arith limits key now attempts
      rw [List.exists_mem_cons_iff]
      unfold checkKeys
      dsimp only
      split
      · rename_i hempty
        rw [hnext]
        have hnot : ¬ Asks arith limits now (attempts.at key []) n := by
          rintro ⟨oldest, rest, hlive, -⟩
          rw [← hfst, hempty] at hlive
          cases hlive
        simp only [hnot, false_or]
      · rename_i oldest rest hbucket
        rw [hfst] at hbucket
        split
        · rename_i hmany
          rw [hnext, le_max_iff, or_assoc]
          refine or_congr_right (or_congr_left ⟨fun hn => ⟨oldest, rest, hbucket, hmany, hn⟩, ?_⟩)
          rintro ⟨oldest', rest', hlive, -, hn⟩
          rw [hbucket] at hlive
          obtain ⟨rfl, -⟩ := List.cons.inj hlive
          exact hn
        · rename_i hfew
          rw [hnext]
          have hnot : ¬ Asks arith limits now (attempts.at key []) n := by
            rintro ⟨oldest', rest', hlive, hmany, -⟩
            rw [hbucket] at hlive
            rw [hlive] at hfew
            exact hfew hmany
          simp only [hnot, false_or]

end Throttle

end RetailSegmentation.LoginThrottle
