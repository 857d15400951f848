import Mathlib.Logic.Function.Basic
import Mathlib.Data.Nat.Notation
import Mathlib.Tactic.Common

/-! A key-value server in the manner of Redis. Every key holds a value of its own type and may have a
deadline; a key that is past its deadline is gone. Connections may watch keys, and learn whether any of them
has been touched since. -/

namespace Redis

/-- A value, and the millisecond it lasts to (`none`: for ever). -/
structure Entry (α : Type) where
  value : α
  deadline : Option ℕ
  deriving DecidableEq, Repr

def Entry.Alive {α : Type} (now : ℕ) (e : Entry α) : Prop := ∀ d, e.deadline = some d → now ≤ d

instance {α : Type} (now : ℕ) (e : Entry α) : Decidable (e.Alive now) := by
  cases h : e.deadline with
  | none => exact isTrue fun d hd => by rw [h] at hd; cases hd
  | some d =>
      by_cases hle : now ≤ d
      · exact isTrue fun d' hd => by rw [h] at hd; exact Option.some.inj hd ▸ hle
      · exact isFalse fun halive => hle (halive d h)

/-- The clock in milliseconds, the keys, and what each connection watches. -/
structure Store (T K : Type) (V : K → Type) where
  now : ℕ
  keys : (k : K) → Option (Entry (V k))
  watched : T → List K
  dirty : T → Bool

namespace Store

variable {T K : Type} {V : K → Type} [DecidableEq K]

/-! ### Operations -/

/-- Replace a key, which everybody who watches it learns. -/
def set (s : Store T K V) (k : K) (e : Option (Entry (V k))) : Store T K V :=
  { s with
    keys := Function.update s.keys k e
    dirty := fun t => s.dirty t || decide (k ∈ s.watched t) }

omit [DecidableEq K] in
def get (s : Store T K V) (k : K) : Option (V k) := (s.keys k).map Entry.value

/-- Write the value of a key, which keeps the deadline it has. -/
def write (s : Store T K V) (k : K) (v : V k) : Store T K V := s.set k (some ⟨v, (s.keys k).bind Entry.deadline⟩)

/-- `DEL` of one key. -/
def del (s : Store T K V) (k : K) : Store T K V := if (s.keys k).isSome then s.set k none else s

/-- `EXPIREAT`, in milliseconds: a deadline that is not ahead deletes the key. -/
def expireAt (s : Store T K V) (k : K) (d : ℕ) : Store T K V :=
  match s.keys k with
  | none => s
  | some e => s.set k (if d ≤ s.now then none else some { e with deadline := some d })

/-- `DEL` of several keys. -/
def dels (s : Store T K V) (ks : List K) : Store T K V := ks.foldl del s

variable [DecidableEq T]

def watch (s : Store T K V) (t : T) (k : K) : Store T K V :=
  { s with watched := Function.update s.watched t (k :: s.watched t) }

def unwatch (s : Store T K V) (t : T) : Store T K V :=
  { s with watched := Function.update s.watched t [], dirty := Function.update s.dirty t false }

omit [DecidableEq T] [DecidableEq K] in
/-- What is left of a key at a later time. -/
def survivor (s : Store T K V) (now : ℕ) (k : K) : Option (Entry (V k)) :=
  (s.keys k).filter fun e => e.Alive now

omit [DecidableEq T] [DecidableEq K] in
/-- Time passes: what is past its deadline is gone, which everybody who watches it learns. -/
def tick (s : Store T K V) (now : ℕ) : Store T K V :=
  { s with
    now
    keys := s.survivor now
    dirty := fun t => s.dirty t || (s.watched t).any fun k => (s.keys k).isSome && (s.survivor now k).isNone }

/-! ### Keys after an operation -/

section Keys

omit [DecidableEq T]

variable {s : Store T K V} {k k' : K}

@[simp] theorem set_keys_self (e : Option (Entry (V k))) : (s.set k e).keys k = e := Function.update_self ..

theorem set_keys_of_ne (e : Option (Entry (V k))) (hne : k' ≠ k) : (s.set k e).keys k' = s.keys k' :=
  Function.update_of_ne hne ..

theorem del_keys_self : (s.del k).keys k = none := by
  unfold del
  split_ifs with h
  · exact set_keys_self none
  · simpa using h

theorem del_keys_of_ne (hne : k' ≠ k) : (s.del k).keys k' = s.keys k' := by
  unfold del
  split_ifs
  · exact set_keys_of_ne none hne
  · rfl

theorem dels_keys (ks : List K) : (s.dels ks).keys k = if k ∈ ks then none else s.keys k := by
  induction ks generalizing s with
  | nil => rfl
  | cons k' ks ih =>
      change ((s.del k').dels ks).keys k = _
      rw [ih]
      by_cases hrest : k ∈ ks
      · simp [hrest]
      · by_cases hne : k = k'
        · subst hne
          simp [hrest, del_keys_self]
        · simp [hrest, hne, del_keys_of_ne hne]

@[simp] theorem set_now (e : Option (Entry (V k))) : (s.set k e).now = s.now := rfl

@[simp] theorem del_now : (s.del k).now = s.now := by
  unfold del
  split_ifs <;> rfl

@[simp] theorem dels_now (ks : List K) : (s.dels ks).now = s.now := by
  induction ks generalizing s with
  | nil => rfl
  | cons k' ks ih => exact (ih (s := s.del k')).trans del_now

/-- A value with the deadline it has been given. -/
def lasting {α : Type} (now : ℕ) (v : α) (d : ℕ) : Option (Entry α) :=
  if d ≤ now then none else some ⟨v, some d⟩

/-- A write and the deadline that is set with it. -/
theorem expireAt_set_keys (v : V k) (old : Option ℕ) (d : ℕ) :
    ((s.set k (some ⟨v, old⟩)).expireAt k d).keys = Function.update s.keys k (lasting s.now v d) := by
  unfold expireAt
  rw [set_keys_self]
  exact Function.update_idem ..

theorem expireAt_set_now (v : V k) (old : Option ℕ) (d : ℕ) :
    ((s.set k (some ⟨v, old⟩)).expireAt k d).now = s.now := by
  unfold expireAt
  rw [set_keys_self]
  rfl

end Keys

/-! ### What watching shows -/

/-- What a connection watches is as it was, or it has learnt otherwise. -/
structure Shows (t : T) (s s' : Store T K V) : Prop where
  watched : s'.watched t = s.watched t
  same : s'.dirty t = false → s.dirty t = false ∧ ∀ k ∈ s.watched t, s'.keys k = s.keys k

section Shows

omit [DecidableEq T] [DecidableEq K]

variable {t : T} {s s' s'' : Store T K V} {k : K}

theorem Shows.refl (t : T) (s : Store T K V) : Shows t s s := ⟨rfl, fun h => ⟨h, fun _ _ => rfl⟩⟩

theorem Shows.trans (h : Shows t s s') (h' : Shows t s' s'') : Shows t s s'' := by
  refine ⟨h'.watched.trans h.watched, fun hclean => ?_⟩
  obtain ⟨hclean', hsame'⟩ := h'.same hclean
  obtain ⟨hclean, hsame⟩ := h.same hclean'
  exact ⟨hclean, fun k hk => (hsame' k (h.watched ▸ hk)).trans (hsame k hk)⟩

variable [DecidableEq K]

theorem Shows.set (t : T) (s : Store T K V) (e : Option (Entry (V k))) : Shows t s (s.set k e) := by
  refine ⟨rfl, fun hclean => ?_⟩
  obtain ⟨hclean, hnot⟩ := Bool.or_eq_false_iff.mp hclean
  refine ⟨hclean, fun k' hk' => set_keys_of_ne e ?_⟩
  rintro rfl
  exact of_decide_eq_false hnot hk'

theorem Shows.del (t : T) (s : Store T K V) (k : K) : Shows t s (s.del k) := by
  unfold Store.del
  split_ifs
  · exact .set t s none
  · exact .refl t s

theorem Shows.expireAt (t : T) (s : Store T K V) (k : K) (d : ℕ) : Shows t s (s.expireAt k d) := by
  unfold Store.expireAt
  split
  · exact .refl t s
  · exact .set t s _

theorem Shows.dels (t : T) (s : Store T K V) (ks : List K) : Shows t s (s.dels ks) := by
  induction ks generalizing s with
  | nil => exact .refl t s
  | cons k ks ih => exact (Shows.del t s k).trans (ih (s.del k))

omit [DecidableEq K] in
theorem Shows.tick (t : T) (s : Store T K V) (now : ℕ) : Shows t s (s.tick now) := by
  refine ⟨rfl, fun hclean => ?_⟩
  obtain ⟨hclean, hnone⟩ := Bool.or_eq_false_iff.mp hclean
  refine ⟨hclean, fun k hk => ?_⟩
  have hkept : ¬ ((s.keys k).isSome && (s.survivor now k).isNone) = true :=
    fun h => absurd (List.any_eq_true.mpr ⟨k, hk, h⟩) (by rw [hnone]; decide)
  change s.survivor now k = s.keys k
  unfold survivor at hkept ⊢
  cases h : s.keys k with
  | none => rfl
  | some e =>
      rw [h] at hkept
      by_cases halive : e.Alive now
      · simp [halive]
      · exact absurd (by simp [halive]) hkept

variable [DecidableEq T] {u : T}

omit [DecidableEq K] in
theorem Shows.watch (hu : u ≠ t) (s : Store T K V) (k : K) : Shows u s (s.watch t k) :=
  ⟨Function.update_of_ne hu .., fun hclean => ⟨hclean, fun _ _ => rfl⟩⟩

omit [DecidableEq K] in
theorem Shows.unwatch (hu : u ≠ t) (s : Store T K V) : Shows u s (s.unwatch t) := by
  refine ⟨Function.update_of_ne hu .., fun hclean => ⟨?_, fun _ _ => rfl⟩⟩
  rwa [show (s.unwatch t).dirty u = s.dirty u from Function.update_of_ne hu ..] at hclean

end Shows
end Store
end Redis
