import RetailSegmentation.ProgramSyntax

/-! Programs that may be cut short: what holds at every point of a run, wherever it ends. -/

namespace Program.Prog

variable {C : Type} {R : C → Type} {E α β σ : Type}

/-- A run up to some point. -/
inductive Cut (step : (c : C) → σ → R c → σ → Prop) : Prog C R E α → σ → σ → Prop where
  | here {p s} : Cut step p s s
  | call {c k s r s' s''} : step c s r s' → Cut step (k r) s' s'' → Cut step (.call c k) s s''

/-- At every point of every run `I` holds, and the value it may end with is as `P` says. -/
def Through (step : (c : C) → σ → R c → σ → Prop) (I : σ → Prop) (P : α → σ → Prop) : Prog C R E α → σ → Prop
  | .ret a, s => I s ∧ P a s
  | .raise _, s => I s
  | .call c k, s => I s ∧ ∀ r s', step c s r s' → (k r).Through step I P s'

variable {step : (c : C) → σ → R c → σ → Prop} {I : σ → Prop} {P P' : α → σ → Prop} {Q : β → σ → Prop}
  {p : Prog C R E α} {s s' : σ}

theorem Through.start (h : p.Through step I P s) : I s := by
  cases p with
  | ret a => exact h.1
  | raise e => exact h
  | call c k => exact h.1

theorem Through.mono (h : p.Through step I P s) (hP : ∀ a s', P a s' → P' a s') : p.Through step I P' s := by
  induction p generalizing s with
  | ret a => exact ⟨h.1, hP _ _ h.2⟩
  | raise e => exact h
  | call c k ih => exact ⟨h.1, fun r s' hstep => ih r (h.2 r s' hstep)⟩

theorem Through.bind {f : α → Prog C R E β} (h : p.Through step I P s)
    (hf : ∀ a s', I s' → P a s' → (f a).Through step I Q s') : (p >>= f).Through step I Q s := by
  induction p generalizing s with
  | ret a => exact hf a s h.1 h.2
  | raise e => exact h
  | call c k ih => exact ⟨h.1, fun r s' hstep => ih r (h.2 r s' hstep)⟩

theorem Through.tryCatch {g : E → Prog C R E α} (h : p.Through step I P s)
    (hg : ∀ e s', I s' → (g e).Through step I P s') : (p.tryCatch g).Through step I P s := by
  induction p generalizing s with
  | ret a => exact h
  | raise e => exact hg e s h
  | call c k ih => exact ⟨h.1, fun r s' hstep => ih r (h.2 r s' hstep)⟩

theorem Cut.keeps (h : Cut step p s s') (hp : p.Through step I P s) : I s' := by
  induction h with
  | here => exact hp.start
  | call hstep _ ih => exact ih (hp.2 _ _ hstep)

theorem Exec.keeps {o : Except E α} (h : Exec step p s o s') (hp : p.Through step I P s) :
    I s' ∧ ∀ a, o = .ok a → P a s' := by
  induction h with
  | ret =>
    refine ⟨hp.1, fun a ha => ?_⟩
    cases ha
    exact hp.2
  | raise => exact ⟨hp, fun a ha => by cases ha⟩
  | call hstep _ ih => exact ih (hp.2 _ _ hstep)

/-! ### Runs by a script -/

/-- A run where the script answers every command, as far as it does. -/
def attempt (turn : (c : C) → σ → Option (R c × σ)) : Prog C R E α → σ → Option (Except E α × σ)
  | .ret a, s => some (.ok a, s)
  | .raise e, s => some (.error e, s)
  | .call c k, s => (turn c s).bind fun reply => (k reply.1).attempt turn reply.2

theorem exec_of_attempt {turn : (c : C) → σ → Option (R c × σ)}
    (hturn : ∀ c s r s', turn c s = some (r, s') → step c s r s') {o : Except E α}
    (h : p.attempt turn s = some (o, s')) : Exec step p s o s' := by
  induction p generalizing s with
  | ret a =>
    obtain ⟨rfl, rfl⟩ := Prod.mk.inj (Option.some.inj h)
    exact .ret
  | raise e =>
    obtain ⟨rfl, rfl⟩ := Prod.mk.inj (Option.some.inj h)
    exact .raise
  | call c k ih =>
    obtain ⟨reply, hreply, hrest⟩ := Option.bind_eq_some_iff.mp h
    exact .call (hturn c s reply.1 reply.2 hreply) (ih reply.1 hrest)

end Program.Prog
