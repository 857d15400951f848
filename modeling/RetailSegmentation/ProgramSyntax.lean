import Mathlib.Logic.Function.Basic
import Mathlib.Tactic.Common

/-! Programs as trees of commands. A program issues a command, waits for its reply and goes on with
it, and ends with a value or an exception. What a command does is not part of the tree: the same
program is run alone by a handler, or interleaved with others by a machine. -/

namespace Program

/-- A program over commands `C` with replies `R c`, ending with an `α` or an exception `E`. -/
inductive Prog (C : Type) (R : C → Type) (E α : Type) : Type where
  | ret (value : α)
  | raise (error : E)
  | call (command : C) (next : R command → Prog C R E α)

namespace Prog

variable {C : Type} {R : C → Type} {E α β σ : Type}

def bind : Prog C R E α → (α → Prog C R E β) → Prog C R E β
  | .ret a, f => f a
  | .raise e, _ => .raise e
  | .call c k, f => .call c fun r => (k r).bind f

/-- `try p except e: h e`: the handler sees exceptions of `p` only, and may raise another. -/
def tryCatch : Prog C R E α → (E → Prog C R E α) → Prog C R E α
  | .ret a, _ => .ret a
  | .raise e, h => h e
  | .call c k, h => .call c fun r => (k r).tryCatch h

instance : Monad (Prog C R E) where
  pure := .ret
  bind := bind

/-- One command, whose reply is the result. -/
def send (c : C) : Prog C R E (R c) := .call c .ret

@[simp] theorem pure_eq (a : α) : (pure a : Prog C R E α) = .ret a := rfl

@[simp] theorem ret_bind (a : α) (f : α → Prog C R E β) : (Prog.ret a >>= f) = f a := rfl

@[simp] theorem raise_bind (e : E) (f : α → Prog C R E β) :
    ((Prog.raise e : Prog C R E α) >>= f) = .raise e := rfl

@[simp] theorem call_bind (c : C) (k : R c → Prog C R E α) (f : α → Prog C R E β) :
    (Prog.call c k >>= f) = .call c fun r => k r >>= f := rfl

@[simp] theorem ret_tryCatch (a : α) (h : E → Prog C R E α) :
    (Prog.ret a : Prog C R E α).tryCatch h = .ret a := rfl

@[simp] theorem raise_tryCatch (e : E) (h : E → Prog C R E α) :
    (Prog.raise e : Prog C R E α).tryCatch h = h e := rfl

@[simp] theorem call_tryCatch (c : C) (k : R c → Prog C R E α) (h : E → Prog C R E α) :
    (Prog.call c k).tryCatch h = .call c fun r => (k r).tryCatch h := rfl

@[simp] theorem send_bind (c : C) (f : R c → Prog C R E β) :
    (send c >>= f : Prog C R E β) = .call c f := rfl

/-! ### Running a program alone -/

/-- Run to the end, a handler answering every command. -/
def run (h : (c : C) → σ → R c × σ) : Prog C R E α → σ → Except E α × σ
  | .ret a, s => (.ok a, s)
  | .raise e, s => (.error e, s)
  | .call c k, s => (k (h c s).1).run h (h c s).2

variable (h : (c : C) → σ → R c × σ)

@[simp] theorem run_ret (a : α) (s : σ) : (Prog.ret a : Prog C R E α).run h s = (.ok a, s) := rfl

@[simp] theorem run_raise (e : E) (s : σ) :
    (Prog.raise e : Prog C R E α).run h s = (.error e, s) := rfl

@[simp] theorem run_call (c : C) (k : R c → Prog C R E α) (s : σ) :
    (Prog.call c k).run h s = (k (h c s).1).run h (h c s).2 := rfl

theorem run_bind (p : Prog C R E α) (f : α → Prog C R E β) (s : σ) :
    (p >>= f).run h s = match p.run h s with
      | (.ok a, s') => (f a).run h s'
      | (.error e, s') => (.error e, s') := by
  induction p generalizing s with
  | ret a => rfl
  | raise e => rfl
  | call c k ih => exact ih _ _

theorem run_tryCatch (p : Prog C R E α) (g : E → Prog C R E α) (s : σ) :
    (p.tryCatch g).run h s = match p.run h s with
      | (.ok a, s') => (.ok a, s')
      | (.error e, s') => (g e).run h s' := by
  induction p generalizing s with
  | ret a => rfl
  | raise e => rfl
  | call c k ih => exact ih _ _

/-- Every command the program can issue, whatever the replies, satisfies `P`. -/
def Issues (P : C → Prop) : Prog C R E α → Prop
  | .ret _ => True
  | .raise _ => True
  | .call c k => P c ∧ ∀ r, (k r).Issues P

@[simp] theorem issues_ret (P : C → Prop) (a : α) : (Prog.ret a : Prog C R E α).Issues P := trivial

@[simp] theorem issues_raise (P : C → Prop) (e : E) : (Prog.raise e : Prog C R E α).Issues P := trivial

@[simp] theorem issues_call (P : C → Prop) (c : C) (k : R c → Prog C R E α) :
    (Prog.call c k).Issues P ↔ P c ∧ ∀ r, (k r).Issues P := Iff.rfl

theorem Issues.mono {P P' : C → Prop} {p : Prog C R E α} (hp : p.Issues P) (hP : ∀ c, P c → P' c) :
    p.Issues P' := by
  induction p with
  | ret a => trivial
  | raise e => trivial
  | call c k ih => exact ⟨hP c hp.1, fun r => ih r (hp.2 r)⟩

theorem Issues.bind {P : C → Prop} {p : Prog C R E α} {f : α → Prog C R E β} (hp : p.Issues P)
    (hf : ∀ a, (f a).Issues P) : (p >>= f).Issues P := by
  induction p with
  | ret a => exact hf a
  | raise e => trivial
  | call c k ih => exact ⟨hp.1, fun r => ih r (hp.2 r)⟩

theorem Issues.tryCatch {P : C → Prop} {p : Prog C R E α} {g : E → Prog C R E α} (hp : p.Issues P)
    (hg : ∀ e, (g e).Issues P) : (p.tryCatch g).Issues P := by
  induction p with
  | ret a => trivial
  | raise e => exact hg e
  | call c k ih => exact ⟨hp.1, fun r => ih r (hp.2 r)⟩

/-- Every value the program can end with, whatever the replies, satisfies `V`. -/
def Returns (V : α → Prop) : Prog C R E α → Prop
  | .ret a => V a
  | .raise _ => True
  | .call _ k => ∀ r, (k r).Returns V

@[simp] theorem returns_ret (V : α → Prop) (a : α) : (Prog.ret a : Prog C R E α).Returns V ↔ V a := Iff.rfl

@[simp] theorem returns_raise (V : α → Prop) (e : E) : (Prog.raise e : Prog C R E α).Returns V := trivial

@[simp] theorem returns_call (V : α → Prop) (c : C) (k : R c → Prog C R E α) :
    (Prog.call c k).Returns V ↔ ∀ r, (k r).Returns V := Iff.rfl

theorem Returns.bind {V : α → Prop} {W : β → Prop} {p : Prog C R E α} {f : α → Prog C R E β}
    (hp : p.Returns V) (hf : ∀ a, V a → (f a).Returns W) : (p >>= f).Returns W := by
  induction p with
  | ret a => exact hf a hp
  | raise e => trivial
  | call c k ih => exact fun r => ih r (hp r)

theorem Returns.tryCatch {V : α → Prop} {p : Prog C R E α} {g : E → Prog C R E α} (hp : p.Returns V)
    (hg : ∀ e, (g e).Returns V) : (p.tryCatch g).Returns V := by
  induction p with
  | ret a => exact hp
  | raise e => exact hg e
  | call c k ih => exact fun r => ih r (hp r)

/-- What follows need only be looked at for the values the program can end with. -/
theorem Issues.bind_of_returns {P : C → Prop} {V : α → Prop} {p : Prog C R E α} {f : α → Prog C R E β}
    (hp : p.Issues P) (hV : p.Returns V) (hf : ∀ a, V a → (f a).Issues P) : (p >>= f).Issues P := by
  induction p with
  | ret a => exact hf a hV
  | raise e => trivial
  | call c k ih => exact ⟨hp.1, fun r => ih r (hp.2 r) (hV r)⟩

theorem returns_true (p : Prog C R E α) : p.Returns fun _ => True := by
  induction p with
  | ret a => trivial
  | raise e => trivial
  | call c k ih => exact ih

/-! ### Running a program against an environment that may answer in several ways -/

/-- A complete execution under `step c s r s'`: command `c` in `s` is answered `r`, leaving `s'`. -/
inductive Exec (step : (c : C) → σ → R c → σ → Prop) :
    Prog C R E α → σ → Except E α → σ → Prop where
  | ret {a s} : Exec step (.ret a) s (.ok a) s
  | raise {e s} : Exec step (.raise e) s (.error e) s
  | call {c k s r s' o s''} : step c s r s' → Exec step (k r) s' o s'' → Exec step (.call c k) s o s''

/-- The weakest precondition: every execution ends as `Q` says. -/
def wp (step : (c : C) → σ → R c → σ → Prop) :
    Prog C R E α → (Except E α → σ → Prop) → σ → Prop
  | .ret a, Q, s => Q (.ok a) s
  | .raise e, Q, s => Q (.error e) s
  | .call c k, Q, s => ∀ r s', step c s r s' → (k r).wp step Q s'

variable {step : (c : C) → σ → R c → σ → Prop} {Q Q' : Except E α → σ → Prop}

@[simp] theorem wp_ret (a : α) (s : σ) : (Prog.ret a : Prog C R E α).wp step Q s ↔ Q (.ok a) s := Iff.rfl

@[simp] theorem wp_raise (e : E) (s : σ) :
    (Prog.raise e : Prog C R E α).wp step Q s ↔ Q (.error e) s := Iff.rfl

@[simp] theorem wp_call (c : C) (k : R c → Prog C R E α) (s : σ) :
    (Prog.call c k).wp step Q s ↔ ∀ r s', step c s r s' → (k r).wp step Q s' := Iff.rfl

theorem wp_bind (p : Prog C R E α) (f : α → Prog C R E β) (Q : Except E β → σ → Prop) (s : σ) :
    (p >>= f).wp step Q s ↔ p.wp step (fun o s' => match o with
      | .ok a => (f a).wp step Q s'
      | .error e => Q (.error e) s') s := by
  induction p generalizing s with
  | ret a => rfl
  | raise e => rfl
  | call c k ih =>
      constructor
      · intro hw r s' hr
        exact (ih r s').mp (hw r s' hr)
      · intro hw r s' hr
        exact (ih r s').mpr (hw r s' hr)

theorem wp_tryCatch (p : Prog C R E α) (g : E → Prog C R E α) (s : σ) :
    (p.tryCatch g).wp step Q s ↔ p.wp step (fun o s' => match o with
      | .ok a => Q (.ok a) s'
      | .error e => (g e).wp step Q s') s := by
  induction p generalizing s with
  | ret a => rfl
  | raise e => rfl
  | call c k ih =>
      constructor
      · intro hw r s' hr
        exact (ih r s').mp (hw r s' hr)
      · intro hw r s' hr
        exact (ih r s').mpr (hw r s' hr)

/-- An execution ends where the weakest precondition says it may. -/
theorem Exec.of_wp {p : Prog C R E α} {s s' : σ} {o : Except E α} (hx : Exec step p s o s')
    (hw : p.wp step Q s) : Q o s' := by
  induction hx with
  | ret => exact hw
  | raise => exact hw
  | call hstep _ ih => exact ih (hw _ _ hstep)

/-- Every execution ends as `Q` says exactly where the weakest precondition holds. -/
theorem forall_exec_iff {p : Prog C R E α} {s : σ} : (∀ o s', Exec step p s o s' → Q o s') ↔ p.wp step Q s := by
  refine ⟨fun hall => ?_, fun hw o s' hx => hx.of_wp hw⟩
  induction p generalizing s with
  | ret a => exact hall _ _ .ret
  | raise e => exact hall _ _ .raise
  | call c k ih => exact fun r s' hstep => ih r fun o s'' hx => hall o s'' (.call hstep hx)

/-- Where every command is answered, there is an execution. -/
theorem exists_exec (htotal : ∀ c s, ∃ r s', step c s r s') (p : Prog C R E α) (s : σ) :
    ∃ o s', Exec step p s o s' := by
  induction p generalizing s with
  | ret a => exact ⟨_, _, .ret⟩
  | raise e => exact ⟨_, _, .raise⟩
  | call c k ih =>
      obtain ⟨r, s', hstep⟩ := htotal c s
      obtain ⟨o, s'', hx⟩ := ih r s'
      exact ⟨o, s'', .call hstep hx⟩

end Prog

/-! ### Exceptions and their causes -/

/-- What a reply may be, what it shows, which commands let it stand, and which exceptions need a cause. -/
structure Causes (C : Type) (R : C → Type) (E X : Type) where
  possible : (c : C) → R c → Prop
  shows : (c : C) → R c → X → Prop
  quiet : C → Prop
  needs : E → Prop

section Causes

variable {C : Type} {R : C → Type} {E α β X : Type} {K : Causes C R E X}

def Causes.Excuses (K : Causes C R E X) (fits : X → E → Prop) (x : Option X) (e : E) : Prop :=
  K.needs e → ∃ shown, x = some shown ∧ fits shown e

/-- Every exception the program can raise fits a cause: `x`, or one shown since, with only quiet commands
after it. -/
def Prog.Justified (K : Causes C R E X) (fits : X → E → Prop) : Option X → Prog C R E α → Prop
  | _, .ret _ => True
  | x, .raise e => K.Excuses fits x e
  | x, .call c k => ∀ r, K.possible c r → ∃ x',
      (x' = none ∨ x' = x ∧ K.quiet c ∨ ∃ shown, x' = some shown ∧ K.shows c r shown) ∧
      (k r).Justified K fits x'

namespace Prog

variable {fits fits' : X → E → Prop} {x : Option X}

theorem Justified.of_none {p : Prog C R E α} (hp : p.Justified K fits none) : p.Justified K fits x := by
  cases p with
  | ret a => trivial
  | raise e =>
      intro hneeds
      obtain ⟨shown, hnone, -⟩ := hp hneeds
      cases hnone
  | call c k =>
      intro r hr
      obtain ⟨x', hx', hk⟩ := hp r hr
      rcases hx' with rfl | ⟨rfl, -⟩ | hshown
      · exact ⟨none, .inl rfl, hk⟩
      · exact ⟨none, .inl rfl, hk⟩
      · exact ⟨x', .inr (.inr hshown), hk⟩

theorem Justified.bind {p : Prog C R E α} {f : α → Prog C R E β} (hp : p.Justified K fits x)
    (hf : ∀ a, (f a).Justified K fits none) : (p >>= f).Justified K fits x := by
  induction p generalizing x with
  | ret a => exact (hf a).of_none
  | raise e => exact hp
  | call c k ih =>
      intro r hr
      obtain ⟨x', hx', hk⟩ := hp r hr
      exact ⟨x', hx', ih r hk⟩

theorem Justified.tryCatch {p : Prog C R E α} {g : E → Prog C R E α} (hp : p.Justified K fits' x)
    (hg : ∀ x e, K.Excuses fits' x e → (g e).Justified K fits x) : (p.tryCatch g).Justified K fits x := by
  induction p generalizing x with
  | ret a => trivial
  | raise e => exact hg x e hp
  | call c k ih =>
      intro r hr
      obtain ⟨x', hx', hk⟩ := hp r hr
      exact ⟨x', hx', ih r hk⟩

end Prog
end Causes
end Program
