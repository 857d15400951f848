import RetailSegmentation.ProgramInterference

/-! Protocols: which commands a thread may issue at a label, and where their replies lead. A program
is checked against its protocol once, by its structure alone; a contract implements a protocol command
by command. What a thread waiting for a reply may be waiting for is then known as well. -/

namespace Program

variable {T C : Type} {R : C → Type} {E α β σ Λ : Type}

structure Protocol (C : Type) (R : C → Type) (Λ : Type) where
  may : C → Λ → Prop
  next : (c : C) → R c → Λ → Λ → Prop

namespace Prog

variable {A : Protocol C R Λ} {ℓ : Λ}

/-- The program issues only what the protocol lets it, and ends as `Q` says. -/
def Follows (A : Protocol C R Λ) : Prog C R E α → Λ → (Except E α → Λ → Prop) → Prop
  | .ret a, ℓ, Q => Q (.ok a) ℓ
  | .raise e, ℓ, Q => Q (.error e) ℓ
  | .call c k, ℓ, Q => A.may c ℓ ∧ ∀ r ℓ', A.next c r ℓ ℓ' → Follows A (k r) ℓ' Q

@[simp] theorem follows_ret {a : α} {Q : Except E α → Λ → Prop} :
    (Prog.ret a : Prog C R E α).Follows A ℓ Q ↔ Q (.ok a) ℓ := Iff.rfl

@[simp] theorem follows_raise {e : E} {Q : Except E α → Λ → Prop} :
    (Prog.raise e : Prog C R E α).Follows A ℓ Q ↔ Q (.error e) ℓ := Iff.rfl

theorem Follows.mono {p : Prog C R E α} {Q Q' : Except E α → Λ → Prop} (hp : p.Follows A ℓ Q)
    (hQ : ∀ o ℓ', Q o ℓ' → Q' o ℓ') : p.Follows A ℓ Q' := by
  induction p generalizing ℓ with
  | ret a => exact hQ _ _ hp
  | raise e => exact hQ _ _ hp
  | call c k ih => exact ⟨hp.1, fun r ℓ' hnext => ih r (hp.2 r ℓ' hnext)⟩

variable {P P₁ : α → Λ → Prop} {P' : β → Λ → Prop} {F G : E → Λ → Prop}

theorem Follows.weaken {p : Prog C R E α} (hp : p.Follows A ℓ (Contract.Ends P F))
    (hP : ∀ a ℓ', P a ℓ' → P₁ a ℓ') (hF : ∀ e ℓ', F e ℓ' → G e ℓ') :
    p.Follows A ℓ (Contract.Ends P₁ G) := by
  refine hp.mono ?_
  rintro (e | a) ℓ' h
  · exact hF e ℓ' h
  · exact hP a ℓ' h

theorem Follows.bind {p : Prog C R E α} {f : α → Prog C R E β}
    (hp : p.Follows A ℓ (Contract.Ends P F))
    (hf : ∀ a ℓ', P a ℓ' → (f a).Follows A ℓ' (Contract.Ends P' F)) :
    (p >>= f).Follows A ℓ (Contract.Ends P' F) := by
  induction p generalizing ℓ with
  | ret a => exact hf a ℓ hp
  | raise e => exact hp
  | call c k ih => exact ⟨hp.1, fun r ℓ' hnext => ih r (hp.2 r ℓ' hnext)⟩

theorem Follows.tryCatch {p : Prog C R E α} {g : E → Prog C R E α}
    (hp : p.Follows A ℓ (Contract.Ends P F))
    (hg : ∀ e ℓ', F e ℓ' → (g e).Follows A ℓ' (Contract.Ends P G)) :
    (p.tryCatch g).Follows A ℓ (Contract.Ends P G) := by
  induction p generalizing ℓ with
  | ret a => exact hp
  | raise e => exact hg e ℓ hp
  | call c k ih => exact ⟨hp.1, fun r ℓ' hnext => ih r (hp.2 r ℓ' hnext)⟩

/-- A program whose commands the protocol always lets it issue follows it. -/
theorem Follows.of_issues {p : Prog C R E α} (hp : p.Issues fun c => ∀ ℓ, A.may c ℓ) :
    p.Follows A ℓ (Contract.Ends (fun _ _ => True) fun _ _ => True) := by
  induction p generalizing ℓ with
  | ret a => trivial
  | raise e => trivial
  | call c k ih => exact ⟨hp.1 ℓ, fun r ℓ' _ => ih r (hp.2 r)⟩

/-- A program of commands that leave the label as it is stays at its label. -/
theorem Follows.of_quiet {quiet : C → Prop} {V : α → Prop} {p : Prog C R E α} (hp : p.Issues quiet)
    (hV : p.Returns V) (hquiet : ∀ c, quiet c → A.may c ℓ ∧ ∀ r ℓ', A.next c r ℓ ℓ' → ℓ' = ℓ) :
    p.Follows A ℓ (Contract.Ends (fun a ℓ' => V a ∧ ℓ' = ℓ) fun _ ℓ' => ℓ' = ℓ) := by
  induction p with
  | ret a => exact ⟨hV, rfl⟩
  | raise e => rfl
  | call c k ih =>
      refine ⟨(hquiet c hp.1).1, fun r ℓ' hnext => ?_⟩
      obtain rfl := (hquiet c hp.1).2 r ℓ' hnext
      exact ih r (hp.2 r) (hV r)

end Prog

namespace Contract

/-- What the protocol lets thread `t` issue keeps the contract and leads where the protocol says. -/
def Implements (K : Contract T C R σ Λ) (M : Machine T C R σ) (A : T → Protocol C R Λ) : Prop :=
  ∀ t c ℓ, (A t).may c ℓ → K.CmdSpec M t c ℓ fun r ℓ' => (A t).next c r ℓ ℓ'

/-- The invariant holds, and every living thread follows its protocol from a label that holds of it. -/
structure Obeys (K : Contract T C R σ Λ) (A : T → Protocol C R Λ) (Q : T → Except E α → Λ → Prop)
    (cfg : Config T C R E α σ) : Prop where
  inv : K.inv cfg.state
  follows : ∀ t p, cfg.threads t = some p → ∃ ℓ, K.at_ t ℓ cfg.state ∧ p.Follows (A t) ℓ (Q t)

variable {K : Contract T C R σ Λ} {M : Machine T C R σ} {A : T → Protocol C R Λ}
  {Q : T → Except E α → Λ → Prop} {cfg cfg' : Config T C R E α σ} {t : T}

theorem Obeys.initial {prog : T → Prog C R E α} {s : σ} (hinv : K.inv s)
    (hprog : ∀ t, ∃ ℓ, K.at_ t ℓ s ∧ (prog t).Follows (A t) ℓ (Q t)) :
    K.Obeys A Q (Config.initial prog s) := by
  refine ⟨hinv, fun t p hp => ?_⟩
  obtain rfl : prog t = p := Option.some.inj hp
  exact hprog t

/-- What a thread is about to issue, its protocol lets it. -/
theorem Obeys.issues (hobeys : K.Obeys A Q cfg) {c : C} {k : R c → Prog C R E α}
    (hthread : cfg.threads t = some (.call c k)) : ∃ ℓ, K.at_ t ℓ cfg.state ∧ (A t).may c ℓ := by
  obtain ⟨ℓ, hat, hmay, -⟩ := hobeys.follows t _ hthread
  exact ⟨ℓ, hat, hmay⟩

theorem Obeys.ended (hobeys : K.Obeys A Q cfg) {a : α} (hthread : cfg.threads t = some (.ret a)) :
    ∃ ℓ, K.at_ t ℓ cfg.state ∧ Q t (.ok a) ℓ :=
  hobeys.follows t _ hthread

theorem Obeys.raised (hobeys : K.Obeys A Q cfg) {e : E} (hthread : cfg.threads t = some (.raise e)) :
    ∃ ℓ, K.at_ t ℓ cfg.state ∧ Q t (.error e) ℓ :=
  hobeys.follows t _ hthread

theorem Obeys.guar (himplements : K.Implements M A) (hobeys : K.Obeys A Q cfg) {c : C}
    {k : R c → Prog C R E α} {r : R c} {s' : σ} (hthread : cfg.threads t = some (.call c k))
    (hstep : M.step t c cfg.state r s') : K.guar t c cfg.state r s' := by
  obtain ⟨ℓ, hat, hmay⟩ := hobeys.issues hthread
  exact (himplements t c ℓ hmay _ _ _ hobeys.inv hat hstep).1

variable [DecidableEq T]

/-- What else a thread follows may be followed from here on. -/
theorem Obeys.follow (hobeys : K.Obeys A Q cfg) {p : Prog C R E α} {ℓ : Λ} {Q' : Except E α → Λ → Prop}
    (hthread : cfg.threads t = some p) (hat : K.at_ t ℓ cfg.state) (hfollows : p.Follows (A t) ℓ Q') :
    K.Obeys A (Function.update Q t Q') cfg := by
  refine ⟨hobeys.inv, fun u q hu => ?_⟩
  by_cases hut : u = t
  · subst hut
    obtain rfl := Option.some.inj (hthread.symm.trans hu)
    exact ⟨ℓ, hat, by rwa [Function.update_self]⟩
  · rw [Function.update_of_ne hut]
    exact hobeys.follows u q hu

theorem Obeys.step (himplements : K.Implements M A) (hclosed : K.Closed M) (hobeys : K.Obeys A Q cfg)
    (hstep : M.Step cfg cfg') : K.Obeys A Q cfg' := by
  cases hstep with
  | @command t c k r s' hthread hstep =>
      obtain ⟨ℓ, hat, hmay, hnext⟩ := hobeys.follows t _ hthread
      obtain ⟨-, hkeeps, ℓ', hat', hℓ'⟩ := himplements t c ℓ hmay _ _ _ hobeys.inv hat hstep
      refine ⟨hkeeps.inv, fun u p hu => ?_⟩
      by_cases hut : u = t
      · subst hut
        obtain rfl : k r = p := Option.some.inj ((Function.update_self u _ _).symm.trans hu)
        exact ⟨ℓ', hat', hnext r ℓ' hℓ'⟩
      · obtain ⟨m, hm, hp⟩ := hobeys.follows u p ((Function.update_of_ne hut _ _).symm.trans hu)
        exact ⟨m, hkeeps.others u hut m hm, hp⟩
  | env henv =>
      obtain ⟨hinv, hat⟩ := hclosed.env _ _ hobeys.inv henv
      refine ⟨hinv, fun u p hu => ?_⟩
      obtain ⟨m, hm, hp⟩ := hobeys.follows u p hu
      exact ⟨m, hat u m hm, hp⟩
  | @halt t s' hhalt =>
      have hkeeps := hclosed.halt t _ _ hobeys.inv hhalt
      refine ⟨hkeeps.inv, fun u p hu => ?_⟩
      by_cases hut : u = t
      · subst hut
        exact absurd ((Function.update_self u _ _).symm.trans hu) (by simp)
      · obtain ⟨m, hm, hp⟩ := hobeys.follows u p ((Function.update_of_ne hut _ _).symm.trans hu)
        exact ⟨m, hkeeps.others u hut m hm, hp⟩

/-- Threads that follow their protocols do so in every interleaving. -/
theorem Obeys.reaches (himplements : K.Implements M A) (hclosed : K.Closed M)
    (hobeys : K.Obeys A Q cfg) (hrun : M.Reaches cfg cfg') : K.Obeys A Q cfg' := by
  induction hrun with
  | refl => exact hobeys
  | tail _ hstep ih => exact ih.step himplements hclosed hstep

end Contract
end Program
