import Mathlib.Logic.Relation
import RetailSegmentation.ProgramSyntax

/-! Threads over one shared state, interleaved command by command, and the rule that proves an
invariant of every interleaving one thread at a time. A contract names what always holds, what a
thread may rely on at each point (a label, stable under the commands of the others) and what each of
its commands guarantees; a program is safe when every command it can issue keeps the contract. -/

namespace Program

variable {T C : Type} {R : C → Type} {E X α β σ Λ : Type}

/-- What the commands of each thread do to the shared state, what the surroundings may do to it, and
what the death of a thread leaves behind. -/
structure Machine (T C : Type) (R : C → Type) (σ : Type) where
  step : T → (c : C) → σ → R c → σ → Prop
  env : σ → σ → Prop
  halt : T → σ → σ → Prop

/-- The residual program of every thread (`none`: dead) and the shared state. -/
structure Config (T C : Type) (R : C → Type) (E α σ : Type) where
  threads : T → Option (Prog C R E α)
  state : σ

/-- A machine whose steps also meet a condition on the state they are taken in. -/
def Machine.guard (M : Machine T C R σ) (cond : T → C → σ → Prop) : Machine T C R σ where
  step t c s r s' := cond t c s ∧ M.step t c s r s'
  env := M.env
  halt := M.halt

/-- A machine whose steps also meet a condition on the state they are taken in and on what is answered. -/
def Machine.restrict (M : Machine T C R σ) (cond : T → (c : C) → σ → R c → Prop) : Machine T C R σ where
  step t c s r s' := cond t c s r ∧ M.step t c s r s'
  env := M.env
  halt := M.halt

section Runs

variable [DecidableEq T]

inductive Machine.Step (M : Machine T C R σ) :
    Config T C R E α σ → Config T C R E α σ → Prop where
  | command {cfg : Config T C R E α σ} {t : T} {c : C} {k : R c → Prog C R E α} {r : R c} {s' : σ}
      (hthread : cfg.threads t = some (.call c k)) (hstep : M.step t c cfg.state r s') :
      M.Step cfg ⟨Function.update cfg.threads t (some (k r)), s'⟩
  | env {cfg : Config T C R E α σ} {s' : σ} (henv : M.env cfg.state s') :
      M.Step cfg ⟨cfg.threads, s'⟩
  | halt {cfg : Config T C R E α σ} {t : T} {s' : σ} (hhalt : M.halt t cfg.state s') :
      M.Step cfg ⟨Function.update cfg.threads t none, s'⟩

/-- The configurations some interleaving leads to. -/
def Machine.Reaches (M : Machine T C R σ) : Config T C R E α σ → Config T C R E α σ → Prop :=
  Relation.ReflTransGen M.Step

/-- Every thread `t` at the start of `prog t`. -/
def Config.initial (prog : T → Prog C R E α) (s : σ) : Config T C R E α σ :=
  ⟨fun t => some (prog t), s⟩

/-- What every step keeps, whoever takes it, holds in every interleaving of any programs. -/
theorem Machine.Reaches.invariant {M : Machine T C R σ} {I : σ → Prop} {start cfg : Config T C R E α σ}
    (hstep : ∀ t c s r s', I s → M.step t c s r s' → I s') (henv : ∀ s s', I s → M.env s s' → I s')
    (hhalt : ∀ t s s', I s → M.halt t s s' → I s') (hrun : M.Reaches start cfg) (hstart : I start.state) :
    I cfg.state := by
  induction hrun with
  | refl => exact hstart
  | tail _ hlast ih =>
      cases hlast with
      | command _ h => exact hstep _ _ _ _ _ ih h
      | env h => exact henv _ _ ih h
      | halt h => exact hhalt _ _ _ ih h

/-- What a machine does, seen through `f`, is what another does that takes the same steps there. -/
theorem Machine.Reaches.map {τ : Type} {M : Machine T C R σ} {N : Machine T C R τ} (f : σ → τ)
    (hstep : ∀ t c s r s', M.step t c s r s' → N.step t c (f s) r (f s'))
    (henv : ∀ s s', M.env s s' → N.env (f s) (f s')) (hhalt : ∀ t s s', M.halt t s s' → N.halt t (f s) (f s'))
    {cfg cfg' : Config T C R E α σ} (hrun : M.Reaches cfg cfg') :
    N.Reaches ⟨cfg.threads, f cfg.state⟩ ⟨cfg'.threads, f cfg'.state⟩ := by
  induction hrun with
  | refl => exact .refl
  | tail _ h ih =>
      refine ih.tail ?_
      cases h with
      | command hthread h => exact .command hthread (hstep _ _ _ _ _ h)
      | env h => exact .env (henv _ _ h)
      | halt h => exact .halt (hhalt _ _ _ h)

/-- A condition that holds wherever a run takes a step may be taken for granted. -/
theorem Machine.Reaches.guard {M : Machine T C R σ} {cond : T → C → σ → Prop} {start cfg : Config T C R E α σ}
    (hcond : ∀ cfg t c k, M.Reaches start cfg → cfg.threads t = some (.call c k) → cond t c cfg.state)
    (hrun : M.Reaches start cfg) : (M.guard cond).Reaches start cfg := by
  induction hrun with
  | refl => exact .refl
  | tail hrun h ih =>
      refine ih.tail ?_
      cases h with
      | command hthread h => exact .command hthread ⟨hcond _ _ _ _ hrun hthread, h⟩
      | env h => exact .env h
      | halt h => exact .halt h

/-- A thread that issues nothing stays where it is, or dies. -/
theorem Machine.waits {M : Machine T C R σ} {t : T} {cfg cfg' : Config T C R E α σ}
    (hrun : (M.guard fun u _ _ => u ≠ t).Reaches cfg cfg') :
    cfg'.threads t = cfg.threads t ∨ cfg'.threads t = none := by
  induction hrun with
  | refl => exact .inl rfl
  | tail _ hstep ih =>
      cases hstep with
      | command hthread hstep =>
          exact ih.imp (fun h => (Function.update_of_ne hstep.1.symm _ _).trans h)
            fun h => (Function.update_of_ne hstep.1.symm _ _).trans h
      | env henv => exact ih
      | @halt u s' hhalt =>
          by_cases hut : t = u
          · subst hut
            exact .inr (Function.update_self t _ _)
          · exact ih.imp (fun h => (Function.update_of_ne hut _ _).trans h)
              fun h => (Function.update_of_ne hut _ _).trans h

/-- A dead thread stays dead. -/
theorem Machine.dead {M : Machine T C R σ} {t : T} {cfg cfg' : Config T C R E α σ}
    (hdead : cfg.threads t = none) (hrun : M.Reaches cfg cfg') : cfg'.threads t = none := by
  induction hrun with
  | refl => exact hdead
  | tail _ hstep ih =>
      cases hstep with
      | @command u c k r s' hthread hstep =>
          have hut : t ≠ u := by
            rintro rfl
            cases ih.symm.trans hthread
          exact (Function.update_of_ne hut _ _).trans ih
      | env henv => exact ih
      | @halt u s' hhalt =>
          by_cases hut : t = u
          · subst hut
            exact Function.update_self t _ _
          · exact (Function.update_of_ne hut _ _).trans ih

/-- What holds of a program and of all that is left of it, holds of what is left of a thread. -/
theorem Machine.residual {M : Machine T C R σ} {P : Prog C R E α → Prop} {t : T}
    (hP : ∀ (c : C) (k : R c → Prog C R E α) r, P (.call c k) → P (k r)) {cfg cfg' : Config T C R E α σ}
    (hrun : M.Reaches cfg cfg') (hstart : ∀ p, cfg.threads t = some p → P p) :
    ∀ p, cfg'.threads t = some p → P p := by
  induction hrun with
  | refl => exact hstart
  | tail _ hstep ih =>
      intro p hp
      cases hstep with
      | @command u c k r s' hthread hstep =>
          by_cases hut : t = u
          · subst hut
            obtain rfl : k r = p := Option.some.inj ((Function.update_self t _ _).symm.trans hp)
            exact hP c k r (ih _ hthread)
          · exact ih p ((Function.update_of_ne hut _ _).symm.trans hp)
      | env henv => exact ih p hp
      | @halt u s' hhalt =>
          by_cases hut : t = u
          · subst hut
            exact absurd ((Function.update_self t _ _).symm.trans hp) (by simp)
          · exact ih p ((Function.update_of_ne hut _ _).symm.trans hp)

/-! ### Causes -/

/-- Thread `t` was answered with a reply that shows `shown`, and only issued quiet commands since. -/
def Machine.Shown (M : Machine T C R σ) (K : Causes C R E X) (start : Config T C R E α σ) (t : T)
    (shown : X) (cfg : Config T C R E α σ) : Prop :=
  ∃ (before : Config T C R E α σ) (c : C) (k : R c → Prog C R E α) (r : R c) (s : σ),
    M.Reaches start before ∧ before.threads t = some (.call c k) ∧ M.step t c before.state r s ∧
    K.shows c r shown ∧
    (M.guard fun u c _ => u = t → K.quiet c).Reaches
      ⟨Function.update before.threads t (some (k r)), s⟩ cfg

/-- A thread whose exceptions are all justified has been shown the cause of what it may raise. -/
theorem Machine.shown_of_justified (M : Machine T C R σ) (K : Causes C R E X) (fits : T → X → E → Prop)
    {start cfg : Config T C R E α σ} (hpossible : ∀ t c s r s', M.step t c s r s' → K.possible c r)
    (hstart : ∀ t p, start.threads t = some p → p.Justified K (fits t) none) (hrun : M.Reaches start cfg) :
    ∀ t p, cfg.threads t = some p → ∃ x, p.Justified K (fits t) x ∧
      ∀ shown, x = some shown → M.Shown K start t shown cfg := by
  induction hrun with
  | refl => exact fun t p hp => ⟨none, hstart t p hp, nofun⟩
  | @tail cfg cfg' hrun hstep ih =>
      -- A step of the others, or a quiet one, extends what a thread has been shown.
      have hextend : ∀ t shown, (M.guard fun u c _ => u = t → K.quiet c).Step cfg cfg' →
          M.Shown K start t shown cfg → M.Shown K start t shown cfg' := by
        rintro t shown hquiet ⟨before, c, k, r, s, hbefore, hthread, hshow, hshown, hafter⟩
        exact ⟨before, c, k, r, s, hbefore, hthread, hshow, hshown, hafter.tail hquiet⟩
      intro t p hp
      cases hstep with
      | @command u c k r s' hthread hstep =>
          by_cases htu : t = u
          · subst htu
            obtain rfl : k r = p := Option.some.inj ((Function.update_self t _ _).symm.trans hp)
            obtain ⟨x, hjustified, hshown⟩ := ih t _ hthread
            obtain ⟨x', hx', hnext⟩ := hjustified r (hpossible _ _ _ _ _ hstep)
            refine ⟨x', hnext, fun shown hx => ?_⟩
            rcases hx' with rfl | ⟨rfl, hquiet⟩ | ⟨y, rfl, hshows⟩
            · cases hx
            · exact hextend t shown (.command hthread ⟨fun _ => hquiet, hstep⟩) (hshown shown hx)
            · obtain rfl := Option.some.inj hx
              exact ⟨cfg, c, k, r, s', hrun, hthread, hstep, hshows, .refl⟩
          · obtain ⟨x, hjustified, hshown⟩ := ih t p ((Function.update_of_ne htu _ _).symm.trans hp)
            exact ⟨x, hjustified, fun shown hx => hextend t shown
              (.command hthread ⟨fun hut => absurd hut.symm htu, hstep⟩) (hshown shown hx)⟩
      | env henv =>
          obtain ⟨x, hjustified, hshown⟩ := ih t p hp
          exact ⟨x, hjustified, fun shown hx => hextend t shown (.env henv) (hshown shown hx)⟩
      | @halt u s' hhalt =>
          by_cases htu : t = u
          · subst htu
            exact absurd ((Function.update_self t _ _).symm.trans hp) (by simp)
          · obtain ⟨x, hjustified, hshown⟩ := ih t p ((Function.update_of_ne htu _ _).symm.trans hp)
            exact ⟨x, hjustified, fun shown hx => hextend t shown (.halt hhalt) (hshown shown hx)⟩

/-! ### Schedules -/

/-- Let the listed threads take one command each, in order; `none` when one of them cannot. -/
def schedule (answer : T → (c : C) → σ → Option (R c × σ)) :
    List T → Config T C R E α σ → Option (Config T C R E α σ)
  | [], cfg => some cfg
  | t :: ts, cfg =>
    match cfg.threads t with
    | some (.call c k) =>
      match answer t c cfg.state with
      | some (r, s') => schedule answer ts ⟨Function.update cfg.threads t (some (k r)), s'⟩
      | none => none
    | _ => none

theorem Machine.reaches_of_schedule (M : Machine T C R σ)
    {answer : T → (c : C) → σ → Option (R c × σ)}
    (hanswer : ∀ t c s r s', answer t c s = some (r, s') → M.step t c s r s')
    (ts : List T) {cfg cfg' : Config T C R E α σ} (hrun : schedule answer ts cfg = some cfg') :
    M.Reaches cfg cfg' := by
  induction ts generalizing cfg with
  | nil =>
      obtain rfl : cfg = cfg' := Option.some.inj hrun
      exact .refl
  | cons t ts ih =>
      rw [schedule] at hrun
      split at hrun
      · rename_i c k hthread
        split at hrun
        · rename_i r s' hans
          exact .head (.command hthread (hanswer t c _ r s' hans)) (ih hrun)
        · cases hrun
      · cases hrun

/-- A thread the schedule does not name stays where it is. -/
theorem threads_of_schedule {answer : T → (c : C) → σ → Option (R c × σ)} {t : T} (ts : List T)
    {cfg cfg' : Config T C R E α σ} (hnot : t ∉ ts) (hrun : schedule answer ts cfg = some cfg') :
    cfg'.threads t = cfg.threads t := by
  induction ts generalizing cfg with
  | nil =>
      obtain rfl : cfg = cfg' := Option.some.inj hrun
      rfl
  | cons u ts ih =>
      obtain ⟨hne, hnot⟩ := not_or.mp (List.mem_cons.not.mp hnot)
      rw [schedule] at hrun
      split at hrun
      · split at hrun
        · exact (ih hnot hrun).trans (Function.update_of_ne hne _ _)
        · cases hrun
      · cases hrun

/-- A schedule of one turn is a step. -/
theorem Machine.step_of_schedule (M : Machine T C R σ) {answer : T → (c : C) → σ → Option (R c × σ)}
    (hanswer : ∀ t c s r s', answer t c s = some (r, s') → M.step t c s r s') {t : T}
    {cfg cfg' : Config T C R E α σ} (hrun : schedule answer [t] cfg = some cfg') : M.Step cfg cfg' := by
  rw [schedule] at hrun
  split at hrun
  · rename_i c k hthread
    split at hrun
    · rename_i r s' hans
      obtain rfl := Option.some.inj hrun
      exact .command hthread (hanswer t c _ r s' hans)
    · cases hrun
  · cases hrun

def ended : Except E α → Prog C R E α
  | .ok a => .ret a
  | .error e => .raise e

/-- A thread may run alone to its end. -/
theorem Machine.reaches_of_run (M : Machine T C R σ) {t : T} {h : (c : C) → σ → R c × σ}
    (hstep : ∀ c s, M.step t c s (h c s).1 (h c s).2) (p : Prog C R E α) {cfg : Config T C R E α σ}
    (hthread : cfg.threads t = some p) :
    M.Reaches cfg ⟨Function.update cfg.threads t (some (ended (p.run h cfg.state).1)), (p.run h cfg.state).2⟩ := by
  have hsame : ∀ {q : Prog C R E α} {cfg : Config T C R E α σ}, cfg.threads t = some q →
      (⟨Function.update cfg.threads t (some q), cfg.state⟩ : Config T C R E α σ) = cfg := fun hq => by
    rw [← hq, Function.update_eq_self]
  induction p generalizing cfg with
  | ret a =>
      have hend := hsame hthread
      rw [Prog.run_ret, ended, hend]
      exact .refl
  | raise e =>
      have hend := hsame hthread
      rw [Prog.run_raise, ended, hend]
      exact .refl
  | call c k ih =>
      refine .head (.command hthread (hstep c cfg.state)) ?_
      have hself : Function.update cfg.threads t (some (k (h c cfg.state).1)) t = some (k (h c cfg.state).1) :=
        Function.update_self t _ _
      have hrest := @ih (h c cfg.state).1
        ⟨Function.update cfg.threads t (some (k (h c cfg.state).1)), (h c cfg.state).2⟩ hself
      rwa [Function.update_idem] at hrest

/-- How a living thread has ended, where it has. -/
def outcome : Option (Prog C R E α) → Option (Except E α)
  | some (.ret a) => some (.ok a)
  | some (.raise e) => some (.error e)
  | _ => none

theorem ret_of_outcome {p : Option (Prog C R E α)} {a : α} (h : outcome p = some (.ok a)) :
    p = some (.ret a) := by
  unfold outcome at h
  split at h
  · obtain rfl := Except.ok.inj (Option.some.inj h)
    rfl
  · cases h
  · cases h

theorem raise_of_outcome {p : Option (Prog C R E α)} {e : E} (h : outcome p = some (.error e)) :
    p = some (.raise e) := by
  unfold outcome at h
  split at h
  · cases h
  · obtain rfl := Except.error.inj (Option.some.inj h)
    rfl
  · cases h

end Runs

/-! ### Contracts -/

/-- What always holds, what thread `t` may rely on at label `ℓ`, and what its commands guarantee. -/
structure Contract (T C : Type) (R : C → Type) (σ Λ : Type) where
  inv : σ → Prop
  at_ : T → Λ → σ → Prop
  guar : T → (c : C) → σ → R c → σ → Prop

namespace Contract

variable (K : Contract T C R σ Λ) (M : Machine T C R σ)

/-- Taking `s` to `s'` keeps the invariant and every assertion of the threads other than `t`. -/
structure Keeps (t : T) (s s' : σ) : Prop where
  inv : K.inv s'
  others : ∀ u, u ≠ t → ∀ m, K.at_ u m s → K.at_ u m s'

/-- Command `c` of thread `t` at label `ℓ` keeps the contract and moves on as `post` says. -/
def CmdSpec (t : T) (c : C) (ℓ : Λ) (post : R c → Λ → Prop) : Prop :=
  ∀ s r s', K.inv s → K.at_ t ℓ s → M.step t c s r s' →
    K.guar t c s r s' ∧ K.Keeps t s s' ∧ ∃ ℓ', K.at_ t ℓ' s' ∧ post r ℓ'

/-- Every command the program can issue from label `ℓ` keeps the contract, and it ends as `Q` says. -/
def Safe (t : T) : Prog C R E α → Λ → (Except E α → Λ → Prop) → Prop
  | .ret a, ℓ, Q => Q (.ok a) ℓ
  | .raise e, ℓ, Q => Q (.error e) ℓ
  | .call c k, ℓ, Q => K.CmdSpec M t c ℓ fun r ℓ' => Safe t (k r) ℓ' Q

variable {K M} {t : T} {ℓ : Λ}

theorem CmdSpec.mono {c : C} {post post' : R c → Λ → Prop} (h : K.CmdSpec M t c ℓ post)
    (hpost : ∀ r ℓ', post r ℓ' → post' r ℓ') : K.CmdSpec M t c ℓ post' := by
  intro s r s' hinv hat hstep
  obtain ⟨hguar, hkeeps, ℓ', hat', hp⟩ := h s r s' hinv hat hstep
  exact ⟨hguar, hkeeps, ℓ', hat', hpost r ℓ' hp⟩

@[simp] theorem safe_ret {a : α} {Q : Except E α → Λ → Prop} :
    K.Safe M t (.ret a) ℓ Q ↔ Q (.ok a) ℓ := Iff.rfl

@[simp] theorem safe_raise {e : E} {Q : Except E α → Λ → Prop} :
    K.Safe M t (.raise e) ℓ Q ↔ Q (.error e) ℓ := Iff.rfl

theorem Safe.mono {p : Prog C R E α} {Q Q' : Except E α → Λ → Prop} (h : K.Safe M t p ℓ Q)
    (hQ : ∀ o ℓ', Q o ℓ' → Q' o ℓ') : K.Safe M t p ℓ Q' := by
  induction p generalizing ℓ with
  | ret a => exact hQ _ _ h
  | raise e => exact hQ _ _ h
  | call c k ih => exact CmdSpec.mono h fun r ℓ' hr => ih r hr

theorem safe_bind {p : Prog C R E α} {f : α → Prog C R E β} {Q : Except E β → Λ → Prop} :
    K.Safe M t (p >>= f) ℓ Q ↔ K.Safe M t p ℓ fun o ℓ' => match o with
      | .ok a => K.Safe M t (f a) ℓ' Q
      | .error e => Q (.error e) ℓ' := by
  induction p generalizing ℓ with
  | ret a => rfl
  | raise e => rfl
  | call c k ih =>
      exact ⟨fun h => CmdSpec.mono h fun r _ hr => (ih r).mp hr,
        fun h => CmdSpec.mono h fun r _ hr => (ih r).mpr hr⟩

theorem safe_tryCatch {p : Prog C R E α} {g : E → Prog C R E α} {Q : Except E α → Λ → Prop} :
    K.Safe M t (p.tryCatch g) ℓ Q ↔ K.Safe M t p ℓ fun o ℓ' => match o with
      | .ok a => Q (.ok a) ℓ'
      | .error e => K.Safe M t (g e) ℓ' Q := by
  induction p generalizing ℓ with
  | ret a => rfl
  | raise e => rfl
  | call c k ih =>
      exact ⟨fun h => CmdSpec.mono h fun r _ hr => (ih r).mp hr,
        fun h => CmdSpec.mono h fun r _ hr => (ih r).mpr hr⟩

/-- A program ends with a value and label in `P`, or with an exception and label in `F`. -/
def Ends (P : α → Λ → Prop) (F : E → Λ → Prop) : Except E α → Λ → Prop
  | .ok a, ℓ => P a ℓ
  | .error e, ℓ => F e ℓ

theorem Safe.failing {p : Prog C R E α} {P : α → Λ → Prop} {F F' : E → Λ → Prop}
    (hp : K.Safe M t p ℓ (Ends P F)) (hF : ∀ e ℓ', F e ℓ' → F' e ℓ') : K.Safe M t p ℓ (Ends P F') := by
  refine hp.mono ?_
  rintro (e | a) ℓ' h
  · exact hF e ℓ' h
  · exact h

theorem safe_seq {p : Prog C R E α} {f : α → Prog C R E β} {P : α → Λ → Prop} {P' : β → Λ → Prop}
    {F : E → Λ → Prop} (hp : K.Safe M t p ℓ (Ends P F))
    (hf : ∀ a ℓ', P a ℓ' → K.Safe M t (f a) ℓ' (Ends P' F)) : K.Safe M t (p >>= f) ℓ (Ends P' F) := by
  refine safe_bind.mpr (hp.mono ?_)
  rintro (e | a) ℓ' h
  · exact h
  · exact hf a ℓ' h

theorem safe_handle {p : Prog C R E α} {g : E → Prog C R E α} {P : α → Λ → Prop} {F F' : E → Λ → Prop}
    (hp : K.Safe M t p ℓ (Ends P F)) (hg : ∀ e ℓ', F e ℓ' → K.Safe M t (g e) ℓ' (Ends P F')) :
    K.Safe M t (p.tryCatch g) ℓ (Ends P F') := by
  refine safe_tryCatch.mpr (hp.mono ?_)
  rintro (e | a) ℓ' h
  · exact hg e ℓ' h
  · exact h

/-! ### From every thread to every interleaving -/

/-- The surroundings and the death of a thread keep the contract. -/
structure Closed (K : Contract T C R σ Λ) (M : Machine T C R σ) : Prop where
  env : ∀ s s', K.inv s → M.env s s' → K.inv s' ∧ ∀ t ℓ, K.at_ t ℓ s → K.at_ t ℓ s'
  halt : ∀ t s s', K.inv s → M.halt t s s' → K.Keeps t s s'

/-- The invariant holds, and every living thread is safe from a label that holds of it. -/
structure Good (K : Contract T C R σ Λ) (M : Machine T C R σ) (Q : T → Except E α → Λ → Prop)
    (cfg : Config T C R E α σ) : Prop where
  inv : K.inv cfg.state
  safe : ∀ t p, cfg.threads t = some p → ∃ ℓ, K.at_ t ℓ cfg.state ∧ K.Safe M t p ℓ (Q t)

variable {Q : T → Except E α → Λ → Prop} {cfg cfg' : Config T C R E α σ}

/-- Every command issued in an interleaving of safe threads gives its guarantee. -/
theorem Good.guar (hgood : K.Good M Q cfg) {c : C} {k : R c → Prog C R E α} {r : R c} {s' : σ}
    (hthread : cfg.threads t = some (.call c k)) (hstep : M.step t c cfg.state r s') :
    K.guar t c cfg.state r s' := by
  obtain ⟨ℓ, hat, hsafe⟩ := hgood.safe t _ hthread
  exact (hsafe _ _ _ hgood.inv hat hstep).1

/-- A finished thread has ended as its postcondition says. -/
theorem Good.ended (hgood : K.Good M Q cfg) {a : α} (hthread : cfg.threads t = some (.ret a)) :
    ∃ ℓ, K.at_ t ℓ cfg.state ∧ Q t (.ok a) ℓ :=
  hgood.safe t _ hthread

theorem Good.raised (hgood : K.Good M Q cfg) {e : E} (hthread : cfg.threads t = some (.raise e)) :
    ∃ ℓ, K.at_ t ℓ cfg.state ∧ Q t (.error e) ℓ :=
  hgood.safe t _ hthread

theorem Good.initial {prog : T → Prog C R E α} {s : σ} (hinv : K.inv s)
    (hsafe : ∀ t, ∃ ℓ, K.at_ t ℓ s ∧ K.Safe M t (prog t) ℓ (Q t)) :
    K.Good M Q (Config.initial prog s) := by
  refine ⟨hinv, fun t p hp => ?_⟩
  obtain rfl : prog t = p := Option.some.inj hp
  exact hsafe t

variable [DecidableEq T]

/-- What else is known of a thread may be followed from here on. -/
theorem Good.follow (hgood : K.Good M Q cfg) {p : Prog C R E α} {Q' : Except E α → Λ → Prop}
    (hthread : cfg.threads t = some p) (hat : K.at_ t ℓ cfg.state) (hsafe : K.Safe M t p ℓ Q') :
    K.Good M (Function.update Q t Q') cfg := by
  refine ⟨hgood.inv, fun u q hu => ?_⟩
  by_cases hut : u = t
  · subst hut
    obtain rfl := Option.some.inj (hthread.symm.trans hu)
    exact ⟨ℓ, hat, by rwa [Function.update_self]⟩
  · rw [Function.update_of_ne hut]
    exact hgood.safe u q hu

theorem Good.step (hclosed : K.Closed M) (hgood : K.Good M Q cfg) (hstep : M.Step cfg cfg') :
    K.Good M Q cfg' := by
  cases hstep with
  | @command t c k r s' hthread hstep =>
      obtain ⟨ℓ, hat, hsafe⟩ := hgood.safe t _ hthread
      obtain ⟨-, hkeeps, ℓ', hat', hnext⟩ := hsafe _ _ _ hgood.inv hat hstep
      refine ⟨hkeeps.inv, fun u p hu => ?_⟩
      by_cases hut : u = t
      · subst hut
        obtain rfl : k r = p := Option.some.inj ((Function.update_self u _ _).symm.trans hu)
        exact ⟨ℓ', hat', hnext⟩
      · obtain ⟨m, hm, hp⟩ := hgood.safe u p ((Function.update_of_ne hut _ _).symm.trans hu)
        exact ⟨m, hkeeps.others u hut m hm, hp⟩
  | env henv =>
      obtain ⟨hinv, hat⟩ := hclosed.env _ _ hgood.inv henv
      refine ⟨hinv, fun u p hu => ?_⟩
      obtain ⟨m, hm, hp⟩ := hgood.safe u p hu
      exact ⟨m, hat u m hm, hp⟩
  | @halt t s' hhalt =>
      have hkeeps := hclosed.halt t _ _ hgood.inv hhalt
      refine ⟨hkeeps.inv, fun u p hu => ?_⟩
      by_cases hut : u = t
      · subst hut
        exact absurd ((Function.update_self u _ _).symm.trans hu) (by simp)
      · obtain ⟨m, hm, hp⟩ := hgood.safe u p ((Function.update_of_ne hut _ _).symm.trans hu)
        exact ⟨m, hkeeps.others u hut m hm, hp⟩

/-- **Interference rule.** Safe threads stay safe, whatever the interleaving. -/
theorem Good.reaches (hclosed : K.Closed M) (hgood : K.Good M Q cfg) (hrun : M.Reaches cfg cfg') :
    K.Good M Q cfg' := by
  induction hrun with
  | refl => exact hgood
  | tail _ hstep ih => exact ih.step hclosed hstep

/-- What every step moves on, a run moves on. -/
theorem Good.advances (hclosed : K.Closed M) {le : σ → σ → Prop} (hrefl : ∀ s, le s s)
    (htrans : ∀ s s' s'', le s s' → le s' s'' → le s s'') (hguar : ∀ t c s r s', K.guar t c s r s' → le s s')
    (henv : ∀ s s', M.env s s' → le s s') (hhalt : ∀ t s s', M.halt t s s' → le s s') (hgood : K.Good M Q cfg)
    (hrun : M.Reaches cfg cfg') : le cfg.state cfg'.state := by
  induction hrun with
  | refl => exact hrefl _
  | tail hrun hstep ih =>
      refine htrans _ _ _ ih ?_
      cases hstep with
      | command hthread hstep => exact hguar _ _ _ _ _ ((hgood.reaches hclosed hrun).guar hthread hstep)
      | env h => exact henv _ _ h
      | halt h => exact hhalt _ _ _ h

end Contract
end Program
