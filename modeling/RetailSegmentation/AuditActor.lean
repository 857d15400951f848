import Mathlib.Data.List.Basic
import Mathlib.Logic.Function.Basic
import Mathlib.Tactic.Common

/-! Who the audit rows of a web request are credited to (`web/db/__init__.py`, `web/db/audit.py`,
`web/db/transactions.py`, `web/middleware/authz.py`). The actor is a setting of the connection, made when the
connection is opened, in whichever transaction comes first on it. -/

namespace RetailSegmentation.AuditActor

/-! ### The server -/

/-- A session of PostgreSQL: what `mosaiq.user_id` is, what a rollback makes it again, and who the audit rows
of the open transaction are credited to. An empty setting is NULL. -/
structure Backend (U : Type) where
  actor : Option U
  kept : Option U
  pending : List (Option U)
  deriving DecidableEq, Repr

namespace Backend

variable {U : Type}

/-- A new session, in which nothing is set. -/
def new : Backend U := ⟨none, none, []⟩

/-- `set_config('mosaiq.user_id', ..., false)`. -/
def setActor (user : Option U) (b : Backend U) : Backend U := { b with actor := user }

/-- A write to an audited table, whose trigger is `fn_audit`. -/
def audit (b : Backend U) : Backend U := { b with pending := b.pending ++ [b.actor] }

def commit (b : Backend U) : Backend U := { b with kept := b.actor, pending := [] }

def rollback (b : Backend U) : Backend U := { b with actor := b.kept, pending := [] }

end Backend

/-! ### Requests -/

/-- What a request does, one step after the other. -/
inductive Event (U : Type) where
  | getConnection
  | statement
  | audited
  | commit
  | rollback
  | lost
  | setUser (user : Option U)
  | closeConnection
  deriving DecidableEq, Repr

/-- A request's own context: `session["user_id"]` and the connection of `g`. -/
structure Context (U : Type) where
  user : Option U
  connection : Option ℕ

/-- The server's sessions by number, and the requests under way. A connection is closed when its session is
gone. -/
structure World (R U : Type) where
  backends : ℕ → Option (Backend U)
  next : ℕ
  contexts : R → Context U
  auditLog : List (R × Option U)

section Steps

variable {R U : Type} [DecidableEq R]

namespace World

/-- The open connection of a request, if it has one. -/
def connected (w : World R U) (r : R) : Option (Backend U) := (w.contexts r).connection.bind w.backends

/-- The connection's session becomes another. -/
def onBackend (w : World R U) (r : R) (f : Backend U → Option (Backend U)) : World R U :=
  match (w.contexts r).connection with
  | none => w
  | some c => { w with backends := Function.update w.backends c ((w.backends c).bind f) }

/-- The session of a request names another user. -/
def setUser (w : World R U) (r : R) (user : Option U) : World R U :=
  { w with contexts := Function.update w.contexts r { w.contexts r with user } }

/-- `g` has another connection. -/
def setConnection (w : World R U) (r : R) (connection : Option ℕ) : World R U :=
  { w with contexts := Function.update w.contexts r { w.contexts r with connection } }

/-- A connection is opened, and its actor set to the user the session names. -/
def connect (w : World R U) (r : R) : World R U :=
  { w.setConnection r (some w.next) with
    backends := Function.update w.backends w.next (some (Backend.new.setActor (w.contexts r).user))
    next := w.next + 1 }

/-- `get_connection`: a connection that is not there, or is closed, is opened. -/
def getConnection (w : World R U) (r : R) : World R U :=
  match w.connected r with
  | some _ => w
  | none => w.connect r

/-- `connection.commit()`. -/
def commit (w : World R U) (r : R) : World R U :=
  { w.onBackend r fun b => some b.commit with
    auditLog := w.auditLog ++ ((w.connected r).elim [] Backend.pending).map fun actor => (r, actor) }

def step (w : World R U) (r : R) : Event U → World R U
  | .getConnection => w.getConnection r
  | .statement => w
  | .audited => w.onBackend r fun b => some b.audit
  | .commit => w.commit r
  | .rollback => w.onBackend r fun b => some b.rollback
  | .lost => w.onBackend r fun _ => none
  | .setUser user => w.setUser r user
  | .closeConnection => (w.onBackend r fun _ => none).setConnection r none

def play (w : World R U) (run : List (R × Event U)) : World R U := run.foldl (fun w e => w.step e.1 e.2) w

end World

/-! ### Operations -/

/-- What a service does with its connection. Any of it may be within an `atomic` function, and that within
another. -/
inductive Work where
  | read
  | write
  | lose
  | fail
  | andThen (first second : Work)
  | guard (body handler : Work)
  | atomic (body : Work) (commits : Bool)

/-- One part after the other, unless the first raises. -/
def followed (first second : List (Event U) × Bool) : List (Event U) × Bool :=
  if first.2 then first else (first.1 ++ second.1, second.2)

/-- `try` and `except`. -/
def guarded (body handler : List (Event U) × Bool) : List (Event U) × Bool :=
  if body.2 then (body.1 ++ handler.1, handler.2) else body

/-- The owner of a unit of work commits it, or rolls it back when it, or the commit, raises. -/
def owning (body : List (Event U) × Bool) (commits : Bool) : List (Event U) × Bool :=
  if body.2 || !commits then (body.1 ++ [.rollback], true) else (body.1 ++ [.commit], false)

/-- The steps of some work, and whether it raises. `owned` says that an `atomic` function already owns the
connection, which the nested ones then join; where `commits` is false it is the commit that fails. -/
def Work.events (owned : Bool) : Work → List (Event U) × Bool
  | .read => ([.statement], false)
  | .write => ([.audited], false)
  | .lose => ([.lost], true)
  | .fail => ([], true)
  | .andThen first second => followed (first.events owned) (second.events owned)
  | .guard body handler => guarded (body.events owned) (handler.events owned)
  | .atomic body commits => if owned then body.events true else owning (body.events true) commits

/-- What a view does: work on the connection it gets, or a change of who is signed in. -/
inductive View (U : Type) where
  | work (w : Work)
  | setUser (user : Option U)

def View.events : View U → List (Event U)
  | .work w => .getConnection :: (w.events false).1
  | .setUser user => [.setUser user]

/-- A web request: the user its cookie names, whether the cookie's session id is one, what the database says
of that session (`none` when it raises), and what the views then do. -/
structure Visit (U : Type) where
  named : Option U
  sid : Bool
  answer : Option (Option U)
  views : List (View U)

/-- The principal the request's session resolves to. -/
def Visit.principal (v : Visit U) : Option U := if v.named.isSome && v.sid then v.answer.join else none

/-- `resolve_session`, and whether it raises. -/
def Visit.resolve (v : Visit U) : List (Event U) × Bool :=
  if v.named.isNone then ([], false)
  else if v.sid = false then ([.getConnection, .setUser none], false)
  else match v.answer with
    | none => (.getConnection :: ((Work.atomic (.andThen .read .fail) true).events false).1, true)
    | some principal => (.getConnection :: ((Work.atomic .read true).events false).1 ++ [.setUser principal], false)

/-- A whole request, to the end of its context. -/
def Visit.events (v : Visit U) : List (Event U) :=
  v.resolve.1 ++ (if v.resolve.2 then [] else v.views.flatMap View.events) ++ [.closeConnection]

end Steps

/-! ### What a request sees -/

/-- A request's own part of the world: who its session names, its open connection, and who its committed audit
rows are credited to. -/
structure Sight (U : Type) where
  user : Option U
  connection : Option (Backend U)
  rows : List (Option U)

section Sights

variable {R U : Type} [DecidableEq R]

def World.sight (w : World R U) (r : R) : Sight U :=
  ⟨(w.contexts r).user, w.connected r, (w.auditLog.filter fun entry => entry.1 = r).map Prod.snd⟩

def Sight.step (s : Sight U) : Event U → Sight U
  | .getConnection => { s with connection := s.connection.or (some (Backend.new.setActor s.user)) }
  | .statement => s
  | .audited => { s with connection := s.connection.map Backend.audit }
  | .commit =>
    { s with connection := s.connection.map Backend.commit, rows := s.rows ++ s.connection.elim [] Backend.pending }
  | .rollback => { s with connection := s.connection.map Backend.rollback }
  | .lost => { s with connection := none }
  | .setUser user => { s with user }
  | .closeConnection => { s with connection := none }

/-- No two requests have one connection. -/
structure World.Separate (w : World R U) : Prop where
  opened : ∀ r c, (w.contexts r).connection = some c → c < w.next
  alone : ∀ r r' c, (w.contexts r).connection = some c → (w.contexts r').connection = some c → r = r'

variable {w : World R U}

theorem connected_onBackend (h : w.Separate) (r r' : R) (f : Backend U → Option (Backend U)) :
    (w.onBackend r f).connected r' = if r' = r then (w.connected r).bind f else w.connected r' := by
  unfold World.onBackend World.connected
  cases hc : (w.contexts r).connection with
  | none =>
      by_cases heq : r' = r
      · subst heq
        simp [hc]
      · simp [heq]
  | some c =>
      by_cases heq : r' = r
      · subst heq
        simp [hc]
      · rw [if_neg heq]
        cases hc' : (w.contexts r').connection with
        | none => simp
        | some c' =>
            have hne : c' ≠ c := fun h' => heq (h.alone r' r c (h' ▸ hc') hc)
            simp [Function.update_of_ne hne]

omit [DecidableEq R] in
theorem contexts_onBackend (r : R) (f : Backend U → Option (Backend U)) :
    (w.onBackend r f).contexts = w.contexts ∧ (w.onBackend r f).next = w.next ∧
      (w.onBackend r f).auditLog = w.auditLog := by
  unfold World.onBackend
  cases (w.contexts r).connection <;> exact ⟨rfl, rfl, rfl⟩

omit [DecidableEq R] in
theorem separate_onBackend (h : w.Separate) (r : R) (f : Backend U → Option (Backend U)) :
    (w.onBackend r f).Separate := by
  obtain ⟨hcontexts, hnext, -⟩ := @contexts_onBackend R U w r f
  exact ⟨by rw [hcontexts, hnext]; exact h.opened, by rw [hcontexts]; exact h.alone⟩

theorem sight_onBackend (h : w.Separate) (r r' : R) (f : Backend U → Option (Backend U)) :
    (w.onBackend r f).sight r' =
      if r' = r then { w.sight r with connection := (w.connected r).bind f } else w.sight r' := by
  obtain ⟨hcontexts, -, hlog⟩ := @contexts_onBackend R U w r f
  unfold World.sight
  rw [connected_onBackend h, hcontexts, hlog]
  split_ifs with heq
  · rw [heq]
  · rfl

theorem separate_setUser (h : w.Separate) (r : R) (user : Option U) : (w.setUser r user).Separate := by
  have hsame : ∀ r', ((w.setUser r user).contexts r').connection = (w.contexts r').connection := fun r' => by
    unfold World.setUser
    by_cases heq : r' = r
    · subst heq
      simp
    · simp [heq]
  exact ⟨fun r' c hc => h.opened r' c (hsame r' ▸ hc),
    fun r' r'' c hc hc' => h.alone r' r'' c (hsame r' ▸ hc) (hsame r'' ▸ hc')⟩

theorem separate_close (h : w.Separate) (r : R) : (w.setConnection r none).Separate := by
  have hkept : ∀ r' c, ((w.setConnection r none).contexts r').connection = some c →
      (w.contexts r').connection = some c := fun r' c hc => by
    unfold World.setConnection at hc
    by_cases heq : r' = r
    · subst heq
      simp at hc
    · simpa [heq] using hc
  exact ⟨fun r' c hc => h.opened r' c (hkept r' c hc),
    fun r' r'' c hc hc' => h.alone r' r'' c (hkept r' c hc) (hkept r'' c hc')⟩

theorem separate_connect (h : w.Separate) (r : R) : (w.connect r).Separate := by
  have hcases : ∀ r' c, ((w.connect r).contexts r').connection = some c →
      r' = r ∧ c = w.next ∨ r' ≠ r ∧ (w.contexts r').connection = some c := fun r' c hc => by
    unfold World.connect World.setConnection at hc
    by_cases heq : r' = r
    · subst heq
      exact .inl ⟨rfl, by simpa using hc.symm⟩
    · exact .inr ⟨heq, by simpa [heq] using hc⟩
  refine ⟨fun r' c hc => ?_, fun r' r'' c hc hc' => ?_⟩
  · change c < w.next + 1
    obtain ⟨-, rfl⟩ | ⟨-, hold⟩ := hcases r' c hc
    · exact Nat.lt_succ_self _
    · exact Nat.lt_succ_of_lt (h.opened r' c hold)
  · obtain ⟨rfl, rfl⟩ | ⟨hne, hold⟩ := hcases r' c hc
    · obtain ⟨heq, -⟩ | ⟨-, hold'⟩ := hcases r'' _ hc'
      · exact heq.symm
      · exact absurd (h.opened r'' _ hold') (Nat.lt_irrefl _)
    · obtain ⟨-, rfl⟩ | ⟨-, hold'⟩ := hcases r'' _ hc'
      · exact absurd (h.opened r' _ hold) (Nat.lt_irrefl _)
      · exact h.alone r' r'' c hold hold'

theorem step_separate (h : w.Separate) (r : R) (e : Event U) : (w.step r e).Separate := by
  cases e with
  | getConnection =>
      change (w.getConnection r).Separate
      unfold World.getConnection
      cases w.connected r with
      | some _ => exact h
      | none => exact separate_connect h r
  | statement => exact h
  | audited => exact separate_onBackend h r _
  | commit =>
      have hseparate := separate_onBackend h r fun b => some b.commit
      exact ⟨hseparate.opened, hseparate.alone⟩
  | rollback => exact separate_onBackend h r _
  | lost => exact separate_onBackend h r _
  | setUser user => exact separate_setUser h r user
  | closeConnection => exact separate_close (separate_onBackend h r _) r

theorem sight_setUser (r r' : R) (user : Option U) :
    (w.setUser r user).sight r' = if r' = r then { w.sight r with user } else w.sight r' := by
  unfold World.sight World.connected World.setUser
  split_ifs with heq
  · subst heq
    simp
  · simp [heq]

theorem sight_close (r r' : R) :
    (w.setConnection r none).sight r' = if r' = r then { w.sight r with connection := none } else w.sight r' := by
  unfold World.sight World.connected World.setConnection
  split_ifs with heq
  · subst heq
    simp
  · simp [heq]

theorem sight_connect (h : w.Separate) (r r' : R) : (w.connect r).sight r' = if r' = r then
    { w.sight r with connection := some (Backend.new.setActor (w.contexts r).user) } else w.sight r' := by
  unfold World.sight World.connected World.connect World.setConnection
  split_ifs with heq
  · subst heq
    simp
  · simp only [Function.update_of_ne heq]
    congr 1
    cases hc : (w.contexts r').connection with
    | none => rfl
    | some c => exact Function.update_of_ne (Nat.ne_of_lt (h.opened r' c hc)) _ _

theorem sight_commit (h : w.Separate) (r r' : R) : (w.commit r).sight r' = if r' = r then
    { w.sight r with
      connection := (w.connected r).map Backend.commit
      rows := (w.sight r).rows ++ (w.connected r).elim [] Backend.pending }
    else w.sight r' := by
  have hconnected : (w.commit r).connected r' = (w.onBackend r fun b => some b.commit).connected r' := rfl
  obtain ⟨hcontexts, -, -⟩ := @contexts_onBackend R U w r fun b => some b.commit
  have huser : ((w.commit r).contexts r').user = (w.contexts r').user := congrArg (fun f => (f r').user) hcontexts
  have hlog : (w.commit r).auditLog = w.auditLog ++ ((w.connected r).elim [] Backend.pending).map fun actor =>
    (r, actor) := rfl
  unfold World.sight
  rw [hconnected, connected_onBackend h, huser, hlog, List.filter_append, List.map_append, List.filter_map]
  split_ifs with heq
  · subst heq
    congr 1
    · cases w.connected r' <;> rfl
    · congr 1
      rw [List.filter_eq_self.mpr (by simp), List.map_map]
      exact List.map_id _
  · congr 1
    simp [Function.comp_def, Ne.symm heq]

theorem step_sight (h : w.Separate) (r r' : R) (e : Event U) :
    (w.step r e).sight r' = if r' = r then (w.sight r).step e else w.sight r' := by
  have hbackend : ∀ f : Backend U → Backend U, (w.onBackend r fun b => some (f b)).sight r' =
      if r' = r then { w.sight r with connection := (w.connected r).map f } else w.sight r' := fun f => by
    rw [sight_onBackend h, Option.map_eq_bind]
    rfl
  have hlost : (w.onBackend r fun _ => none).sight r' =
      if r' = r then { w.sight r with connection := none } else w.sight r' := by
    rw [sight_onBackend h, Option.bind_fun_none]
  cases e with
  | getConnection =>
      change (w.getConnection r).sight r' = _
      unfold World.getConnection
      cases hconnected : w.connected r with
      | some b =>
          have hsame : (w.sight r).step .getConnection = w.sight r := by
            unfold Sight.step World.sight
            rw [hconnected]
            rfl
          rw [hsame]
          split_ifs with heq
          · rw [heq]
          · rfl
      | none =>
          rw [sight_connect h]
          unfold Sight.step World.sight
          rw [hconnected]
          rfl
  | statement =>
      split_ifs with heq
      · rw [heq]
        rfl
      · rfl
  | audited => exact hbackend Backend.audit
  | commit => exact sight_commit h r r'
  | rollback => exact hbackend Backend.rollback
  | lost => exact hlost
  | setUser user => exact sight_setUser r r' user
  | closeConnection =>
      refine (sight_close r r').trans ?_
      rw [hlost, sight_onBackend h, if_pos rfl]
      split_ifs <;> rfl

/-! ### Runs -/

/-- What the steps of `r` are, among those of every request. -/
def own (r : R) (run : List (R × Event U)) : List (Event U) := (run.filter fun e => e.1 = r).map Prod.snd

theorem own_cons (r : R) (e : R × Event U) (run : List (R × Event U)) :
    own r (e :: run) = if e.1 = r then e.2 :: own r run else own r run := by
  unfold own
  rw [List.filter_cons]
  by_cases heq : e.1 = r <;> simp [heq]

/-- What a request sees is what its own steps make of it, whatever the others do meanwhile. -/
theorem play_sight (h : w.Separate) (run : List (R × Event U)) (r : R) :
    (w.play run).sight r = (own r run).foldl Sight.step (w.sight r) := by
  induction run generalizing w with
  | nil => rfl
  | cons e run ih =>
      have hstep := step_sight h e.1 r e.2
      refine (ih (step_separate h e.1 e.2)).trans ?_
      rw [own_cons, hstep]
      by_cases heq : e.1 = r
      · subst heq
        rw [if_pos rfl, if_pos rfl]
        rfl
      · rw [if_neg (Ne.symm heq), if_neg heq]

/-- Before any request has taken a step. -/
def World.start (visits : R → Visit U) : World R U :=
  ⟨fun _ => none, 0, fun r => ⟨(visits r).named, none⟩, []⟩

/-- Every request takes its own steps in order, and has taken some of them. -/
def Interleaves (visits : R → Visit U) (run : List (R × Event U)) : Prop :=
  ∀ r, own r run <+: (visits r).events

omit [DecidableEq R] in
theorem start_separate (visits : R → Visit U) : (World.start visits).Separate :=
  ⟨fun _ _ hc => by simp [World.start] at hc, fun _ _ _ hc => by simp [World.start] at hc⟩

/-! ### Whose rows they are -/

/-- A step at which the actor stays who it should be: a connection is opened while the session names the principal,
and rolled back in a transaction that did not set the actor. -/
def Sight.Sound (principal : Option U) (s : Sight U) : Event U → Prop
  | .getConnection => s.connection = none → s.user = principal
  | .rollback => ∀ b, s.connection = some b → b.kept = b.actor
  | _ => True

def World.SoundRun (visits : R → Visit U) : World R U → List (R × Event U) → Prop
  | _, [] => True
  | w, e :: run => (w.sight e.1).Sound (visits e.1).principal e.2 ∧ SoundRun visits (w.step e.1 e.2) run

/-- What a request's rows are credited to, written or to be written. -/
structure Sight.Credited (principal : Option U) (s : Sight U) : Prop where
  acting : ∀ b, s.connection = some b → b.actor = principal
  pending : ∀ b, s.connection = some b → ∀ actor ∈ b.pending, actor = principal
  written : ∀ actor ∈ s.rows, actor = principal

theorem credited_step {principal : Option U} {s : Sight U} {e : Event U} (h : s.Credited principal)
    (hsound : s.Sound principal e) : (s.step e).Credited principal := by
  cases e with
  | getConnection =>
      cases hc : s.connection with
      | some b =>
          have hsame : s.step .getConnection = s := by
            unfold Sight.step
            rw [hc]
            exact congrArg (Sight.mk s.user · s.rows) hc.symm
          rw [hsame]
          exact h
      | none =>
          have huser := hsound hc
          refine ⟨fun b hb => ?_, fun b hb => ?_, h.written⟩
          · simp only [Sight.step, hc, Option.none_or, Option.some.injEq] at hb
            subst hb
            exact huser
          · simp only [Sight.step, hc, Option.none_or, Option.some.injEq] at hb
            subst hb
            exact fun _ hmem => absurd hmem List.not_mem_nil
  | statement => exact h
  | audited =>
      refine ⟨fun b hb => ?_, fun b hb => ?_, h.written⟩
      · obtain ⟨b', hb', rfl⟩ := Option.map_eq_some_iff.mp hb
        exact h.acting b' hb'
      · obtain ⟨b', hb', rfl⟩ := Option.map_eq_some_iff.mp hb
        intro actor hmem
        obtain hmem | hmem := List.mem_append.mp hmem
        · exact h.pending b' hb' actor hmem
        · exact (List.mem_singleton.mp hmem).trans (h.acting b' hb')
  | commit =>
      refine ⟨fun b hb => ?_, fun b hb => ?_, fun actor hmem => ?_⟩
      · obtain ⟨b', hb', rfl⟩ := Option.map_eq_some_iff.mp hb
        exact h.acting b' hb'
      · obtain ⟨b', -, rfl⟩ := Option.map_eq_some_iff.mp hb
        exact fun _ hmem => absurd hmem List.not_mem_nil
      · obtain hmem | hmem := List.mem_append.mp hmem
        · exact h.written actor hmem
        · cases hc : s.connection with
          | none =>
              rw [hc] at hmem
              exact absurd hmem List.not_mem_nil
          | some b =>
              rw [hc] at hmem
              exact h.pending b hc actor hmem
  | rollback =>
      refine ⟨fun b hb => ?_, fun b hb => ?_, h.written⟩
      · obtain ⟨b', hb', rfl⟩ := Option.map_eq_some_iff.mp hb
        exact (hsound b' hb').trans (h.acting b' hb')
      · obtain ⟨b', -, rfl⟩ := Option.map_eq_some_iff.mp hb
        exact fun _ hmem => absurd hmem List.not_mem_nil
  | setUser user => exact ⟨h.acting, h.pending, h.written⟩
  | lost => exact ⟨fun b hb => by simp [Sight.step] at hb, fun b hb => by simp [Sight.step] at hb, h.written⟩
  | closeConnection =>
      exact ⟨fun b hb => by simp [Sight.step] at hb, fun b hb => by simp [Sight.step] at hb, h.written⟩

theorem credited_play {visits : R → Visit U} (h : w.Separate) (run : List (R × Event U))
    (hsound : w.SoundRun visits run) (hcredited : ∀ r, (w.sight r).Credited (visits r).principal) (r : R) :
    ((w.play run).sight r).Credited (visits r).principal := by
  induction run generalizing w with
  | nil => exact hcredited r
  | cons e run ih =>
      refine ih (step_separate h e.1 e.2) hsound.2 fun r' => ?_
      rw [step_sight h]
      split_ifs with heq
      · subst heq
        exact credited_step (hcredited _) hsound.1
      · exact hcredited r'

theorem start_credited (visits : R → Visit U) (r : R) :
    ((World.start visits).sight r).Credited (visits r).principal :=
  ⟨fun b hb => by simp [World.sight, World.connected, World.start] at hb,
    fun b hb => by simp [World.sight, World.connected, World.start] at hb,
    fun _ hmem => absurd hmem List.not_mem_nil⟩

/-! ### Live sessions -/

/-- The connection is not lost. -/
def Work.Unbroken : Work → Prop
  | .read | .write | .fail => True
  | .lose => False
  | .andThen first second | .guard first second => first.Unbroken ∧ second.Unbroken
  | .atomic body _ => body.Unbroken

/-- The cookie names the principal, or nobody where there is none, the connection is not lost, and the session
changes hands on an open connection only. -/
structure Visit.Live (v : Visit U) : Prop where
  named : v.named = v.principal
  unbroken : ∀ work, View.work work ∈ v.views → work.Unbroken
  opened : v.named = none → ∀ user, v.views.head? ≠ some (.setUser user)

/-- The connection stays open. -/
def Event.Keeps (e : Event U) : Prop := e ≠ .lost ∧ e ≠ .closeConnection

theorem keeps_work (work : Work) (h : work.Unbroken) (owned : Bool) :
    ∀ e ∈ (work.events owned : List (Event U) × Bool).1, e.Keeps := by
  induction work generalizing owned with
  | read => exact fun e he => by simp [Work.events] at he; subst he; exact ⟨by simp, by simp⟩
  | write => exact fun e he => by simp [Work.events] at he; subst he; exact ⟨by simp, by simp⟩
  | lose => exact h.elim
  | fail => exact fun e he => absurd he List.not_mem_nil
  | andThen first second ih ih' =>
      intro e he
      simp only [Work.events, followed] at he
      split_ifs at he
      · exact ih h.1 owned e he
      · exact (List.mem_append.mp he).elim (ih h.1 owned e) (ih' h.2 owned e)
  | guard body handler ih ih' =>
      intro e he
      simp only [Work.events, guarded] at he
      split_ifs at he
      · exact (List.mem_append.mp he).elim (ih h.1 owned e) (ih' h.2 owned e)
      · exact ih h.1 owned e he
  | atomic body commits ih =>
      intro e he
      have hlast : ∀ last : Event U, last.Keeps → e ∈ (body.events true).1 ++ [last] → e.Keeps :=
        fun last hkeeps hmem => (List.mem_append.mp hmem).elim (ih h true e) fun heq =>
          (List.mem_singleton.mp heq) ▸ hkeeps
      simp only [Work.events, owning] at he
      split_ifs at he
      · exact ih h true e he
      · exact hlast _ ⟨by simp, by simp⟩ he
      · exact hlast _ ⟨by simp, by simp⟩ he

/-- The connection is open, and what its actor is outlives a rollback. -/
def Sight.Held (principal : Option U) (s : Sight U) : Prop :=
  ∃ b, s.connection = some b ∧ b.actor = principal ∧ b.kept = principal

theorem held_sound {principal : Option U} {s : Sight U} (h : s.Held principal) (e : Event U) :
    s.Sound principal e := by
  obtain ⟨b, hb, hactor, hkept⟩ := h
  cases e with
  | getConnection => exact fun hnone => by rw [hb] at hnone; cases hnone
  | rollback =>
      intro b' hb'
      obtain rfl : b = b' := Option.some.inj (hb.symm.trans hb')
      exact hkept.trans hactor.symm
  | _ => trivial

theorem held_step {principal : Option U} {s : Sight U} (h : s.Held principal) {e : Event U} (he : e.Keeps) :
    (s.step e).Held principal := by
  obtain ⟨b, hb, hactor, hkept⟩ := h
  cases e with
  | getConnection => exact ⟨b, by simp [Sight.step, hb], hactor, hkept⟩
  | statement => exact ⟨b, hb, hactor, hkept⟩
  | audited => exact ⟨b.audit, by simp [Sight.step, hb], hactor, hkept⟩
  | commit => exact ⟨b.commit, by simp [Sight.step, hb], hactor, hactor⟩
  | rollback => exact ⟨b.rollback, by simp [Sight.step, hb], hkept, hkept⟩
  | setUser user => exact ⟨b, hb, hactor, hkept⟩
  | lost => exact absurd rfl he.1
  | closeConnection => exact absurd rfl he.2

/-- Every step of a request is sound. -/
def Sight.SoundRun (principal : Option U) : Sight U → List (Event U) → Prop
  | _, [] => True
  | s, e :: events => s.Sound principal e ∧ SoundRun principal (s.step e) events

theorem soundRun_prefix {principal : Option U} {events taken : List (Event U)} {s : Sight U}
    (h : s.SoundRun principal events) (htaken : taken <+: events) : s.SoundRun principal taken := by
  induction taken generalizing s events with
  | nil => trivial
  | cons e taken ih =>
      obtain ⟨rest, rfl⟩ := htaken
      exact ⟨h.1, ih h.2 ⟨rest, rfl⟩⟩

theorem soundRun_held {principal : Option U} {s : Sight U} (h : s.Held principal) {events : List (Event U)}
    (hkeeps : ∀ e ∈ events, e.Keeps) : s.SoundRun principal (events ++ [.closeConnection]) := by
  induction events generalizing s with
  | nil => exact ⟨held_sound h _, trivial⟩
  | cons e events ih =>
      exact ⟨held_sound h e, ih (held_step h (hkeeps e List.mem_cons_self)) fun e' he' =>
        hkeeps e' (List.mem_cons_of_mem _ he')⟩

theorem soundRun_of_own {visits : R → Visit U} (h : w.Separate) (run : List (R × Event U))
    (hown : ∀ r, (w.sight r).SoundRun (visits r).principal (own r run)) : w.SoundRun visits run := by
  induction run generalizing w with
  | nil => trivial
  | cons e run ih =>
      have hfirst := hown e.1
      rw [own_cons, if_pos rfl] at hfirst
      refine ⟨hfirst.1, ih (step_separate h e.1 e.2) fun r => ?_⟩
      rw [step_sight h]
      split_ifs with heq
      · subst heq
        exact hfirst.2
      · have hother := hown r
        rwa [own_cons, if_neg (Ne.symm heq)] at hother

theorem keeps_views {views : List (View U)} (h : ∀ work, View.work work ∈ views → work.Unbroken) :
    ∀ e ∈ views.flatMap View.events, e.Keeps := by
  intro e he
  obtain ⟨view, hview, hmem⟩ := List.mem_flatMap.mp he
  cases view with
  | setUser user =>
      obtain rfl := List.mem_singleton.mp hmem
      exact ⟨by simp, by simp⟩
  | work work =>
      obtain rfl | hmem := List.mem_cons.mp hmem
      · exact ⟨by simp, by simp⟩
      · exact keeps_work work (h work hview) false e hmem

/-- A request without a cookie opens its connection in its first view, where there is no actor to lose. -/
theorem soundRun_anonymous {v : Visit U} (h : v.Live) (hnamed : v.named = none) :
    (Sight.mk v.named none []).SoundRun v.principal v.events := by
  have hprincipal : v.principal = none := h.named.symm.trans hnamed
  have hresolve : v.resolve = ([], false) := by
    unfold Visit.resolve
    rw [hnamed]
    rfl
  have hevents : v.events = v.views.flatMap View.events ++ [.closeConnection] := by
    unfold Visit.events
    rw [hresolve]
    rfl
  have hkeeps := keeps_views h.unbroken
  rw [hevents, hprincipal, hnamed]
  cases hviews : v.views with
  | nil => exact ⟨trivial, trivial⟩
  | cons view views =>
      cases view with
      | setUser user => exact absurd (by rw [hviews]; rfl) (h.opened hnamed user)
      | work work =>
          rw [hviews] at hkeeps
          refine ⟨fun _ => rfl, soundRun_held ⟨Backend.new.setActor none, rfl, rfl, rfl⟩ fun e he => ?_⟩
          exact hkeeps e (List.mem_cons_of_mem _ he)

/-- A request of a live session sets its actor in the transaction that resolves the session, which commits. -/
theorem soundRun_signedIn {v : Visit U} (h : v.Live) {user : U} (hnamed : v.named = some user) :
    (Sight.mk v.named none []).SoundRun v.principal v.events := by
  have hprincipal : v.principal = some user := h.named.symm.trans hnamed
  have hresolve : v.resolve = ([.getConnection, .statement, .commit, .setUser (some user)], false) := by
    unfold Visit.principal at hprincipal
    unfold Visit.resolve
    rw [hnamed] at hprincipal ⊢
    cases hsid : v.sid with
    | false => rw [hsid] at hprincipal; cases hprincipal
    | true =>
        rw [hsid] at hprincipal
        cases hanswer : v.answer with
        | none => rw [hanswer] at hprincipal; cases hprincipal
        | some answer =>
            rw [hanswer] at hprincipal
            obtain rfl : answer = some user := hprincipal
            rfl
  have hevents : v.events = [.getConnection, .statement, .commit, .setUser (some user)] ++
      (v.views.flatMap View.events ++ [.closeConnection]) := by
    unfold Visit.events
    rw [hresolve, List.append_assoc]
    rfl
  rw [hevents, hprincipal, hnamed]
  refine ⟨fun _ => rfl, trivial, trivial, trivial, ?_⟩
  exact soundRun_held ⟨(Backend.new.setActor (some user)).commit, rfl, rfl, rfl⟩ (keeps_views h.unbroken)

theorem soundRun_live {v : Visit U} (h : v.Live) : (Sight.mk v.named none []).SoundRun v.principal v.events := by
  cases hnamed : v.named with
  | none => exact hnamed ▸ soundRun_anonymous h hnamed
  | some user => exact hnamed ▸ soundRun_signedIn h hnamed

theorem mem_rows {r : R} {actor : Option U} (h : (r, actor) ∈ w.auditLog) : actor ∈ (w.sight r).rows :=
  List.mem_map.mpr ⟨(r, actor), List.mem_filter.mpr ⟨h, by simp⟩, rfl⟩

/-- Whatever the requests do and however their steps fall together, no setting of one is visible to another.
Where every step is sound, each committed audit row is credited to the principal of the request that wrote it;
so it is where every session is live. -/
theorem audit_actor (visits : R → Visit U) (run : List (R × Event U)) (h : Interleaves visits run) :
    ((World.start visits).SoundRun visits run → ∀ entry ∈ ((World.start visits).play run).auditLog,
      entry.2 = (visits entry.1).principal) ∧
    ((∀ r, (visits r).Live) → (World.start visits).SoundRun visits run) ∧
    ∀ r, ((World.start visits).play run).sight r =
      (own r run).foldl Sight.step ⟨(visits r).named, none, []⟩ := by
  refine ⟨fun hsound entry hentry => ?_, fun hlive => ?_, play_sight (start_separate visits) run⟩
  · have hcredited := credited_play (start_separate visits) run hsound (start_credited visits) entry.1
    exact hcredited.written entry.2 (mem_rows hentry)
  · exact soundRun_of_own (start_separate visits) run fun r =>
      soundRun_prefix (soundRun_live (hlive r)) (h r)

end Sights

/-- A request of a live session that writes once. -/
def liveVisit : Visit ℕ := ⟨some 7, true, some (some 7), [.work (.atomic .write true)]⟩

theorem live_liveVisit : liveVisit.Live where
  named := rfl
  unbroken := by
    intro work hwork
    obtain rfl := View.work.inj (List.mem_singleton.mp hwork)
    trivial
  opened := fun hnone => by cases hnone

theorem audit_actor_live :
    ((World.start fun _ : Unit => liveVisit).play (liveVisit.events.map (Prod.mk ()))).auditLog = [((), some 7)] ∧
      ∀ entry ∈ ((World.start fun _ : Unit => liveVisit).play (liveVisit.events.map (Prod.mk ()))).auditLog,
        entry.2 = liveVisit.principal := by
  have hrun : Interleaves (fun _ : Unit => liveVisit) (liveVisit.events.map (Prod.mk ())) := by
    intro r
    cases r
    exact ⟨[], by decide⟩
  obtain ⟨hcredited, hlive, -⟩ := audit_actor (fun _ : Unit => liveVisit) (liveVisit.events.map (Prod.mk ())) hrun
  exact ⟨by decide, hcredited (hlive fun _ => live_liveVisit)⟩

/-- A cookie of a session that has ended, and a live session whose connection is lost, opened again, and first
used for what is refused: each goes on to commit one row. -/
def endedVisit : Visit ℕ := ⟨some 7, true, some none, [.work (.atomic .write true)]⟩

def reopenedVisit : Visit ℕ := ⟨some 7, true, some (some 7),
  [.work (.atomic .lose true), .work (.atomic .fail true), .work (.atomic .write true)]⟩

/-- The first is credited to the user of the ended session, though there is no principal; the second to
nobody, though there is one. -/
theorem audit_actor_misattributed :
    Interleaves (fun _ : Unit => endedVisit) (endedVisit.events.map (Prod.mk ())) ∧
      ((World.start fun _ : Unit => endedVisit).play (endedVisit.events.map (Prod.mk ()))).auditLog =
        [((), some 7)] ∧ endedVisit.principal = none ∧
    Interleaves (fun _ : Unit => reopenedVisit) (reopenedVisit.events.map (Prod.mk ())) ∧
      ((World.start fun _ : Unit => reopenedVisit).play (reopenedVisit.events.map (Prod.mk ()))).auditLog =
        [((), none)] ∧ reopenedVisit.principal = some 7 := by
  refine ⟨fun r => ?_, by decide, rfl, fun r => ?_, by decide, rfl⟩
  · cases r
    exact ⟨[], by decide⟩
  · cases r
    exact ⟨[], by decide⟩

end RetailSegmentation.AuditActor
