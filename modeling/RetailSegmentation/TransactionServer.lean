import RetailSegmentation.ProgramProtocol

/-! Programs over a transactional server. A connection executes statements, commits and rolls back; an
error ends its transaction. A server is given by what it may answer and what a commit and a rollback
make of its tables; a workflow says what the transactions of one connection may do in which order. -/

namespace Transactions

open Program

/-- What a connection is asked to do. -/
inductive Request (S : Type) where
  | execute (s : S)
  | commit
  | rollback
  deriving DecidableEq, Repr

abbrev Answer {S : Type} (Res : S → Type) : Request S → Type
  | .execute s => Res s
  | .commit => Unit
  | .rollback => Unit

abbrev Reply {S : Type} (Res : S → Type) (Err : Type) (c : Request S) : Type := Except Err (Answer Res c)

abbrev SqlProg {S : Type} (Res : S → Type) (Err E α : Type) : Type :=
  Prog (Request S) (Reply Res Err) E α

variable {T S : Type} {Res : S → Type} {Err E α β σ Λ : Type}

/-! ### Programs -/

section Programs

variable (raise : Err → E)

/-- A request, whose error is raised. -/
def request (c : Request S) : SqlProg Res Err E (Answer Res c) :=
  .call c fun
    | .ok a => .ret a
    | .error e => .raise (raise e)

def execute (s : S) : SqlProg Res Err E (Res s) := request raise (.execute s)

/-- Commit one unit of work; roll back and pass on any exception. -/
def atomic (body : SqlProg Res Err E α) : SqlProg Res Err E α :=
  (body >>= fun a => request raise .commit >>= fun _ => .ret a).tryCatch fun e =>
    request raise .rollback >>= fun _ => .raise e

/-- The same for a scope that ends its transaction: its caller does not hear of a rollback that fails. -/
def transaction (body : SqlProg Res Err E α) : SqlProg Res Err E α :=
  (body >>= fun a => request raise .commit >>= fun _ => .ret a).tryCatch fun e =>
    .call .rollback fun _ => .raise e

end Programs

/-! ### Servers -/

/-- A statement answered may change the tables; one refused may say why; an abort may hit any request.
`losesReplies` says whether the reply of a commit may be lost. -/
structure Server (T S : Type) (Res : S → Type) (Err σ : Type) where
  answers : T → (s : S) → σ → Res s → σ → Prop
  refuses : T → S → σ → Err → Prop
  aborts : Err → Prop
  commit : T → σ → σ
  rollback : T → σ → σ
  losesReplies : Prop

namespace Server

inductive Step (srv : Server T S Res Err σ) (t : T) :
    (c : Request S) → σ → Reply Res Err c → σ → Prop where
  | answered {s : S} {db db' : σ} {v : Res s} (hanswer : srv.answers t s db v db') :
      srv.Step t (.execute s) db (.ok v) db'
  | refused {s : S} {db : σ} {e : Err} (hrefuse : srv.refuses t s db e) :
      srv.Step t (.execute s) db (.error e) (srv.rollback t db)
  | aborted (c : Request S) {db : σ} {e : Err} (habort : srv.aborts e) :
      srv.Step t c db (.error e) (srv.rollback t db)
  | committed {db : σ} : srv.Step t .commit db (.ok ()) (srv.commit t db)
  | lost {db : σ} {e : Err} (hlost : srv.losesReplies) (habort : srv.aborts e) :
      srv.Step t .commit db (.error e) (srv.commit t db)
  | rolledBack {db : σ} : srv.Step t .rollback db (.ok ()) (srv.rollback t db)

/-- Any number of connections; the death of one rolls its transaction back. -/
def machine (srv : Server T S Res Err σ) : Machine T (Request S) (Reply Res Err) σ where
  step := srv.Step
  env _ _ := False
  halt t db db' := db' = srv.rollback t db

/-- A server whose statements are answered by functions, to run schedules on. -/
def respond (srv : Server T S Res Err σ) (answer : T → (s : S) → σ → Option (Res s × σ))
    (refusal : T → S → σ → Option Err) (t : T) :
    (c : Request S) → σ → Option (Reply Res Err c × σ)
  | .execute s, db => match answer t s db with
    | some (v, db') => some (.ok v, db')
    | none => (refusal t s db).map fun e => (.error e, srv.rollback t db)
  | .commit, db => some (.ok (), srv.commit t db)
  | .rollback, db => some (.ok (), srv.rollback t db)

theorem step_of_respond {srv : Server T S Res Err σ} {answer : T → (s : S) → σ → Option (Res s × σ)}
    {refusal : T → S → σ → Option Err}
    (hanswer : ∀ t s db v db', answer t s db = some (v, db') → srv.answers t s db v db')
    (hrefusal : ∀ t s db e, refusal t s db = some e → srv.refuses t s db e) {t : T} {c : Request S}
    {db db' : σ} {r : Reply Res Err c} (h : srv.respond answer refusal t c db = some (r, db')) :
    srv.Step t c db r db' := by
  cases c with
  | execute s =>
      rw [respond] at h
      split at h
      · rename_i v after hv
        obtain ⟨rfl, rfl⟩ := Prod.mk.inj (Option.some.inj h)
        exact .answered (hanswer t s db v after hv)
      · obtain ⟨e, he, heq⟩ := Option.map_eq_some_iff.mp h
        obtain ⟨rfl, rfl⟩ := Prod.mk.inj heq
        exact .refused (hrefusal t s db e he)
  | commit =>
      obtain ⟨rfl, rfl⟩ := Prod.mk.inj (Option.some.inj h)
      exact .committed
  | rollback =>
      obtain ⟨rfl, rfl⟩ := Prod.mk.inj (Option.some.inj h)
      exact .rolledBack

end Server

/-! ### Workflows -/

/-- What the transactions of a connection may do at each label, what they may be refused or aborted with,
and where statements, a commit (`after`) and a rollback (`undone`) lead. -/
structure Workflow (S : Type) (Res : S → Type) (Err Λ : Type) where
  may : S → Λ → Prop
  next : (s : S) → Res s → Λ → Λ → Prop
  fails : S → Err → Λ → Prop
  aborts : Err → Prop
  commits : Λ → Prop
  after : Λ → Λ
  undone : Λ → Λ
  losesReplies : Prop

namespace Workflow

variable (W : Workflow S Res Err Λ)

def protocol : Protocol (Request S) (Reply Res Err) Λ where
  may c ℓ := match c with
    | .execute s => W.may s ℓ
    | .commit => W.commits ℓ
    | .rollback => True
  next c r ℓ ℓ' := match c, r with
    | .execute s, .ok v => W.next s v ℓ ℓ'
    | .execute s, .error e => (W.fails s e ℓ ∨ W.aborts e) ∧ ℓ' = W.undone ℓ
    | .commit, .ok _ => ℓ' = W.after ℓ
    | .commit, .error e => W.aborts e ∧ (ℓ' = W.undone ℓ ∨ W.losesReplies ∧ ℓ' = W.after ℓ)
    | .rollback, .ok _ => ℓ' = W.undone ℓ
    | .rollback, .error e => W.aborts e ∧ ℓ' = W.undone ℓ

variable {W} {raise : Err → E} {ℓ : Λ} {P : α → Λ → Prop} {P' : β → Λ → Prop} {F F' : E → Λ → Prop}

theorem follows_execute {s : S} {P : Res s → Λ → Prop} (hmay : W.may s ℓ)
    (hnext : ∀ v ℓ', W.next s v ℓ ℓ' → P v ℓ') (hfails : ∀ e, W.fails s e ℓ ∨
      W.aborts e → F (raise e) (W.undone ℓ)) :
    (execute raise s).Follows W.protocol ℓ (Contract.Ends P F) := by
  refine ⟨hmay, fun r ℓ' h => ?_⟩
  cases r with
  | ok v => exact hnext v ℓ' h
  | error e =>
      obtain ⟨he, rfl⟩ := h
      exact hfails e he

theorem follows_step {s : S} {f : Res s → SqlProg Res Err E β} (hmay : W.may s ℓ)
    (hnext : ∀ v ℓ', W.next s v ℓ ℓ' → (f v).Follows W.protocol ℓ' (Contract.Ends P' F))
    (hfails : ∀ e, W.fails s e ℓ ∨ W.aborts e → F (raise e) (W.undone ℓ)) :
    (execute raise s >>= f).Follows W.protocol ℓ (Contract.Ends P' F) :=
  (follows_execute (P := fun v ℓ' => W.next s v ℓ ℓ') hmay (fun _ _ h => h) hfails).bind hnext

/-- A unit of work that may commit where it ends: what it returns holds after the commit, and an
exception holds after the rollback, or after a commit whose reply was lost. -/
theorem follows_atomic {body : SqlProg Res Err E α} {P' : α → Λ → Prop}
    (hbody : body.Follows W.protocol ℓ (Contract.Ends P F))
    (hcommits : ∀ a ℓ', P a ℓ' → W.commits ℓ' ∧ P' a (W.after ℓ') ∧
      ∀ e, W.aborts e → F (raise e) (W.undone ℓ') ∧ (W.losesReplies → F (raise e) (W.after ℓ')))
    (hfails : ∀ e ℓ', F e ℓ' → F' e (W.undone ℓ') ∧ ∀ e', W.aborts e' → F' (raise e') (W.undone ℓ')) :
    (atomic raise body).Follows W.protocol ℓ (Contract.Ends P' F') := by
  unfold atomic
  apply Prog.Follows.tryCatch (F := F)
  · refine hbody.bind fun a ℓ' ha => ?_
    obtain ⟨hmay, hafter, herror⟩ := hcommits a ℓ' ha
    refine ⟨hmay, fun r ℓ'' h => ?_⟩
    cases r with
    | ok _ =>
        obtain rfl : ℓ'' = W.after ℓ' := h
        exact hafter
    | error e =>
        obtain ⟨habort, rfl | ⟨hlost, rfl⟩⟩ := h
        · exact (herror e habort).1
        · exact (herror e habort).2 hlost
  · intro e ℓ' he
    obtain ⟨hover, hraise⟩ := hfails e ℓ' he
    refine ⟨trivial, fun r ℓ'' h => ?_⟩
    cases r with
    | ok _ =>
        obtain rfl : ℓ'' = W.undone ℓ' := h
        exact hover
    | error e' =>
        obtain ⟨habort, rfl⟩ := h
        exact hraise e' habort

theorem follows_transaction {body : SqlProg Res Err E α} {P' : α → Λ → Prop}
    (hbody : body.Follows W.protocol ℓ (Contract.Ends P F))
    (hcommits : ∀ a ℓ', P a ℓ' → W.commits ℓ' ∧ P' a (W.after ℓ') ∧
      ∀ e, W.aborts e → F (raise e) (W.undone ℓ') ∧ (W.losesReplies → F (raise e) (W.after ℓ')))
    (hfails : ∀ e ℓ', F e ℓ' → F' e (W.undone ℓ')) :
    (transaction raise body).Follows W.protocol ℓ (Contract.Ends P' F') := by
  unfold transaction
  apply Prog.Follows.tryCatch (F := F)
  · refine hbody.bind fun a ℓ' ha => ?_
    obtain ⟨hmay, hafter, herror⟩ := hcommits a ℓ' ha
    refine ⟨hmay, fun r ℓ'' h => ?_⟩
    cases r with
    | ok _ =>
        obtain rfl : ℓ'' = W.after ℓ' := h
        exact hafter
    | error e =>
        obtain ⟨habort, rfl | ⟨hlost, rfl⟩⟩ := h
        · exact (herror e habort).1
        · exact (herror e habort).2 hlost
  · intro e ℓ' he
    refine ⟨trivial, fun r ℓ'' h => ?_⟩
    obtain rfl : ℓ'' = W.undone ℓ' := by
      cases r with
      | ok _ => exact h
      | error e' => exact h.2
    exact hfails e ℓ' he

end Workflow

/-! ### Implementing a workflow -/

section Implements

variable {srv : Server T S Res Err σ} {M : Machine T (Request S) (Reply Res Err) σ}
  {K : Contract T (Request S) (Reply Res Err) σ Λ} {W : T → Workflow S Res Err Λ}
  {cond : T → Request S → σ → Prop}

/-- The tables after a rollback keep the contract. -/
def RollsBack (K : Contract T (Request S) (Reply Res Err) σ Λ) (srv : Server T S Res Err σ)
    (W : T → Workflow S Res Err Λ) : Prop :=
  ∀ t ℓ db, K.inv db → K.at_ t ℓ db → K.Keeps t db (srv.rollback t db) ∧
    K.at_ t ((W t).undone ℓ) (srv.rollback t db) ∧ ∀ c r, K.guar t c db r (srv.rollback t db)

/-- So do the tables after a commit the workflow allows. -/
def Commits (K : Contract T (Request S) (Reply Res Err) σ Λ) (srv : Server T S Res Err σ)
    (W : T → Workflow S Res Err Λ) : Prop :=
  ∀ t ℓ db, K.inv db → K.at_ t ℓ db → (W t).commits ℓ → K.Keeps t db (srv.commit t db) ∧
    K.at_ t ((W t).after ℓ) (srv.commit t db) ∧ ∀ r, K.guar t .commit db r (srv.commit t db)

/-- And those after a statement answered where its condition holds. -/
def Answers (K : Contract T (Request S) (Reply Res Err) σ Λ) (srv : Server T S Res Err σ)
    (W : T → Workflow S Res Err Λ) (cond : T → Request S → σ → Prop) : Prop :=
  ∀ t s ℓ db v db', K.inv db → K.at_ t ℓ db → (W t).may s ℓ → cond t (.execute s) db →
    srv.answers t s db v db' → K.guar t (.execute s) db (.ok v) db' ∧ K.Keeps t db db' ∧
      ∃ ℓ', K.at_ t ℓ' db' ∧ (W t).next s v ℓ ℓ'

/-- The errors a workflow expects: what a statement may be refused with, and every abort. -/
def Refuses (K : Contract T (Request S) (Reply Res Err) σ Λ) (srv : Server T S Res Err σ)
    (W : T → Workflow S Res Err Λ) : Prop :=
  (∀ t s ℓ db e, K.inv db → K.at_ t ℓ db → (W t).may s ℓ → srv.refuses t s db e →
    (W t).fails s e ℓ) ∧
  (∀ t e, srv.aborts e → (W t).aborts e) ∧ ∀ t, srv.losesReplies → (W t).losesReplies

theorem implements_workflow
    (hmachine : ∀ t c db r db', M.step t c db r db' → cond t c db ∧ srv.Step t c db r db')
    (hanswers : Answers K srv W cond) (hrefuses : Refuses K srv W) (hcommits : Commits K srv W)
    (hrollback : RollsBack K srv W) : K.Implements M fun t => (W t).protocol := by
  intro t c ℓ hmay db r db' hinv hat hstep
  obtain ⟨hcond, hstep⟩ := hmachine t c db r db' hstep
  cases hstep with
  | answered hanswer => exact hanswers t _ ℓ db _ db' hinv hat hmay hcond hanswer
  | refused hrefuse =>
      obtain ⟨hkeeps, hover, hguar⟩ := hrollback t ℓ db hinv hat
      exact ⟨hguar _ _, hkeeps, _, hover, .inl (hrefuses.1 t _ ℓ db _ hinv hat hmay hrefuse), rfl⟩
  | aborted c habort =>
      obtain ⟨hkeeps, hover, hguar⟩ := hrollback t ℓ db hinv hat
      refine ⟨hguar _ _, hkeeps, _, hover, ?_⟩
      have haborts := hrefuses.2.1 t _ habort
      cases c with
      | execute s => exact ⟨.inr haborts, rfl⟩
      | commit => exact ⟨haborts, .inl rfl⟩
      | rollback => exact ⟨haborts, rfl⟩
  | committed =>
      obtain ⟨hkeeps, hafter, hguar⟩ := hcommits t ℓ db hinv hat hmay
      exact ⟨hguar _, hkeeps, _, hafter, rfl⟩
  | lost hlost habort =>
      obtain ⟨hkeeps, hafter, hguar⟩ := hcommits t ℓ db hinv hat hmay
      exact ⟨hguar _, hkeeps, _, hafter, hrefuses.2.1 t _ habort, .inr ⟨hrefuses.2.2 t hlost, rfl⟩⟩
  | rolledBack =>
      obtain ⟨hkeeps, hover, hguar⟩ := hrollback t ℓ db hinv hat
      exact ⟨hguar _ _, hkeeps, _, hover, rfl⟩

theorem closed_of_rollsBack (hrollback : ∀ t db, K.inv db → K.Keeps t db (srv.rollback t db))
    (hhalt : ∀ t db db', M.halt t db db' → db' = srv.rollback t db)
    (henv : ∀ db db', ¬ M.env db db') : K.Closed M where
  env db db' _ h := absurd h (henv db db')
  halt t db db' hinv h := by
    obtain rfl := hhalt t db db' h
    exact hrollback t db hinv

end Implements

end Transactions
