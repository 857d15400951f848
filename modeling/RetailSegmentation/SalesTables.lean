import Mathlib.Algebra.Group.Basic
import RetailSegmentation.ProgramInterference
import RetailSegmentation.SalesStatements
import RetailSegmentation.TransactionTables

/-! The sales tables under concurrent transactions at READ COMMITTED. A statement sees the committed
rows and its own transaction's versions; it waits for every row it writes or locks that another open
transaction holds. `Around` says
what the steps of the other transactions leave alone. -/

namespace RetailSegmentation.Sales

open Program Transactions

structure SalesDb (T : Type) where
  headers : Table T String Header
  lines : Log T Line
  stock : Table T StockKey ℤ
  captures : Table T String Digest

namespace SalesDb

variable {T : Type}

def ofRows (headers : AList fun _ : String => Header) (lines : List Line)
    (stock : AList fun _ : StockKey => ℤ) (captures : AList fun _ : String => Digest) : SalesDb T :=
  ⟨.ofRows headers, .ofRows lines, .ofRows stock, .ofRows captures⟩

/-- What transaction `t` reads. -/
def ledger (db : SalesDb T) (t : T) : Ledger where
  header := db.headers.get t
  lines := db.lines.view t
  stock := db.stock.get t
  capture := db.captures.get t

def committed (db : SalesDb T) : Ledger where
  header source := db.headers.rows.lookup source
  lines := db.lines.rows
  stock key := db.stock.rows.lookup key
  capture source := db.captures.rows.lookup source

variable [DecidableEq T] (db : SalesDb T) (t : T)

/-- Make one write, or `none` while another transaction holds the row. -/
def write (db : SalesDb T) (t : T) : Write → Option (SalesDb T)
  | .lockHeader source =>
    if hfree : db.headers.Free t source then
      some { db with headers := db.headers.lock t source hfree }
    else none
  | .putHeader source header =>
    if hfree : db.headers.Free t source then
      some { db with headers := db.headers.put t source (some header) hfree }
    else none
  | .addLine line => some { db with lines := db.lines.append t line }
  | .lockStock key =>
    if hfree : db.stock.Free t key then some { db with stock := db.stock.lock t key hfree } else none
  | .putStock key onHand =>
    if hfree : db.stock.Free t key then
      some { db with stock := db.stock.put t key (some onHand) hfree }
    else none
  | .putCapture source digest =>
    if hfree : db.captures.Free t source then
      some { db with captures := db.captures.put t source (some digest) hfree }
    else none

def writes (t : T) : List Write → SalesDb T → Option (SalesDb T)
  | [], db => some db
  | w :: ws, db => (db.write t w).bind (writes t ws)

def commit : SalesDb T :=
  ⟨db.headers.commit t, db.lines.commit t, db.stock.commit t, db.captures.commit t⟩

def rollback : SalesDb T :=
  ⟨db.headers.rollback t, db.lines.rollback t, db.stock.rollback t, db.captures.rollback t⟩

/-- The sales transaction `t` has written to. -/
def touched : List String :=
  (db.headers.pending t).keys ++ (db.lines.pending t).map Line.sourceTransactionId

/-- The answer to a command and the tables after it; `none` while it must wait. -/
def answer (pg : Postgres) (cat : Catalog) (clock : Instant) (t : T) :
    (c : Command) → SalesDb T → Option (Reply c × SalesDb T)
  | .execute s, db => (db.writes t (effect pg cat clock s (db.ledger t)).2).map fun db' =>
      ((effect pg cat clock s (db.ledger t)).1, db')
  | .commit, db =>
    if (db.touched t).all (totalMatchesLines (db.ledger t)) then some (.ok (), db.commit t)
    else some (.error totalMismatch, db.rollback t)
  | .rollback, db => some (.ok (), db.rollback t)

end SalesDb

section Machine

variable {T : Type} [DecidableEq T]

/-- A command is answered; an error may have ended its transaction on the server already. Or it is
aborted, and then a commit may still have happened. A rollback always takes effect: losing the
connection is one. -/
def salesStep (pg : Postgres) (cat : Catalog) (t : T) (c : Command) (db : SalesDb T) (r : Reply c)
    (db' : SalesDb T) : Prop :=
  (∃ clock after, SalesDb.answer pg cat clock t c db = some (r, after) ∧
    (db' = after ∨ (∃ s, c = .execute s) ∧ (∃ e, r = .error e) ∧ db' = after.rollback t)) ∨
  ∃ e, IsAbort e ∧ r = .error e ∧
    (c ≠ .rollback ∧ db' = db ∨ db' = db.rollback t ∨ c = .commit ∧ db' = db.commit t ∧
      (db.touched t).all (totalMatchesLines (db.ledger t)))

/-- The sales machine: any number of requests of both writers on the same tables. -/
def salesMachine (pg : Postgres) (cat : Catalog) : Machine T Command Reply (SalesDb T) where
  step := salesStep pg cat
  env _ _ := False
  halt t db db' := db' = db.rollback t

end Machine

namespace SalesDb

variable {T : Type} {db db' db'' : SalesDb T} {t u : T}

/-! ### A transaction's own steps -/

theorem header_eq {source : String} (howner : db.headers.owner source ≠ some t) :
    (db.ledger t).header source = db.committed.header source := Table.get_eq_rows howner

theorem stock_eq {key : StockKey} (howner : db.stock.owner key ≠ some t) :
    (db.ledger t).stock key = db.committed.stock key := Table.get_eq_rows howner

theorem capture_eq {source : String} (howner : db.captures.owner source ≠ some t) :
    (db.ledger t).capture source = db.committed.capture source := Table.get_eq_rows howner

theorem ledger_lines (db : SalesDb T) (t : T) : (db.ledger t).lines = db.committed.lines ++ db.lines.pending t := rfl

/-- A row that can be locked. -/
inductive Row where
  | header (source : String)
  | stock (key : StockKey)
  | capture (source : String)
  deriving DecidableEq, Repr

def holder (db : SalesDb T) : Row → Option T
  | .header source => db.headers.owner source
  | .stock key => db.stock.owner key
  | .capture source => db.captures.owner source

def row : Write → Option Row
  | .lockHeader source => some (.header source)
  | .putHeader source _ => some (.header source)
  | .addLine _ => none
  | .lockStock key => some (.stock key)
  | .putStock key _ => some (.stock key)
  | .putCapture source _ => some (.capture source)

variable [DecidableEq T]

/-- Nothing is committed by a write; the writer reads it at once, holds its row and loses none. -/
structure Wrote (t : T) (ws : List Write) (db db' : SalesDb T) : Prop where
  committed : db'.committed = db.committed
  ledger : db'.ledger t = (db.ledger t).writes ws
  held : ∀ r, db.holder r = some t → db'.holder r = some t
  taken : ∀ w ∈ ws, ∀ r, row w = some r → db'.holder r = some t
  same : ws = [] → db' = db

/-- What transaction `t` keeps while another one moves. -/
structure Around (t : T) (db db' : SalesDb T) : Prop where
  headers : Table.Around t db.headers db'.headers
  lines : db'.lines.pending t = db.lines.pending t
  stock : Table.Around t db.stock db'.stock
  captures : Table.Around t db.captures db'.captures

omit [DecidableEq T] in
theorem Wrote.nil (t : T) (db : SalesDb T) : Wrote t [] db db := ⟨rfl, rfl, fun _ h => h, nofun, fun _ => rfl⟩

omit [DecidableEq T] in
theorem Wrote.single {w : Write} (hcommitted : db'.committed = db.committed)
    (hledger : db'.ledger t = (db.ledger t).write w)
    (hheld : ∀ r, db.holder r = some t → db'.holder r = some t)
    (htaken : ∀ r, row w = some r → db'.holder r = some t) : Wrote t [w] db db' where
  committed := hcommitted
  ledger := hledger
  held := hheld
  taken v hv r hr := by
    obtain rfl := List.mem_singleton.mp hv
    exact htaken r hr
  same h := by cases h

omit [DecidableEq T] in
theorem Wrote.cons {w : Write} {ws : List Write} (hfirst : Wrote t [w] db db')
    (hrest : Wrote t ws db' db'') : Wrote t (w :: ws) db db'' where
  committed := hrest.committed.trans hfirst.committed
  ledger := by rw [hrest.ledger, hfirst.ledger]; rfl
  held r h := hrest.held r (hfirst.held r h)
  taken v hv r hr := by
    rcases List.mem_cons.mp hv with rfl | hv
    · exact hrest.held r (hfirst.taken v (List.mem_singleton_self v) r hr)
    · exact hrest.taken v hv r hr
  same h := by cases h

omit [DecidableEq T] in
private theorem owner_update {K : Type} [DecidableEq K] {owner : K → Option T} {k k' : K}
    (howner : owner k' = some t) : Function.update owner k (some t) k' = some t := by
  by_cases hk : k' = k
  · rw [hk, Function.update_self]
  · rw [Function.update_of_ne hk, howner]

theorem wrote_write {w : Write} (hwrite : db.write t w = some db') : Wrote t [w] db db' := by
  -- A row written or locked is held from then on, and the rows of the other tables are held as before.
  cases w with
  | lockHeader source =>
      simp only [write] at hwrite
      split_ifs at hwrite with hfree
      obtain rfl := Option.some.inj hwrite
      refine .single rfl rfl (fun r h => ?_) fun r hr => Option.some.inj hr ▸ Table.lock_owner_self hfree
      cases r with
      | header _ => exact owner_update h
      | stock _ => exact h
      | capture _ => exact h
  | putHeader source header =>
      simp only [write] at hwrite
      split_ifs at hwrite with hfree
      obtain rfl := Option.some.inj hwrite
      refine .single rfl ?_ (fun r h => ?_) fun r hr => Option.some.inj hr ▸ Table.put_owner_self hfree _
      · simp only [ledger, Ledger.write, Table.put_get_eq_update]
      · cases r with
        | header _ => exact owner_update h
        | stock _ => exact h
        | capture _ => exact h
  | addLine line =>
      obtain rfl := Option.some.inj hwrite
      refine .single rfl ?_ (fun r h => h) (fun r hr => by cases hr)
      simp only [ledger, Ledger.write, Log.append_view_self]
  | lockStock key =>
      simp only [write] at hwrite
      split_ifs at hwrite with hfree
      obtain rfl := Option.some.inj hwrite
      refine .single rfl rfl (fun r h => ?_) fun r hr => Option.some.inj hr ▸ Table.lock_owner_self hfree
      cases r with
      | header _ => exact h
      | stock _ => exact owner_update h
      | capture _ => exact h
  | putStock key onHand =>
      simp only [write] at hwrite
      split_ifs at hwrite with hfree
      obtain rfl := Option.some.inj hwrite
      refine .single rfl ?_ (fun r h => ?_) fun r hr => Option.some.inj hr ▸ Table.put_owner_self hfree _
      · simp only [ledger, Ledger.write, Table.put_get_eq_update]
      · cases r with
        | header _ => exact h
        | stock _ => exact owner_update h
        | capture _ => exact h
  | putCapture source digest =>
      simp only [write] at hwrite
      split_ifs at hwrite with hfree
      obtain rfl := Option.some.inj hwrite
      refine .single rfl ?_ (fun r h => ?_) fun r hr => Option.some.inj hr ▸ Table.put_owner_self hfree _
      · simp only [ledger, Ledger.write, Table.put_get_eq_update]
      · cases r with
        | header _ => exact h
        | stock _ => exact h
        | capture _ => exact owner_update h

theorem wrote_writes {ws : List Write} (hwrites : db.writes t ws = some db') : Wrote t ws db db' := by
  induction ws generalizing db with
  | nil =>
      obtain rfl : db = db' := Option.some.inj hwrites
      exact .nil t db
  | cons w ws ih =>
      obtain ⟨middle, hw, hrest⟩ := Option.bind_eq_some_iff.mp hwrites
      exact (wrote_write hw).cons (ih hrest)

theorem commit_committed (t : T) (db : SalesDb T) : (db.commit t).committed = db.ledger t := by
  simp only [committed, commit, ledger, Table.commit_rows, Log.commit_rows]

theorem rollback_committed (t : T) (db : SalesDb T) : (db.rollback t).committed = db.committed := rfl

/-- Between transactions a connection holds nothing and reads what is committed. -/
structure Idle (t : T) (db : SalesDb T) : Prop where
  lines : db.lines.pending t = []
  holder : ∀ r, db.holder r ≠ some t

theorem commit_idle (t : T) (db : SalesDb T) : (db.commit t).Idle t := by
  refine ⟨Log.commit_pending_self t, fun r => ?_⟩
  cases r with
  | header source => exact Table.commit_owner_self t source
  | stock key => exact Table.commit_owner_self t key
  | capture source => exact Table.commit_owner_self t source

theorem rollback_idle (t : T) (db : SalesDb T) : (db.rollback t).Idle t := by
  refine ⟨Log.rollback_pending_self t, fun r => ?_⟩
  cases r with
  | header source => exact Table.rollback_owner_self t source
  | stock key => exact Table.rollback_owner_self t key
  | capture source => exact Table.rollback_owner_self t source

omit [DecidableEq T] in
theorem ofRows_idle (headers : AList fun _ : String => Header) (lines : List Line)
    (stock : AList fun _ : StockKey => ℤ) (captures : AList fun _ : String => Digest) (t : T) :
    (ofRows headers lines stock captures : SalesDb T).Idle t := by
  refine ⟨rfl, fun r => ?_⟩
  cases r <;> nofun

omit [DecidableEq T] in
theorem Idle.ledger_eq (hidle : db.Idle t) : db.ledger t = db.committed := by
  have hheader : (db.ledger t).header = db.committed.header :=
    funext fun source => header_eq (hidle.holder (.header source))
  have hstock : (db.ledger t).stock = db.committed.stock :=
    funext fun key => stock_eq (hidle.holder (.stock key))
  have hcapture : (db.ledger t).capture = db.committed.capture :=
    funext fun source => capture_eq (hidle.holder (.capture source))
  have hlines : (db.ledger t).lines = db.committed.lines := by
    rw [ledger_lines, hidle.lines, List.append_nil]
  change Ledger.mk _ _ _ _ = Ledger.mk _ _ _ _
  exact congr (congr (congr (congrArg Ledger.mk hheader) hlines) hstock) hcapture

/-! ### The steps of the others -/

namespace Around

omit [DecidableEq T] in
theorem refl (t : T) (db : SalesDb T) : Around t db db := ⟨.refl _, rfl, .refl _, .refl _⟩

omit [DecidableEq T] in
theorem trans (h : Around t db db') (h' : Around t db' db'') : Around t db db'' :=
  ⟨h.headers.trans h'.headers, h'.lines.trans h.lines, h.stock.trans h'.stock,
    h.captures.trans h'.captures⟩

theorem write (hu : t ≠ u) {w : Write} (hwrite : db.write u w = some db') : Around t db db' := by
  cases w with
  | lockHeader source =>
      simp only [SalesDb.write] at hwrite
      split_ifs at hwrite with hfree
      obtain rfl := Option.some.inj hwrite
      exact ⟨.lock hu hfree, rfl, .refl _, .refl _⟩
  | putHeader source header =>
      simp only [SalesDb.write] at hwrite
      split_ifs at hwrite with hfree
      obtain rfl := Option.some.inj hwrite
      exact ⟨.put hu _ hfree, rfl, .refl _, .refl _⟩
  | addLine line =>
      obtain rfl := Option.some.inj hwrite
      exact ⟨.refl _, Log.append_pending_other u line hu, .refl _, .refl _⟩
  | lockStock key =>
      simp only [SalesDb.write] at hwrite
      split_ifs at hwrite with hfree
      obtain rfl := Option.some.inj hwrite
      exact ⟨.refl _, rfl, .lock hu hfree, .refl _⟩
  | putStock key onHand =>
      simp only [SalesDb.write] at hwrite
      split_ifs at hwrite with hfree
      obtain rfl := Option.some.inj hwrite
      exact ⟨.refl _, rfl, .put hu _ hfree, .refl _⟩
  | putCapture source digest =>
      simp only [SalesDb.write] at hwrite
      split_ifs at hwrite with hfree
      obtain rfl := Option.some.inj hwrite
      exact ⟨.refl _, rfl, .refl _, .put hu _ hfree⟩

theorem writes (hu : t ≠ u) {ws : List Write} (hwrites : db.writes u ws = some db') :
    Around t db db' := by
  induction ws generalizing db with
  | nil =>
      obtain rfl : db = db' := Option.some.inj hwrites
      exact .refl t db
  | cons w ws ih =>
      obtain ⟨middle, hw, hrest⟩ := Option.bind_eq_some_iff.mp hwrites
      exact (Around.write hu hw).trans (ih hrest)

theorem commit (hu : t ≠ u) (db : SalesDb T) : Around t db (db.commit u) :=
  ⟨.commit hu, Log.commit_pending_other u hu, .commit hu, .commit hu⟩

theorem rollback (hu : t ≠ u) (db : SalesDb T) : Around t db (db.rollback u) :=
  ⟨.rollback hu, Log.rollback_pending_other u hu, .rollback hu, .rollback hu⟩

omit [DecidableEq T] in
theorem holder (h : Around t db db') (r : Row) : db'.holder r = some t ↔ db.holder r = some t := by
  cases r with
  | header source => exact h.headers.owner source
  | stock key => exact h.stock.owner key
  | capture source => exact h.captures.owner source

omit [DecidableEq T] in
theorem idle (h : Around t db db') (hidle : db.Idle t) : db'.Idle t :=
  ⟨h.lines.trans hidle.lines, fun r => (h.holder r).not.mpr (hidle.holder r)⟩

omit [DecidableEq T] in
theorem ledger_eq (h : Around t db db') (hcommitted : db'.committed = db.committed) :
    db'.ledger t = db.ledger t := by
  have hheader : (db'.ledger t).header = (db.ledger t).header := by
    funext source
    by_cases howner : db.headers.owner source = some t
    · exact h.headers.get source howner
    · rw [header_eq howner, header_eq ((h.headers.owner source).not.mpr howner), hcommitted]
  have hstock : (db'.ledger t).stock = (db.ledger t).stock := by
    funext key
    by_cases howner : db.stock.owner key = some t
    · exact h.stock.get key howner
    · rw [stock_eq howner, stock_eq ((h.stock.owner key).not.mpr howner), hcommitted]
  have hcapture : (db'.ledger t).capture = (db.ledger t).capture := by
    funext source
    by_cases howner : db.captures.owner source = some t
    · exact h.captures.get source howner
    · rw [capture_eq howner, capture_eq ((h.captures.owner source).not.mpr howner), hcommitted]
  have hlines : (db'.ledger t).lines = (db.ledger t).lines := by
    rw [ledger_lines, ledger_lines, hcommitted, h.lines]
  change Ledger.mk _ _ _ _ = Ledger.mk _ _ _ _
  exact congr (congr (congr (congrArg Ledger.mk hheader) hlines) hstock) hcapture

end Around

/-! ### What a step does -/

/-- A statement answers as its effect says, and writes that or loses its transaction; or it is aborted. -/
theorem step_execute {pg : Postgres} {cat : Catalog} {s : Statement} {r : Reply (.execute s)}
    (hstep : salesStep pg cat t (.execute s) db r db') :
    (∃ clock, r = (effect pg cat clock s (db.ledger t)).1 ∧
      (Wrote t (effect pg cat clock s (db.ledger t)).2 db db' ∨
        (∃ e, r = .error e) ∧ db'.Idle t ∧ db'.committed = db.committed)) ∨
    ∃ e, IsAbort e ∧ r = .error e ∧ (db' = db ∨ db'.Idle t ∧ db'.committed = db.committed) := by
  rcases hstep with ⟨clock, after, hanswer, hafter⟩ | ⟨e, habort, rfl, hafter⟩
  · obtain ⟨db₁, hwrites, heq⟩ := Option.map_eq_some_iff.mp hanswer
    obtain ⟨rfl, rfl⟩ := Prod.mk.inj heq
    have hwrote := wrote_writes hwrites
    rcases hafter with rfl | ⟨-, herror, rfl⟩
    · exact .inl ⟨clock, rfl, .inl hwrote⟩
    · exact .inl ⟨clock, rfl, .inr ⟨herror, rollback_idle t _, hwrote.committed⟩⟩
  · rcases hafter with ⟨-, rfl⟩ | rfl | ⟨h, -⟩
    · exact .inr ⟨e, habort, rfl, .inl rfl⟩
    · exact .inr ⟨e, habort, rfl, .inr ⟨rollback_idle t _, rfl⟩⟩
    · cases h

/-- A commit makes what the transaction reads the committed tables, whatever its answer; or it is refused
or aborted and leaves them. -/
theorem step_commit {pg : Postgres} {cat : Catalog} {r : Reply .commit}
    (hstep : salesStep pg cat t .commit db r db') :
    ((r = .ok () ∨ ∃ e, IsAbort e ∧ r = .error e) ∧
      (db.touched t).all (totalMatchesLines (db.ledger t)) ∧ db' = db.commit t) ∨
    ∃ e, (e = totalMismatch ∨ IsAbort e) ∧ r = .error e ∧ (db' = db ∨ db' = db.rollback t) := by
  rcases hstep with ⟨clock, after, hanswer, hafter⟩ | ⟨e, habort, rfl, hafter⟩
  · simp only [answer] at hanswer
    split_ifs at hanswer with hmatches
    · obtain ⟨rfl, rfl⟩ := Prod.mk.inj (Option.some.inj hanswer)
      rcases hafter with rfl | ⟨⟨_, h⟩, -⟩
      · exact .inl ⟨.inl rfl, hmatches, rfl⟩
      · cases h
    · obtain ⟨rfl, rfl⟩ := Prod.mk.inj (Option.some.inj hanswer)
      rcases hafter with rfl | ⟨⟨_, h⟩, -⟩
      · exact .inr ⟨_, .inl rfl, rfl, .inr rfl⟩
      · cases h
  · rcases hafter with ⟨-, rfl⟩ | rfl | ⟨-, rfl, hmatches⟩
    · exact .inr ⟨e, .inr habort, rfl, .inl rfl⟩
    · exact .inr ⟨e, .inr habort, rfl, .inr rfl⟩
    · exact .inl ⟨.inr ⟨e, habort, rfl⟩, hmatches, rfl⟩

theorem step_rollback {pg : Postgres} {cat : Catalog} {r : Reply .rollback}
    (hstep : salesStep pg cat t .rollback db r db') :
    (r = .ok () ∨ ∃ e, IsAbort e ∧ r = .error e) ∧ db' = db.rollback t := by
  rcases hstep with ⟨clock, after, hanswer, hafter⟩ | ⟨e, habort, rfl, hafter⟩
  · obtain ⟨rfl, rfl⟩ := Prod.mk.inj (Option.some.inj hanswer)
    rcases hafter with rfl | ⟨⟨_, h⟩, -⟩
    · exact ⟨.inl rfl, rfl⟩
    · cases h
  · rcases hafter with ⟨h, -⟩ | rfl | ⟨h, -⟩
    · exact absurd rfl h
    · exact ⟨.inr ⟨e, habort, rfl⟩, rfl⟩
    · cases h

theorem step_around {pg : Postgres} {cat : Catalog} (hu : t ≠ u) {c : Command} {r : Reply c}
    (hstep : salesStep pg cat u c db r db') : Around t db db' := by
  rcases hstep with ⟨clock, after, hanswer, hafter⟩ | ⟨e, -, -, hafter⟩
  · have hafter' : Around t db after := by
      cases c with
      | execute s =>
          obtain ⟨db₁, hwrites, heq⟩ := Option.map_eq_some_iff.mp hanswer
          obtain ⟨-, rfl⟩ := Prod.mk.inj heq
          exact .writes hu hwrites
      | commit =>
          simp only [answer] at hanswer
          split_ifs at hanswer
          · obtain ⟨-, rfl⟩ := Prod.mk.inj (Option.some.inj hanswer)
            exact .commit hu db
          · obtain ⟨-, rfl⟩ := Prod.mk.inj (Option.some.inj hanswer)
            exact .rollback hu db
      | rollback =>
          obtain ⟨-, rfl⟩ := Prod.mk.inj (Option.some.inj hanswer)
          exact .rollback hu db
    rcases hafter with rfl | ⟨-, -, rfl⟩
    · exact hafter'
    · exact hafter'.trans (.rollback hu _)
  · rcases hafter with ⟨-, rfl⟩ | rfl | ⟨-, rfl, -⟩
    · exact .refl t db'
    · exact .rollback hu db
    · exact .commit hu db

end SalesDb

/-! ### The stock of a corner shop -/

def cornerDb : SalesDb Bool := .ofRows ∅ [] (AList.singleton (1, 7) 5) ∅

theorem cornerDb_stock {key : StockKey} {onHand : ℤ} (h : cornerDb.committed.stock key = some onHand) :
    0 ≤ onHand := by
  by_cases hkey : key = (1, 7)
  · subst hkey
    obtain rfl := Option.some.inj h
    decide
  · have hnone : cornerDb.committed.stock key = none :=
      List.dlookup_cons_ne [] ⟨(1, 7), 5⟩ hkey
    cases hnone.symm.trans h

end RetailSegmentation.Sales
