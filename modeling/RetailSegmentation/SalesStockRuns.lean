import RetailSegmentation.SalesRefusals
import RetailSegmentation.SalesStock

/-! Every interleaving of CSV rows and phone sales conserves stock. Each program is followed once, by
itself, with `Held` as its running account; the interference rule does the rest. -/

namespace RetailSegmentation.Sales

open Program

section Contract

variable {T : Type} [DecidableEq T] (pg : Postgres) (cat : Catalog) (jobs : T → Job) (start : Ledger)

/-- The row lock of a refusal finds less than the request asks of that product, or no row. -/
def FoundTooLittle (job : Job) (t : T) (db : SalesDb T) (storeId productId : ℤ) (found : Option ℤ)
    (db' : SalesDb T) : Prop :=
  storeId = job.storeId ∧ ∃ quantity, job.Asks productId quantity ∧
    (db.ledger t).stock (storeId, productId) = found ∧
    ∀ onHand, found = some onHand → onHand < quantity ∧
      db'.holder (.stock (storeId, productId)) = some t

def stockContract : Contract T Command Reply (SalesDb T) Held where
  inv := Conserved start
  at_ t held db := Holding (jobs t).storeId held t db
  guar t c db r db' := match c, r with
    | .execute (.lockInventory storeId productId), .ok found =>
      FoundTooLittle (jobs t) t db storeId productId found db'
    | _, _ => True

variable {pg cat jobs start}

variable (jobs start) in
/-- What leaves the committed tables alone keeps the invariant and what the others rely on. -/
theorem keeps_of_committed {t : T} {c : Command} {r : Reply c} {db db' : SalesDb T}
    (hstep : salesStep pg cat t c db r db') (hcommitted : db'.committed = db.committed)
    (hinv : Conserved start db) : (stockContract jobs start).Keeps t db db' where
  inv := ⟨by rw [hcommitted]; exact hinv.added, by rw [hcommitted]; exact hinv.nonneg⟩
  others u hu held hheld := by
    refine Holding.around hheld (SalesDb.step_around hu hstep) ?_ ?_
    · rw [hcommitted]
      exact hinv.nonneg
    · intro key after hafter
      exact ⟨after, hcommitted ▸ hafter, le_rfl⟩

/-! ### Commands -/

variable {M : Machine T Command Reply (SalesDb T)} {t : T} {held : Held}

/-- A statement is followed by its own account `post` when it succeeds; refused or aborted, the
transaction stands as it was or is over. -/
def After {α : Type} (held : Held) (post : α → Held) : Except DbError α → Held → Prop
  | .ok v, held' => held' = post v
  | .error _, held' => held' = held ∨ held' = .reset

theorem spec_execute {s : Statement} (post : Result s → Held)
    (hpost : ∀ clock v db db', (effect pg cat clock s (SalesDb.ledger db t)).1 = .ok v →
      SalesDb.Wrote t (effect pg cat clock s (db.ledger t)).2 db db' →
      Holding (jobs t).storeId held t db → Holding (jobs t).storeId (post v) t db' ∧
        (stockContract jobs start).guar t (.execute s) db (.ok v) db') :
    (stockContract jobs start).CmdSpec (salesMachine pg cat) t (.execute s) held (After held post) := by
  intro db r db' hinv hheld hstep
  have hstep' : salesStep pg cat t (.execute s) db r db' := hstep
  have hrefused : ∀ e, r = .error e → (stockContract jobs start).guar t (.execute s) db r db' := by
    rintro e rfl
    cases s <;> trivial
  have hover : ∀ e, r = .error e → db'.Idle t → db'.committed = db.committed →
      (stockContract jobs start).Keeps t db db' ∧ ∃ held', Holding (jobs t).storeId held' t db' ∧
        After held post r held' := by
    rintro e rfl hidle hcommitted
    have hkeeps := keeps_of_committed jobs start hstep' hcommitted hinv
    exact ⟨hkeeps, .reset, .of_idle hidle hkeeps.inv, .inr rfl⟩
  rcases SalesDb.step_execute hstep' with
    ⟨clock, hr, hwrote | ⟨⟨e, he⟩, hidle, hcommitted⟩⟩ | ⟨e, -, he, hsame | ⟨hidle, hcommitted⟩⟩
  · subst hr
    have hkeeps := keeps_of_committed jobs start hstep' hwrote.committed hinv
    cases hanswer : (effect pg cat clock s (db.ledger t)).1 with
    | ok v =>
        obtain ⟨hnext, hguar⟩ := hpost clock v db db' hanswer hwrote hheld
        exact ⟨hguar, hkeeps, post v, hnext, rfl⟩
    | error e =>
        have hsame := effect_error_writes hanswer
        refine ⟨hanswer ▸ hrefused e hanswer, hkeeps, held, ?_, .inl rfl⟩
        exact hheld.same hwrote (by rw [hsame]) (by rw [hsame]) (by rw [hsame])
  · exact ⟨hrefused e he, hover e he hidle hcommitted⟩
  · subst hsame
    exact ⟨hrefused e he, keeps_of_committed jobs start hstep' rfl hinv, held, hheld, he ▸ .inl rfl⟩
  · exact ⟨hrefused e he, hover e he hidle hcommitted⟩

theorem spec_rollback : (stockContract jobs start).CmdSpec (salesMachine pg cat) t .rollback held
    fun _ held' => held' = .reset := by
  intro db r db' hinv hheld hstep
  have hstep' : salesStep pg cat t .rollback db r db' := hstep
  obtain ⟨-, rfl⟩ := SalesDb.step_rollback hstep'
  have hkeeps := keeps_of_committed jobs start hstep' (SalesDb.rollback_committed t db) hinv
  exact ⟨trivial, hkeeps, .reset, .of_idle (SalesDb.rollback_idle t db) hkeeps.inv, rfl⟩

theorem spec_commit (hbalanced : held.Balanced) :
    (stockContract jobs start).CmdSpec (salesMachine pg cat) t .commit held fun r held' =>
      r = .ok () → held' = .reset := by
  intro db r db' hinv hheld hstep
  have hstep' : salesStep pg cat t .commit db r db' := hstep
  have hheld' : Holding (jobs t).storeId held t db := hheld
  refine ⟨trivial, ?_⟩
  rcases SalesDb.step_commit hstep' with ⟨-, -, rfl⟩ | ⟨e, -, rfl, rfl | rfl⟩
  · have hinv' : Conserved start (db.commit t) := Conserved.commit hinv hheld' hbalanced
    refine ⟨⟨hinv', fun u hu other hother => ?_⟩, .reset, .of_idle (SalesDb.commit_idle t db) hinv',
      fun _ => rfl⟩
    refine Holding.around hother (SalesDb.step_around hu hstep') hinv'.nonneg ?_
    -- The units a transaction has taken are positive, so its commit only lowers the stock.
    intro key after hafter
    rw [SalesDb.commit_committed, hheld'.stock] at hafter
    obtain ⟨before, hbefore, rfl⟩ := Option.map_eq_some_iff.mp hafter
    have := takenAt_nonneg (jobs t).storeId hheld'.positive key
    exact ⟨before, hbefore, by omega⟩
  · exact ⟨keeps_of_committed jobs start hstep' rfl hinv, held, hheld, nofun⟩
  · have hkeeps := keeps_of_committed jobs start hstep' (SalesDb.rollback_committed t db) hinv
    exact ⟨hkeeps, .reset, .of_idle (SalesDb.rollback_idle t db) hkeeps.inv, nofun⟩

theorem stockContract_closed : (stockContract jobs start).Closed (salesMachine pg cat) where
  env _ _ _ h := h.elim
  halt t db db' hinv hhalt := by
    obtain rfl : db' = db.rollback t := hhalt
    refine ⟨⟨hinv.added, hinv.nonneg⟩, fun u hu held hheld => ?_⟩
    exact Holding.around hheld (.rollback hu db) hinv.nonneg fun key after hafter => ⟨after, hafter, le_rfl⟩

/-! ### Statements of the two writers -/

theorem spec_read {s : Statement} (hlock : ∀ storeId productId, s ≠ .lockInventory storeId productId)
    (hread : ∀ clock ledger v, (effect pg cat clock s ledger).1 = .ok v →
      (ledger.writes (effect pg cat clock s ledger).2).header = ledger.header ∧
      (ledger.writes (effect pg cat clock s ledger).2).lines = ledger.lines ∧
      (ledger.writes (effect pg cat clock s ledger).2).stock = ledger.stock) :
    (stockContract jobs start).CmdSpec (salesMachine pg cat) t (.execute s) held
      (After held fun _ => held) := by
  refine spec_execute (fun _ => held) fun clock v db db' hanswer hwrote hheld => ?_
  obtain ⟨hheader, hlines, hstock⟩ := hread clock (db.ledger t) v hanswer
  refine ⟨hheld.same hwrote hheader hlines hstock, ?_⟩
  cases s with
  | lockInventory storeId productId => exact absurd rfl (hlock storeId productId)
  | _ => trivial

theorem spec_getTransactionBySourceId {source : String} (hlines : held.lines = []) :
    (stockContract jobs start).CmdSpec (salesMachine pg cat) t
      (.execute (.getTransactionBySourceId source)) held (After held fun found : Option Header =>
        if found.map Header.storeId = some (jobs t).storeId then { held with head := some source }
        else held) := by
  refine spec_execute (s := .getTransactionBySourceId source) _
    fun clock found db db' hanswer hwrote hheld => ⟨?_, trivial⟩
  simp only [effect] at hanswer hwrote
  split at hanswer
  · cases hanswer
  rename_i hnul
  rw [if_neg hnul] at hwrote
  cases hheader : (db.ledger t).header source with
  | none =>
      rw [hheader] at hanswer hwrote
      obtain rfl := Except.ok.inj hanswer
      exact hheld.same hwrote rfl rfl rfl
  | some header =>
      rw [hheader] at hanswer hwrote
      dsimp only at hanswer hwrote
      split_ifs at hanswer
      obtain rfl := Except.ok.inj hanswer
      have hlocked : Holding (jobs t).storeId held t db' := hheld.same hwrote rfl rfl rfl
      split_ifs with hstore
      · refine hlocked.headed_by (.inl hlines) (hwrote.taken _ (List.mem_singleton_self _) _ rfl) ?_
        rw [hwrote.ledger, ← hstore]
        exact congrArg (Option.map Header.storeId) hheader
      · exact hlocked

theorem spec_insertTransaction {session : SessionUser} {new : NewHeader} (hlines : held.lines = [])
    (hstore : new.storeId = (jobs t).storeId) :
    (stockContract jobs start).CmdSpec (salesMachine pg cat) t
      (.execute (.insertTransaction session new)) held
      (After held fun _ => { held with head := some new.sourceTransactionId }) := by
  refine spec_execute (s := .insertTransaction session new) _
    fun clock v db db' hanswer hwrote hheld => ⟨?_, trivial⟩
  simp only [effect] at hanswer hwrote
  split at hanswer
  · cases hanswer
  rename_i header hrow
  rw [hrow] at hwrote
  dsimp only at hwrote
  split at hanswer
  · cases hanswer
  rename_i hnew
  rw [if_neg hnew] at hwrote
  split at hanswer
  · cases hanswer
  rename_i hreference
  rw [hreference] at hwrote
  refine hheld.putHeader hwrote ((headerRow_ok pg hrow).1.trans hstore) ?_ (.inl hlines)
  intro before hbefore
  rw [hbefore] at hnew
  exact absurd rfl hnew

theorem spec_insertTransactionLine {session : SessionUser} (line : Line)
    (hhead : held.head = some line.sourceTransactionId) :
    (stockContract jobs start).CmdSpec (salesMachine pg cat) t
      (.execute (.insertTransactionLine session line)) held
      (After held fun _ => { held with lines := held.lines ++ [line] }) := by
  refine spec_execute (s := .insertTransactionLine session line) _
    fun clock v db db' hanswer hwrote hheld => ⟨?_, trivial⟩
  refine hheld.addLine hwrote ?_ hhead
  simp only [effect] at hanswer ⊢
  split at hanswer
  · cases hanswer
  split_ifs at hanswer ⊢
  rfl

theorem spec_updateInventory {storeId productId quantity : ℤ} (hstore : storeId = (jobs t).storeId)
    (hpositive : 0 < quantity) :
    (stockContract jobs start).CmdSpec (salesMachine pg cat) t
      (.execute (.updateInventory storeId productId quantity)) held
      (After held fun updated : Option ℤ =>
        if updated.isSome then { held with taken := held.taken ++ [(productId, quantity)] }
        else { held with short := some (productId, quantity) }) := by
  subst hstore
  refine spec_execute (s := .updateInventory (jobs t).storeId productId quantity) _
    fun clock updated db db' hanswer hwrote hheld => ⟨?_, trivial⟩
  simp only [effect] at hanswer hwrote
  cases hon : (db.ledger t).stock ((jobs t).storeId, productId) with
  | none =>
      rw [hon] at hanswer hwrote
      obtain rfl := Except.ok.inj hanswer
      have hsame : Holding (jobs t).storeId held t db' := hheld.same hwrote rfl rfl rfl
      refine hsame.tooLittle fun onHand h => ?_
      rw [hwrote.ledger] at h
      cases hon.symm.trans h
  | some onHand =>
      rw [hon] at hanswer hwrote
      dsimp only at hanswer hwrote
      split_ifs at hanswer with hle
      · obtain rfl := Except.ok.inj hanswer
        rw [if_pos hle] at hwrote
        exact hheld.putStock hwrote hon hle hpositive
      · obtain rfl := Except.ok.inj hanswer
        rw [if_neg hle] at hwrote
        have hsame : Holding (jobs t).storeId held t db' := hheld.same hwrote rfl rfl rfl
        refine hsame.tooLittle fun after h => ?_
        rw [hwrote.ledger] at h
        obtain rfl := Option.some.inj (hon.symm.trans h)
        exact Int.not_le.mp hle

theorem spec_lockInventory {storeId productId quantity : ℤ} (hstore : storeId = (jobs t).storeId)
    (hshort : held.short = some (productId, quantity)) (hasks : (jobs t).Asks productId quantity) :
    (stockContract jobs start).CmdSpec (salesMachine pg cat) t
      (.execute (.lockInventory storeId productId)) held (After held fun _ => held) := by
  subst hstore
  refine spec_execute (s := .lockInventory (jobs t).storeId productId) (fun _ => held)
    fun clock v db db' hanswer hwrote hheld => ?_
  simp only [effect] at hanswer hwrote
  cases hon : (db.ledger t).stock ((jobs t).storeId, productId) with
  | none =>
      rw [hon] at hanswer hwrote
      obtain rfl := Except.ok.inj hanswer
      exact ⟨hheld.same hwrote rfl rfl rfl, rfl, quantity, hasks, hon, by simp⟩
  | some onHand =>
      rw [hon] at hanswer hwrote
      obtain rfl := Except.ok.inj hanswer
      refine ⟨hheld.same hwrote rfl rfl rfl, rfl, quantity, hasks, hon, ?_⟩
      intro found hfound
      obtain rfl := Option.some.inj hfound
      exact ⟨hheld.short productId quantity hshort onHand hon,
        hwrote.taken _ (List.mem_singleton_self _) _ rfl⟩

theorem spec_recomputeTotal {source : String} (hhead : held.head = some source) :
    (stockContract jobs start).CmdSpec (salesMachine pg cat) t
      (.execute (.recomputeTotal source)) held (After held fun _ => held) := by
  refine spec_execute (s := .recomputeTotal source) (fun _ => held)
    fun clock v db db' hanswer hwrote hheld => ⟨?_, trivial⟩
  obtain ⟨-, hstore⟩ := hheld.head source hhead
  obtain ⟨header, hheader, hheaderStore⟩ := Option.map_eq_some_iff.mp hstore
  simp only [effect, hheader] at hanswer hwrote
  split_ifs at hanswer with htotal hclock
  rw [if_neg htotal, if_neg hclock] at hwrote
  have hnext := hheld.putHeader hwrote hheaderStore (fun before hbefore => by
    obtain rfl := Option.some.inj (hheader.symm.trans hbefore)
    exact hheaderStore) (.inr hhead)
  rwa [← hhead] at hnext

/-! ### The two programs -/

section Programs

variable {α : Type} {F : Exc → Held → Prop}

/-- What a transaction ends with: after `P`, or in an exception, when all is rolled back anyway. -/
abbrev InTransaction (P : α → Held → Prop) : Except Exc α → Held → Prop :=
  Contract.Ends P fun _ _ => True

/-- Between transactions nothing is held, however the program ends. -/
abbrev BetweenTransactions : Except Exc α → Held → Prop :=
  Contract.Ends (fun _ held => held = .reset) fun _ held => held = .reset

abbrev StockSafe (pg : Postgres) (cat : Catalog) (jobs : T → Job) (start : Ledger) (t : T)
    (p : SalesProg α) (held : Held) (Q : Except Exc α → Held → Prop) : Prop :=
  (stockContract jobs start).Safe (salesMachine pg cat) t p held Q

theorem safe_execute {s : Statement} {post : Result s → Held}
    (hspec : (stockContract jobs start).CmdSpec (salesMachine pg cat) t (.execute s) held
      (After held post)) (hfail : ∀ e, F e held ∧ F e .reset) :
    StockSafe pg cat jobs start t (execute s) held (Contract.Ends (fun v held' => held' = post v) F) := by
  refine hspec.mono ?_
  rintro (e | v) held' h
  · rcases h with rfl | rfl
    · exact (hfail _).1
    · exact (hfail _).2
  · exact h

theorem safe_check {result : Except Rejection α} {P : α → Held → Prop}
    (hok : ∀ a, result = .ok a → P a held) :
    StockSafe pg cat jobs start t (check result) held (InTransaction P) := by
  cases result with
  | ok a => exact hok a rfl
  | error reason => trivial

theorem safe_translating {p : SalesProg α} {translate : DbError → Exc} {P : α → Held → Prop}
    (hp : StockSafe pg cat jobs start t p held (InTransaction P)) :
    StockSafe pg cat jobs start t (translating p translate) held (InTransaction P) := by
  refine Contract.safe_handle hp fun e held' _ => ?_
  cases e <;> trivial

theorem safe_atomic {body : SalesProg Unit}
    (hbody : StockSafe pg cat jobs start t body .reset (InTransaction fun _ held => held.Balanced)) :
    StockSafe pg cat jobs start t (atomic body) .reset BetweenTransactions := by
  refine Contract.safe_handle (F := fun _ _ => True) (Contract.safe_seq hbody fun _ held hbalanced => ?_)
    fun e held _ => ?_
  · refine (spec_commit hbalanced).mono ?_
    rintro (e | _) held' h
    · trivial
    · exact h rfl
  · refine spec_rollback.mono ?_
    rintro (e' | _) held' h
    · exact h
    · exact h

theorem safe_decrementStock {storeId productId quantity : ℤ} (hstore : storeId = (jobs t).storeId)
    (hpositive : 0 < quantity) (hasks : (jobs t).Asks productId quantity) :
    StockSafe pg cat jobs start t (decrementStock storeId productId quantity) held
      (InTransaction fun _ held' =>
        held' = { held with taken := held.taken ++ [(productId, quantity)] }) := by
  refine Contract.safe_seq (safe_execute (spec_updateInventory hstore hpositive) fun _ => ⟨trivial, trivial⟩) ?_
  rintro (_ | remaining) _ rfl
  · refine Contract.safe_seq (safe_execute (spec_lockInventory hstore rfl hasks) fun _ => ⟨trivial, trivial⟩) ?_
    intro available held' _
    trivial
  · rfl

theorem safe_readReferences {row : SalesRow} :
    StockSafe pg cat jobs start t (readReferences row) held (InTransaction fun _ held' => held' = held) := by
  refine Contract.safe_seq (safe_translating (safe_execute (spec_read ?_ ?_) fun _ => ⟨trivial, trivial⟩)) ?_
  · exact fun _ _ => nofun
  · exact fun _ _ _ _ => ⟨rfl, rfl, rfl⟩
  · rintro references _ rfl
    exact safe_check fun _ _ => rfl

theorem safe_findOrInsertHeader {row : SalesRow} (source : String) (hstore : row.storeId = (jobs t).storeId)
    (hlines : held.lines = []) :
    StockSafe pg cat jobs start t (findOrInsertHeader row source) held
      (InTransaction fun _ held' => held' = { held with head := some source }) := by
  refine Contract.safe_seq (safe_execute (spec_getTransactionBySourceId hlines) fun _ => ⟨trivial, trivial⟩) ?_
  rintro (_ | header) _ rfl
  · exact safe_translating (safe_execute (spec_insertTransaction hlines hstore) fun _ => ⟨trivial, trivial⟩)
  · refine safe_check fun _ hcheck => ?_
    unfold checkHeader at hcheck
    split_ifs at hcheck with _ hagree
    push Not at hagree
    exact if_pos (congrArg some (hagree.2.1.trans hstore))

theorem safe_ingestRow {now : Instant} {row : SalesRow} (hjob : jobs t = .row now row) :
    StockSafe pg cat jobs start t (ingestRow now row) .reset BetweenTransactions := by
  have hstore : row.storeId = (jobs t).storeId := by rw [hjob]; rfl
  refine safe_atomic ?_
  unfold ingestRowBody
  cases hcheck : checkRow now row with
  | error reason => trivial
  | ok values =>
      obtain ⟨source, price⟩ := values
      obtain ⟨-, hquantity, -, -⟩ := checkRow_ok hcheck
      simp only [check, Prog.ret_bind]
      refine Contract.safe_seq (P := fun _ held => held = .reset) safe_readReferences ?_
      rintro _ _ rfl
      refine Contract.safe_seq (safe_findOrInsertHeader source hstore rfl) ?_
      rintro _ _ rfl
      refine Contract.safe_seq (safe_translating
        (safe_execute (spec_insertTransactionLine (newLine row source price) rfl)
          fun _ => ⟨trivial, trivial⟩)) ?_
      rintro _ _ rfl
      refine Contract.safe_seq (P := fun _ held => held =
        ⟨some source, [newLine row source price], [(row.productId, row.quantity)], none⟩) ?_ ?_
      · refine Contract.safe_handle (F := fun _ _ => True) (Contract.safe_seq
          (safe_decrementStock hstore hquantity (by rw [hjob]; exact ⟨rfl, rfl⟩)) ?_) ?_
        · rintro _ _ rfl
          rfl
        · intro e held' _
          trivial
      · rintro _ _ rfl
        refine (safe_execute (F := fun _ _ => True) (spec_recomputeTotal rfl) fun _ => ⟨trivial, trivial⟩).mono ?_
        rintro (e | _) held' h
        · trivial
        · obtain rfl := h
          exact List.Perm.refl _

theorem safe_consume {storeId productId quantity : ℤ} (hstore : storeId = (jobs t).storeId)
    (hasks : (jobs t).Asks productId quantity) :
    StockSafe pg cat jobs start t (consume storeId productId quantity) held
      (InTransaction fun _ held' =>
        held' = { held with taken := held.taken ++ [(productId, quantity)] }) := by
  unfold consume
  split_ifs with hquantity
  · trivial
  refine Contract.safe_seq
    (safe_execute (spec_updateInventory hstore (Int.not_le.mp hquantity)) fun _ => ⟨trivial, trivial⟩) ?_
  rintro (_ | remaining) _ rfl
  · refine Contract.safe_seq (safe_execute (spec_lockInventory hstore rfl hasks) fun _ => ⟨trivial, trivial⟩) ?_
    rintro (_ | onHand) held' _
    · trivial
    · trivial
  · rfl

theorem safe_insertSaleLines (source : String) (lines : List SaleLine) (hhead : held.head = some source) :
    StockSafe pg cat jobs start t (insertSaleLines source lines) held (InTransaction fun _ held' =>
      held' = { held with lines := held.lines ++ lines.map (SaleLine.toLine source) }) := by
  induction lines generalizing held with
  | nil =>
      change held = _
      simp
  | cons line lines ih =>
      refine Contract.safe_seq (safe_execute (spec_insertTransactionLine _ hhead) fun _ => ⟨trivial, trivial⟩) ?_
      rintro _ _ rfl
      have htail := @ih { held with lines := held.lines ++ [line.toLine source] } hhead
      rwa [List.append_assoc] at htail

theorem safe_consumeLines {storeId : ℤ} (lines : List (ℕ × SaleLine)) (hstore : storeId = (jobs t).storeId)
    (hasks : ∀ e ∈ lines, (jobs t).Asks e.2.productId e.2.quantity) :
    StockSafe pg cat jobs start t (consumeLines storeId lines) held (InTransaction fun _ held' =>
      held' = { held with taken := held.taken ++ lines.map fun e => (e.2.productId, e.2.quantity) }) := by
  induction lines generalizing held with
  | nil =>
      change held = _
      simp
  | cons e lines ih =>
      obtain ⟨index, line⟩ := e
      refine Contract.safe_seq (Contract.safe_handle (F := fun _ _ => True)
        (safe_consume hstore (hasks _ List.mem_cons_self)) fun e held' _ => ?_) ?_
      · split <;> trivial
      · rintro _ _ rfl
        have htail := @ih { held with taken := held.taken ++ [(line.productId, line.quantity)] }
          fun e he => hasks e (List.mem_cons_of_mem _ he)
        rwa [List.append_assoc] at htail

theorem safe_insertSale {sale : ValidSale} (hstore : sale.body.storeId = (jobs t).storeId)
    (hasks : ∀ line ∈ sale.lines, (jobs t).Asks line.productId line.quantity) :
    StockSafe pg cat jobs start t (insertSale sale) .reset (InTransaction fun _ held => held.Balanced) := by
  have hindexed : (indexedByProduct sale.lines).Perm (sale.lines.zipIdx.map Prod.swap) :=
    List.perm_insertionSort _ _
  refine Contract.safe_seq (safe_execute (spec_insertTransaction rfl hstore) fun _ => ⟨trivial, trivial⟩) ?_
  rintro _ _ rfl
  refine Contract.safe_seq (safe_insertSaleLines sale.source sale.lines rfl) ?_
  rintro _ _ rfl
  refine Contract.safe_seq (safe_consumeLines (indexedByProduct sale.lines) hstore ?_) ?_
  · intro e he
    obtain ⟨⟨line, index⟩, hline, rfl⟩ := List.mem_map.mp (hindexed.mem_iff.mp he)
    exact hasks line (List.fst_mem_of_mem_zipIdx hline)
  · rintro _ _ rfl
    refine (safe_execute (F := fun _ _ => True) (spec_read ?_ ?_) fun _ => ⟨trivial, trivial⟩).mono ?_
    · exact fun _ _ => nofun
    · intro clock ledger v hanswer
      simp only [effect] at hanswer ⊢
      split at hanswer
      · cases hanswer
      split_ifs at hanswer ⊢
      exact ⟨rfl, rfl, rfl⟩
    · rintro (e | _) held' h
      · trivial
      · obtain rfl := h
        change List.Perm _ (List.map _ (List.map _ _))
        rw [List.map_map]
        exact indexedByProduct_quantities sale.lines

theorem safe_customerRegistration {customerId : String} (hfail : ∀ e, F e held ∧ F e .reset) :
    StockSafe pg cat jobs start t (execute (.customerRegistration customerId)) held
      (Contract.Ends (fun _ held' => held' = held) F) :=
  safe_execute (spec_read (fun _ _ => nofun) fun _ _ _ _ => ⟨rfl, rfl, rfl⟩) hfail

theorem safe_validateReferences {sale : ValidSale} :
    StockSafe pg cat jobs start t (validateReferences sale) held
      (InTransaction fun _ held' => held' = held) := by
  refine Contract.safe_seq (safe_customerRegistration fun _ => ⟨trivial, trivial⟩) ?_
  rintro (_ | day) _ rfl
  · trivial
  dsimp only
  split_ifs
  · trivial
  refine Contract.safe_seq (safe_execute (spec_read ?_ ?_) fun _ => ⟨trivial, trivial⟩) ?_
  · exact fun _ _ => nofun
  · exact fun _ _ _ _ => ⟨rfl, rfl, rfl⟩
  · rintro states _ rfl
    unfold refuse
    split
    · rfl
    · trivial

theorem safe_readSale {source : String} :
    StockSafe pg cat jobs start t (readSale source) .reset BetweenTransactions := by
  refine Contract.safe_seq (safe_execute (F := fun _ held => held = .reset) (spec_read ?_ ?_) fun _ => ⟨rfl, rfl⟩) ?_
  · exact fun _ _ => nofun
  · exact fun _ _ _ _ => ⟨rfl, rfl, rfl⟩
  · rintro (_ | header) _ rfl
    · rfl
    · refine Contract.safe_seq (safe_execute (spec_read ?_ ?_) fun _ => ⟨rfl, rfl⟩) ?_
      · exact fun _ _ => nofun
      · exact fun _ _ _ _ => ⟨rfl, rfl, rfl⟩
      · rintro lines _ rfl
        rfl

theorem safe_replay {source : String} {digest : Digest} :
    StockSafe pg cat jobs start t (replay source digest) .reset BetweenTransactions := by
  refine Contract.safe_seq (safe_execute (F := fun _ held => held = .reset) (spec_read ?_ ?_) fun _ => ⟨rfl, rfl⟩) ?_
  · exact fun _ _ => nofun
  · exact fun _ _ _ _ => ⟨rfl, rfl, rfl⟩
  · rintro (_ | original) _ rfl
    · rfl
    · refine Contract.safe_seq safe_readSale ?_
      rintro (_ | sale) _ rfl
      · rfl
      · dsimp only
        split_ifs <;> rfl

theorem safe_recordAttempt {sale : ValidSale} (hstore : sale.body.storeId = (jobs t).storeId)
    (hasks : ∀ line ∈ sale.lines, (jobs t).Asks line.productId line.quantity) :
    StockSafe pg cat jobs start t (recordAttempt sale) .reset BetweenTransactions := by
  refine Contract.safe_seq (safe_atomic (Contract.safe_seq safe_validateReferences ?_)) ?_
  · rintro _ _ rfl
    exact safe_insertSale hstore hasks
  · rintro _ _ rfl
    refine Contract.safe_seq safe_readSale ?_
    rintro (_ | recorded) _ rfl
    · rfl
    · rfl

theorem safe_recordFailure {sale : ValidSale} {again : Option (SalesProg Representation)}
    (hagain : ∀ p, again = some p → StockSafe pg cat jobs start t p .reset BetweenTransactions) (e : Exc) :
    StockSafe pg cat jobs start t (recordFailure sale again e) .reset BetweenTransactions := by
  have hretry : ∀ e, StockSafe pg cat jobs start t (again.getD (.raise e)) .reset BetweenTransactions := by
    intro e
    cases again with
    | none => rfl
    | some p => exact hagain p rfl
  unfold recordFailure
  split
  · exact hretry _
  · exact hretry _
  · split_ifs
    · rfl
    · refine Contract.safe_seq safe_replay ?_
      rintro (_ | answer) _ rfl
      · rfl
      · rfl
  · rfl
  · rfl
  · rfl
  · rfl

theorem safe_recordAttempts {sale : ValidSale} (hstore : sale.body.storeId = (jobs t).storeId)
    (hasks : ∀ line ∈ sale.lines, (jobs t).Asks line.productId line.quantity) (retries : ℕ) :
    StockSafe pg cat jobs start t (recordAttempts sale retries) .reset BetweenTransactions := by
  induction retries with
  | zero =>
      refine Contract.safe_handle (safe_recordAttempt hstore hasks) ?_
      rintro e _ rfl
      exact safe_recordFailure (fun _ h => by cases h) e
  | succ retries ih =>
      refine Contract.safe_handle (safe_recordAttempt hstore hasks) ?_
      rintro e _ rfl
      refine safe_recordFailure (fun p hp => ?_) e
      obtain rfl := Option.some.inj hp
      exact ih

theorem safe_recordSale {sha256 : CanonicalSale → Digest} {request : SaleRequest}
    (hjob : jobs t = .sale request) :
    StockSafe pg cat jobs start t (recordSale sha256 request) .reset BetweenTransactions := by
  unfold recordSale
  cases hprepare : prepare sha256 request with
  | error e => rfl
  | ok sale =>
      obtain ⟨hbody, hlines⟩ := prepare_ok hprepare
      have hasks : ∀ line ∈ sale.lines, (jobs t).Asks line.productId line.quantity := by
        intro line hline
        obtain ⟨index, hindex⟩ := List.mem_iff_getElem?.mp hline
        obtain ⟨asked, hasked, hproduct, hquantity⟩ := hlines index line hindex
        rw [hjob]
        exact ⟨asked, List.mem_of_getElem? hasked, hproduct, hquantity⟩
      refine Contract.safe_seq safe_replay ?_
      rintro (_ | answer) _ rfl
      · exact safe_recordAttempts (by rw [hbody, hjob]; rfl) hasks 2
      · rfl

-- What a request is checked for is settled above; the programs below are not evaluated through it.
seal checkRow prepare

theorem safe_program {sha256 : CanonicalSale → Digest} :
    StockSafe pg cat jobs start t ((jobs t).program sha256) .reset BetweenTransactions := by
  cases hjob : jobs t with
  | row now row =>
      rw [Job.program]
      refine Contract.safe_seq (safe_ingestRow hjob) ?_
      rintro _ _ rfl
      rfl
  | sale request =>
      rw [Job.program]
      refine Contract.safe_seq (safe_recordSale hjob) ?_
      rintro _ _ rfl
      rfl

end Programs

end Contract
end RetailSegmentation.Sales
