import RetailSegmentation.SalesStock

/-! Requests with one Idempotency-Key. Whatever their interleaving, the committed tables are those of the
start or those with the sale of one of the requests recorded, and each request that is answered is
answered from that sale. -/

namespace RetailSegmentation.Sales

open Program

/-! ### A recorded sale -/

/-- The ledger with units taken from the inventory of a store. -/
def Ledger.take (storeId : ℤ) (taken : List (ℤ × ℤ)) (ledger : Ledger) : Ledger :=
  { ledger with stock := fun key => (ledger.stock key).map (· - takenAt storeId taken key) }

def ValidSale.rows (sale : ValidSale) : List Line := sale.lines.map (SaleLine.toLine sale.source)

def ValidSale.units (sale : ValidSale) : List (ℤ × ℤ) :=
  sale.lines.map fun line => (line.productId, line.quantity)

/-- The ledger with a sale recorded: its header, its lines, their units taken once, and its capture. -/
def Ledger.sold (sale : ValidSale) (header : Header) (ledger : Ledger) : Ledger where
  header := Function.update ledger.header sale.source (some header)
  lines := ledger.lines ++ sale.rows
  stock := (ledger.take sale.body.storeId sale.units).stock
  capture := Function.update ledger.capture sale.source (some sale.digest)

/-- The `Sale` representation of a recorded sale. -/
def ValidSale.view (sale : ValidSale) (header : Header) : SaleView :=
  ⟨sale.source, header, sale.rows.insertionSort fun a b => a.productId ≤ b.productId⟩

namespace Ledger

variable {ledger : Ledger} {storeId : ℤ}

theorem take_nil : ledger.take storeId [] = ledger := by
  simp [take, takenAt]

theorem take_take (taken more : List (ℤ × ℤ)) :
    (ledger.take storeId taken).take storeId more = ledger.take storeId (taken ++ more) := by
  simp only [take, Option.map_map, takenAt_append]
  congr
  funext key
  congr
  funext onHand
  exact Int.sub_sub _ _ _

theorem take_perm {taken taken' : List (ℤ × ℤ)} (hperm : taken.Perm taken') :
    ledger.take storeId taken = ledger.take storeId taken' := by
  simp only [take, takenAt_perm hperm]

theorem take_singleton {productId quantity onHand : ℤ}
    (hstock : ledger.stock (storeId, productId) = some onHand) :
    ledger.write (.putStock (storeId, productId) (onHand - quantity)) =
      ledger.take storeId [(productId, quantity)] := by
  simp only [write, take]
  congr
  funext key
  rw [takenAt_singleton]
  by_cases hkey : (storeId, productId) = key
  · subst hkey
    rw [Function.update_self, hstock, if_pos rfl]
    rfl
  · rw [Function.update_of_ne (Ne.symm hkey), if_neg hkey]
    simp

variable {pg : Postgres} {cat : Catalog} {clock : Instant} {sale : ValidSale} {header : Header}

theorem sold_ne (hfresh : ledger.header sale.source = none) : ledger.sold sale header ≠ ledger := by
  intro hsame
  have hheader := congrFun (congrArg Ledger.header hsame) sale.source
  rw [hfresh] at hheader
  simp [sold] at hheader

theorem sold_findCapture : effect pg cat clock (.findCapture sale.source) (ledger.sold sale header) =
    (.ok (some sale.digest), []) := by
  simp [effect, sold]

theorem sold_getSale : effect pg cat clock (.getSale sale.source) (ledger.sold sale header) =
    (.ok (some header), []) := by
  simp [effect, sold]

theorem sold_getSaleLines (hlines : linesOf sale.source ledger.lines = []) :
    effect pg cat clock (.getSaleLines sale.source) (ledger.sold sale header) =
      (.ok (sale.view header).lines, []) := by
  have hown : linesOf sale.source sale.rows = sale.rows := by
    refine List.filter_eq_self.mpr fun line hline => ?_
    obtain ⟨own, -, rfl⟩ := List.mem_map.mp hline
    exact decide_eq_true rfl
  have hall : linesOf sale.source (ledger.lines ++ sale.rows) = sale.rows := by
    rw [linesOf, List.filter_append]
    exact (congrArg₂ (· ++ ·) hlines hown).trans (List.nil_append _)
  simp only [effect, sold, hall, ValidSale.view]

end Ledger

/-! ### The contract of the requests -/

/-- What a request knows: nothing written, nothing at all, what its transaction reads while it holds the
sale's header, or the sale that is recorded, within its transaction or after it. -/
inductive Stage where
  | idle
  | lost
  | writing (ledger : Ledger)
  | seen (sale : ValidSale) (header : Header)
  | found (sale : ValidSale) (header : Header)

section Contract

variable {T : Type} [DecidableEq T] (pg : Postgres) (cat : Catalog) (sha256 : CanonicalSale → Digest)
  (requests : T → SaleRequest) (source : String) (start : Ledger)

/-- A sale request `t` may record. -/
structure Recorded (t : T) (sale : ValidSale) (header : Header) : Prop where
  prepared : prepare sha256 (requests t) = .ok sale
  named : sale.source = source
  row : ∃ clock, headerRow pg clock .svcSales sale.newHeader = .ok header

def Stage.At (t : T) (stage : Stage) (db : SalesDb T) : Prop :=
  match stage with
  | .idle => db.Idle t
  | .lost => True
  | .writing ledger => db.holder (.header source) = some t ∧ db.committed = start ∧ db.ledger t = ledger
  | .seen sale header =>
    (∃ u, Recorded pg sha256 requests source u sale header) ∧ db.committed = start.sold sale header
  | .found sale header => db.Idle t ∧
    (∃ u, Recorded pg sha256 requests source u sale header) ∧ db.committed = start.sold sale header

/-- The committed tables are the start's, with or without the sale of one request. -/
def Once (db : SalesDb T) : Prop :=
  db.committed = start ∨
    ∃ t sale header, Recorded pg sha256 requests source t sale header ∧ db.committed = start.sold sale header

/-- A request changes the committed tables only by recording its own sale where there is none. -/
def Records (t : T) (db db' : SalesDb T) : Prop :=
  db'.committed = db.committed ∨ db.committed = start ∧
    ∃ sale header, Recorded pg sha256 requests source t sale header ∧ db'.committed = start.sold sale header

def replayContract : Contract T Command Reply (SalesDb T) Stage where
  inv := Once pg sha256 requests source start
  at_ t stage db := stage.At pg sha256 requests source start t db
  guar t _ db _ db' := Records pg sha256 requests source start t db db'

variable {pg cat sha256 requests source start} {t u : T} {stage : Stage} {db db' : SalesDb T}

omit [DecidableEq T] in
theorem Stage.At.around (hat : stage.At pg sha256 requests source start t db)
    (haround : SalesDb.Around t db db') (hcommitted : db'.committed = db.committed) :
    stage.At pg sha256 requests source start t db' := by
  cases stage with
  | idle => exact haround.idle hat
  | lost => trivial
  | writing ledger =>
      obtain ⟨howner, hstart, hledger⟩ := hat
      exact ⟨(haround.holder _).mpr howner, hcommitted.trans hstart,
        (haround.ledger_eq hcommitted).trans hledger⟩
  | seen sale header => exact ⟨hat.1, hcommitted.trans hat.2⟩
  | found sale header => exact ⟨haround.idle hat.1, hat.2.1, hcommitted.trans hat.2.2⟩

theorem Once.keeps {c : Command} {r : Reply c} (honce : Once pg sha256 requests source start db)
    (hstep : salesStep pg cat t c db r db') (hcommitted : db'.committed = db.committed) :
    (replayContract pg sha256 requests source start).Keeps t db db' where
  inv := honce.imp hcommitted.trans fun ⟨u, sale, header, hrecorded, hsold⟩ =>
    ⟨u, sale, header, hrecorded, hcommitted.trans hsold⟩
  others _ hu _ hat := Stage.At.around hat (SalesDb.step_around hu hstep) hcommitted

theorem Once.commit {sale : ValidSale} {header : Header} (hfresh : start.header source = none)
    (hat : (Stage.writing (start.sold sale header)).At pg sha256 requests source start t db)
    (hrecorded : Recorded pg sha256 requests source t sale header) :
    (replayContract pg sha256 requests source start).Keeps t db (db.commit t) ∧
      (Stage.found sale header).At pg sha256 requests source start t (db.commit t) := by
  obtain ⟨howner, hstart, hledger⟩ := hat
  have hcommitted : (db.commit t).committed = start.sold sale header :=
    (SalesDb.commit_committed t db).trans hledger
  refine ⟨⟨.inr ⟨t, sale, header, hrecorded, hcommitted⟩, fun u hu stage hother => ?_⟩,
    SalesDb.commit_idle t db, ⟨t, hrecorded⟩, hcommitted⟩
  -- No other request holds the header, and none has seen a sale yet.
  have hunseen : ∀ other otherHeader, (∃ v, Recorded pg sha256 requests source v other otherHeader) →
      db.committed ≠ start.sold other otherHeader := by
    rintro other otherHeader ⟨v, hother⟩ hsold
    exact Ledger.sold_ne (hother.named ▸ hfresh) (hsold.symm.trans hstart)
  cases stage with
  | idle => exact (SalesDb.Around.commit hu db).idle hother
  | lost => trivial
  | writing ledger => exact absurd (Option.some.inj (howner.symm.trans hother.1)) (Ne.symm hu)
  | seen other otherHeader => exact absurd hother.2 (hunseen other otherHeader hother.1)
  | found other otherHeader => exact absurd hother.2.2 (hunseen other otherHeader hother.2.1)

theorem replayContract_closed :
    (replayContract pg sha256 requests source start).Closed (salesMachine pg cat) where
  env _ _ _ h := h.elim
  halt t db db' honce hhalt := by
    obtain rfl : db' = db.rollback t := hhalt
    refine ⟨honce, fun u hu stage hat => ?_⟩
    exact Stage.At.around hat (.rollback hu db) (SalesDb.rollback_committed t db)

/-! ### Commands -/

def keyTaken : DbError := .uniqueViolation "transaction_source_transaction_id_key"

/-- The stages of a request with no transaction under way. -/
def Stage.Resting (stage : Stage) : Prop := stage = .idle ∨ ∃ sale header, stage = .found sale header

omit [DecidableEq T] in
theorem Stage.Resting.idle (hresting : stage.Resting)
    (hat : stage.At pg sha256 requests source start t db) : db.Idle t := by
  rcases hresting with rfl | ⟨sale, header, rfl⟩
  · exact hat
  · exact hat.1

/-- What a resting request reads, and knows once it has read it. -/
inductive Reads (pg : Postgres) (sha256 : CanonicalSale → Digest) (requests : T → SaleRequest)
    (source : String) (start : Ledger) : Stage → Stage → Ledger → Prop where
  | start : Reads pg sha256 requests source start .idle .idle start
  | sold {stage : Stage} {u : T} {sale : ValidSale} {header : Header}
      (hrecorded : Recorded pg sha256 requests source u sale header)
      (hstage : stage = .idle ∨ stage = .found sale header) :
      Reads pg sha256 requests source start stage (.found sale header) (start.sold sale header)

omit [DecidableEq T] in
theorem Stage.Resting.reads (hresting : stage.Resting)
    (hat : stage.At pg sha256 requests source start t db)
    (honce : Once pg sha256 requests source start db) :
    ∃ stage' : Stage, stage'.At pg sha256 requests source start t db ∧
      Reads pg sha256 requests source start stage stage' (db.ledger t) := by
  rw [(hresting.idle hat).ledger_eq]
  rcases hresting with rfl | ⟨sale, header, rfl⟩
  · rcases honce with hstart | ⟨u, sale, header, hrecorded, hsold⟩
    · exact ⟨.idle, hat, hstart ▸ .start⟩
    · exact ⟨.found sale header, ⟨hat, ⟨u, hrecorded⟩, hsold⟩, hsold ▸ .sold hrecorded (.inl rfl)⟩
  · obtain ⟨hidle, ⟨u, hrecorded⟩, hsold⟩ := hat
    exact ⟨.found sale header, ⟨hidle, ⟨u, hrecorded⟩, hsold⟩, hsold ▸ .sold hrecorded (.inr rfl)⟩

/-- After a read: what it read and now knows, or an error of the statement or an abort. -/
def AfterRead (pg : Postgres) (cat : Catalog) (sha256 : CanonicalSale → Digest)
    (requests : T → SaleRequest) (source : String) (start : Ledger) (stage : Stage) (s : Statement) :
    Except DbError (Result s) → Stage → Prop
  | .ok v, stage' => ∃ clock ledger, Reads pg sha256 requests source start stage stage' ledger ∧
      (effect pg cat clock s ledger).1 = .ok v
  | .error e, stage' => stage'.Resting ∧
      ((∃ clock ledger, (effect pg cat clock s ledger).1 = .error e) ∨ IsAbort e)

theorem spec_read_resting {s : Statement} (hresting : stage.Resting)
    (hreads : ∀ clock ledger, (effect pg cat clock s ledger).2 = []) :
    (replayContract pg sha256 requests source start).CmdSpec (salesMachine pg cat) t (.execute s) stage
      (AfterRead pg cat sha256 requests source start stage s) := by
  intro db r db' honce hat hstep
  have hstep' : salesStep pg cat t (.execute s) db r db' := hstep
  have hidle := hresting.idle hat
  obtain ⟨stage', hat', hread⟩ := hresting.reads hat honce
  -- Nothing is written, so the tables stay as they are or the transaction is over.
  have hrest : ∀ e, r = .error e → (db' = db ∨ db'.Idle t ∧ db'.committed = db.committed) →
      Records pg sha256 requests source start t db db' ∧
        (replayContract pg sha256 requests source start).Keeps t db db' ∧
        Stage.idle.At pg sha256 requests source start t db' := by
    rintro e - (rfl | ⟨hidle', hcommitted⟩)
    · exact ⟨.inl rfl, honce.keeps hstep' rfl, hidle⟩
    · exact ⟨.inl hcommitted, honce.keeps hstep' hcommitted, hidle'⟩
  rcases SalesDb.step_execute hstep' with
    ⟨clock, hr, hwrote | ⟨⟨e, he⟩, hover⟩⟩ | ⟨e, habort, he, hover⟩
  · obtain rfl := hwrote.same (hreads clock _)
    refine ⟨.inl rfl, honce.keeps hstep' rfl, ?_⟩
    cases r with
    | ok v => exact ⟨stage', hat', clock, _, hread, hr.symm⟩
    | error e => exact ⟨.idle, hidle, .inl rfl, .inl ⟨clock, _, hr.symm⟩⟩
  · subst he
    obtain ⟨hrecords, hkeeps, hat''⟩ := hrest e rfl (.inr hover)
    exact ⟨hrecords, hkeeps, .idle, hat'', .inl rfl, .inl ⟨clock, _, hr.symm⟩⟩
  · subst he
    obtain ⟨hrecords, hkeeps, hat''⟩ := hrest e rfl hover
    exact ⟨hrecords, hkeeps, .idle, hat'', .inl rfl, .inr habort⟩

theorem keyTaken_not_abort {e : DbError} (habort : IsAbort e) : e ≠ keyTaken := by
  rcases habort with rfl | rfl | rfl <;> nofun

theorem effect_not_keyTaken {clock : Instant} {s : Statement} {ledger : Ledger} {e : DbError}
    (hinsert : ∀ session new, s ≠ .insertTransaction session new)
    (herror : (effect pg cat clock s ledger).1 = .error e) : e ≠ keyTaken := by
  rcases effect_error herror with ⟨kind, rfl⟩ | hconstraint
  · nofun
  · rintro rfl
    cases s with
    | insertTransaction session new => exact hinsert session new rfl
    | _ => simp [Statement.constraints, keyTaken] at hconstraint

/-- After the insert of the header: it is held, or its source id is taken, or all is lost. -/
def AfterInsert (pg : Postgres) (sha256 : CanonicalSale → Digest) (requests : T → SaleRequest)
    (source : String) (start : Ledger) (t : T) (sale : ValidSale) : Except DbError Unit → Stage → Prop
  | .ok (), stage => ∃ header, Recorded pg sha256 requests source t sale header ∧
      stage = .writing (start.write (.putHeader source header))
  | .error e, stage => (e = keyTaken ∧ ∃ sale header, stage = .seen sale header) ∨
      (e ≠ keyTaken ∧ stage = .lost)

theorem spec_insertTransaction_resting {sale : ValidSale} (hfresh : start.header source = none)
    (hresting : stage.Resting) (hprepared : prepare sha256 (requests t) = .ok sale)
    (hnamed : sale.source = source) :
    (replayContract pg sha256 requests source start).CmdSpec (salesMachine pg cat) t
      (.execute (.insertTransaction .svcSales sale.newHeader)) stage
      (AfterInsert pg sha256 requests source start t sale) := by
  intro db r db' honce hat hstep
  have hstep' : salesStep pg cat t (.execute (.insertTransaction .svcSales sale.newHeader)) db r db' := hstep
  have hledger := (hresting.idle hat).ledger_eq
  have hsource : sale.newHeader.sourceTransactionId = source := hnamed
  rcases SalesDb.step_execute hstep' with ⟨clock, hr, hover⟩ | ⟨e, habort, rfl, hover⟩
  · have hcommitted : db'.committed = db.committed := by
      rcases hover with hwrote | ⟨-, -, h⟩
      · exact hwrote.committed
      · exact h
    refine ⟨.inl hcommitted, honce.keeps hstep' hcommitted, ?_⟩
    simp only [effect, hledger, hsource] at hr hover
    split at hr
    · rename_i e hrow
      subst hr
      refine ⟨.lost, trivial, .inr ⟨?_, rfl⟩⟩
      rcases headerRow_error pg hrow with ⟨kind, rfl⟩ | ⟨rfl, -⟩ | rfl <;> simp [keyTaken]
    rename_i header hrow
    rw [hrow] at hover
    dsimp only at hover
    split_ifs at hr hover with htaken
    · subst hr
      -- The header is there, so the sale of some request is recorded.
      rcases honce with hstart | ⟨u, other, otherHeader, hrecorded, hsold⟩
      · rw [hstart, hfresh] at htaken
        exact absurd htaken Bool.false_ne_true
      · exact ⟨.seen other otherHeader, ⟨⟨u, hrecorded⟩, hcommitted.trans hsold⟩, .inl ⟨rfl, _, _, rfl⟩⟩
    · have hstart : db.committed = start := by
        rcases honce with hstart | ⟨u, other, otherHeader, hrecorded, hsold⟩
        · exact hstart
        · rw [hsold, ← hrecorded.named] at htaken
          exact absurd (by simp [Ledger.sold]) htaken
      split at hr
      · rename_i e hreference
        subst hr
        refine ⟨.lost, trivial, .inr ⟨?_, rfl⟩⟩
        rcases headerReference_some cat hreference with rfl | rfl | rfl <;> simp [keyTaken]
      · rename_i hreference
        subst hr
        rw [hreference] at hover
        rcases hover with hwrote | ⟨⟨e, h⟩, -⟩
        · refine ⟨.writing (start.write (.putHeader source header)), ⟨?_, ?_, ?_⟩, header,
            ⟨hprepared, hnamed, clock, hrow⟩, rfl⟩
          · exact hwrote.taken _ (List.mem_singleton_self _) _ rfl
          · exact hcommitted.trans hstart
          · rw [hwrote.ledger, hledger, hstart]
            rfl
        · cases h
  · refine ⟨?_, ?_, .lost, trivial, .inr ⟨keyTaken_not_abort habort, rfl⟩⟩
    · rcases hover with rfl | ⟨-, hcommitted⟩
      · exact .inl rfl
      · exact .inl hcommitted
    · rcases hover with rfl | ⟨-, hcommitted⟩
      · exact honce.keeps hstep' rfl
      · exact honce.keeps hstep' hcommitted

/-- After a statement of the transaction that holds the header. -/
def AfterWrite (pg : Postgres) (cat : Catalog) (s : Statement) (ledger : Ledger) :
    Except DbError (Result s) → Stage → Prop
  | .ok v, stage => ∃ clock, (effect pg cat clock s ledger).1 = .ok v ∧
      stage = .writing (ledger.writes (effect pg cat clock s ledger).2)
  | .error e, stage => e ≠ keyTaken ∧ stage = .lost

theorem spec_execute_writing {s : Statement} {ledger : Ledger}
    (hinsert : ∀ session new, s ≠ .insertTransaction session new) :
    (replayContract pg sha256 requests source start).CmdSpec (salesMachine pg cat) t (.execute s)
      (.writing ledger) (AfterWrite pg cat s ledger) := by
  intro db r db' honce hat hstep
  have hstep' : salesStep pg cat t (.execute s) db r db' := hstep
  obtain ⟨howner, hstart, hledger⟩ := hat
  rcases SalesDb.step_execute hstep' with
    ⟨clock, hr, hwrote | ⟨⟨e, he⟩, -, hcommitted⟩⟩ | ⟨e, habort, he, hover⟩
  · refine ⟨.inl hwrote.committed, honce.keeps hstep' hwrote.committed, ?_⟩
    rw [hledger] at hr hwrote
    cases r with
    | ok v =>
        refine ⟨.writing (ledger.writes (effect pg cat clock s ledger).2),
          ⟨hwrote.held _ howner, hwrote.committed.trans hstart, ?_⟩, clock, hr.symm, rfl⟩
        rw [hwrote.ledger, hledger]
    | error e => exact ⟨.lost, trivial, effect_not_keyTaken hinsert hr.symm, rfl⟩
  · subst he
    exact ⟨.inl hcommitted, honce.keeps hstep' hcommitted, .lost, trivial,
      effect_not_keyTaken hinsert hr.symm, rfl⟩
  · subst he
    have hcommitted : db'.committed = db.committed := by
      rcases hover with rfl | ⟨-, h⟩
      · rfl
      · exact h
    exact ⟨.inl hcommitted, honce.keeps hstep' hcommitted, .lost, trivial,
      keyTaken_not_abort habort, rfl⟩

theorem spec_commit_writing {sale : ValidSale} {header : Header} (hfresh : start.header source = none)
    (hrecorded : Recorded pg sha256 requests source t sale header) :
    (replayContract pg sha256 requests source start).CmdSpec (salesMachine pg cat) t .commit
      (.writing (start.sold sale header)) fun r stage => match r with
        | .ok () => stage = .found sale header
        | .error e => e ≠ keyTaken := by
  intro db r db' honce hat hstep
  have hstep' : salesStep pg cat t .commit db r db' := hstep
  obtain ⟨hkeeps, hfound⟩ := Once.commit hfresh hat hrecorded
  have hcommitted : (db.commit t).committed = start.sold sale header :=
    (SalesDb.commit_committed t db).trans hat.2.2
  rcases SalesDb.step_commit hstep' with ⟨hr, -, rfl⟩ | ⟨e, he, rfl, hover⟩
  · refine ⟨.inr ⟨hat.2.1, sale, header, hrecorded, hcommitted⟩, hkeeps, .found sale header, hfound, ?_⟩
    rcases hr with rfl | ⟨e, habort, rfl⟩
    · rfl
    · exact keyTaken_not_abort habort
  · have hsame : db'.committed = db.committed := by
      rcases hover with rfl | rfl
      · rfl
      · exact SalesDb.rollback_committed t db
    refine ⟨.inl hsame, honce.keeps hstep' hsame, .lost, trivial, ?_⟩
    rcases he with rfl | habort
    · nofun
    · exact keyTaken_not_abort habort

/-- What a request knows after a rollback. -/
def Stage.rolledBack : Stage → Stage
  | .seen sale header => .found sale header
  | .found sale header => .found sale header
  | _ => .idle

theorem Stage.rolledBack_resting (stage : Stage) : stage.rolledBack.Resting := by
  cases stage with
  | seen sale header => exact .inr ⟨sale, header, rfl⟩
  | found sale header => exact .inr ⟨sale, header, rfl⟩
  | _ => exact .inl rfl

theorem spec_rollback_any :
    (replayContract pg sha256 requests source start).CmdSpec (salesMachine pg cat) t .rollback stage
      fun r stage' => stage' = stage.rolledBack ∧ ∀ e, r = .error e → e ≠ keyTaken := by
  intro db r db' honce hat hstep
  have hstep' : salesStep pg cat t .rollback db r db' := hstep
  obtain ⟨hr, rfl⟩ := SalesDb.step_rollback hstep'
  have hidle := SalesDb.rollback_idle t db
  refine ⟨.inl (SalesDb.rollback_committed t db), honce.keeps hstep' (SalesDb.rollback_committed t db),
    stage.rolledBack, ?_, rfl, ?_⟩
  · cases stage with
    | seen sale header => exact ⟨hidle, hat⟩
    | found sale header => exact ⟨hidle, hat.2⟩
    | _ => exact hidle
  · rintro e rfl
    rcases hr with h | ⟨e', habort, h⟩
    · cases h
    · exact Except.error.inj h ▸ keyTaken_not_abort habort

end Contract

end RetailSegmentation.Sales
