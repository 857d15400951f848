import RetailSegmentation.SalesPosting

/-! The ledger CSV ingestion keeps: totals match lines, stock is what the accepted lines left, no
line twice, no line on a seeded sale, and a rejected row changes nothing. -/

namespace RetailSegmentation.Sales

open Program

/-- What every committed state of the sales tables satisfies. -/
structure Ledger.Sound (ledger : Ledger) : Prop where
  totals : ∀ source header, ledger.header source = some header →
    header.total = linesTotal source ledger.lines
  headed : ∀ line ∈ ledger.lines, (ledger.header line.sourceTransactionId).isSome
  keyed : (ledger.lines.map fun line => (line.sourceTransactionId, line.productId)).Nodup
  stocked : ∀ key onHand, ledger.stock key = some onHand → 0 ≤ onHand

/-- The accepted row, its sale and its price. -/
structure Entry where
  row : SalesRow
  source : String
  price : ℤ
  header : Header

namespace Entry

variable (e : Entry)

def line : Line := newLine e.row e.source e.price

def stockKey : StockKey := (e.row.storeId, e.row.productId)

/-- The quantity the entry takes from one inventory row. -/
def taken (key : StockKey) : ℤ := if e.stockKey = key then e.row.quantity else 0

end Entry

/-- What posting an entry does: the sale existed as `e.header`, or is created with it. -/
structure Posted (e : Entry) (ledger ledger' : Ledger) : Prop where
  observed : e.header.dataOrigin = .observed
  store : e.header.storeId = e.row.storeId
  headed : ledger.header e.source = some e.header ∨ ledger.header e.source = none
  fresh : ∀ line ∈ linesOf e.source ledger.lines, line.productId ≠ e.row.productId
  positive : 0 < e.row.quantity ∧ 0 < e.price
  stocked : ∃ onHand, ledger.stock e.stockKey = some onHand ∧ e.row.quantity ≤ onHand ∧
    ledger'.stock = Function.update ledger.stock e.stockKey (some (onHand - e.row.quantity))
  lines : ledger'.lines = ledger.lines ++ [e.line]
  header : ledger'.header = Function.update ledger.header e.source
    (some { e.header with total := linesTotal e.source ledger'.lines })

section Posting

variable {pg : Postgres} {cat : Catalog} {clock now : Instant} {row : SalesRow} {source : String}
  {price : ℤ} {ledger ledger' : Ledger}

theorem headerEffect_ok (hheader : headerEffect pg cat clock row source ledger = .ok ledger') :
    ∃ header, header.dataOrigin = .observed ∧ header.storeId = row.storeId ∧
      (ledger.header source = some header ∧ ledger' = ledger ∨
        ledger.header source = none ∧ ledger' = ledger.write (.putHeader source header)) := by
  unfold headerEffect at hheader
  split at hheader
  · cases hheader
  split at hheader
  · rename_i hnone
    split at hheader
    · cases hheader
    · rename_i header hrow
      split at hheader
      · cases hheader
      · obtain ⟨hstore, -, -, -, horigin, -, -⟩ := headerRow_ok pg hrow
        exact ⟨header, horigin, hstore, .inr ⟨hnone, (Except.ok.inj hheader).symm⟩⟩
  · rename_i header hsome
    split at hheader
    · split at hheader
      · cases hheader
      · rename_i hcheck
        unfold checkHeader at hcheck
        split_ifs at hcheck with horigin hagree
        push Not at horigin hagree
        exact ⟨header, horigin, hagree.2.1, .inl ⟨hsome, (Except.ok.inj hheader).symm⟩⟩
    · cases hheader

theorem lineEffect_ok (hline : lineEffect pg cat clock row source price ledger = .ok ledger') :
    0 < row.quantity ∧ 0 < price ∧ (ledger.header source).isSome ∧
      (∀ line ∈ linesOf source ledger.lines, line.productId ≠ row.productId) ∧
      ledger' = ledger.write (.addLine (newLine row source price)) := by
  unfold lineEffect at hline
  simp only [effect] at hline
  cases hrefusal : lineRefusal .web (newLine row source price) with
  | some e =>
      rw [hrefusal] at hline
      cases hline
  | none =>
      rw [hrefusal] at hline
      dsimp only at hline
      split_ifs at hline with hdup hheader
      · obtain ⟨hquantity, hprice⟩ := lineRefusal_none hrefusal
        refine ⟨hquantity, hprice, by simpa [newLine, Option.isSome_iff_ne_none] using hheader, ?_,
          (Except.ok.inj hline).symm⟩
        intro line hmem hproduct
        exact hdup (List.any_eq_true.mpr ⟨line, hmem, decide_eq_true hproduct⟩)

theorem stockEffect_ok (hstock : stockEffect row ledger = .ok ledger') :
    ∃ onHand, ledger.stock (row.storeId, row.productId) = some onHand ∧ row.quantity ≤ onHand ∧
      ledger' = ledger.write (.putStock (row.storeId, row.productId) (onHand - row.quantity)) := by
  unfold stockEffect at hstock
  split at hstock
  · cases hstock
  · rename_i onHand hsome
    split_ifs at hstock with hle
    exact ⟨onHand, hsome, hle, (Except.ok.inj hstock).symm⟩

theorem totalEffect_ok {header : Header}
    (htotal : totalEffect pg cat clock source ledger = .ok ledger')
    (hheader : ledger.header source = some header) :
    ledger' = ledger.write (.putHeader source { header with total := linesTotal source ledger.lines }) := by
  unfold totalEffect at htotal
  simp only [effect, hheader] at htotal
  split_ifs at htotal
  exact (Except.ok.inj htotal).symm

/-- **An accepted row posts one entry.** -/
theorem posted_of_post (hpost : ledger.post pg cat clock now row = .ok ledger') :
    ∃ e : Entry, e.row = row ∧ Posted e ledger ledger' := by
  unfold Ledger.post at hpost
  split at hpost
  · cases hpost
  rename_i source price hcheck
  obtain ⟨headed, lined, stocked, -, hheader, hline, hstock, htotal⟩ := postChecked_ok hpost
  obtain ⟨header, horigin, hstore, hcases⟩ := headerEffect_ok hheader
  obtain ⟨hquantity, hprice, -, hfresh, rfl⟩ := lineEffect_ok hline
  obtain ⟨onHand, hon, hle, rfl⟩ := stockEffect_ok hstock
  -- Either way the sale now has this header, and lines and stock are still the ones before.
  have hheaded : headed.header = Function.update ledger.header source (some header) ∧
      headed.lines = ledger.lines ∧ headed.stock = ledger.stock := by
    rcases hcases with ⟨hsome, rfl⟩ | ⟨-, rfl⟩
    · exact ⟨(Function.update_eq_self_iff.mpr hsome.symm).symm, rfl, rfl⟩
    · exact ⟨rfl, rfl, rfl⟩
  obtain ⟨hheads, hlines, hstocks⟩ := hheaded
  have hsome : headed.header source = some header := by rw [hheads, Function.update_self]
  obtain rfl := totalEffect_ok htotal hsome
  refine ⟨⟨row, source, price, header⟩, rfl, ⟨horigin, hstore, ?_, ?_, ⟨hquantity, hprice⟩,
    ⟨onHand, ?_, hle, ?_⟩, ?_, ?_⟩⟩
  · exact hcases.imp And.left And.left
  · exact hlines ▸ hfresh
  · exact hstocks ▸ hon
  · exact congrArg (Function.update · _ _) hstocks
  · exact congrArg (· ++ _) hlines
  · change Function.update headed.header source _ = _
    rw [hheads, Function.update_idem]
    rfl

end Posting

/-! ### One entry -/

namespace Posted

variable {e : Entry} {ledger ledger' : Ledger}

theorem linesTotal_other (h : Posted e ledger ledger') {source : String} (hne : source ≠ e.source) :
    linesTotal source ledger'.lines = linesTotal source ledger.lines := by
  rw [h.lines, linesTotal_append]
  simp [linesTotal, linesOf, Entry.line, newLine, hne.symm]

theorem sound (h : Posted e ledger ledger') (hsound : ledger.Sound) : ledger'.Sound where
  totals source header hheader := by
    rw [h.header] at hheader
    by_cases hsource : source = e.source
    · subst hsource
      rw [Function.update_self] at hheader
      obtain rfl := Option.some.inj hheader
      rfl
    · rw [Function.update_of_ne hsource] at hheader
      rw [h.linesTotal_other hsource]
      exact hsound.totals source header hheader
  headed line hline := by
    rw [h.header]
    by_cases hsource : line.sourceTransactionId = e.source
    · rw [hsource, Function.update_self]
      rfl
    · rw [Function.update_of_ne hsource]
      rw [h.lines, List.mem_append, List.mem_singleton] at hline
      rcases hline with hline | rfl
      · exact hsound.headed line hline
      · exact absurd rfl hsource
  keyed := by
    rw [h.lines, List.map_append, List.nodup_append]
    refine ⟨hsound.keyed, List.nodup_singleton _, ?_⟩
    rintro _ hold _ hnew heq
    obtain rfl := List.mem_singleton.mp hnew
    obtain ⟨line, hline, rfl⟩ := List.mem_map.mp hold
    obtain ⟨hsource, hproduct⟩ := Prod.mk.inj heq
    exact h.fresh line (List.mem_filter.mpr ⟨hline, decide_eq_true hsource⟩) hproduct
  stocked key onHand hon := by
    obtain ⟨before, hbefore, hle, hstock⟩ := h.stocked
    rw [hstock] at hon
    by_cases hkey : key = e.stockKey
    · subst hkey
      rw [Function.update_self] at hon
      obtain rfl := Option.some.inj hon
      omega
    · rw [Function.update_of_ne hkey] at hon
      exact hsound.stocked key onHand hon

theorem stock_eq (h : Posted e ledger ledger') (key : StockKey) :
    ledger'.stock key = (ledger.stock key).map (· - e.taken key) := by
  obtain ⟨onHand, hon, -, hstock⟩ := h.stocked
  rw [hstock]
  by_cases hkey : key = e.stockKey
  · subst hkey
    rw [Function.update_self, hon, Entry.taken, if_pos rfl]
    rfl
  · rw [Function.update_of_ne hkey, Entry.taken, if_neg (Ne.symm hkey)]
    simp

theorem store_eq (h : Posted e ledger ledger') {source : String} {header : Header}
    (hheader : ledger.header source = some header) :
    (ledger'.header source).map Header.storeId = some header.storeId := by
  rw [h.header]
  by_cases hsource : source = e.source
  · subst hsource
    rw [Function.update_self]
    rcases h.headed with hsome | hnone
    · obtain rfl := Option.some.inj (hheader.symm.trans hsome)
      rfl
    · simp [hnone] at hheader
  · rw [Function.update_of_ne hsource, hheader]
    rfl

theorem header_seeded (h : Posted e ledger ledger') {source : String} {header : Header}
    (hheader : ledger.header source = some header) (hseeded : header.dataOrigin ≠ .observed) :
    ledger'.header source = some header ∧ linesOf source ledger'.lines = linesOf source ledger.lines := by
  have hne : source ≠ e.source := by
    rintro rfl
    rcases h.headed with hsome | hnone
    · obtain rfl := Option.some.inj (hheader.symm.trans hsome)
      exact hseeded h.observed
    · simp [hnone] at hheader
  refine ⟨by rw [h.header, Function.update_of_ne hne, hheader], ?_⟩
  rw [h.lines]
  simp [linesOf, Entry.line, newLine, hne.symm]

end Posted

/-! ### Sequences of rows -/

/-- One call of `ingest_row`: the row, the time the web process reads and the time the database
reads. -/
structure IngestCall where
  now : Instant
  clock : Instant
  row : SalesRow

section Runs

variable (pg : Postgres) (cat : Catalog)

/-- Call `ingest_row` on a connection with no open transaction: its outcome and the tables after. -/
def ingest (call : IngestCall) (ledger : Ledger) : Except Exc Unit × Ledger :=
  let (answer, session) := (ingestRow call.now call.row).run (Session.handle pg cat call.clock)
    (Session.idle ledger)
  (answer, session.committed)

/-- A sequence of calls: the rows accepted and the tables after the last. -/
def ingestAll : List IngestCall → Ledger → List SalesRow × Ledger
  | [], ledger => ([], ledger)
  | call :: calls, ledger =>
    match ingest pg cat call ledger with
    | (.ok (), ledger') => ((ingestAll calls ledger').1.cons call.row, (ingestAll calls ledger').2)
    | (.error _, ledger') => ingestAll calls ledger'

/-- The quantity accepted rows sold of one product at one store. -/
def soldBy (key : StockKey) (rows : List SalesRow) : ℤ :=
  ((rows.filter fun row => (row.storeId, row.productId) = key).map SalesRow.quantity).sum

variable {pg cat}

theorem ingest_eq (call : IngestCall) (ledger : Ledger) :
    ingest pg cat call ledger = match ledger.post pg cat call.clock call.now call.row with
      | .ok ledger' => (.ok (), ledger')
      | .error e => (.error e, ledger) := by
  unfold ingest
  rw [run_ingestRow]
  cases ledger.post pg cat call.clock call.now call.row with
  | ok ledger' => rfl
  | error e => rfl

theorem ingest_error {call : IngestCall} {ledger : Ledger} {e : Exc}
    (herror : (ingest pg cat call ledger).1 = .error e) : (ingest pg cat call ledger).2 = ledger := by
  rw [ingest_eq] at herror ⊢
  cases hpost : ledger.post pg cat call.clock call.now call.row with
  | ok ledger' =>
      rw [hpost] at herror
      cases herror
  | error e => rfl

theorem ingest_ok {call : IngestCall} {ledger : Ledger}
    (hok : (ingest pg cat call ledger).1 = .ok ()) :
    ∃ e : Entry, e.row = call.row ∧ Posted e ledger (ingest pg cat call ledger).2 := by
  rw [ingest_eq] at hok ⊢
  cases hpost : ledger.post pg cat call.clock call.now call.row with
  | ok ledger' => exact posted_of_post hpost
  | error e =>
      rw [hpost] at hok
      cases hok

theorem soldBy_cons (key : StockKey) (row : SalesRow) (rows : List SalesRow) :
    soldBy key (row :: rows) =
      (if (row.storeId, row.productId) = key then row.quantity else 0) + soldBy key rows := by
  unfold soldBy
  by_cases hkey : (row.storeId, row.productId) = key <;> simp [hkey]

/-- What accepting these rows, in this order, makes of the tables. -/
structure Books (accepted : List SalesRow) (ledger final : Ledger) : Prop where
  sound : final.Sound
  stores : ∀ source header, ledger.header source = some header →
    (final.header source).map Header.storeId = some header.storeId
  lines : ∃ added, final.lines = ledger.lines ++ added ∧
    List.Forall₂ (fun line row => line.productId = row.productId ∧ line.quantity = row.quantity ∧
      (final.header line.sourceTransactionId).map Header.storeId = some row.storeId) added accepted
  stock : ∀ key, final.stock key = (ledger.stock key).map (· - soldBy key accepted)
  seeded : ∀ source header, ledger.header source = some header → header.dataOrigin ≠ .observed →
    final.header source = some header ∧ linesOf source final.lines = linesOf source ledger.lines

theorem Books.nil {ledger : Ledger} (hsound : ledger.Sound) : Books [] ledger ledger where
  sound := hsound
  stores source header hheader := by rw [hheader]; rfl
  lines := ⟨[], (List.append_nil _).symm, .nil⟩
  stock key := by simp [soldBy]
  seeded source header hheader _ := ⟨hheader, rfl⟩

theorem Books.cons {e : Entry} {accepted : List SalesRow} {ledger ledger' final : Ledger}
    (hposted : Posted e ledger ledger') (hbooks : Books accepted ledger' final) :
    Books (e.row :: accepted) ledger final where
  sound := hbooks.sound
  stores source header hheader := by
    obtain ⟨header', hheader', hstore⟩ := Option.map_eq_some_iff.mp (hposted.store_eq hheader)
    rw [hbooks.stores source header' hheader', hstore]
  lines := by
    obtain ⟨added, hlines, hrows⟩ := hbooks.lines
    refine ⟨e.line :: added, by rw [hlines, hposted.lines, List.append_assoc]; rfl,
      .cons ⟨rfl, rfl, ?_⟩ hrows⟩
    have hheader := congrFun hposted.header e.source
    rw [Function.update_self] at hheader
    exact (hbooks.stores _ _ hheader).trans (congrArg some hposted.store)
  stock key := by
    rw [hbooks.stock, hposted.stock_eq, Option.map_map, soldBy_cons]
    congr 1
    funext onHand
    exact Int.sub_sub _ _ _
  seeded source header hheader hseeded := by
    obtain ⟨hheader', hlines'⟩ := hposted.header_seeded hheader hseeded
    obtain ⟨hfinal, hlines⟩ := hbooks.seeded source header hheader' hseeded
    exact ⟨hfinal, hlines.trans hlines'⟩

theorem ingestAll_books (calls : List IngestCall) {ledger : Ledger} (hsound : ledger.Sound) :
    Books (ingestAll pg cat calls ledger).1 ledger (ingestAll pg cat calls ledger).2 := by
  induction calls generalizing ledger with
  | nil => exact .nil hsound
  | cons call calls ih =>
      unfold ingestAll
      cases houtcome : (ingest pg cat call ledger).1 with
      | ok _ =>
          obtain ⟨e, hrow, hposted⟩ := ingest_ok houtcome
          have htail := (ih (hposted.sound hsound)).cons hposted
          rw [hrow] at htail
          split
          · rename_i ledger' heq
            rw [heq] at htail
            exact htail
          · rename_i heq
            rw [heq] at houtcome
            cases houtcome
      | error e =>
          have hsame := ingest_error houtcome
          split
          · rename_i heq
            rw [heq] at houtcome
            cases houtcome
          · rename_i ledger' heq
            rw [heq] at hsame
            subst hsame
            exact ih hsound

/-- **The ledger of CSV ingestion.** From sound tables, any sequence of rows leaves sound tables (totals
match lines, no line twice, no stock below zero) in which the accepted rows, and only they, have become
lines and left the inventory, no sale that is not observed has gained a line, and where the next row
that is not accepted changes nothing. -/
theorem ingestAll_ledger (calls : List IngestCall) {ledger : Ledger} (hsound : ledger.Sound) :
    Books (ingestAll pg cat calls ledger).1 ledger (ingestAll pg cat calls ledger).2 ∧
    ∀ call e, (ingest pg cat call (ingestAll pg cat calls ledger).2).1 = .error e →
      (ingest pg cat call (ingestAll pg cat calls ledger).2).2 = (ingestAll pg cat calls ledger).2 :=
  ⟨ingestAll_books calls hsound, fun _ _ => ingest_error⟩

end Runs

/-! ### A corner shop -/

def cornerCustomer : String := "3f0e6f4c-0000-4000-8000-000000000001"

def cornerPostgres : Postgres where
  uuidIn text := if text = cornerCustomer then some cornerCustomer else none
  takesTimestamp _ := true
  givesTimestamp _ := true
  givesDate _ := true

/-- One customer, one product, one store and one channel. -/
def cornerCatalog : Catalog where
  registeredOn customer := if customer = cornerCustomer then some 730000 else none
  productIsActive productId := if productId = 7 then some true else none
  hasStore storeId := storeId == 1
  hasChannel channelId := channelId == 1
  hasUser user := user == cornerCustomer

def cornerLedger : Ledger where
  header _ := none
  lines := []
  stock key := if key = (1, 7) then some 5 else none
  capture _ := none

/-- Two units of the product at 2.50. -/
def cornerRow (source : String) : SalesRow where
  sourceTransactionId := source
  customerId := cornerCustomer
  storeId := 1
  channelId := 1
  occurredAt := ⟨738000 * microsecondsPerDay, some 0⟩
  productId := 7
  quantity := 2
  unitPrice := .finite false 250 (-2)

def cornerCall (source : String) : IngestCall where
  now := 739000 * microsecondsPerDay
  clock := 739000 * microsecondsPerDay
  row := cornerRow source

theorem cornerLedger_sound : cornerLedger.Sound where
  totals _ _ h := by cases h
  headed _ h := by cases h
  keyed := List.nodup_nil
  stocked key onHand h := by
    unfold cornerLedger at h
    dsimp only at h
    split_ifs at h
    obtain rfl := Option.some.inj h
    decide

/-- Of four rows the second repeats a line and the fourth finds too little stock. -/
theorem ingestAll_ledger_corner :
    (ingestAll cornerPostgres cornerCatalog
      [cornerCall "A1", cornerCall " A1", cornerCall "A2", cornerCall "A3"] cornerLedger).1 =
      [cornerRow "A1", cornerRow "A2"] ∧
    Books (ingestAll cornerPostgres cornerCatalog
      [cornerCall "A1", cornerCall " A1", cornerCall "A2", cornerCall "A3"] cornerLedger).1 cornerLedger
      (ingestAll cornerPostgres cornerCatalog
      [cornerCall "A1", cornerCall " A1", cornerCall "A2", cornerCall "A3"] cornerLedger).2 :=
  ⟨by decide, (ingestAll_ledger _ cornerLedger_sound).1⟩

end RetailSegmentation.Sales
