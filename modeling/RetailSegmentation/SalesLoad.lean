import RetailSegmentation.SalesLedger

/-! The CSV adapter over row ingestion (`web/services/sales_csv.py`). Rows commit one at a time, so the
question is which rows raise something the loop does not catch: `Escapes` says exactly which, row by
row, in the tables the accepted rows before it left. -/

namespace RetailSegmentation.Sales

open Program

/-! ### The file -/

/-- What `csv` makes of an uploaded file: the records, header first, or the reason of a refusal before
any of them is ingested. -/
inductive SalesFile where
  | undecodable
  | fieldTooLong (line : ℕ)
  | unparsable (line : ℕ)
  | records (rows : List (List String))
  deriving DecidableEq, Repr

/-- The conversions of column texts: `int`, `Decimal` and `datetime.fromisoformat`, `none` where they
raise. -/
structure Parsers where
  int : String → Option ℤ
  decimal : String → Option Decimal
  fromisoformat : String → Option Timestamp

def contractVersion : ℕ := 1

def expectedHeader : List String :=
  ["transaction_id", "customer_id", "store_id", "channel_id", "occurred_at", "product_id", "quantity",
    "unit_price"]

structure RowRejection where
  lineNumber : ℕ
  reason : String
  deriving DecidableEq, Repr

structure LoadReport where
  received : ℕ
  accepted : ℕ
  rejected : ℕ
  rejections : List RowRejection
  deriving DecidableEq, Repr

/-- What leaves `load_sales_csv`: a refusal of the file, or whatever a row raised. -/
inductive LoadError where
  | unsupportedContractVersion (message : String)
  | escaped (error : Exc)
  deriving DecidableEq, Repr

section Parse

variable (parsers : Parsers)

def field (parse : String → Option α) (name expected text : String) : Except Rejection α :=
  match parse text with
  | some value => .ok value
  | none => .error (.malformed (name ++ " must be " ++ expected))

def parseRow : List String → Except Rejection SalesRow
  | [source, customer, store, channel, occurredAt, product, quantity, price] => do
    let occurredAt ← field parsers.fromisoformat "occurred_at" "an ISO 8601 date and time" occurredAt
    if occurredAt.utcOffset = none then
      .error (.malformed "occurred_at must include a UTC offset")
    else
      let storeId ← field parsers.int "store_id" "a whole number" store
      let channelId ← field parsers.int "channel_id" "a whole number" channel
      let productId ← field parsers.int "product_id" "a whole number" product
      let quantity ← field parsers.int "quantity" "a whole number" quantity
      let unitPrice ← field parsers.decimal "unit_price" "a decimal number" price
      return {
        sourceTransactionId := strip source
        customerId := strip customer
        storeId, channelId, occurredAt, productId, quantity, unitPrice }
  | fields => .error (if fields.length < 8 then .tooFewColumns else .tooManyColumns)

end Parse

/-! ### The loop -/

section Load

variable (pg : Postgres) (cat : Catalog) (parsers : Parsers) (times : ℕ → Instant × Instant)

/-- The call for the row on a line, when the web process and the database read these times. -/
def callAt (line : ℕ) (row : SalesRow) : IngestCall := ⟨(times line).1, (times line).2, row⟩

/-- Ingest the records from `line` on, with what was received and rejected so far. -/
def loadRows : ℕ → List (List String) → ℕ → List RowRejection → Ledger →
    Except Exc (ℕ × List RowRejection) × Ledger
  | _, [], received, rejections, ledger => (.ok (received, rejections), ledger)
  | line, raw :: rest, received, rejections, ledger =>
    match parseRow parsers raw with
    | .error reason =>
      loadRows (line + 1) rest (received + 1) (rejections ++ [⟨line, reason.text⟩]) ledger
    | .ok row => match ingest pg cat (callAt times line row) ledger with
      | (.ok (), ledger') => loadRows (line + 1) rest (received + 1) rejections ledger'
      | (.error (.rowRejected reason), ledger') =>
        loadRows (line + 1) rest (received + 1) (rejections ++ [⟨line, reason.text⟩]) ledger'
      | (.error e, ledger') => (.error e, ledger')

/-- The records a `DictReader` yields: it skips empty lines. -/
def dataRecords (rows : List (List String)) : List (List String) := rows.filter (· ≠ [])

def loadSalesCsv (version : ℕ) (file : SalesFile) (ledger : Ledger) :
    Except LoadError LoadReport × Ledger :=
  if version ≠ contractVersion then
    (.error (.unsupportedContractVersion
      s!"contract version {version} is not supported; this adapter understands version {contractVersion}"),
      ledger)
  else match file with
  | .undecodable => (.error (.unsupportedContractVersion
      "the file is not valid utf-8 text; save it as \"CSV UTF-8\" and upload it again"), ledger)
  | .fieldTooLong line => (.error (.unsupportedContractVersion
      s!"line {line} has a field longer than 131,072 characters, which no column of the contract allows"),
      ledger)
  | .unparsable line =>
    (.error (.unsupportedContractVersion s!"line {line} cannot be read as CSV"), ledger)
  | .records [] => (.error (.unsupportedContractVersion
      s!"the header does not match contract version {contractVersion}"), ledger)
  | .records (header :: rows) =>
    if header ≠ expectedHeader then (.error (.unsupportedContractVersion
      s!"the header does not match contract version {contractVersion}"), ledger)
    else match loadRows pg cat parsers times 2 (dataRecords rows) 0 [] ledger with
    | (.ok (received, rejections), ledger') =>
      (.ok ⟨received, received - rejections.length, rejections.length, rejections⟩, ledger')
    | (.error e, ledger') => (.error (.escaped e), ledger')

/-- The calls of the rows that are not among the rejections, in file order. -/
def acceptedCalls (rejections : List RowRejection) : ℕ → List (List String) → List IngestCall
  | _, [] => []
  | line, raw :: rest =>
    match parseRow parsers raw with
    | .error _ => acceptedCalls rejections (line + 1) rest
    | .ok row =>
      if line ∈ rejections.map RowRejection.lineNumber then acceptedCalls rejections (line + 1) rest
      else callAt times line row :: acceptedCalls rejections (line + 1) rest

/-- The load answers with a report that counts every record, and leaves the tables as ingesting the
accepted rows alone would. -/
def Independent (rows : List (List String)) (ledger : Ledger)
    (outcome : Except LoadError LoadReport × Ledger) : Prop :=
  ∃ report, outcome.1 = .ok report ∧ report.received = (dataRecords rows).length ∧
    report.accepted + report.rejected = report.received ∧
    let calls := acceptedCalls parsers times report.rejections 2 (dataRecords rows)
    report.accepted = calls.length ∧
      ingestAll pg cat calls ledger = (calls.map IngestCall.row, outcome.2)

/-! ### The rows that escape -/

/-- The sale of the row exists and agrees with it, or can be created. -/
def HeaderReady (call : IngestCall) (source : String) (ledger : Ledger) : Prop :=
  match ledger.header source with
  | some header => pg.givesTimestamp header.occurredAt ∧ checkHeader call.row source header = .ok ()
  | none => ∃ header, headerRow pg call.clock .web (newHeader call.row source) = .ok header ∧
      headerReference cat header = none

/-- The line fits its columns and is the first of its product in the sale. -/
def LineReady (call : IngestCall) (source : String) (price : ℤ) (ledger : Ledger) : Prop :=
  lineRefusal .web (newLine call.row source price) = none ∧
    ∀ line ∈ linesOf source ledger.lines, line.productId ≠ call.row.productId

def StockReady (call : IngestCall) (ledger : Ledger) : Prop :=
  ∃ onHand, ledger.stock (call.row.storeId, call.row.productId) = some onHand ∧
    call.row.quantity ≤ onHand

/-- What a row that passed its own checks can still hit without the adapter knowing it for a
rejection. -/
inductive Fault (call : IngestCall) (source : String) (price : ℤ) (ledger : Ledger) : Prop where
  /-- The id has a NUL, which the header lookup cannot be asked for. -/
  | nul (hnul : hasNul source)
  /-- The sale's stored time cannot be returned. -/
  | unreadable (header : Header) (hheader : ledger.header source = some header)
      (hgives : ¬pg.givesTimestamp header.occurredAt)
  /-- A new sale, not in the future of the web process, is in the future of the database. -/
  | early (hnew : ledger.header source = none)
      (hearly : headerRow pg call.clock .web (newHeader call.row source) =
        .error (.checkViolation "transaction_not_future"))
  /-- The line would take the sale's total out of its column, or touches a sale from the future. -/
  | total (hheader : HeaderReady pg cat call source ledger) (hline : LineReady call source price ledger)
      (hstock : StockReady call ledger)
      (htotal : ¬fitsTotal (linesTotal source ledger.lines + call.row.quantity * price) ∨
        call.clock < call.row.occurredAt.instant)

/-- The row passes every check made before its sale is looked up, and then hits a fault. -/
def Escapes (call : IngestCall) (ledger : Ledger) : Prop :=
  ∃ source price references, checkRow call.now call.row = .ok (source, price) ∧
    saleReferences pg cat call.row.customerId call.row.productId = .ok references ∧
    checkReferences call.row references = .ok () ∧ Fault pg cat call source price ledger

/-- No row escapes in the tables the rows before it left. -/
def Clean : ℕ → List (List String) → Ledger → Prop
  | _, [], _ => True
  | line, raw :: rest, ledger =>
    match parseRow parsers raw with
    | .error _ => Clean (line + 1) rest ledger
    | .ok row => ¬Escapes pg cat (callAt times line row) ledger ∧
        Clean (line + 1) rest (ingest pg cat (callAt times line row) ledger).2

/-! ### A row escapes exactly when it hits a fault -/

/-- An exception the loop over the rows does not catch. -/
def Untranslated : Except Exc Ledger → Prop
  | .ok _ => False
  | .error e => ∀ reason, e ≠ .rowRejected reason

theorem untranslated_bind (x : Except Exc Ledger) (f : Ledger → Except Exc Ledger) :
    Untranslated (x >>= f) ↔ Untranslated x ∨ ∃ ledger, x = .ok ledger ∧ Untranslated (f ledger) := by
  cases x with
  | error e => exact ⟨.inl, fun h => h.elim id (by rintro ⟨_, h, -⟩; cases h)⟩
  | ok ledger =>
      refine ⟨fun h => .inr ⟨ledger, rfl, h⟩, fun h => h.elim False.elim ?_⟩
      rintro ⟨_, heq, h⟩
      obtain rfl := Except.ok.inj heq
      exact h

variable {pg cat parsers times} {call : IngestCall} {source : String} {price : ℤ} {ledger : Ledger}

theorem saleReferences_active {row : SalesRow} {references : Option SaleReferences}
    (hreferences : saleReferences pg cat row.customerId row.productId = .ok references)
    (hcheck : checkReferences row references = .ok ()) : cat.productIsActive row.productId = some true := by
  unfold saleReferences at hreferences
  split at hreferences
  · cases hreferences
  split at hreferences
  · cases hreferences
  split at hreferences
  · obtain rfl := Except.ok.inj hreferences
    cases hcheck
  · split_ifs at hreferences
    obtain rfl := Except.ok.inj hreferences
    unfold checkReferences at hcheck
    dsimp only at hcheck
    split_ifs at hcheck
    split at hcheck
    · cases hcheck
    · cases hcheck
    · assumption

theorem untranslated_header :
    Untranslated (headerEffect pg cat call.clock call.row source ledger) ↔
      hasNul source ∨
      (∃ header, ledger.header source = some header ∧ ¬pg.givesTimestamp header.occurredAt) ∨
      (ledger.header source = none ∧ headerRow pg call.clock .web (newHeader call.row source) =
        .error (.checkViolation "transaction_not_future")) := by
  unfold headerEffect
  by_cases hnul : hasNul source
  · simp [hnul, Untranslated]
  rw [if_neg hnul]
  cases hheader : ledger.header source with
  | some header =>
      by_cases hgives : pg.givesTimestamp header.occurredAt
      · cases hcheck : checkHeader call.row source header <;> simp [hnul, hgives, hcheck, Untranslated]
      · simp [hnul, hgives, Untranslated]
  | none =>
      cases hrow : headerRow pg call.clock .web (newHeader call.row source) with
      | ok header =>
          cases hreference : headerReference cat header with
          | none => simp [hnul, hreference, Untranslated]
          | some e =>
              rcases headerReference_some cat hreference with rfl | rfl | rfl <;>
                simp [hnul, hreference, Untranslated, headerInsertRefusal]
      | error e =>
          rcases headerRow_error pg hrow with ⟨kind, rfl⟩ | ⟨-, htotal⟩ | rfl
          · simp [hnul, Untranslated, headerInsertRefusal]
          · exact absurd htotal (lt_irrefl 0)
          · simp [Untranslated, headerInsertRefusal]

/-- Where the sale is found or created, the stages after it find its header and everything else as it
was. -/
theorem headerEffect_ready {headed : Ledger}
    (hheader : headerEffect pg cat call.clock call.row source ledger = .ok headed) :
    HeaderReady pg cat call source ledger ∧ headed.lines = ledger.lines ∧ headed.stock = ledger.stock ∧
      ∃ header, headed.header source = some header ∧
        header.occurredAt = call.row.occurredAt.instant := by
  unfold headerEffect at hheader
  unfold HeaderReady
  split at hheader
  · cases hheader
  cases hsource : ledger.header source with
  | some header =>
      rw [hsource] at hheader
      dsimp only at hheader ⊢
      split_ifs at hheader with hgives
      split at hheader
      · cases hheader
      · rename_i hcheck
        obtain rfl := Except.ok.inj hheader
        refine ⟨⟨hgives, hcheck⟩, rfl, rfl, header, hsource, ?_⟩
        unfold checkHeader at hcheck
        split_ifs at hcheck with _ hagree
        push Not at hagree
        exact hagree.2.2.2
  | none =>
      rw [hsource] at hheader
      dsimp only at hheader ⊢
      split at hheader
      · cases hheader
      rename_i header hrow
      split at hheader
      · cases hheader
      rename_i hreference
      obtain rfl := Except.ok.inj hheader
      obtain ⟨-, -, hoccurred, -⟩ := headerRow_ok pg hrow
      exact ⟨⟨header, hrow, hreference⟩, rfl, rfl, header, Function.update_self _ _ _, hoccurred⟩

theorem headerEffect_of_ready (hnul : ¬hasNul source) (hready : HeaderReady pg cat call source ledger) :
    ∃ headed, headerEffect pg cat call.clock call.row source ledger = .ok headed := by
  unfold HeaderReady at hready
  unfold headerEffect
  rw [if_neg hnul]
  cases hsource : ledger.header source with
  | some header =>
      rw [hsource] at hready
      obtain ⟨hgives, hcheck⟩ := hready
      exact ⟨ledger, by simp [hgives, hcheck]⟩
  | none =>
      rw [hsource] at hready
      obtain ⟨header, hrow, hreference⟩ := hready
      exact ⟨ledger.write (.putHeader source header), by simp only [hrow, hreference]⟩

/-- The line stage of a row with a known product accepts exactly the ready lines, and every refusal of
it is a rejection. -/
theorem lineEffect_cases (hquantity : 0 < call.row.quantity) (hprice : 0 < price)
    (hproduct : cat.productIsActive call.row.productId = some true)
    (hheader : (ledger.header source).isSome) :
    (LineReady call source price ledger ∧ lineEffect pg cat call.clock call.row source price ledger =
      .ok (ledger.write (.addLine (newLine call.row source price)))) ∨
    (¬LineReady call source price ledger ∧ ∃ reason,
      lineEffect pg cat call.clock call.row source price ledger = .error (.rowRejected reason)) := by
  unfold lineEffect LineReady
  simp only [effect]
  cases hrefusal : lineRefusal .web (newLine call.row source price) with
  | some e =>
      refine .inr ⟨by simp, ?_⟩
      unfold lineRefusal at hrefusal
      split_ifs at hrefusal with _ _ hq hp
      · obtain rfl := Option.some.inj hrefusal
        exact ⟨_, rfl⟩
      · obtain rfl := Option.some.inj hrefusal
        exact ⟨_, rfl⟩
      · exact absurd hq (Int.not_le.mpr hquantity)
      · exact absurd hp (Int.not_le.mpr hprice)
  | none =>
      dsimp only
      split_ifs with hdup hnone hunknown
      · obtain ⟨line, hline, hsame⟩ := List.any_eq_true.mp hdup
        exact .inr ⟨fun h => h.2 line hline (of_decide_eq_true hsame), _, rfl⟩
      · exact absurd hheader (by simpa [newLine] using hnone)
      · exact absurd hunknown (by simp [newLine, hproduct])
      · exact .inl ⟨⟨rfl, fun line hline hsame =>
          hdup (List.any_eq_true.mpr ⟨line, hline, decide_eq_true hsame⟩)⟩, rfl⟩

variable (call ledger) in
theorem stockEffect_cases :
    (∃ onHand, ledger.stock (call.row.storeId, call.row.productId) = some onHand ∧
      call.row.quantity ≤ onHand ∧ stockEffect call.row ledger =
        .ok (ledger.write (.putStock (call.row.storeId, call.row.productId)
          (onHand - call.row.quantity)))) ∨
    (¬StockReady call ledger ∧ ∃ reason, stockEffect call.row ledger = .error (.rowRejected reason)) := by
  unfold stockEffect StockReady
  cases hstock : ledger.stock (call.row.storeId, call.row.productId) with
  | none => exact .inr ⟨by simp, _, rfl⟩
  | some onHand =>
      by_cases hle : call.row.quantity ≤ onHand
      · exact .inl ⟨onHand, rfl, hle, by simp [hle]⟩
      · exact .inr ⟨by simpa using hle, _, if_neg hle⟩

variable (ledger) in
theorem untranslated_total {header : Header} (hheader : ledger.header source = some header) :
    Untranslated (totalEffect pg cat call.clock source ledger) ↔
      ¬fitsTotal (linesTotal source ledger.lines) ∨ call.clock < header.occurredAt := by
  unfold totalEffect
  simp only [effect, hheader]
  by_cases hfits : fitsTotal (linesTotal source ledger.lines)
  · by_cases hclock : call.clock < header.occurredAt <;> simp [hfits, hclock, Untranslated]
  · simp [hfits, Untranslated]

theorem untranslated_lookup (hquantity : 0 < call.row.quantity) (hprice : 0 < price)
    (hproduct : cat.productIsActive call.row.productId = some true) :
    Untranslated (headerEffect pg cat call.clock call.row source ledger >>= fun headed =>
      lineEffect pg cat call.clock call.row source price headed >>= fun lined =>
      stockEffect call.row lined >>= totalEffect pg cat call.clock source) ↔
      Fault pg cat call source price ledger := by
  -- Once the header is there, the stages after it come down to the last one.
  have hrest : ∀ headed, headerEffect pg cat call.clock call.row source ledger = .ok headed →
      (Untranslated (lineEffect pg cat call.clock call.row source price headed >>= fun lined =>
        stockEffect call.row lined >>= totalEffect pg cat call.clock source) ↔
      LineReady call source price ledger ∧ StockReady call ledger ∧
        (¬fitsTotal (linesTotal source ledger.lines + call.row.quantity * price) ∨
          call.clock < call.row.occurredAt.instant)) := by
    intro headed hheaded
    obtain ⟨-, hlines, hstocks, header, hsome, hoccurred⟩ := headerEffect_ready hheaded
    have hlineReady : LineReady call source price headed ↔ LineReady call source price ledger := by
      rw [LineReady, LineReady, hlines]
    rcases lineEffect_cases hquantity hprice hproduct (Option.isSome_of_eq_some hsome) with
      ⟨hready, hline⟩ | ⟨hready, reason, hline⟩
    · rw [hline]
      rcases stockEffect_cases call (headed.write (.addLine (newLine call.row source price)))
        with ⟨onHand, hon, hle, hstock⟩ | ⟨hnone, reason, hstock⟩
      · change Untranslated (stockEffect _ _ >>= _) ↔ _
        rw [hstock]
        change Untranslated (totalEffect pg cat call.clock source _) ↔ _
        refine (untranslated_total ((headed.write (.addLine _)).write (.putStock _ _)) hsome).trans ?_
        rw [hoccurred]
        have htotal : linesTotal source (headed.lines ++ [newLine call.row source price]) =
            linesTotal source ledger.lines + call.row.quantity * price := by
          rw [linesTotal_append, hlines]
          simp [linesTotal, linesOf, newLine]
        change (¬fitsTotal (linesTotal source (headed.lines ++ [newLine call.row source price])) ∨ _) ↔ _
        rw [htotal]
        have hstockReady : StockReady call ledger := ⟨onHand, hstocks ▸ hon, hle⟩
        exact ⟨fun h => ⟨hlineReady.mp hready, hstockReady, h⟩, fun h => h.2.2⟩
      · change Untranslated (stockEffect _ _ >>= _) ↔ _
        rw [hstock]
        refine ⟨fun h => absurd rfl (h reason), fun h => absurd ?_ hnone⟩
        obtain ⟨onHand, hon, hle⟩ := h.2.1
        exact ⟨onHand, hstocks.symm ▸ hon, hle⟩
    · rw [hline]
      exact ⟨fun h => absurd rfl (h reason), fun h => absurd (hlineReady.mpr h.1) hready⟩
  rw [untranslated_bind, untranslated_header]
  constructor
  · rintro ((hnul | ⟨header, hheader, hgives⟩ | ⟨hnew, hearly⟩) | ⟨headed, hheaded, h⟩)
    · exact .nul hnul
    · exact .unreadable header hheader hgives
    · exact .early hnew hearly
    · obtain ⟨hline, hstock, htotal⟩ := (hrest headed hheaded).mp h
      exact .total (headerEffect_ready hheaded).1 hline hstock htotal
  · rintro (hnul | ⟨header, hheader, hgives⟩ | ⟨hnew, hearly⟩ | ⟨hready, hline, hstock, htotal⟩)
    · exact .inl (.inl hnul)
    · exact .inl (.inr (.inl ⟨header, hheader, hgives⟩))
    · exact .inl (.inr (.inr ⟨hnew, hearly⟩))
    · by_cases hnul : hasNul source
      · exact .inl (.inl hnul)
      · obtain ⟨headed, hheaded⟩ := headerEffect_of_ready hnul hready
        exact .inr ⟨headed, hheaded, (hrest headed hheaded).mpr ⟨hline, hstock, htotal⟩⟩

theorem untranslated_post :
    Untranslated (ledger.post pg cat call.clock call.now call.row) ↔ Escapes pg cat call ledger := by
  unfold Ledger.post Escapes
  cases hcheck : checkRow call.now call.row with
  | error reason => simp [Untranslated]
  | ok values =>
      obtain ⟨source, price⟩ := values
      obtain ⟨-, hquantity, hprice, -⟩ := checkRow_ok hcheck
      change Untranslated (readReferencesEffect pg cat call.row ledger >>= _) ↔ _
      unfold readReferencesEffect
      cases hreferences : saleReferences pg cat call.row.customerId call.row.productId with
      | error e =>
          obtain ⟨kind, rfl⟩ := saleReferences_error pg cat hreferences
          refine ⟨fun h => absurd rfl (h _), ?_⟩
          rintro ⟨_, _, _, -, h, -⟩
          cases h
      | ok references =>
          cases hagree : checkReferences call.row references with
          | error reason =>
              simp only [hagree]
              refine ⟨fun h => absurd rfl (h _), ?_⟩
              rintro ⟨_, _, _, -, h, h', -⟩
              obtain rfl := Except.ok.inj h
              rw [hagree] at h'
              cases h'
          | ok _ =>
              simp only [hagree]
              refine (untranslated_lookup hquantity hprice
                (saleReferences_active hreferences hagree)).trans ⟨fun h => ?_, ?_⟩
              · exact ⟨source, price, references, rfl, rfl, hagree, h⟩
              · rintro ⟨_, _, _, hvalues, -, -, h⟩
                obtain ⟨rfl, rfl⟩ := Prod.mk.inj (Except.ok.inj hvalues)
                exact h

/-! ### The whole file -/

variable (pg cat) in
theorem ingest_cases (call : IngestCall) (ledger : Ledger) :
    (¬Escapes pg cat call ledger ∧
      ((∃ ledger', ingest pg cat call ledger = (.ok (), ledger')) ∨
        ∃ reason, ingest pg cat call ledger = (.error (.rowRejected reason), ledger))) ∨
    (Escapes pg cat call ledger ∧ ∃ e, ingest pg cat call ledger = (.error e, ledger) ∧
      ∀ reason, e ≠ .rowRejected reason) := by
  rw [ingest_eq, ← untranslated_post]
  cases ledger.post pg cat call.clock call.now call.row with
  | ok ledger' => exact .inl ⟨id, .inl ⟨ledger', rfl⟩⟩
  | error e =>
      by_cases hrejected : ∃ reason, e = .rowRejected reason
      · obtain ⟨reason, rfl⟩ := hrejected
        exact .inl ⟨fun h => h reason rfl, .inr ⟨reason, rfl⟩⟩
      · push Not at hrejected
        exact .inr ⟨hrejected, e, rfl, hrejected⟩

theorem ingestAll_accepted {ledger' : Ledger} {calls : List IngestCall}
    (hcall : ingest pg cat call ledger = (.ok (), ledger')) :
    ingestAll pg cat (call :: calls) ledger =
      (call.row :: (ingestAll pg cat calls ledger').1, (ingestAll pg cat calls ledger').2) := by
  rw [ingestAll, hcall]

theorem acceptedCalls_congr {rejections rejections' : List RowRejection} {line : ℕ}
    {rows : List (List String)} (hsame : ∀ n, line ≤ n →
      (n ∈ rejections.map RowRejection.lineNumber ↔ n ∈ rejections'.map RowRejection.lineNumber)) :
    acceptedCalls parsers times rejections line rows =
      acceptedCalls parsers times rejections' line rows := by
  induction rows generalizing line with
  | nil => rfl
  | cons raw rest ih =>
      have hrest := @ih (line + 1) fun n hn => hsame n (Nat.le_of_succ_le hn)
      rw [acceptedCalls, acceptedCalls, hrest]
      simp only [hsame line le_rfl]

/-- Rows none of which escapes are all received, and leave what the accepted ones alone leave. -/
theorem loadRows_clean {line : ℕ} {rows : List (List String)} {ledger : Ledger} (received : ℕ)
    (rejections : List RowRejection) (hclean : Clean pg cat parsers times line rows ledger) :
    ∃ rejected final,
      loadRows pg cat parsers times line rows received rejections ledger =
        (.ok (received + rows.length, rejections ++ rejected), final) ∧
      (∀ r ∈ rejected, line ≤ r.lineNumber) ∧
      (acceptedCalls parsers times rejected line rows).length + rejected.length = rows.length ∧
      ingestAll pg cat (acceptedCalls parsers times rejected line rows) ledger =
        ((acceptedCalls parsers times rejected line rows).map IngestCall.row, final) := by
  induction rows generalizing line received rejections ledger with
  | nil => exact ⟨[], ledger, by simp [loadRows], nofun, rfl, rfl⟩
  | cons raw rest ih =>
      -- A rejection of this line is not among the lines still to come.
      have hreject : ∀ (reason : String) {rejected : List RowRejection},
          (∀ r ∈ rejected, line + 1 ≤ r.lineNumber) →
          acceptedCalls parsers times (⟨line, reason⟩ :: rejected) (line + 1) rest =
            acceptedCalls parsers times rejected (line + 1) rest := by
        intro reason rejected _
        apply acceptedCalls_congr
        intro n hn
        rw [List.map_cons, List.mem_cons, or_iff_right (show n ≠ line by omega)]
      have hlater : ∀ {rejected : List RowRejection}, (∀ r ∈ rejected, line + 1 ≤ r.lineNumber) →
          line ∉ rejected.map RowRejection.lineNumber := by
        intro rejected hrejected hmem
        obtain ⟨r, hr, hline⟩ := List.mem_map.mp hmem
        have := hrejected r hr
        omega
      unfold loadRows
      rw [Clean] at hclean
      cases hparse : parseRow parsers raw with
      | error reason =>
          rw [hparse] at hclean
          obtain ⟨rejected, final, hload, hlines, hcount, hrun⟩ := ih (received + 1)
            (rejections ++ [⟨line, reason.text⟩]) hclean
          refine ⟨⟨line, reason.text⟩ :: rejected, final, ?_, ?_, ?_, ?_⟩
          · simpa [Nat.add_assoc, Nat.add_comm 1] using hload
          · exact List.forall_mem_cons.mpr ⟨le_rfl, fun r hr => (Nat.lt_succ_self line).le.trans (hlines r hr)⟩
          · rw [acceptedCalls, hparse, hreject _ hlines]
            simp only [List.length_cons]
            omega
          · rw [acceptedCalls, hparse, hreject _ hlines]
            exact hrun
      | ok row =>
          rw [hparse] at hclean
          obtain ⟨hsafe, hclean⟩ := hclean
          rcases ingest_cases pg cat (callAt times line row) ledger with
            ⟨-, ⟨ledger', hcall⟩ | ⟨reason, hcall⟩⟩ | ⟨hescapes, -⟩
          · rw [hcall] at hclean
            obtain ⟨rejected, final, hload, hlines, hcount, hrun⟩ := ih (received + 1) rejections hclean
            refine ⟨rejected, final, ?_, fun r hr => (Nat.le_succ line).trans (hlines r hr), ?_, ?_⟩
            · simpa [hcall, Nat.add_assoc, Nat.add_comm 1] using hload
            · rw [acceptedCalls, hparse]
              simp only [hlater hlines, if_false, List.length_cons]
              omega
            · rw [acceptedCalls, hparse]
              simp only [hlater hlines, if_false]
              rw [ingestAll_accepted hcall, hrun]
              rfl
          · rw [hcall] at hclean
            obtain ⟨rejected, final, hload, hlines, hcount, hrun⟩ := ih (received + 1)
              (rejections ++ [⟨line, reason.text⟩]) hclean
            refine ⟨⟨line, reason.text⟩ :: rejected, final, ?_, ?_, ?_, ?_⟩
            · simpa [hcall, Nat.add_assoc, Nat.add_comm 1] using hload
            · exact List.forall_mem_cons.mpr
                ⟨le_rfl, fun r hr => (Nat.lt_succ_self line).le.trans (hlines r hr)⟩
            · rw [acceptedCalls, hparse, hreject _ hlines]
              simp only [List.map_cons, List.mem_cons, true_or, if_true, List.length_cons]
              omega
            · rw [acceptedCalls, hparse, hreject _ hlines]
              simp only [List.map_cons, List.mem_cons, true_or, if_true]
              exact hrun
          · exact absurd hescapes hsafe

theorem loadRows_escapes {line : ℕ} {rows : List (List String)} {ledger : Ledger} (received : ℕ)
    (rejections : List RowRejection) (hclean : ¬Clean pg cat parsers times line rows ledger) :
    ∃ e final, loadRows pg cat parsers times line rows received rejections ledger = (.error e, final) := by
  induction rows generalizing line received rejections ledger with
  | nil => exact absurd trivial hclean
  | cons raw rest ih =>
      unfold loadRows
      rw [Clean] at hclean
      cases hparse : parseRow parsers raw with
      | error reason =>
          rw [hparse] at hclean
          exact ih _ _ hclean
      | ok row =>
          rw [hparse] at hclean
          rcases ingest_cases pg cat (callAt times line row) ledger with
            ⟨hsafe, ⟨ledger', hcall⟩ | ⟨reason, hcall⟩⟩ | ⟨-, e, hcall, hrejected⟩
          · dsimp only at hclean ⊢
            rw [hcall] at hclean ⊢
            exact ih _ _ fun h => hclean ⟨hsafe, h⟩
          · dsimp only at hclean ⊢
            rw [hcall] at hclean ⊢
            exact ih _ _ fun h => hclean ⟨hsafe, h⟩
          · dsimp only
            rw [hcall]
            cases e with
            | rowRejected reason => exact absurd rfl (hrejected reason)
            | stockUnavailable => exact ⟨_, _, rfl⟩
            | stockRefusal => exact ⟨_, _, rfl⟩
            | api => exact ⟨_, _, rfl⟩
            | overflow => exact ⟨_, _, rfl⟩
            | assertion => exact ⟨_, _, rfl⟩
            | database => exact ⟨_, _, rfl⟩

/-- **Per-row independence.** A file with the expected header is loaded row by row, with a report and
the tables its accepted rows alone would leave, exactly when none of its rows escapes. -/
theorem loadSalesCsv_independent (rows : List (List String)) (ledger : Ledger) :
    Independent pg cat parsers times rows ledger
      (loadSalesCsv pg cat parsers times contractVersion (.records (expectedHeader :: rows)) ledger) ↔
    Clean pg cat parsers times 2 (dataRecords rows) ledger := by
  have hload : loadSalesCsv pg cat parsers times contractVersion (.records (expectedHeader :: rows))
      ledger = match loadRows pg cat parsers times 2 (dataRecords rows) 0 [] ledger with
        | (.ok (received, rejections), ledger') =>
          (.ok ⟨received, received - rejections.length, rejections.length, rejections⟩, ledger')
        | (.error e, ledger') => (.error (.escaped e), ledger') := by
    rw [loadSalesCsv, if_neg (not_not.mpr rfl)]
    exact if_neg (not_not.mpr rfl)
  rw [hload]
  constructor
  · rintro ⟨report, hreport, -⟩
    by_contra hclean
    obtain ⟨e, final, hrun⟩ := loadRows_escapes 0 [] hclean
    rw [hrun] at hreport
    cases hreport
  · intro hclean
    obtain ⟨rejected, final, hrun, -, hcount, hcalls⟩ := loadRows_clean 0 [] hclean
    rw [hrun]
    simp only [Nat.zero_add, List.nil_append]
    refine ⟨_, rfl, rfl, ?_, ?_, hcalls⟩
    · dsimp only
      omega
    · dsimp only
      omega

end Load

/-- The conversions of the texts the corner shop writes. -/
def cornerParsers : Parsers where
  int text := if text = "1" then some 1 else if text = "2" then some 2 else if text = "7" then some 7
    else none
  decimal text := if text = "2.50" then some (.finite false 250 (-2)) else none
  fromisoformat text := if text = "2021-07-29T00:00:00+00:00" then
    some ⟨738000 * microsecondsPerDay, some 0⟩ else none

def cornerTimes : ℕ → Instant × Instant := fun _ =>
  (739000 * microsecondsPerDay, 739000 * microsecondsPerDay)

def cornerRecord (source : String) : List String :=
  [source, cornerCustomer, "1", "1", "2021-07-29T00:00:00+00:00", "7", "2", "2.50"]

/-- A NUL in one transaction id ends the load: the row before it stays committed and nothing is
reported. -/
theorem loadSalesCsv_nul : ¬Independent cornerPostgres cornerCatalog cornerParsers cornerTimes
    [cornerRecord "A1", cornerRecord "A\x002", cornerRecord "A3"] cornerLedger
    (loadSalesCsv cornerPostgres cornerCatalog cornerParsers cornerTimes contractVersion
      (.records [expectedHeader, cornerRecord "A1", cornerRecord "A\x002", cornerRecord "A3"])
      cornerLedger) := by
  have hescaped : (loadSalesCsv cornerPostgres cornerCatalog cornerParsers cornerTimes contractVersion
      (.records [expectedHeader, cornerRecord "A1", cornerRecord "A\x002", cornerRecord "A3"])
      cornerLedger).1 = .error (.escaped (.database (.dataError .other))) := by decide
  rintro ⟨report, hreport, -⟩
  rw [hescaped] at hreport
  cases hreport

end RetailSegmentation.Sales
