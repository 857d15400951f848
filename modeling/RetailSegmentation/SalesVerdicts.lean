import RetailSegmentation.SalesSpelling

/-! Verdicts on one row: `ingest_row` accepts it exactly when it is in order, which no spelling changes, and
spelled as the tables have it: the local date, the text of the customer's id and the offset are compared as
they are written. -/

namespace RetailSegmentation.Sales

open Program

section Verdict

variable (pg : Postgres) (cat : Catalog)

/-- What a new sale asks of its row, or an existing one. -/
def HeaderInOrder (row : SalesRow) (source : String) (ledger : Ledger) : Prop :=
  match ledger.header source with
  | some header => pg.givesTimestamp header.occurredAt = true ∧ header.dataOrigin = .observed ∧
      header.storeId = row.storeId ∧ header.channelId = row.channelId ∧ header.occurredAt = row.occurredAt.instant
  | none => source.length ≤ 64 ∧ isSmallint row.storeId = true ∧ isSmallint row.channelId = true ∧
      inNamespace source = false ∧ cat.hasStore row.storeId = true ∧ cat.hasChannel row.channelId = true

/-- A new sale's time has an offset PostgreSQL takes; an existing one's customer is written as it was stored. -/
def HeaderSpelled (row : SalesRow) (source : String) (ledger : Ledger) : Prop :=
  match ledger.header source with
  | some header => header.customerId = row.customerId
  | none => pg.takesTimestamp row.occurredAt = true

/-- The row's spelling passes: its date in its own offset is no earlier than the customer's registration, and
its header is spelled. -/
structure Spelled (row : SalesRow) (ledger : Ledger) : Prop where
  registered : ∀ customer day, pg.uuidIn row.customerId = some customer → cat.registeredOn customer = some day →
    day ≤ row.occurredAt.date
  header : HeaderSpelled pg row (strip row.sourceTransactionId) ledger

/-- Everything else that is asked of a row. -/
def InOrder (call : IngestCall) (ledger : Ledger) : Prop :=
  ∃ price references, checkRow call.now call.row = .ok (strip call.row.sourceTransactionId, price) ∧
    saleReferences pg cat call.row.customerId call.row.productId = .ok (some references) ∧
    references.productIsActive = some true ∧ hasNul (strip call.row.sourceTransactionId) = false ∧
    HeaderInOrder pg cat call.row (strip call.row.sourceTransactionId) ledger ∧
    LineReady call (strip call.row.sourceTransactionId) price ledger ∧ StockReady call ledger ∧
    fitsTotal (linesTotal (strip call.row.sourceTransactionId) ledger.lines + call.row.quantity * price) = true ∧
    call.row.occurredAt.instant ≤ call.clock

end Verdict

section Stages

variable {pg : Postgres} {cat : Catalog} {call : IngestCall} {source : String} {price : ℤ} {ledger : Ledger}

theorem checkHeader_ok {row : SalesRow} {header : Header} : checkHeader row source header = .ok () ↔
    header.dataOrigin = .observed ∧ header.customerId = row.customerId ∧ header.storeId = row.storeId ∧
      header.channelId = row.channelId ∧ header.occurredAt = row.occurredAt.instant := by
  unfold checkHeader
  constructor
  · intro h
    split_ifs at h with horigin hagree
    push Not at horigin hagree
    exact ⟨horigin, hagree⟩
  · rintro ⟨horigin, hcustomer, hstore, hchannel, hoccurred⟩
    rw [if_neg (not_not.mpr horigin), if_neg]
    push Not
    exact ⟨hcustomer, hstore, hchannel, hoccurred⟩

theorem saleReferences_some {customerId : String} {productId : ℤ} {references : SaleReferences} :
    saleReferences pg cat customerId productId = .ok (some references) ↔
      ∃ customer day, pg.Reads customerId customer ∧ cat.registeredOn customer = some day ∧
        pg.givesDate day = true ∧
        references = ⟨day, cat.productIsActive productId⟩ := by
  unfold saleReferences Postgres.Reads
  constructor
  · intro h
    split at h
    · cases h
    rename_i hnul
    split at h
    · cases h
    rename_i customer hcustomer
    split at h
    · cases h
    rename_i day hday
    split_ifs at h with hgives
    cases h
    exact ⟨customer, day, ⟨by simpa using hnul, hcustomer⟩, hday, hgives, rfl⟩
  · rintro ⟨customer, day, ⟨hnul, hcustomer⟩, hday, hgives, rfl⟩
    rw [hnul, hcustomer]
    simp [hday, hgives]

theorem headerRow_new {customer : String} (hread : pg.Reads call.row.customerId customer) {header : Header}
    (h : headerRow pg call.clock .web (newHeader call.row source) = .ok header) :
    header = ⟨customer, call.row.storeId, call.row.channelId, call.row.occurredAt.instant, 0, .observed⟩ ∧
      pg.takesTimestamp call.row.occurredAt = true ∧ source.length ≤ 64 ∧ isSmallint call.row.storeId = true ∧
      isSmallint call.row.channelId = true ∧ inNamespace source = false := by
  unfold headerRow at h
  split at h
  · cases h
  split at h
  · cases h
  · rename_i customer' hcustomer'
    obtain rfl : customer' = customer := Option.some.inj (hcustomer'.symm.trans hread.2)
    split_ifs at h with htakes hlength hranges hnamespace
    obtain rfl := Except.ok.inj h
    have hcolumns : (isSmallint call.row.storeId = true ∧ isSmallint call.row.channelId = true) ∧
      fitsTotal 0 = true := by
      simpa [newHeader] using hranges
    refine ⟨rfl, by simpa [newHeader] using htakes, not_lt.mp hlength, hcolumns.1.1, hcolumns.1.2, ?_⟩
    have hweb : (SessionUser.web == SessionUser.svcSales) = false := rfl
    simpa [newHeader, hweb] using hnamespace

theorem headerReady_iff {customer : String} {day : ℤ} (hread : pg.Reads call.row.customerId customer)
    (hday : cat.registeredOn customer = some day) (hnul : hasNul source = false)
    (hclock : call.row.occurredAt.instant ≤ call.clock) : HeaderReady pg cat call source ledger ↔
      HeaderInOrder pg cat call.row source ledger ∧ HeaderSpelled pg call.row source ledger := by
  unfold HeaderReady HeaderInOrder HeaderSpelled
  cases ledger.header source with
  | some header =>
      simp only [checkHeader_ok]
      tauto
  | none =>
      constructor
      · rintro ⟨header, hrow, hreference⟩
        obtain ⟨rfl, htakes, hcolumns⟩ := headerRow_new hread hrow
        unfold headerReference at hreference
        split_ifs at hreference with _ hstore hchannel
        obtain ⟨hlength, hstoreId, hchannelId, hnamespace⟩ := hcolumns
        exact ⟨⟨hlength, hstoreId, hchannelId, hnamespace, by simpa using hstore, by simpa using hchannel⟩, htakes⟩
      · rintro ⟨⟨hlength, hstoreId, hchannelId, hnamespace, hstore, hchannel⟩, htakes⟩
        obtain ⟨hcustomer, huuid⟩ := hread
        refine ⟨⟨customer, call.row.storeId, call.row.channelId, call.row.occurredAt.instant, 0, .observed⟩, ?_, ?_⟩
        · have hweb : (SessionUser.web == SessionUser.svcSales) = false := rfl
          simp [headerRow, newHeader, hnul, hcustomer, huuid, htakes, not_lt.mpr hlength, hstoreId,
            hchannelId, hnamespace,
            not_lt.mpr hclock, hweb, fitsTotal]
        · simp [headerReference, hday, hstore, hchannel]

theorem totalEffect_iff (ledger : Ledger) {header : Header} (hheader : ledger.header source = some header) :
    (∃ ledger', totalEffect pg cat call.clock source ledger = .ok ledger') ↔
      fitsTotal (linesTotal source ledger.lines) = true ∧ header.occurredAt ≤ call.clock := by
  unfold totalEffect
  simp only [effect, hheader]
  by_cases hfits : fitsTotal (linesTotal source ledger.lines) = true
  · by_cases hclock : call.clock < header.occurredAt
    · simp [hfits, hclock]
    · simp [hfits, hclock, not_lt.mp hclock]
  · simp [hfits]

theorem lineOn_iff (hquantity : 0 < call.row.quantity) (hprice : 0 < price)
    (hproduct : cat.productIsActive call.row.productId = some true) {headed : Ledger} {header : Header}
    (hsome : headed.header source = some header) :
    (∃ ledger', (lineEffect pg cat call.clock call.row source price headed >>= fun lined =>
      stockEffect call.row lined >>= totalEffect pg cat call.clock source) = .ok ledger') ↔
      LineReady call source price headed ∧ StockReady call headed ∧
        fitsTotal (linesTotal source headed.lines + call.row.quantity * price) = true ∧
        header.occurredAt ≤ call.clock := by
  rcases lineEffect_cases hquantity hprice hproduct (Option.isSome_of_eq_some hsome) with
    ⟨hready, hline⟩ | ⟨hready, reason, hline⟩
  · rw [hline]
    change (∃ ledger', (stockEffect _ _ >>= _) = .ok ledger') ↔ _
    rcases stockEffect_cases call (headed.write (.addLine (newLine call.row source price)))
      with ⟨onHand, hon, hle, hstock⟩ | ⟨hnone, reason, hstock⟩
    · rw [hstock]
      refine (totalEffect_iff ((headed.write (.addLine _)).write (.putStock _ _)) hsome).trans ?_
      have htotal : linesTotal source (headed.lines ++ [newLine call.row source price]) =
          linesTotal source headed.lines + call.row.quantity * price := by
        rw [linesTotal_append]
        simp [linesTotal, linesOf, newLine]
      change fitsTotal (linesTotal source (headed.lines ++ [newLine call.row source price])) = true ∧ _ ↔ _
      rw [htotal]
      exact ⟨fun h => ⟨hready, ⟨onHand, hon, hle⟩, h⟩, fun h => h.2.2⟩
    · rw [hstock]
      refine iff_of_false (fun h => ?_) fun h => hnone h.2.1
      obtain ⟨_, h⟩ := h
      cases h
  · rw [hline]
    refine iff_of_false (fun h => ?_) fun h => hready h.1
    obtain ⟨_, h⟩ := h
    cases h

theorem lookupOn_iff (hquantity : 0 < call.row.quantity) (hprice : 0 < price)
    (hproduct : cat.productIsActive call.row.productId = some true) :
    (∃ ledger', (headerEffect pg cat call.clock call.row source ledger >>= fun headed =>
      lineEffect pg cat call.clock call.row source price headed >>= fun lined =>
      stockEffect call.row lined >>= totalEffect pg cat call.clock source) = .ok ledger') ↔
      hasNul source = false ∧ HeaderReady pg cat call source ledger ∧ LineReady call source price ledger ∧
        StockReady call ledger ∧ fitsTotal (linesTotal source ledger.lines + call.row.quantity * price) = true ∧
        call.row.occurredAt.instant ≤ call.clock := by
  constructor
  · rintro ⟨ledger', h⟩
    obtain ⟨headed, hheaded, h⟩ := except_bind_ok h
    obtain ⟨hready, hlines, hstocks, header, hsome, hoccurred⟩ := headerEffect_ready hheaded
    obtain ⟨hline, hstock, htotal, hclock⟩ := (lineOn_iff hquantity hprice hproduct hsome).mp ⟨ledger', h⟩
    have hnul : hasNul source = false := by
      unfold headerEffect at hheaded
      split at hheaded
      · cases hheaded
      · rename_i hnul
        simpa using hnul
    unfold LineReady at hline
    unfold StockReady at hstock
    rw [hlines] at hline htotal
    rw [hstocks] at hstock
    exact ⟨hnul, hready, hline, hstock, htotal, hoccurred ▸ hclock⟩
  · rintro ⟨hnul, hready, hline, hstock, htotal, hclock⟩
    obtain ⟨headed, hheaded⟩ := headerEffect_of_ready (by simpa using hnul) hready
    obtain ⟨-, hlines, hstocks, header, hsome, hoccurred⟩ := headerEffect_ready hheaded
    rw [hheaded]
    change ∃ ledger', (lineEffect _ _ _ _ _ _ _ >>= _) = .ok ledger'
    refine (lineOn_iff hquantity hprice hproduct hsome).mpr ⟨?_, ?_, ?_, hoccurred ▸ hclock⟩
    · unfold LineReady at hline ⊢
      rwa [hlines]
    · unfold StockReady at hstock ⊢
      rwa [hstocks]
    · rwa [hlines]

theorem checkReferences_ok {row : SalesRow} {references : Option SaleReferences} :
    checkReferences row references = .ok () ↔ ∃ found, references = some found ∧
      found.registeredOn ≤ row.occurredAt.date ∧ found.productIsActive = some true := by
  unfold checkReferences
  cases references with
  | none => simp
  | some found =>
      by_cases hdate : row.occurredAt.date < found.registeredOn
      · simp [hdate]
      · obtain ⟨day, active⟩ := found
        dsimp only at hdate ⊢
        rw [if_neg hdate]
        cases active with
        | none => simp
        | some active => cases active <;> simp [not_lt.mp hdate]

theorem ingest_accepted : (ingest pg cat call ledger).1 = .ok () ↔
    ∃ ledger', ledger.post pg cat call.clock call.now call.row = .ok ledger' := by
  rw [ingest_eq]
  cases ledger.post pg cat call.clock call.now call.row with
  | ok ledger' => exact iff_of_true rfl ⟨ledger', rfl⟩
  | error e =>
      refine iff_of_false (fun h => by cases h) fun h => ?_
      obtain ⟨_, h⟩ := h
      cases h

/-- What a row that passed its own checks goes through once its references are read. -/
theorem post_of_checkRow (hcheck : checkRow call.now call.row = .ok (source, price))
    {references : Option SaleReferences}
    (hreferences : saleReferences pg cat call.row.customerId call.row.productId = .ok references)
    (hagree : checkReferences call.row references = .ok ()) :
    ledger.post pg cat call.clock call.now call.row =
      (headerEffect pg cat call.clock call.row source ledger >>= fun headed =>
        lineEffect pg cat call.clock call.row source price headed >>= fun lined =>
        stockEffect call.row lined >>= totalEffect pg cat call.clock source) := by
  unfold Ledger.post
  rw [hcheck]
  change (readReferencesEffect pg cat call.row ledger >>= _) = _
  unfold readReferencesEffect
  simp only [hreferences, hagree]
  rfl

theorem readReferencesEffect_done {row : SalesRow} {ledger' : Ledger}
    (hread : readReferencesEffect pg cat row ledger = .ok ledger') :
    ∃ references, saleReferences pg cat row.customerId row.productId = .ok references ∧
      checkReferences row references = .ok () := by
  unfold readReferencesEffect at hread
  split at hread
  · cases hread
  rename_i references hreferences
  split at hread
  · cases hread
  · rename_i hagree
    exact ⟨references, hreferences, hagree⟩

theorem exists_of_post {ledger' : Ledger} (hpost : ledger.post pg cat call.clock call.now call.row = .ok ledger') :
    ∃ price references, checkRow call.now call.row = .ok (strip call.row.sourceTransactionId, price) ∧
      saleReferences pg cat call.row.customerId call.row.productId = .ok references ∧
      checkReferences call.row references = .ok () := by
  unfold Ledger.post at hpost
  split at hpost
  · cases hpost
  rename_i source price hcheck
  obtain ⟨rfl, -⟩ := checkRow_ok hcheck
  obtain ⟨_, hread, -⟩ := except_bind_ok hpost
  obtain ⟨references, hreferences, hagree⟩ := readReferencesEffect_done hread
  exact ⟨price, references, hcheck, hreferences, hagree⟩

/-- **A row is accepted exactly when it is in order and spelled.** -/
theorem accepted_iff : (ingest pg cat call ledger).1 = .ok () ↔
    InOrder pg cat call ledger ∧ Spelled pg cat call.row ledger := by
  rw [ingest_accepted]
  constructor
  · rintro ⟨ledger', hpost⟩
    obtain ⟨price, references, hcheck, hreferences, hagree⟩ := exists_of_post hpost
    obtain ⟨-, hquantity, hprice, -⟩ := checkRow_ok hcheck
    rw [post_of_checkRow hcheck hreferences hagree] at hpost
    obtain ⟨hnul, hready, hline, hstock, htotal, hclock⟩ :=
      (lookupOn_iff hquantity hprice (saleReferences_active hreferences hagree)).mp ⟨ledger', hpost⟩
    obtain ⟨found, rfl, hdate, hactive⟩ := checkReferences_ok.mp hagree
    obtain ⟨customer, day, hread, hday, -, rfl⟩ := saleReferences_some.mp hreferences
    obtain ⟨hheader, hspelled⟩ := (headerReady_iff hread hday hnul hclock).mp hready
    refine ⟨⟨price, _, hcheck, hreferences, hactive, hnul, hheader, hline, hstock, htotal, hclock⟩,
      ⟨fun customer' day' huuid hday' => ?_, hspelled⟩⟩
    obtain rfl : customer = customer' := Option.some.inj (hread.2.symm.trans huuid)
    obtain rfl : day = day' := Option.some.inj (hday.symm.trans hday')
    exact hdate
  · rintro ⟨⟨price, references, hcheck, hreferences, hactive, hnul, hheader, hline, hstock, htotal, hclock⟩, hspelled⟩
    obtain ⟨-, hquantity, hprice, -⟩ := checkRow_ok hcheck
    obtain ⟨customer, day, hread, hday, -, rfl⟩ := saleReferences_some.mp hreferences
    have hagree := checkReferences_ok.mpr ⟨_, rfl, hspelled.registered customer day hread.2 hday, hactive⟩
    rw [post_of_checkRow hcheck hreferences hagree]
    refine (lookupOn_iff hquantity hprice (saleReferences_active hreferences hagree)).mpr ⟨hnul, ?_, hline,
      hstock, htotal,
      hclock⟩
    exact (headerReady_iff hread hday hnul hclock).mpr ⟨hheader, hspelled.header⟩

theorem SameSale.inOrder_iff {row row' : SalesRow} (h : SameSale pg row row') (now clock : Instant) :
    InOrder pg cat ⟨now, clock, row⟩ ledger ↔ InOrder pg cat ⟨now, clock, row'⟩ ledger := by
  unfold InOrder HeaderInOrder LineReady StockReady newLine
  simp only [h.checkRow_eq, h.saleReferences_eq, h.source, h.storeId, h.channelId, h.occurredAt, h.productId,
    h.quantity]

/-! ### The comparison with the header -/

/-- The row gets as far as the comparison with its sale's header. -/
def Compared (pg : Postgres) (cat : Catalog) (call : IngestCall) (ledger : Ledger) : Prop :=
  ∃ price references, checkRow call.now call.row = .ok (strip call.row.sourceTransactionId, price) ∧
    saleReferences pg cat call.row.customerId call.row.productId = .ok references ∧
    checkReferences call.row references = .ok () ∧ hasNul (strip call.row.sourceTransactionId) = false ∧
    ∀ header, ledger.header (strip call.row.sourceTransactionId) = some header →
      pg.givesTimestamp header.occurredAt = true

/-- Only the comparison with the header refuses a row as disagreeing. -/
def Disagrees (e : Exc) : Prop := ∃ source, e = .rowRejected (.disagrees source)

theorem checkRow_disagrees {now : Instant} {row : SalesRow} {reason : Rejection}
    (h : checkRow now row = .error reason) :
    ¬ Disagrees (.rowRejected reason) := by
  rintro ⟨source, heq⟩
  obtain rfl := Exc.rowRejected.inj heq
  unfold checkRow at h
  dsimp only at h
  split_ifs at h
  all_goals try cases h
  split at h
  · cases h
  · split_ifs at h
    cases h

theorem readReferencesEffect_disagrees {row : SalesRow} {e : Exc}
    (h : readReferencesEffect pg cat row ledger = .error e) :
    ¬ Disagrees e := by
  rintro ⟨source, rfl⟩
  unfold readReferencesEffect at h
  split at h
  · rename_i e' hreferences
    obtain ⟨kind, rfl⟩ := saleReferences_error pg cat hreferences
    cases kind <;> cases h
  · split at h
    · rename_i reason hagree
      cases h
      unfold checkReferences at hagree
      split at hagree
      · cases hagree
      split at hagree
      · cases hagree
      split at hagree <;> cases hagree
    · cases h

theorem lineEffect_disagrees {e : Exc} (h : lineEffect pg cat call.clock call.row source price ledger = .error e) :
    ¬ Disagrees e := by
  rintro ⟨source', rfl⟩
  unfold lineEffect at h
  split at h
  · rename_i e' _
    unfold lineInsertRefusal at h
    cases e' with
    | dataError kind => cases kind <;> cases h
    | _ => cases h
  · cases h

theorem stockEffect_disagrees {row : SalesRow} {e : Exc} (h : stockEffect row ledger = .error e) :
    ¬ Disagrees e := by
  rintro ⟨source, rfl⟩
  unfold stockEffect at h
  split at h
  · cases h
  · split at h <;> cases h

theorem totalEffect_disagrees {e : Exc} (h : totalEffect pg cat call.clock source ledger = .error e) :
    ¬ Disagrees e := by
  rintro ⟨source', rfl⟩
  unfold totalEffect at h
  split at h <;> cases h

theorem headerEffect_disagrees {header : Header} (hheader : ledger.header source = some header)
    (hobserved : header.dataOrigin = .observed) :
    headerEffect pg cat call.clock call.row source ledger = .error (.rowRejected (.disagrees source)) ↔
      hasNul source = false ∧ pg.givesTimestamp header.occurredAt = true ∧
        ¬ (header.customerId = call.row.customerId ∧ header.storeId = call.row.storeId ∧
          header.channelId = call.row.channelId ∧ header.occurredAt = call.row.occurredAt.instant) := by
  have hcheck : (header.customerId ≠ call.row.customerId ∨ header.storeId ≠ call.row.storeId ∨
      header.channelId ≠ call.row.channelId ∨ header.occurredAt ≠ call.row.occurredAt.instant) ↔
      ¬ (header.customerId = call.row.customerId ∧ header.storeId = call.row.storeId ∧
        header.channelId = call.row.channelId ∧ header.occurredAt = call.row.occurredAt.instant) := by tauto
  unfold headerEffect
  by_cases hnul : hasNul source = true
  · simp [hnul]
  rw [if_neg hnul]
  by_cases hgives : pg.givesTimestamp header.occurredAt = true
  · simp only [hheader, if_pos hgives, checkHeader, hobserved, ne_eq, not_true_eq_false, if_false]
    rw [← hcheck]
    split_ifs with hdisagrees
    · simp [hnul, hgives, hdisagrees]
    · simp [hdisagrees]
  · simp [hheader, hgives]

theorem ingest_refused {e : Exc} : (ingest pg cat call ledger).1 = .error e ↔
    ledger.post pg cat call.clock call.now call.row = .error e := by
  rw [ingest_eq]
  cases ledger.post pg cat call.clock call.now call.row with
  | ok ledger' => exact iff_of_false (fun h => by cases h) fun h => by cases h
  | error e' => exact ⟨fun h => congrArg _ (Except.error.inj h), fun h => congrArg _ (Except.error.inj h)⟩

theorem exists_of_disagrees {e : Exc} (hdisagrees : Disagrees e)
    (hpost : ledger.post pg cat call.clock call.now call.row = .error e) :
    ∃ price references, checkRow call.now call.row = .ok (strip call.row.sourceTransactionId, price) ∧
      saleReferences pg cat call.row.customerId call.row.productId = .ok references ∧
      checkReferences call.row references = .ok () := by
  unfold Ledger.post at hpost
  split at hpost
  · rename_i reason hcheck
    cases hpost
    exact absurd hdisagrees (checkRow_disagrees hcheck)
  rename_i source price hcheck
  obtain ⟨rfl, -⟩ := checkRow_ok hcheck
  obtain hread | ⟨_, hread, -⟩ := except_bind_error hpost
  · exact absurd hdisagrees (readReferencesEffect_disagrees hread)
  · obtain ⟨references, hreferences, hagree⟩ := readReferencesEffect_done hread
    exact ⟨price, references, hcheck, hreferences, hagree⟩

/-- A row is refused as disagreeing when it is compared with its sale's header and differs from it. -/
theorem disagrees_iff {header : Header} (hsource : source = strip call.row.sourceTransactionId)
    (hheader : ledger.header source = some header) (hobserved : header.dataOrigin = .observed) :
    (ingest pg cat call ledger).1 = .error (.rowRejected (.disagrees source)) ↔
      Compared pg cat call ledger ∧
        ¬ (header.customerId = call.row.customerId ∧ header.storeId = call.row.storeId ∧
          header.channelId = call.row.channelId ∧ header.occurredAt = call.row.occurredAt.instant) := by
  subst hsource
  rw [ingest_refused]
  constructor
  · intro hpost
    have hdisagrees : Disagrees (.rowRejected (.disagrees (strip call.row.sourceTransactionId))) := ⟨_, rfl⟩
    obtain ⟨price, references, hcheck, hreferences, hagree⟩ := exists_of_disagrees hdisagrees hpost
    rw [post_of_checkRow hcheck hreferences hagree] at hpost
    obtain hhead | ⟨headed, -, hpost⟩ := except_bind_error hpost
    · obtain ⟨hnul, hgives, hdiffers⟩ := (headerEffect_disagrees hheader hobserved).mp hhead
      refine ⟨⟨price, references, hcheck, hreferences, hagree, hnul, fun header' hheader' => ?_⟩, hdiffers⟩
      obtain rfl := Option.some.inj (hheader.symm.trans hheader')
      exact hgives
    obtain hline | ⟨lined, -, hpost⟩ := except_bind_error hpost
    · exact absurd hdisagrees (lineEffect_disagrees hline)
    obtain hstock | ⟨stocked, -, htotal⟩ := except_bind_error hpost
    · exact absurd hdisagrees (stockEffect_disagrees hstock)
    · exact absurd hdisagrees (totalEffect_disagrees htotal)
  · rintro ⟨⟨price, references, hcheck, hreferences, hagree, hnul, hgives⟩, hdiffers⟩
    rw [post_of_checkRow hcheck hreferences hagree,
      (headerEffect_disagrees hheader hobserved).mpr ⟨hnul, hgives header hheader, hdiffers⟩]
    rfl

theorem created_header (hnone : ledger.header (strip call.row.sourceTransactionId) = none)
    (hok : (ingest pg cat call ledger).1 = .ok ()) :
    ∃ customer total, pg.Reads call.row.customerId customer ∧
      (ingest pg cat call ledger).2.header (strip call.row.sourceTransactionId) =
        some ⟨customer, call.row.storeId, call.row.channelId, call.row.occurredAt.instant, total, .observed⟩ := by
  obtain ⟨ledger', hpost⟩ := ingest_accepted.mp hok
  obtain ⟨price, references, hcheck, hreferences, hagree⟩ := exists_of_post hpost
  obtain ⟨found, rfl, -, -⟩ := checkReferences_ok.mp hagree
  obtain ⟨customer, day, hread, -, -, -⟩ := saleReferences_some.mp hreferences
  have hledger : (ingest pg cat call ledger).2 = ledger' := by
    rw [ingest_eq, hpost]
  rw [post_of_checkRow hcheck hreferences hagree] at hpost
  obtain ⟨headed, hheaded, hpost⟩ := except_bind_ok hpost
  obtain ⟨lined, hlined, hpost⟩ := except_bind_ok hpost
  obtain ⟨stocked, hstocked, htotal⟩ := except_bind_ok hpost
  unfold headerEffect at hheaded
  split at hheaded
  · cases hheaded
  rw [hnone] at hheaded
  dsimp only at hheaded
  split at hheaded
  · cases hheaded
  rename_i header hrow
  split at hheaded
  · cases hheaded
  obtain rfl := Except.ok.inj hheaded
  obtain ⟨rfl, -⟩ := headerRow_new hread hrow
  obtain ⟨-, -, -, -, rfl⟩ := lineEffect_ok hlined
  obtain ⟨onHand, -, -, rfl⟩ := stockEffect_ok hstocked
  have hheader := ledger.header_write_putHeader (strip call.row.sourceTransactionId)
    ⟨customer, call.row.storeId, call.row.channelId, call.row.occurredAt.instant, 0, .observed⟩
  rw [← Ledger.header_write_addLine, ← Ledger.header_write_putStock] at hheader
  obtain rfl := totalEffect_ok htotal hheader
  refine ⟨customer, linesTotal (strip call.row.sourceTransactionId)
    (ledger.lines ++ [newLine call.row (strip call.row.sourceTransactionId) price]), hread, ?_⟩
  rw [hledger, Ledger.header_write_putHeader]
  rfl

end Stages

/-! ### Spellings and verdicts -/

/-- Two lines of one sale: identical header fields. -/
structure SameHeader (row row' : SalesRow) : Prop where
  source : strip row.sourceTransactionId = strip row'.sourceTransactionId
  customerId : row.customerId = row'.customerId
  storeId : row.storeId = row'.storeId
  channelId : row.channelId = row'.channelId
  occurredAt : row.occurredAt = row'.occurredAt

/-- A sale that is there later on is as it was, but for its total. -/
def KeepsHeader (source : String) (ledger later : Ledger) : Prop :=
  ∀ header, ledger.header source = some header → ∃ total, later.header source = some { header with total }

section Claims

variable (pg : Postgres) (cat : Catalog)

def VerdictBlind : Prop := ∀ ledger now clock row row', SameSale pg row row' →
  ((ingest pg cat ⟨now, clock, row⟩ ledger).1 = .ok () ↔ (ingest pg cat ⟨now, clock, row'⟩ ledger).1 = .ok ())

/-- No line with the header fields of the row that created its sale disagrees with it. -/
def SecondLineAgrees : Prop := ∀ ledger later first second,
  ledger.header (strip first.row.sourceTransactionId) = none → (ingest pg cat first ledger).1 = .ok () →
  KeepsHeader (strip first.row.sourceTransactionId) (ingest pg cat first ledger).2 later →
  SameHeader first.row second.row →
  (ingest pg cat second later).1 ≠ .error (.rowRejected (.disagrees (strip second.row.sourceTransactionId)))

end Claims

/-! ### Two lines in capitals -/

def cornerCapitals : String := "3F0E6F4C-0000-4000-8000-000000000001"

/-- PostgreSQL reads the digits of a UUID in either case. -/
def capitalPostgres : Postgres :=
  { cornerPostgres with uuidIn := fun text =>
      if text = cornerCustomer ∨ text = cornerCapitals then some cornerCustomer else none }

def capitalCatalog : Catalog :=
  { cornerCatalog with productIsActive := fun productId => if productId = 7 ∨ productId = 8 then some true else none }

def capitalLedger : Ledger :=
  { cornerLedger with stock := fun key => if key = (1, 7) ∨ key = (1, 8) then some 5 else none }

/-- A line of the product in a sale whose customer is written so. -/
def capitalCall (customerId : String) (productId : ℤ) : IngestCall :=
  { cornerCall "A1" with row := { cornerRow "A1" with customerId, productId } }

/-- The tables after the first line, in capitals, is accepted. -/
def capitalSold : Ledger := (ingest capitalPostgres capitalCatalog (capitalCall cornerCapitals 7) capitalLedger).2

theorem capital_first : (ingest capitalPostgres capitalCatalog (capitalCall cornerCapitals 7) capitalLedger).1 = .ok () := by
  decide

theorem capital_second : (ingest capitalPostgres capitalCatalog (capitalCall cornerCapitals 8) capitalSold).1 =
    .error (.rowRejected (.disagrees "A1")) := by
  decide

theorem canonical_second : (ingest capitalPostgres capitalCatalog (capitalCall cornerCustomer 8) capitalSold).1 = .ok () := by
  decide

theorem capital_same : SameSale capitalPostgres (capitalCall cornerCustomer 8).row (capitalCall cornerCapitals 8).row where
  source := rfl
  customer := ⟨cornerCustomer, ⟨by decide, by decide⟩, ⟨by decide, by decide⟩⟩
  storeId := rfl
  channelId := rfl
  aware := by decide
  occurredAt := rfl
  productId := rfl
  quantity := rfl
  unitPrice := ⟨rfl, .inl rfl⟩

end RetailSegmentation.Sales
