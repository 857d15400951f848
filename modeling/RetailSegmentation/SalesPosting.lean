import RetailSegmentation.SalesIngestion

/-! What one ingested row makes of the committed tables. `Ledger.post` says it stage by stage, with no
transaction in sight; `run_ingestRow` proves that the statements of `ingestRow`, run on a connection of
their own, commit exactly that or leave everything as it was. -/

namespace RetailSegmentation.Sales

open Program

section Posting

variable (pg : Postgres) (cat : Catalog) (clock now : Instant)

/-! ### Stages -/

def readReferencesEffect (row : SalesRow) (ledger : Ledger) : Except Exc Ledger :=
  match saleReferences pg cat row.customerId row.productId with
  | .error e => .error (referencesRefusal e)
  | .ok references => match checkReferences row references with
    | .error reason => .error (.rowRejected reason)
    | .ok () => .ok ledger

def headerEffect (row : SalesRow) (source : String) (ledger : Ledger) : Except Exc Ledger :=
  if hasNul source then .error (.database (.dataError .other))
  else match ledger.header source with
  | none => match headerRow pg clock .web (newHeader row source) with
    | .error e => .error (headerInsertRefusal source e)
    | .ok header => match headerReference cat header with
      | some e => .error (headerInsertRefusal source e)
      | none => .ok (ledger.write (.putHeader source header))
  | some header =>
    if pg.givesTimestamp header.occurredAt then match checkHeader row source header with
      | .error reason => .error (.rowRejected reason)
      | .ok () => .ok ledger
    else .error (.database (.dataError .other))

def lineEffect (row : SalesRow) (source : String) (price : ℤ) (ledger : Ledger) : Except Exc Ledger :=
  match (effect pg cat clock (.insertTransactionLine .web (newLine row source price)) ledger).1 with
  | .error e => .error (lineInsertRefusal source row.productId e)
  | .ok () => .ok (ledger.write (.addLine (newLine row source price)))

def stockEffect (row : SalesRow) (ledger : Ledger) : Except Exc Ledger :=
  match ledger.stock (row.storeId, row.productId) with
  | none => .error (.rowRejected (.noInventory row.storeId row.productId))
  | some onHand =>
    if row.quantity ≤ onHand then
      .ok (ledger.write (.putStock (row.storeId, row.productId) (onHand - row.quantity)))
    else .error (.rowRejected (.insufficientStock row.storeId row.productId onHand))

def totalEffect (source : String) (ledger : Ledger) : Except Exc Ledger :=
  match (effect pg cat clock (.recomputeTotal source) ledger) with
  | (.error e, _) => .error (.database e)
  | (.ok (), writes) => .ok (ledger.writes writes)

/-- A row whose own values have passed. -/
def Ledger.postChecked (row : SalesRow) (source : String) (price : ℤ) (ledger : Ledger) :
    Except Exc Ledger := do
  let ledger ← readReferencesEffect pg cat row ledger
  let ledger ← headerEffect pg cat clock row source ledger
  let ledger ← lineEffect pg cat clock row source price ledger
  let ledger ← stockEffect row ledger
  totalEffect pg cat clock source ledger

def Ledger.post (row : SalesRow) (ledger : Ledger) : Except Exc Ledger :=
  match checkRow now row with
  | .error reason => .error (.rowRejected reason)
  | .ok (source, price) => ledger.postChecked pg cat clock row source price

variable {pg cat} in
theorem readReferencesEffect_ok {row : SalesRow} {ledger ledger' : Ledger}
    (hread : readReferencesEffect pg cat row ledger = .ok ledger') : ledger' = ledger := by
  unfold readReferencesEffect at hread
  split at hread
  · cases hread
  · split at hread
    · cases hread
    · exact (Except.ok.inj hread).symm

/-! ### Statements meet their stage -/

/-- The run of a stage from `session`: nothing is committed, the transaction reads what the stage says,
and no sale but `source` is touched. -/
def Agrees (source : String) (session : Session) (result : Except Exc Unit × Session) :
    Except Exc Ledger → Prop
  | .ok ledger => result.1 = .ok () ∧ result.2.committed = session.committed ∧
      result.2.current = ledger ∧ ∀ sale ∈ result.2.touched, sale ∈ session.touched ∨ sale = source
  | .error e => result.1 = .error e ∧ result.2.committed = session.committed

def Simulates (source : String) (p : SalesProg Unit) (stage : Ledger → Except Exc Ledger) : Prop :=
  ∀ session : Session, Agrees source session (p.run (Session.handle pg cat clock) session)
    (stage session.current)

variable {pg cat clock now} {source : String}

theorem Simulates.bind {p q : SalesProg Unit} {f g : Ledger → Except Exc Ledger}
    (hp : Simulates pg cat clock source p f) (hq : Simulates pg cat clock source q g) :
    Simulates pg cat clock source (p >>= fun _ => q) fun ledger => f ledger >>= g := by
  intro session
  have hfirst := hp session
  rw [Prog.run_bind]
  generalize p.run (Session.handle pg cat clock) session = result at hfirst
  obtain ⟨answer, middle⟩ := result
  change Agrees source session _ (f session.current >>= g)
  cases hf : f session.current with
  | error e =>
      rw [hf] at hfirst
      obtain ⟨rfl, hcommitted⟩ := hfirst
      exact ⟨rfl, hcommitted⟩
  | ok ledger =>
      rw [hf] at hfirst
      obtain ⟨rfl, hcommitted, rfl, htouched⟩ := hfirst
      have hsecond := hq middle
      change Agrees source session (q.run (Session.handle pg cat clock) middle) (g middle.current)
      cases hg : g middle.current with
      | error e =>
          rw [hg] at hsecond
          exact ⟨hsecond.1, hsecond.2.trans hcommitted⟩
      | ok ledger' =>
          rw [hg] at hsecond
          obtain ⟨hanswer, hcommitted', hcurrent, htouched'⟩ := hsecond
          exact ⟨hanswer, hcommitted'.trans hcommitted, hcurrent, fun sale hsale =>
            (htouched' sale hsale).elim (htouched sale) Or.inr⟩

theorem run_execute (s : Statement) (session : Session) :
    (execute s).run (Session.handle pg cat clock) session =
      ((effect pg cat clock s session.current).1.mapError Exc.database,
        ⟨session.committed, session.current.writes (effect pg cat clock s session.current).2,
          session.touched ++ (effect pg cat clock s session.current).2.filterMap Write.sale⟩) := by
  unfold execute call
  rw [Prog.run_call]
  simp only [Session.handle]
  cases (effect pg cat clock s session.current).1 with
  | error e => rfl
  | ok a => rfl

theorem run_translating {p : SalesProg α} (translate : DbError → Exc) {session session' : Session}
    {answer : Except DbError α}
    (hrun : p.run (Session.handle pg cat clock) session = (answer.mapError Exc.database, session')) :
    (translating p translate).run (Session.handle pg cat clock) session =
      (answer.mapError translate, session') := by
  unfold translating
  rw [Prog.run_tryCatch, hrun]
  cases answer with
  | error e => rfl
  | ok a => rfl

variable (source) in
theorem simulates_readReferences (row : SalesRow) :
    Simulates pg cat clock source (readReferences row) (readReferencesEffect pg cat row) := by
  intro session
  unfold readReferences readReferencesEffect
  rw [Prog.run_bind, run_translating referencesRefusal (run_execute _ session)]
  simp only [effect]
  cases saleReferences pg cat row.customerId row.productId with
  | error e => exact ⟨rfl, rfl⟩
  | ok references =>
      simp only [Except.mapError, check]
      cases checkReferences row references with
      | error reason => exact ⟨rfl, rfl⟩
      | ok _ => exact ⟨rfl, rfl, rfl, fun sale hsale => .inl (by simpa using hsale)⟩

variable (pg cat clock source) in
theorem simulates_findOrInsertHeader (row : SalesRow) :
    Simulates pg cat clock source (findOrInsertHeader row source)
      (headerEffect pg cat clock row source) := by
  intro session
  unfold findOrInsertHeader headerEffect
  rw [Prog.run_bind, run_execute]
  by_cases hnul : hasNul source
  · simp [effect, hnul, Except.mapError, Agrees]
  cases hheader : session.current.header source with
  | some header =>
      simp only [effect, hnul, hheader, Bool.false_eq_true, if_false]
      by_cases hgives : pg.givesTimestamp header.occurredAt
      · simp only [hgives, if_true, Except.mapError, check]
        cases checkHeader row source header with
        | error reason => exact ⟨rfl, rfl⟩
        | ok _ => exact ⟨rfl, rfl, rfl, fun sale hsale => .inl (by simpa [Write.sale] using hsale)⟩
      · simp [hgives, Except.mapError, Agrees]
  | none =>
      simp only [effect, hnul, hheader, Bool.false_eq_true, if_false, Except.mapError]
      rw [run_translating (headerInsertRefusal source) (run_execute _ _)]
      simp only [effect, Ledger.writes, List.foldl_nil]
      cases headerRow pg clock .web (newHeader row source) with
      | error e => exact ⟨rfl, rfl⟩
      | ok header =>
          simp only [newHeader, hheader, Option.isSome_none, Bool.false_eq_true, if_false]
          cases headerReference cat header with
          | some e => exact ⟨rfl, rfl⟩
          | none => exact ⟨rfl, rfl, rfl, by simp [Write.sale]⟩

theorem simulates_insertLine (row : SalesRow) (price : ℤ) :
    Simulates pg cat clock source (insertLine row source price)
      (lineEffect pg cat clock row source price) := by
  intro session
  unfold insertLine lineEffect
  rw [run_translating (lineInsertRefusal source row.productId) (run_execute _ session)]
  simp only [effect]
  cases lineRefusal .web (newLine row source price) with
  | some e => exact ⟨rfl, rfl⟩
  | none =>
      dsimp only
      split_ifs
      · exact ⟨rfl, rfl⟩
      · exact ⟨rfl, rfl⟩
      · exact ⟨rfl, rfl⟩
      · exact ⟨rfl, rfl, rfl, by simp +contextual [Write.sale, newLine, eq_comm]⟩

theorem simulates_takeStock (row : SalesRow) :
    Simulates pg cat clock source (takeStock row) (stockEffect row) := by
  intro session
  unfold takeStock decrementStock stockEffect
  rw [Prog.run_tryCatch, Prog.run_bind, Prog.run_bind, run_execute]
  cases hstock : session.current.stock (row.storeId, row.productId) with
  | none =>
      simp only [effect, hstock, Except.mapError]
      rw [Prog.run_bind, run_execute]
      simp only [effect, Ledger.writes, List.foldl_nil, hstock]
      exact ⟨rfl, rfl⟩
  | some onHand =>
      by_cases henough : row.quantity ≤ onHand
      · simp only [effect, hstock, henough, if_true, Except.mapError]
        exact ⟨rfl, rfl, rfl, fun sale hsale => .inl (by simpa [Write.sale] using hsale)⟩
      · simp only [effect, hstock, henough, if_false, Except.mapError]
        rw [Prog.run_bind, run_execute]
        simp only [effect, Ledger.writes, List.foldl_nil, hstock]
        exact ⟨rfl, rfl⟩

theorem simulates_recomputeTotal :
    Simulates pg cat clock source (execute (.recomputeTotal source))
      (totalEffect pg cat clock source) := by
  intro session
  unfold totalEffect
  rw [run_execute]
  simp only [effect]
  cases session.current.header source with
  | none => exact ⟨rfl, rfl, rfl, fun sale hsale => .inl (by simpa using hsale)⟩
  | some header =>
      dsimp only
      split_ifs
      · exact ⟨rfl, rfl⟩
      · exact ⟨rfl, rfl⟩
      · exact ⟨rfl, rfl, rfl, by simp [Write.sale]⟩

theorem totalEffect_matches {ledger ledger' : Ledger}
    (heffect : totalEffect pg cat clock source ledger = .ok ledger') :
    totalMatchesLines ledger' source = true := by
  unfold totalEffect at heffect
  simp only [effect] at heffect
  cases hheader : ledger.header source with
  | none =>
      rw [hheader] at heffect
      obtain rfl := Except.ok.inj heffect
      simp [totalMatchesLines, Ledger.writes, hheader]
  | some header =>
      rw [hheader] at heffect
      dsimp only at heffect
      split_ifs at heffect
      obtain rfl := Except.ok.inj heffect
      simp [totalMatchesLines, Ledger.writes, Ledger.write]

theorem postChecked_ok {row : SalesRow} {price : ℤ} {ledger ledger' : Ledger}
    (hpost : ledger.postChecked pg cat clock row source price = .ok ledger') :
    ∃ headed lined stocked, readReferencesEffect pg cat row ledger = .ok ledger ∧
      headerEffect pg cat clock row source ledger = .ok headed ∧
      lineEffect pg cat clock row source price headed = .ok lined ∧
      stockEffect row lined = .ok stocked ∧ totalEffect pg cat clock source stocked = .ok ledger' := by
  obtain ⟨_, hread, hpost⟩ := except_bind_ok hpost
  obtain ⟨headed, hheader, hpost⟩ := except_bind_ok hpost
  obtain ⟨lined, hline, hpost⟩ := except_bind_ok hpost
  obtain ⟨stocked, hstock, htotal⟩ := except_bind_ok hpost
  obtain rfl := readReferencesEffect_ok hread
  exact ⟨headed, lined, stocked, hread, hheader, hline, hstock, htotal⟩

theorem postChecked_matches {row : SalesRow} {price : ℤ} {ledger ledger' : Ledger}
    (hpost : ledger.postChecked pg cat clock row source price = .ok ledger') :
    totalMatchesLines ledger' source = true := by
  obtain ⟨_, _, _, -, -, -, -, htotal⟩ := postChecked_ok hpost
  exact totalEffect_matches htotal

/-- **The transaction of a row.** Alone on its connection, `ingestRow` commits what `post` says, and
whatever refuses the row leaves the committed tables untouched. -/
theorem run_ingestRow (row : SalesRow) (ledger : Ledger) :
    (ingestRow now row).run (Session.handle pg cat clock) (Session.idle ledger) =
      match ledger.post pg cat clock now row with
      | .ok ledger' => (.ok (), Session.idle ledger')
      | .error e => (.error e, Session.idle ledger) := by
  unfold ingestRow atomic ingestRowBody Ledger.post
  cases checkRow now row with
  | error reason => rfl
  | ok values =>
      obtain ⟨source, price⟩ := values
      have hbody := (simulates_readReferences source row).bind
        ((simulates_findOrInsertHeader pg cat clock source row).bind
          ((simulates_insertLine row price).bind
            ((simulates_takeStock row).bind simulates_recomputeTotal)))
      have hstage : Agrees source (Session.idle ledger) _
        (ledger.postChecked pg cat clock row source price) := hbody (Session.idle ledger)
      rw [Prog.run_tryCatch, Prog.run_bind]
      simp only [check, Prog.ret_bind]
      revert hstage
      generalize Prog.run _ _ (Session.idle ledger) = result
      obtain ⟨answer, session⟩ := result
      cases hpost : Ledger.postChecked pg cat clock row source price ledger with
      | error e =>
          rintro ⟨rfl, hcommitted⟩
          exact congrArg (Prod.mk _) (congrArg Session.idle hcommitted)
      | ok ledger' =>
          rintro ⟨rfl, hcommitted, rfl, htouched⟩
          have hmatches : session.touched.all (totalMatchesLines session.current) = true := by
            rw [List.all_eq_true]
            intro sale hsale
            obtain rfl : sale = source := (htouched sale hsale).resolve_left (by simp [Session.idle])
            exact postChecked_matches hpost
          simp only [commit, call, Prog.run_call, Session.handle, hmatches, if_true]
          rfl

end Posting

end RetailSegmentation.Sales
