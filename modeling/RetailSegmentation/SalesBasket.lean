import RetailSegmentation.SalesLedger
import RetailSegmentation.SalesLockOrder
import RetailSegmentation.SalesStockRuns

/-! The line that a phone sale is refused for. Lines are consumed in the order of their products, each with
its place in the request, so that a refusal names the first line, by product, that the store cannot serve. -/

namespace RetailSegmentation.Sales

open Program

/-! ### What is raised -/

/-- A refusal is caused by the locking read of an inventory row, and nothing but a rollback follows it. -/
def refusalCauses : Causes Command Reply Exc Found where
  possible c r := ∀ constraint, r = .error (.checkViolation constraint) → stockRow c = none
  shows := stockCauses.shows
  quiet := stockCauses.quiet
  needs e := ∃ index e', e = .stockRefusal index e'

/-- `e` refuses a line of the sale for what was found in its inventory row. -/
def RefusesLine (sale : ValidSale) (found : Found) (e : Exc) : Prop :=
  found.storeId = sale.body.storeId ∧ ∃ index line, sale.lines[index]? = some line ∧
    line.productId = found.productId ∧ e = .stockRefusal index (.checkViolation (refusedConstraint found.onHand))

section Raised

variable {α : Type} {fits : Found → Exc → Prop} {x : Option Found}

theorem refusal_possible {T : Type} [DecidableEq T] {pg : Postgres} {cat : Catalog} {t : T} {c : Command}
    {r : Reply c}
    {db db' : SalesDb T} (hstep : salesStep pg cat t c db r db') : refusalCauses.possible c r := by
  have habort : ∀ e, IsAbort e → ∀ constraint, e ≠ .checkViolation constraint := by
    rintro e (rfl | rfl | rfl) <;> exact nofun
  rintro constraint rfl
  cases c with
  | execute s =>
      rcases SalesDb.step_execute hstep with ⟨clock, hr, -⟩ | ⟨e', he', hr, -⟩
      · rcases effect_error hr.symm with ⟨kind, hkind⟩ | hconstraint
        · cases hkind
        · cases s with
          | updateInventory storeId productId quantity => cases hconstraint
          | lockInventory storeId productId => cases hconstraint
          | _ => rfl
      · exact absurd (Except.error.inj hr).symm (habort e' he' constraint)
  | commit => rfl
  | rollback => rfl

theorem unforced {e : Exc} (he : ∀ index e', e ≠ .stockRefusal index e') : refusalCauses.Excuses fits x e := by
  rintro ⟨index, e', rfl⟩
  exact absurd rfl (he index e')

theorem raises_call (c : Command) : (call c).Justified refusalCauses fits none := by
  intro r _
  refine ⟨none, .inl rfl, ?_⟩
  cases r with
  | ok v => trivial
  | error e => exact unforced fun _ _ => nofun

theorem raises_insertSaleLines (source : String) (lines : List SaleLine) :
    (insertSaleLines source lines).Justified refusalCauses fits none := by
  induction lines with
  | nil => trivial
  | cons line lines ih => exact (raises_call (.execute _)).bind fun _ => ih

theorem raises_validateReferences (sale : ValidSale) :
    (validateReferences sale).Justified refusalCauses fits none := by
  refine (raises_call (.execute _)).bind fun registeredOn => ?_
  cases registeredOn with
  | none => exact unforced fun _ _ => nofun
  | some day =>
      dsimp only
      split
      · exact unforced fun _ _ => nofun
      · refine (raises_call (.execute _)).bind fun states => ?_
        unfold refuse
        split
        · trivial
        · exact unforced fun _ _ => nofun

theorem raises_consumeLines {sale : ValidSale} (lines : List (ℕ × SaleLine))
    (hlines : ∀ e ∈ lines, sale.lines[e.1]? = some e.2) :
    (consumeLines sale.body.storeId lines).Justified refusalCauses (RefusesLine sale) none := by
  induction lines with
  | nil => trivial
  | cons entry lines ih =>
      obtain ⟨index, line⟩ := entry
      refine Prog.Justified.bind ?_ fun _ => ih fun e he => hlines e (List.mem_cons_of_mem _ he)
      have hline : sale.lines[index]? = some line := hlines _ List.mem_cons_self
      have hother : ∀ {e : DbError} {c : Command} {r : Reply c}, refusalCauses.possible c r → r = .error e →
          stockRow c ≠ none → ∀ constraint, e ≠ .checkViolation constraint := by
        rintro e c r hpossible rfl hrow constraint rfl
        exact hrow (hpossible constraint rfl)
      unfold consume
      split
      · exact unforced fun _ _ => nofun
      · intro updated hpossible
        refine ⟨none, .inl rfl, ?_⟩
        cases updated with
        | error e =>
            have hnot := hother hpossible rfl nofun
            cases e with
            | checkViolation constraint => exact absurd rfl (hnot constraint)
            | _ => exact unforced fun _ _ => nofun
        | ok updated =>
            cases updated with
            | some remaining => trivial
            | none =>
                intro locked hpossible
                cases locked with
                | error e =>
                    have hnot := hother hpossible rfl nofun
                    refine ⟨none, .inl rfl, ?_⟩
                    cases e with
                    | checkViolation constraint => exact absurd rfl (hnot constraint)
                    | _ => exact unforced fun _ _ => nofun
                | ok onHand =>
                    refine ⟨some ⟨sale.body.storeId, line.productId, onHand⟩, .inr (.inr ⟨_, rfl, rfl⟩), ?_⟩
                    cases onHand with
                    | none => exact fun _ => ⟨_, rfl, rfl, index, line, hline, rfl, rfl⟩
                    | some onHand => exact fun _ => ⟨_, rfl, rfl, index, line, hline, rfl, rfl⟩

theorem mem_indexedByProduct {lines : List SaleLine} {e : ℕ × SaleLine} (he : e ∈ indexedByProduct lines) :
    lines[e.1]? = some e.2 := by
  have hperm : (indexedByProduct lines).Perm (lines.zipIdx.map Prod.swap) := List.perm_insertionSort _ _
  obtain ⟨⟨line, index⟩, hline, rfl⟩ := List.mem_map.mp (hperm.mem_iff.mp he)
  exact List.mem_zipIdx_iff_getElem?.mp hline

theorem raises_saleTransaction (sale : ValidSale) :
    (saleTransaction sale).Justified refusalCauses (RefusesLine sale) none := by
  have hbody : ((validateReferences sale >>= fun _ => insertSale sale) >>= fun _ => commit).Justified refusalCauses
      (RefusesLine sale) none := by
    refine Prog.Justified.bind ?_ fun _ => raises_call .commit
    refine (raises_validateReferences sale).bind fun _ => (raises_call (.execute _)).bind fun _ => ?_
    refine (raises_insertSaleLines _ _).bind fun _ => ?_
    exact (raises_consumeLines _ fun e he => mem_indexedByProduct he).bind fun _ => raises_call (.execute _)
  refine hbody.tryCatch fun x e he => ?_
  intro r _
  cases r with
  | ok v => exact ⟨x, .inr (.inl ⟨rfl, rfl⟩), he⟩
  | error e' => exact ⟨none, .inl rfl, unforced fun _ _ => nofun⟩

end Raised

/-! ### What has been taken before -/

/-- The sale as a request, for its account of stock. -/
def ValidSale.job (sale : ValidSale) : Job :=
  .sale ⟨none, sale.sub, { sale.body with lines := sale.lines.map fun line => ⟨line.productId, some line.quantity, none⟩ },
    0⟩

theorem asks_job {sale : ValidSale} {line : SaleLine} (hline : line ∈ sale.lines) :
    sale.job.Asks line.productId line.quantity :=
  ⟨_, List.mem_map_of_mem hline, rfl, rfl⟩

section Contract

variable {T : Type} [DecidableEq T]

/-- A locking read of the inventory that refuses the line at `index`: the line asks for more than there is, or of
nothing, and the units of each line of a lesser product are taken, from a row the transaction holds. -/
structure Underserved (sale : ValidSale) (t : T) (db : SalesDb T) (index : ℕ) (line : SaleLine) : Prop where
  here : sale.lines[index]? = some line
  little : ∀ onHand, (db.ledger t).stock (sale.body.storeId, line.productId) = some onHand → onHand < line.quantity
  served : ∀ other ∈ sale.lines, other.productId < line.productId → ∃ onHand,
    db.committed.stock (sale.body.storeId, other.productId) = some onHand ∧ other.quantity ≤ onHand ∧
    (db.ledger t).stock (sale.body.storeId, other.productId) = some (onHand - other.quantity) ∧
    db.holder (.stock (sale.body.storeId, other.productId)) = some t

/-- The account of stock, and what a locking read finds. -/
def basketContract (sales : T → ValidSale) (start : Ledger) : Contract T Command Reply (SalesDb T) Held where
  inv := Conserved start
  at_ t held db := Holding (sales t).body.storeId held t db
  guar t c db r _ := match c, r with
    | .execute (.lockInventory storeId productId), .ok found =>
      ((sales t).lines.map SaleLine.productId).Nodup ∧
        ∃ index line, storeId = (sales t).body.storeId ∧ line.productId = productId ∧
          (db.ledger t).stock (storeId, productId) = found ∧ Underserved (sales t) t db index line
    | _, _ => True

variable {pg : Postgres} {cat : Catalog} {sales : T → ValidSale} {start : Ledger} {t : T} {held : Held}

/-- Every command but the locking read keeps the account as it does for any request. -/
theorem basket_of_stock {c : Command} {post : Reply c → Held → Prop}
    (hspec : (stockContract (fun t => (sales t).job) start).CmdSpec (salesMachine pg cat) t c held post)
    (hlock : ∀ storeId productId, c ≠ .execute (.lockInventory storeId productId)) :
    (basketContract sales start).CmdSpec (salesMachine pg cat) t c held post := by
  intro db r db' hinv hat hstep
  obtain ⟨-, hkeeps, held', hat', hpost⟩ := hspec db r db' hinv hat hstep
  refine ⟨?_, ⟨hkeeps.inv, hkeeps.others⟩, held', hat', hpost⟩
  cases c with
  | execute s =>
      cases s with
      | lockInventory storeId productId => exact absurd rfl (hlock storeId productId)
      | _ => trivial
  | commit => trivial
  | rollback => trivial

variable {α : Type}

abbrev BasketSafe (pg : Postgres) (cat : Catalog) (sales : T → ValidSale) (start : Ledger) (t : T)
    (p : SalesProg α) (held : Held) (Q : Except Exc α → Held → Prop) : Prop :=
  (basketContract sales start).Safe (salesMachine pg cat) t p held Q

theorem basket_execute {s : Statement} {post : Result s → Held → Prop}
    (hspec : (basketContract sales start).CmdSpec (salesMachine pg cat) t (.execute s) held fun r held' =>
      ∀ v, r = .ok v → post v held') :
    BasketSafe pg cat sales start t (execute s) held (InTransaction post) := by
  refine hspec.mono ?_
  rintro (e | v) held' h
  · trivial
  · exact h v rfl

theorem basket_after {s : Statement} {post : Result s → Held}
    (hspec : (stockContract (fun t => (sales t).job) start).CmdSpec (salesMachine pg cat) t (.execute s) held
      (After held post)) (hlock : ∀ storeId productId, s ≠ .lockInventory storeId productId) :
    BasketSafe pg cat sales start t (execute s) held (InTransaction fun v held' => held' = post v) := by
  refine basket_execute ((basket_of_stock hspec fun storeId productId h => ?_).mono ?_)
  · exact hlock storeId productId (Command.execute.inj h)
  · rintro r held' h v rfl
    exact h

theorem spec_insertNewLine {line : Line} (hhead : held.head = some line.sourceTransactionId) :
    (basketContract sales start).CmdSpec (salesMachine pg cat) t (.execute (.insertTransactionLine .svcSales line)) held
      fun r held' => ∀ v, r = .ok v →
        held' = { held with lines := held.lines ++ [line] } ∧ ∀ other ∈ held.lines, other.productId ≠ line.productId := by
  have hspec : (basketContract sales start).CmdSpec (salesMachine pg cat) t
      (.execute (.insertTransactionLine .svcSales line)) held (After held fun _ => { held with lines := held.lines ++ [line] }) :=
    basket_of_stock (spec_insertTransactionLine line hhead) fun _ _ => nofun
  intro db r db' hinv hat hstep
  obtain ⟨hguar, hkeeps, held', hat', hpost⟩ := hspec db r db' hinv hat hstep
  refine ⟨hguar, hkeeps, held', hat', ?_⟩
  rintro v rfl
  refine ⟨hpost, fun other hother hproduct => ?_⟩
  have hheld : Holding (sales t).body.storeId held t db := hat
  have hstep' : salesStep pg cat t (.execute (.insertTransactionLine .svcSales line)) db (.ok v) db' := hstep
  -- the statement would have found the other line
  have hfound : ((linesOf line.sourceTransactionId (db.ledger t).lines).any fun l => l.productId = line.productId) = true := by
    refine List.any_eq_true.mpr ⟨other, List.mem_filter.mpr ⟨?_, ?_⟩, decide_eq_true hproduct⟩
    · rw [SalesDb.ledger_lines, hheld.lines]
      exact List.mem_append_right _ hother
    · have hsource := hheld.headed other hother
      rw [hhead] at hsource
      simpa using (Option.some.inj hsource).symm
  rcases SalesDb.step_execute hstep' with ⟨clock, hr, -⟩ | ⟨e, -, hr, -⟩
  · simp only [effect, hfound, if_true] at hr
    split at hr <;> cases hr
  · cases hr

/-! ### The lines consumed so far -/

/-- The lines consumed so far have their units taken, from rows that are there. -/
structure Consumed (sale : ValidSale) (start : Ledger) (done : List (ℕ × SaleLine)) (held : Held) : Prop where
  taken : held.taken = done.map fun e => (e.2.productId, e.2.quantity)
  there : ∀ e ∈ done, (start.stock (sale.body.storeId, e.2.productId)).isSome = true

/-- An update that takes units takes them from a row that was there from the start. -/
theorem spec_take {productId quantity : ℤ} (hpositive : 0 < quantity) :
    (basketContract sales start).CmdSpec (salesMachine pg cat) t
      (.execute (.updateInventory (sales t).body.storeId productId quantity)) held
      fun r held' => ∀ updated : Option ℤ, r = .ok updated →
        (updated.isSome = true → held' = { held with taken := held.taken ++ [(productId, quantity)] } ∧
          (start.stock ((sales t).body.storeId, productId)).isSome = true) ∧
        (updated = none → held' = { held with short := some (productId, quantity) }) := by
  have hspec : (basketContract sales start).CmdSpec (salesMachine pg cat) t
      (.execute (.updateInventory (sales t).body.storeId productId quantity)) held _ :=
    basket_of_stock (@spec_updateInventory _ _ pg cat (fun t => (sales t).job) start t held _ _ _ rfl hpositive)
      fun _ _ => nofun
  intro db r db' hinv hat hstep
  obtain ⟨hguar, hkeeps, held', hat', hpost⟩ := hspec db r db' hinv hat hstep
  refine ⟨hguar, hkeeps, held', hat', ?_⟩
  rintro updated rfl
  have hheld' : held' = if updated.isSome then { held with taken := held.taken ++ [(productId, quantity)] }
      else { held with short := some (productId, quantity) } := hpost
  refine ⟨fun hsome => ⟨by rw [hheld', if_pos hsome], ?_⟩, fun hnone => by rw [hheld', hnone]; rfl⟩
  have hstep' : salesStep pg cat t (.execute (.updateInventory (sales t).body.storeId productId quantity)) db
    (.ok updated) db' := hstep
  have hstock := (hinv : Conserved start db).added
  obtain ⟨added, -, -, hstock⟩ := hstock
  have hview := (hat : Holding (sales t).body.storeId held t db).stock ((sales t).body.storeId, productId)
  rw [hstock] at hview
  rcases SalesDb.step_execute hstep' with ⟨clock, hr, -⟩ | ⟨e, -, hr, -⟩
  · simp only [effect, hview] at hr
    cases hstart : start.stock ((sales t).body.storeId, productId) with
    | none =>
        rw [hstart] at hr
        obtain rfl := Except.ok.inj hr
        cases hsome
    | some onHand => rfl
  · cases hr

omit [DecidableEq T] in
theorem takenAt_of_mem {storeId : ℤ} {taken : List (ℤ × ℤ)} (hnodup : (taken.map Prod.fst).Nodup) {e : ℤ × ℤ}
    (he : e ∈ taken) : takenAt storeId taken (storeId, e.1) = e.2 := by
  have hone : taken.filter (fun d => d.1 = e.1) = [e] := by
    induction taken with
    | nil => cases he
    | cons d taken ih =>
        obtain ⟨hnot, hnodup⟩ := List.nodup_cons.mp hnodup
        rw [List.filter_cons]
        rcases List.mem_cons.mp he with rfl | he
        · have hnone : taken.filter (fun d => d.1 = e.1) = [] := List.filter_eq_nil_iff.mpr fun d hd => by
            simpa using fun heq : d.1 = e.1 => hnot (heq ▸ List.mem_map_of_mem hd)
          rw [if_pos (by simp), hnone]
        · have hne : d.1 ≠ e.1 := fun heq => hnot (heq ▸ List.mem_map_of_mem he)
          rw [if_neg (by simpa using hne), ih hnodup he]
  unfold takenAt
  rw [if_pos rfl, hone]
  simp

/-- The locking read, after an update that found too little for the line: the lines before it are served. -/
theorem spec_refuse {index : ℕ} {line : SaleLine} {done rest : List (ℕ × SaleLine)}
    (hsplit : indexedByProduct (sales t).lines = done ++ (index, line) :: rest)
    (hnodup : ((sales t).lines.map SaleLine.productId).Nodup) (hserved : Consumed (sales t) start done held)
    (hshort : held.short = some (line.productId, line.quantity)) :
    (basketContract sales start).CmdSpec (salesMachine pg cat) t
      (.execute (.lockInventory (sales t).body.storeId line.productId)) held fun _ _ => True := by
  have hperm : (indexedByProduct (sales t).lines).Perm ((sales t).lines.zipIdx.map Prod.swap) :=
    List.perm_insertionSort _ _
  have hindexed : ((indexedByProduct (sales t).lines).map fun e => e.2.productId).Nodup := by
    refine ((hperm.map _).nodup_iff).mpr ?_
    rw [List.map_map]
    rwa [← List.zipIdx_map_fst 0 (sales t).lines, List.map_map] at hnodup
  have hline : (index, line) ∈ indexedByProduct (sales t).lines := by
    rw [hsplit]
    exact List.mem_append_right _ List.mem_cons_self
  have hasks := asks_job (List.mem_of_getElem? (mem_indexedByProduct hline))
  have hspec : (stockContract (fun t => (sales t).job) start).CmdSpec (salesMachine pg cat) t
      (.execute (.lockInventory (sales t).body.storeId line.productId)) held (After held fun _ => held) :=
    spec_lockInventory rfl hshort hasks
  intro db r db' hinv hat hstep
  obtain ⟨hguar, hkeeps, held', hat', -⟩ := hspec db r db' hinv hat hstep
  have hheld : Holding (sales t).body.storeId held t db := hat
  refine ⟨?_, ⟨hkeeps.inv, hkeeps.others⟩, held', hat', trivial⟩
  cases r with
  | error e => trivial
  | ok found =>
      obtain ⟨-, quantity, -, hfound, -⟩ := hguar
      refine ⟨hnodup, index, line, rfl, rfl, hfound, mem_indexedByProduct hline, hheld.short _ _ hshort, ?_⟩
      intro other hother hlt
      -- a line of a lesser product comes before it, and has been consumed
      obtain ⟨i, hi⟩ := List.mem_iff_getElem?.mp hother
      have hmem : (i, other) ∈ done := by
        have hentry : (i, other) ∈ indexedByProduct (sales t).lines :=
          hperm.mem_iff.mpr (List.mem_map.mpr ⟨(other, i), List.mem_zipIdx_iff_getElem?.mpr hi, rfl⟩)
        rw [hsplit, List.mem_append, List.mem_cons] at hentry
        have hsorted := sorted_indexedByProduct (sales t).lines
        rw [hsplit] at hsorted
        rcases hentry with hdone | heq | hrest
        · exact hdone
        · obtain ⟨-, rfl⟩ := Prod.mk.inj heq
          exact absurd hlt (lt_irrefl _)
        · have hle := (List.pairwise_cons.mp (List.pairwise_append.mp hsorted).2.1).1 _ hrest
          exact absurd hlt (not_lt.mpr hle)
      have htaken : (other.productId, other.quantity) ∈ held.taken := by
        rw [hserved.taken]
        exact List.mem_map.mpr ⟨_, hmem, rfl⟩
      have hunits : takenAt (sales t).body.storeId held.taken ((sales t).body.storeId,
        other.productId) = other.quantity := by
        refine takenAt_of_mem ?_ htaken
        rw [hserved.taken, List.map_map]
        rw [hsplit, List.map_append] at hindexed
        exact (List.nodup_append.mp hindexed).1
      have hpositive : 0 < other.quantity := hheld.positive _ htaken
      obtain ⟨added, -, -, hstock⟩ := (hinv : Conserved start db).added
      obtain ⟨first, hfirst⟩ := Option.isSome_iff_exists.mp (hserved.there _ hmem)
      have hcommitted := hstock ((sales t).body.storeId, other.productId)
      rw [hfirst, Option.map_some] at hcommitted
      have hview := hheld.stock ((sales t).body.storeId, other.productId)
      rw [hcommitted, Option.map_some, hunits] at hview
      refine ⟨_, hcommitted, ?_, hview, hheld.owned _ (by rw [hunits]; exact hpositive.ne')⟩
      have hleft := hheld.nonneg _ _ hview
      omega

theorem basket_consume {index : ℕ} {line : SaleLine} {done rest : List (ℕ × SaleLine)}
    (hsplit : indexedByProduct (sales t).lines = done ++ (index, line) :: rest)
    (hnodup : ((sales t).lines.map SaleLine.productId).Nodup) (hserved : Consumed (sales t) start done held) :
    BasketSafe pg cat sales start t (consume (sales t).body.storeId line.productId line.quantity) held
      (InTransaction fun _ held' => Consumed (sales t) start (done ++ [(index, line)]) held' ∧
        held'.lines = held.lines) := by
  unfold consume
  split_ifs with hquantity
  · trivial
  refine Contract.safe_seq (basket_execute (spec_take (Int.not_le.mp hquantity))) ?_
  rintro (_ | remaining) held' ⟨htook, hshort⟩
  · obtain rfl := hshort rfl
    have hserved' : Consumed (sales t) start done { held with short := some (line.productId, line.quantity) } :=
      ⟨hserved.taken, hserved.there⟩
    refine Contract.safe_seq (P := fun _ _ => True)
      (basket_execute ((spec_refuse hsplit hnodup hserved' rfl).mono fun _ _ _ _ _ => trivial)) ?_
    rintro (_ | onHand) held' -
    · trivial
    · trivial
  · obtain ⟨rfl, hthere⟩ := htook rfl
    refine ⟨⟨?_, fun e he => ?_⟩, rfl⟩
    · rw [List.map_append, ← hserved.taken]
      rfl
    · rcases List.mem_append.mp he with he | he
      · exact hserved.there e he
      · rw [List.mem_singleton.mp he]
        exact hthere

theorem basket_consumeLines (lines : List (ℕ × SaleLine)) {done : List (ℕ × SaleLine)}
    (hsplit : indexedByProduct (sales t).lines = done ++ lines)
    (hnodup : ((sales t).lines.map SaleLine.productId).Nodup) (hserved : Consumed (sales t) start done held) :
    BasketSafe pg cat sales start t (consumeLines (sales t).body.storeId lines) held
      (InTransaction fun _ held' => Consumed (sales t) start (done ++ lines) held' ∧
        held'.lines = held.lines) := by
  induction lines generalizing held done with
  | nil =>
      refine ⟨?_, rfl⟩
      rwa [List.append_nil]
  | cons e lines ih =>
      obtain ⟨index, line⟩ := e
      refine Contract.safe_seq (Contract.safe_handle (F := fun _ _ => True)
        (basket_consume hsplit hnodup hserved) fun e held' _ => ?_) ?_
      · split <;> trivial
      · rintro _ held' ⟨hserved', hsame⟩
        rw [← hsame]
        have hsplit' : indexedByProduct (sales t).lines = (done ++ [(index, line)]) ++ lines := by
          rw [hsplit, List.append_assoc]
          rfl
        have htail := ih hsplit' hserved'
        rwa [List.append_assoc] at htail

theorem basket_insertSaleLines (source : String) (lines : List SaleLine) (hhead : held.head = some source)
    (hnodup : (held.lines.map Line.productId).Nodup) :
    BasketSafe pg cat sales start t (insertSaleLines source lines) held (InTransaction fun _ held' =>
      held' = { held with lines := held.lines ++ lines.map (SaleLine.toLine source) } ∧
        (held'.lines.map Line.productId).Nodup) := by
  induction lines generalizing held with
  | nil =>
      refine ⟨?_, hnodup⟩
      simp
  | cons line lines ih =>
      refine Contract.safe_seq (basket_execute (spec_insertNewLine hhead)) ?_
      rintro _ held' ⟨rfl, hnew⟩
      have hnodup' : ((held.lines ++ [line.toLine source]).map Line.productId).Nodup := by
        rw [List.map_append]
        refine List.nodup_append.mpr ⟨hnodup, List.nodup_singleton _, fun a ha b hb => ?_⟩
        obtain ⟨other, hother, rfl⟩ := List.mem_map.mp ha
        rw [List.mem_singleton.mp hb]
        exact hnew other hother
      have htail := @ih { held with lines := held.lines ++ [line.toLine source] } hhead hnodup'
      rwa [List.append_assoc] at htail

theorem basket_of_safe {p : SalesProg α} {Q : Except Exc α → Held → Prop}
    (hp : p.Issues fun c => stockRow c = none)
    (hsafe : StockSafe pg cat (fun t => (sales t).job) start t p held Q) :
      BasketSafe pg cat sales start t p held Q := by
  induction p generalizing held with
  | ret a => exact hsafe
  | raise e => exact hsafe
  | call c k ih =>
      refine Contract.CmdSpec.mono (basket_of_stock hsafe ?_) fun r held' hr => ih r (hp.2 r) hr
      rintro storeId productId rfl
      cases hp.1

theorem basket_insertSale : BasketSafe pg cat sales start t (insertSale (sales t)) .reset
    (InTransaction fun _ held => held.Balanced) := by
  refine Contract.safe_seq (basket_after (spec_insertTransaction rfl rfl) fun _ _ => nofun) ?_
  rintro _ _ rfl
  refine Contract.safe_seq (basket_insertSaleLines (sales t).source (sales t).lines rfl List.nodup_nil) ?_
  rintro _ held' ⟨rfl, hnodup⟩
  have hproducts : ((sales t).lines.map SaleLine.productId).Nodup := by
    change (((sales t).lines.map (SaleLine.toLine (sales t).source)).map Line.productId).Nodup at hnodup
    rwa [List.map_map] at hnodup
  have hserved : Consumed (sales t) start []
      { Held.reset with head := some (sales t).source, lines := (sales t).lines.map (SaleLine.toLine (sales t).source) } :=
    ⟨rfl, nofun⟩
  refine Contract.safe_seq (basket_consumeLines (indexedByProduct (sales t).lines) rfl hproducts hserved) ?_
  rintro _ held' ⟨hserved, hlines⟩
  refine (basket_after (spec_read ?_ ?_) ?_).mono ?_
  · exact fun _ _ => nofun
  · intro clock ledger v hanswer
    simp only [effect] at hanswer ⊢
    split at hanswer
    · cases hanswer
    split_ifs at hanswer ⊢
    exact ⟨rfl, rfl, rfl⟩
  · exact fun _ _ => nofun
  · rintro (e | _) held'' h
    · trivial
    · obtain rfl := h
      change held''.taken.Perm (held''.lines.map _)
      rw [hserved.taken, hlines]
      change List.Perm _ (((sales t).lines.map (SaleLine.toLine (sales t).source)).map _)
      rw [List.map_map]
      exact indexedByProduct_quantities (sales t).lines

theorem basket_saleTransaction :
    BasketSafe pg cat sales start t (saleTransaction (sales t)) .reset BetweenTransactions := by
  have hreferences : BasketSafe pg cat sales start t (validateReferences (sales t)) .reset
      (InTransaction fun _ held' => held' = .reset) :=
    basket_of_safe (issues_validateReferences _) safe_validateReferences
  have hbody : BasketSafe pg cat sales start t (validateReferences (sales t) >>=
    fun _ => insertSale (sales t)) .reset
      (InTransaction fun _ held => held.Balanced) := by
    refine Contract.safe_seq hreferences ?_
    rintro _ _ rfl
    exact basket_insertSale
  refine Contract.safe_handle (F := fun _ _ => True) (Contract.safe_seq hbody fun _ held hbalanced => ?_)
    fun e held _ => ?_
  · refine (basket_of_stock (spec_commit hbalanced) fun _ _ => nofun).mono ?_
    rintro (e | _) held' h
    · trivial
    · exact h rfl
  · refine (basket_of_stock spec_rollback fun _ _ => nofun).mono ?_
    rintro (e' | _) held' h
    · exact h
    · exact h

theorem basketContract_closed : (basketContract sales start).Closed (salesMachine pg cat) where
  env _ _ _ h := h.elim
  halt t db db' hinv hhalt := by
    have hclosed : (stockContract (fun t => (sales t).job) start).Closed (salesMachine pg cat) :=
      stockContract_closed
    obtain ⟨hinv', hothers⟩ := hclosed.halt t db db' hinv hhalt
    exact ⟨hinv', hothers⟩

/-! ### Every interleaving -/

/-- The transaction of `t` was refused for the line at `index` of its sale: the locking read of the line's
inventory row refused it there, and since then the transaction has only rolled back. -/
def RefusedAt (pg : Postgres) (cat : Catalog) (sale : ValidSale) (t : T) (index : ℕ)
    (start cfg : Config T Command Reply Exc Unit (SalesDb T)) : Prop :=
  ∃ (before : Config T Command Reply Exc Unit (SalesDb T)) (line : SaleLine) (found : Option ℤ)
    (k : Reply (.execute (.lockInventory sale.body.storeId line.productId)) → SalesProg Unit) (after : SalesDb T),
    (salesMachine pg cat).Reaches start before ∧ before.threads t = some (.call _ k) ∧
    salesStep pg cat t (.execute (.lockInventory sale.body.storeId line.productId)) before.state (.ok found) after ∧
    Underserved sale t before.state index line ∧
    ((salesMachine pg cat).guard fun u c _ => u = t → c = .rollback).Reaches
      ⟨Function.update before.threads t (some (k (.ok found))), after⟩ cfg

theorem refusedAt_of_raise {sales : T → ValidSale} {db : SalesDb T} (hidle : ∀ t, db.Idle t)
    (hstock : ∀ key onHand, db.committed.stock key = some onHand → 0 ≤ onHand)
    {cfg : Config T Command Reply Exc Unit (SalesDb T)}
    (hrun : (salesMachine pg cat).Reaches (Config.initial (fun t => saleTransaction (sales t)) db) cfg) {t : T}
    {index : ℕ} {e : DbError} (hthread : cfg.threads t = some (.raise (.stockRefusal index e))) :
    RefusedAt pg cat (sales t) t index (Config.initial (fun t => saleTransaction (sales t)) db) cfg := by
  have hconserved : Conserved db.committed db :=
    ⟨⟨[], (List.append_nil _).symm, nofun, fun key => by simp [soldAt]⟩, hstock⟩
  have hgood : ∀ cfg, (salesMachine pg cat).Reaches (Config.initial (fun t => saleTransaction (sales t)) db) cfg →
      (basketContract sales db.committed).Good (salesMachine pg cat) (fun _ => BetweenTransactions) cfg := by
    intro cfg hrun
    refine Contract.Good.reaches basketContract_closed (Contract.Good.initial hconserved fun t => ?_) hrun
    exact ⟨.reset, .of_idle (hidle t) hconserved, basket_saleTransaction⟩
  obtain ⟨x, hjustified, hshown⟩ := (salesMachine pg cat).shown_of_justified refusalCauses
    (fun t => RefusesLine (sales t)) (fun _ _ _ _ _ => refusal_possible)
    (fun t p hp => by
      obtain rfl := Option.some.inj hp
      exact raises_saleTransaction (sales t)) hrun t _ hthread
  obtain ⟨found, rfl, hstore, index', line, hline, hproduct, hraise⟩ := hjustified ⟨index, e, rfl⟩
  obtain ⟨rfl, -⟩ := Exc.stockRefusal.inj hraise
  obtain ⟨before, c, k, r, after, hbefore, hthread', hstep, hshows, hquiet⟩ := hshown found rfl
  have hguar := (hgood before hbefore).guar hthread' hstep
  rcases c with s | _ | _
  · cases s with
    | lockInventory storeId productId =>
        cases r with
        | ok onHand =>
            obtain rfl : found = ⟨storeId, productId, onHand⟩ := hshows
            obtain ⟨hnodup, index'', line', rfl, rfl, -, hrefused⟩ := hguar
            -- no other line is of this product
            have hsame : index = index'' := by
              obtain ⟨hlt, -⟩ := List.getElem?_eq_some_iff.mp hline
              refine (List.getElem?_inj (by rwa [List.length_map]) hnodup).mp ?_
              rw [List.getElem?_map, List.getElem?_map, hline, hrefused.here]
              exact congrArg some hproduct
            subst hsame
            exact ⟨before, line', onHand, k, after, hbefore, hthread', hstep, hrefused, hquiet⟩
        | error e => exact absurd hshows id
    | _ => exact absurd hshows id
  · exact absurd hshows id
  · exact absurd hshows id

end Contract

/-- **Sales lock inventory rows in order.** Whatever the lines and however the transactions interleave, the
rows that one holds are of its own store and come, by product, before the one it asks for; so none waits,
through others, for itself. A refusal names the line of the least product that the store cannot serve at that
point. -/
theorem sales_lock_in_order {T : Type} [DecidableEq T] (pg : Postgres) (cat : Catalog) (sales : T → ValidSale)
    {db : SalesDb T} (hidle : ∀ t, db.Idle t)
    (hstock : ∀ key onHand, db.committed.stock key = some onHand → 0 ≤ onHand)
    {cfg : Config T Command Reply Exc Unit (SalesDb T)}
    (hrun : (salesMachine pg cat).Reaches (Config.initial (fun t => saleTransaction (sales t)) db) cfg) :
    Ascending cfg ∧ (∀ t, ¬ Relation.TransGen (WaitsFor cfg) t t) ∧
    ∀ t index e, cfg.threads t = some (.raise (.stockRefusal index e)) →
      RefusedAt pg cat (sales t) t index (Config.initial (fun t => saleTransaction (sales t)) db) cfg := by
  have hascending := ascending_of_reaches hidle hrun
  exact ⟨hascending, not_waits_for_itself hascending, fun t index e => refusedAt_of_raise hidle hstock hrun⟩

/-! ### The corner shop takes two calls -/

def cornerSaleOf (source : String) (quantity : ℤ) : ValidSale where
  source := source
  body := ⟨cornerCustomer, 1, 1, none, []⟩
  occurredAt := ⟨738000 * microsecondsPerDay, some 0⟩
  lines := [⟨7, quantity, 250⟩]
  digest := 0
  sub := cornerCustomer

/-- Two units and four, of the five there are. -/
def cornerSales : Bool → ValidSale
  | true => cornerSaleOf "svc-sales:A" 2
  | false => cornerSaleOf "svc-sales:B" 4

def cornerCalls : Config Bool Command Reply Exc Unit (SalesDb Bool) :=
  .initial (fun t => saleTransaction (cornerSales t)) cornerDb

/-- The statements of the two calls, in the order they are answered. -/
def cornerCallTurns : List Bool :=
  [true, false, true, false, true, false, true, false, true, true, true, false, false, false]

/-- The call that asks for four comes second to the row, and is refused for its only line. -/
theorem sales_lock_in_order_corner :
    ∃ cfg, (salesMachine cornerPostgres cornerCatalog).Reaches cornerCalls cfg ∧
      (∀ t, ¬ Relation.TransGen (WaitsFor cfg) t t) ∧
      RefusedAt cornerPostgres cornerCatalog (cornerSales false) false 0 cornerCalls cfg := by
  have hrun : (schedule (SalesDb.answer cornerPostgres cornerCatalog (739000 * microsecondsPerDay))
      cornerCallTurns cornerCalls).bind (fun cfg => cfg.threads false) =
      some (.raise (.stockRefusal 0 (.checkViolation "stock_unavailable"))) := rfl
  obtain ⟨cfg, hcfg, hrefused⟩ := Option.bind_eq_some_iff.mp hrun
  have hreaches : (salesMachine cornerPostgres cornerCatalog).Reaches cornerCalls cfg :=
    Machine.reaches_of_schedule (salesMachine cornerPostgres cornerCatalog)
      (fun _ _ _ _ after h => .inl ⟨_, after, h, .inl rfl⟩) cornerCallTurns hcfg
  obtain ⟨-, hfree, hrefusals⟩ := sales_lock_in_order cornerPostgres cornerCatalog cornerSales
    (fun t => SalesDb.ofRows_idle _ _ _ _ t) (fun _ _ => cornerDb_stock) hreaches
  exact ⟨cfg, hreaches, hfree, hrefusals false 0 _ hrefused⟩

end RetailSegmentation.Sales
