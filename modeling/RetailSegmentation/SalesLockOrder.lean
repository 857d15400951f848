import RetailSegmentation.ProgramProtocol
import RetailSegmentation.SalesService
import RetailSegmentation.SalesTables

/-! The inventory rows that the transactions of phone sales lock: each takes those of its own store, from the least
product to the greatest, so that no cycle of them waits for one another. -/

namespace RetailSegmentation.Sales

open Program

def saleTransaction (sale : ValidSale) : SalesProg Unit :=
  atomic (validateReferences sale >>= fun _ => insertSale sale)

def stockRow : Command → Option StockKey
  | .execute (.updateInventory storeId productId _) => some (storeId, productId)
  | .execute (.lockInventory storeId productId) => some (storeId, productId)
  | _ => none

section Locks

variable {T : Type} [DecidableEq T] {pg : Postgres} {cat : Catalog} {t : T} {db db' : SalesDb T}

theorem stockRow_of_effect {clock : Instant} {s : Statement} {ledger : Ledger} {w : Write} {key : StockKey}
    (hw : w ∈ (effect pg cat clock s ledger).2) (hrow : SalesDb.row w = some (.stock key)) :
    stockRow (.execute s) = some key := by
  cases s <;> simp only [effect] at hw
  case updateInventory storeId productId quantity =>
    split at hw
    · cases hw
    · split at hw
      · obtain rfl := List.mem_singleton.mp hw
        exact congrArg some (SalesDb.Row.stock.inj (Option.some.inj hrow))
      · cases hw
  case lockInventory storeId productId =>
    split at hw
    · cases hw
    · obtain rfl := List.mem_singleton.mp hw
      exact congrArg some (SalesDb.Row.stock.inj (Option.some.inj hrow))
  all_goals
    repeat' split at hw
  all_goals
    simp only [List.mem_cons, List.not_mem_nil, or_false] at hw
  -- the rows of the other tables
  all_goals
    first
    | exact hw.elim
    | (subst hw; simp only [SalesDb.row, Option.some.injEq, reduceCtorEq] at hrow)
    | (obtain rfl | rfl := hw <;> simp only [SalesDb.row, Option.some.injEq, reduceCtorEq] at hrow)

omit [DecidableEq T] in
theorem owner_of_write [DecidableEq T] {w : Write} (hwrite : db.write t w = some db') {key : StockKey}
    (howner : db'.stock.owner key = some t) :
    db.stock.owner key = some t ∨ SalesDb.row w = some (.stock key) := by
  cases w with
  | addLine line =>
      obtain rfl := Option.some.inj hwrite
      exact .inl howner
  | lockStock locked =>
      simp only [SalesDb.write] at hwrite
      split_ifs at hwrite with hfree
      obtain rfl := Option.some.inj hwrite
      by_cases hkey : key = locked
      · exact .inr (congrArg (fun k => some (SalesDb.Row.stock k)) hkey.symm)
      · exact .inl ((Function.update_of_ne hkey _ _).symm.trans howner)
  | putStock locked onHand =>
      simp only [SalesDb.write] at hwrite
      split_ifs at hwrite with hfree
      obtain rfl := Option.some.inj hwrite
      by_cases hkey : key = locked
      · exact .inr (congrArg (fun k => some (SalesDb.Row.stock k)) hkey.symm)
      · exact .inl ((Function.update_of_ne hkey _ _).symm.trans howner)
  | _ =>
      simp only [SalesDb.write] at hwrite
      split_ifs at hwrite with hfree
      obtain rfl := Option.some.inj hwrite
      exact .inl howner

theorem owner_of_writes {ws : List Write} (hwrites : db.writes t ws = some db') {key : StockKey}
    (howner : db'.stock.owner key = some t) :
    db.stock.owner key = some t ∨ ∃ w ∈ ws, SalesDb.row w = some (.stock key) := by
  induction ws generalizing db with
  | nil =>
      obtain rfl : db = db' := Option.some.inj hwrites
      exact .inl howner
  | cons w ws ih =>
      obtain ⟨middle, hw, hrest⟩ := Option.bind_eq_some_iff.mp hwrites
      rcases ih hrest with hmiddle | ⟨v, hv, hrow⟩
      · exact (owner_of_write hw hmiddle).imp_right fun hrow => ⟨w, List.mem_cons_self, hrow⟩
      · exact .inr ⟨v, List.mem_cons_of_mem w hv, hrow⟩

theorem owner_of_step {c : Command} {r : Reply c} (hstep : salesStep pg cat t c db r db') {key : StockKey}
    (howner : db'.stock.owner key = some t) : db.stock.owner key = some t ∨ stockRow c = some key := by
  have hrollback : ∀ after : SalesDb T, (after.rollback t).stock.owner key ≠ some t := fun after =>
    (SalesDb.rollback_idle t after).holder (.stock key)
  have hcommit : ∀ after : SalesDb T, (after.commit t).stock.owner key ≠ some t := fun after =>
    (SalesDb.commit_idle t after).holder (.stock key)
  rcases hstep with ⟨clock, after, hanswer, rfl | ⟨-, -, rfl⟩⟩ | ⟨e, -, -, ⟨-, rfl⟩ | rfl | ⟨-, rfl, -⟩⟩
  · cases c with
    | execute s =>
        obtain ⟨after, hwrites, heq⟩ := Option.map_eq_some_iff.mp hanswer
        obtain ⟨-, rfl⟩ := Prod.mk.inj heq
        exact (owner_of_writes hwrites howner).imp_right fun ⟨w, hw, hrow⟩ => stockRow_of_effect hw hrow
    | commit =>
        simp only [SalesDb.answer] at hanswer
        split_ifs at hanswer
        · obtain ⟨-, rfl⟩ := Prod.mk.inj (Option.some.inj hanswer)
          exact absurd howner (hcommit db)
        · obtain ⟨-, rfl⟩ := Prod.mk.inj (Option.some.inj hanswer)
          exact absurd howner (hrollback db)
    | rollback =>
        obtain ⟨-, rfl⟩ := Prod.mk.inj (Option.some.inj hanswer)
        exact absurd howner (hrollback db)
  · exact absurd howner (hrollback after)
  · exact .inl howner
  · exact absurd howner (hrollback db)
  · exact absurd howner (hcommit db)

end Locks

/-! ### Each transaction by itself -/

/-- Commands on the inventory rows of one store, in the order of the products. The label is the product of the last
one. -/
def ascending (storeId : ℤ) : Protocol Command Reply (Option ℤ) where
  may c last := ∀ key, stockRow c = some key → key.1 = storeId ∧ ∀ p, last = some p → p ≤ key.2
  next c _ last last' := last' = match stockRow c with
    | none => last
    | some key => some key.2

section Programs

variable {α : Type} {storeId : ℤ} {last : Option ℤ}

theorem ascending_of_issues {p : SalesProg α} (hp : p.Issues fun c => stockRow c = none) :
    p.Follows (ascending storeId) last (Contract.Ends (fun _ last' => last' = last) fun _ _ => True) := by
  refine (Prog.Follows.of_quiet hp (Prog.returns_true p) fun c hc => ⟨fun key hkey => ?_, fun r last' hnext => ?_⟩).weaken
    (fun _ _ h => h.2) fun _ _ _ => trivial
  · rw [hc] at hkey
    cases hkey
  · rw [hnext, hc]

theorem ascending_consume {productId quantity : ℤ} (hlast : ∀ p, last = some p → p ≤ productId) :
    (consume storeId productId quantity).Follows (ascending storeId) last
      (Contract.Ends (fun _ last' => last' = some productId) fun _ _ => True) := by
  have hmay : ∀ last', (∀ p, last' = some p → p ≤ productId) → ∀ key : StockKey,
    some (storeId, productId) = some key →
      key.1 = storeId ∧ ∀ p, last' = some p → p ≤ key.2 := by
    intro last' hlast' key hkey
    obtain rfl := Option.some.inj hkey
    exact ⟨rfl, hlast'⟩
  unfold consume
  split
  · trivial
  · refine Prog.Follows.bind (P := fun _ last' => last' = some productId) ⟨hmay last hlast,
      fun r last' hnext => ?_⟩ ?_
    · cases r with
      | ok updated => exact hnext
      | error e => trivial
    · rintro (_ | remaining) _ rfl
      · refine Prog.Follows.bind (P := fun _ _ => True) ⟨hmay _ (fun p hp => (Option.some.inj hp).ge),
          fun r last' _ => ?_⟩ ?_
        · cases r <;> trivial
        · rintro (_ | onHand) _ -
          · trivial
          · trivial
      · rfl

theorem ascending_consumeLines (lines : List (ℕ × SaleLine))
    (hsorted : lines.Pairwise fun a b => a.2.productId ≤ b.2.productId)
    (hlast : ∀ p, last = some p → ∀ e ∈ lines, p ≤ e.2.productId) :
    (consumeLines storeId lines).Follows (ascending storeId) last
      (Contract.Ends (fun _ _ => True) fun _ _ => True) := by
  induction lines generalizing last with
  | nil => trivial
  | cons e lines ih =>
      obtain ⟨index, line⟩ := e
      obtain ⟨hle, hsorted⟩ := List.pairwise_cons.mp hsorted
      refine Prog.Follows.bind (P := fun _ last' => last' = some line.productId) ?_ ?_
      · refine (ascending_consume fun p hp => hlast p hp _ List.mem_cons_self).tryCatch fun e last' _ => ?_
        split <;> trivial
      · rintro _ _ rfl
        refine ih hsorted fun p hp e he => ?_
        obtain rfl := Option.some.inj hp
        exact hle e he

theorem issues_execute {s : Statement} (hs : stockRow (.execute s) = none) :
    (execute s).Issues fun c => stockRow c = none := by
  refine ⟨hs, fun r => ?_⟩
  cases r <;> trivial

theorem issues_insertSaleLines (source : String) (lines : List SaleLine) :
    (insertSaleLines source lines).Issues fun c => stockRow c = none := by
  induction lines with
  | nil => trivial
  | cons line lines ih => exact (issues_execute rfl).bind fun _ => ih

theorem issues_validateReferences (sale : ValidSale) :
    (validateReferences sale).Issues fun c => stockRow c = none := by
  refine (issues_execute rfl).bind fun registeredOn => ?_
  cases registeredOn with
  | none => trivial
  | some day =>
      dsimp only
      split
      · trivial
      · refine (issues_execute rfl).bind fun states => ?_
        unfold refuse
        split <;> trivial

theorem sorted_indexedByProduct (lines : List SaleLine) :
    (indexedByProduct lines).Pairwise fun a b => a.2.productId ≤ b.2.productId :=
  haveI : Std.Total fun a b : ℕ × SaleLine => a.2.productId ≤ b.2.productId := ⟨fun _ _ => Int.le_total _ _⟩
  haveI : IsTrans (ℕ × SaleLine) fun a b => a.2.productId ≤ b.2.productId := ⟨fun _ _ _ => Int.le_trans⟩
  List.pairwise_insertionSort _ _

/-- The transaction of a sale asks for inventory rows in the order of the products. -/
theorem ascending_saleTransaction (sale : ValidSale) :
    (saleTransaction sale).Follows (ascending sale.body.storeId) none
      (Contract.Ends (fun _ _ => True) fun _ _ => True) := by
  have hend : ∀ (c : Command) (last : Option ℤ), stockRow c = none →
      (call c).Follows (ascending sale.body.storeId) last (Contract.Ends (fun _ _ => True) fun _ _ => True) := by
    intro c last hc
    refine ⟨fun key hkey => ?_, fun r last' _ => ?_⟩
    · rw [hc] at hkey
      cases hkey
    · cases r <;> trivial
  have hquiet : ∀ {α : Type} {p : SalesProg α} (last : Option ℤ), p.Issues (fun c => stockRow c = none) →
      p.Follows (ascending sale.body.storeId) last (Contract.Ends (fun _ last' => last' = last) fun _ _ => True) :=
    fun last hp => ascending_of_issues hp
  refine Prog.Follows.tryCatch (F := fun _ _ => True)
    (Prog.Follows.bind (P := fun _ _ => True) ?_ fun _ last _ => hend _ last rfl)
    fun e last _ => (hend .rollback last rfl).bind fun _ _ _ => trivial
  refine (hquiet none (issues_validateReferences sale)).bind ?_
  rintro _ _ rfl
  refine (hquiet none (issues_execute rfl)).bind ?_
  rintro _ _ rfl
  refine (hquiet none (issues_insertSaleLines _ _)).bind ?_
  rintro _ _ rfl
  refine (ascending_consumeLines _ (sorted_indexedByProduct sale.lines) fun p hp => by cases hp).bind fun _ last _ => hend _ last rfl

end Programs

/-! ### All of them together -/

section Runs

variable {T : Type} [DecidableEq T] {pg : Postgres} {cat : Catalog} {α : Type}

/-- The inventory rows a transaction holds are of its own store, and none is past the last it asked for. -/
def lockContract (storeOf : T → ℤ) : Contract T Command Reply (SalesDb T) (Option ℤ) where
  inv _ := True
  at_ t last db := ∀ key, db.stock.owner key = some t → key.1 = storeOf t ∧ ∃ p, last = some p ∧ key.2 ≤ p
  guar _ _ _ _ _ := True

theorem lockContract_implements (storeOf : T → ℤ) :
    (lockContract storeOf).Implements (salesMachine pg cat) fun t => ascending (storeOf t) := by
  intro t c last hmay db r db' _ hat hstep
  have hstep' : salesStep pg cat t c db r db' := hstep
  refine ⟨trivial, ⟨trivial, fun u hu last' hother key howner => ?_⟩, _, ?_, rfl⟩
  · exact hother key (((SalesDb.step_around hu hstep').holder (.stock key)).mp howner)
  · intro key howner
    rcases owner_of_step hstep' howner with hbefore | hown
    · obtain ⟨hstore, p, hlast, hle⟩ := hat key hbefore
      refine ⟨hstore, ?_⟩
      cases hrow : stockRow c with
      | none => exact ⟨p, hlast, hle⟩
      | some asked => exact ⟨asked.2, rfl, hle.trans ((hmay asked hrow).2 p hlast)⟩
    · rw [hown]
      exact ⟨(hmay key hown).1, key.2, rfl, le_rfl⟩

theorem lockContract_closed (storeOf : T → ℤ) : (lockContract storeOf).Closed (salesMachine pg cat) where
  env _ _ _ h := h.elim
  halt t db db' _ hhalt := by
    obtain rfl : db' = db.rollback t := hhalt
    refine ⟨trivial, fun u hu last hother key howner => ?_⟩
    exact hother key (((SalesDb.Around.rollback hu db).holder (.stock key)).mp howner)

/-- Transaction `t` is about to ask for an inventory row that `u` holds. -/
def WaitsFor (cfg : Config T Command Reply Exc α (SalesDb T)) (t u : T) : Prop :=
  t ≠ u ∧ ∃ c k key, cfg.threads t = some (.call c k) ∧ stockRow c = some key ∧ cfg.state.stock.owner key = some u

/-- Every row that a transaction holds comes before the one it asks for. -/
def Ascending (cfg : Config T Command Reply Exc α (SalesDb T)) : Prop :=
  ∀ t c k key held, cfg.threads t = some (.call c k) → stockRow c = some key →
    cfg.state.stock.owner held = some t →
    held.1 = key.1 ∧ held.2 ≤ key.2

theorem ascending_of_reaches {sales : T → ValidSale} {db : SalesDb T} (hidle : ∀ t, db.Idle t)
    {cfg : Config T Command Reply Exc Unit (SalesDb T)}
    (hrun : (salesMachine pg cat).Reaches (Config.initial (fun t => saleTransaction (sales t)) db) cfg) :
    Ascending cfg := by
  have hobeys := Contract.Obeys.reaches (lockContract_implements fun t => (sales t).body.storeId)
    (lockContract_closed _) (Contract.Obeys.initial (K := lockContract fun t => (sales t).body.storeId) trivial fun t =>
      ⟨none, fun key howner => absurd howner ((hidle t).holder (.stock key)),
        ascending_saleTransaction (sales t)⟩) hrun
  intro t c k key held hthread hrow howner
  obtain ⟨last, hat, hmay⟩ := hobeys.issues hthread
  obtain ⟨hstore, p, hlast, hle⟩ := hat held howner
  obtain ⟨hkey, hprev⟩ := hmay key hrow
  exact ⟨hstore.trans hkey.symm, hle.trans (hprev p hlast)⟩

/-- The product of the inventory row that a transaction is about to ask for. -/
def askedProduct (cfg : Config T Command Reply Exc α (SalesDb T)) (t : T) : ℤ :=
  match cfg.threads t with
  | some (.call c _) => (stockRow c).elim 0 Prod.snd
  | _ => 0

omit [DecidableEq T] in
theorem askedProduct_eq {cfg : Config T Command Reply Exc α (SalesDb T)} {t : T} {c : Command}
    {k : Reply c → SalesProg α} {key : StockKey} (hthread : cfg.threads t = some (.call c k))
    (hrow : stockRow c = some key) : askedProduct cfg t = key.2 := by
  unfold askedProduct
  rw [hthread]
  dsimp only
  rw [hrow]
  rfl

variable {cfg : Config T Command Reply Exc α (SalesDb T)} {t u v : T}

omit [DecidableEq T] in
theorem lt_of_waits (hascending : Ascending cfg) (htu : WaitsFor cfg t u) (huv : WaitsFor cfg u v) :
    askedProduct cfg t < askedProduct cfg u := by
  obtain ⟨-, c, k, key, hthread, hrow, howner⟩ := htu
  obtain ⟨hne, c', k', key', hthread', hrow', howner'⟩ := huv
  rw [askedProduct_eq hthread hrow, askedProduct_eq hthread' hrow']
  obtain ⟨hstore, hle⟩ := hascending u c' k' key' key hthread' hrow' howner
  refine lt_of_le_of_ne hle fun heq => hne ?_
  -- one row has one holder
  have hsame : key = key' := Prod.ext hstore heq
  rw [hsame, howner'] at howner
  exact (Option.some.inj howner).symm

omit [DecidableEq T] in
theorem lt_of_chain (hascending : Ascending cfg) (hchain : Relation.TransGen (WaitsFor cfg) t u) :
    ∀ v, WaitsFor cfg u v → askedProduct cfg t < askedProduct cfg u := by
  induction hchain with
  | single htu => exact fun v huv => lt_of_waits hascending htu huv
  | tail _ hwu ih => exact fun v huv => (ih _ hwu).trans (lt_of_waits hascending hwu huv)

omit [DecidableEq T] in
theorem not_waits_for_itself (hascending : Ascending cfg) (t : T) : ¬ Relation.TransGen (WaitsFor cfg) t t := by
  intro hcycle
  obtain ⟨u, hfirst, -⟩ := Relation.TransGen.head'_iff.mp hcycle
  exact lt_irrefl _ (lt_of_chain hascending hcycle u hfirst)

end Runs

end RetailSegmentation.Sales
