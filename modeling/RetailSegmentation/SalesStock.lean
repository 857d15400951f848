import Mathlib.Algebra.Order.BigOperators.Group.List
import Mathlib.Algebra.Order.Group.Int
import RetailSegmentation.SalesService
import RetailSegmentation.SalesTables

/-! Stock under both writers. Any number of CSV rows and phone sales run on the same tables, statement by
statement. `Conserved` is the invariant of the committed tables, `Holding` what a transaction may rely
on about its own uncommitted work, and the two together are kept by every command of either writer. -/

namespace RetailSegmentation.Sales

open Program

/-! ### Requests -/

/-- One request of either writer. -/
inductive Job where
  | row (now : Instant) (row : SalesRow)
  | sale (request : SaleRequest)

namespace Job

def program (sha256 : CanonicalSale → Digest) : Job → SalesProg (Option Representation)
  | row now r => ingestRow now r >>= fun _ => .ret none
  | sale request => recordSale sha256 request >>= fun answer => .ret (some answer)

def storeId : Job → ℤ
  | row _ r => r.storeId
  | sale request => request.body.storeId

/-- The request has a line for this quantity of this product. -/
def Asks : Job → ℤ → ℤ → Prop
  | row _ r, productId, quantity => r.productId = productId ∧ r.quantity = quantity
  | sale request, productId, quantity =>
    ∃ line ∈ request.body.lines, line.productId = productId ∧ line.quantity = some quantity

end Job

/-! ### What a transaction has done so far -/

/-- The sale a transaction writes to, its lines, the units taken of each product, and the product and
quantity its last update found too little of. -/
structure Held where
  head : Option String
  lines : List Line
  taken : List (ℤ × ℤ)
  short : Option (ℤ × ℤ)

def Held.reset : Held := ⟨none, [], [], none⟩

/-- The units taken from an inventory row by a request of store `storeId`. -/
def takenAt (storeId : ℤ) (taken : List (ℤ × ℤ)) (key : StockKey) : ℤ :=
  if key.1 = storeId then ((taken.filter fun e => e.1 = key.2).map Prod.snd).sum else 0

/-- Every line has its units taken, and nothing else is. -/
def Held.Balanced (held : Held) : Prop :=
  held.taken.Perm (held.lines.map fun line => (line.productId, line.quantity))

theorem takenAt_append (storeId : ℤ) (taken more : List (ℤ × ℤ)) (key : StockKey) :
    takenAt storeId (taken ++ more) key = takenAt storeId taken key + takenAt storeId more key := by
  unfold takenAt
  split_ifs
  · simp
  · rfl

theorem takenAt_singleton (storeId productId quantity : ℤ) (key : StockKey) :
    takenAt storeId [(productId, quantity)] key = if (storeId, productId) = key then quantity else 0 := by
  obtain ⟨s, p⟩ := key
  unfold takenAt
  by_cases hs : s = storeId
  · by_cases hp : productId = p <;> simp [hs, hp]
  · simp [hs, Ne.symm hs]

theorem takenAt_perm {storeId : ℤ} {taken taken' : List (ℤ × ℤ)} (hperm : taken.Perm taken')
    (key : StockKey) : takenAt storeId taken key = takenAt storeId taken' key := by
  unfold takenAt
  split_ifs
  · exact ((hperm.filter _).map _).sum_eq
  · rfl

theorem takenAt_nonneg (storeId : ℤ) {taken : List (ℤ × ℤ)} (hpositive : ∀ e ∈ taken, 0 < e.2)
    (key : StockKey) : 0 ≤ takenAt storeId taken key := by
  unfold takenAt
  split_ifs
  · apply List.sum_nonneg
    intro q hq
    obtain ⟨e, he, rfl⟩ := List.mem_map.mp hq
    exact (hpositive e (List.mem_filter.mp he).1).le
  · exact le_rfl

theorem soldAt_eq_takenAt {header : String → Option Header} {storeId : ℤ} {lines : List Line}
    (hstore : ∀ line ∈ lines, (header line.sourceTransactionId).map Header.storeId = some storeId)
    (key : StockKey) :
    soldAt header key lines = takenAt storeId (lines.map fun line => (line.productId, line.quantity)) key := by
  induction lines with
  | nil => simp [soldAt, takenAt]
  | cons line lines ih =>
      have htail := ih fun l hl => hstore l (List.mem_cons_of_mem _ hl)
      have hhead := hstore line List.mem_cons_self
      rw [← List.singleton_append, soldAt_append, htail, List.map_append, takenAt_append]
      congr 1
      rw [List.map_singleton, takenAt_singleton, soldAt_singleton, hhead]
      obtain ⟨s, p⟩ := key
      by_cases hs : storeId = s
      · by_cases hp : line.productId = p <;> simp [hs, hp]
      · simp [hs]

section Invariant

variable {T : Type}

/-- What transaction `t` of a request for `storeId` may rely on after doing `held`. -/
structure Holding (storeId : ℤ) (held : Held) (t : T) (db : SalesDb T) : Prop where
  lines : db.lines.pending t = held.lines
  stores : ∀ source header, db.committed.header source = some header →
    ((db.ledger t).header source).map Header.storeId = some header.storeId
  head : ∀ source, held.head = some source → db.holder (.header source) = some t ∧
    ((db.ledger t).header source).map Header.storeId = some storeId
  headed : ∀ line ∈ held.lines, held.head = some line.sourceTransactionId
  positive : ∀ e ∈ held.taken, 0 < e.2
  stock : ∀ key, (db.ledger t).stock key =
    (db.committed.stock key).map (· - takenAt storeId held.taken key)
  owned : ∀ key, takenAt storeId held.taken key ≠ 0 → db.holder (.stock key) = some t
  nonneg : ∀ key onHand, (db.ledger t).stock key = some onHand → 0 ≤ onHand
  short : ∀ productId quantity, held.short = some (productId, quantity) →
    ∀ onHand, (db.ledger t).stock (storeId, productId) = some onHand → onHand < quantity

/-- The committed tables against those of the start: stock is what the lines added since have left. -/
structure Conserved (start : Ledger) (db : SalesDb T) : Prop where
  added : ∃ added, db.committed.lines = start.lines ++ added ∧
    (∀ line ∈ added, (db.committed.header line.sourceTransactionId).isSome) ∧
    ∀ key, db.committed.stock key = (start.stock key).map (· - soldAt db.committed.header key added)
  nonneg : ∀ key onHand, db.committed.stock key = some onHand → 0 ≤ onHand

variable {db db' : SalesDb T} {t u : T} {storeId : ℤ} {held : Held} {start : Ledger}

theorem Holding.of_idle (hidle : db.Idle t) (hconserved : Conserved start db) :
    Holding storeId .reset t db where
  lines := hidle.lines
  stores source header hheader := by rw [hidle.ledger_eq, hheader]; rfl
  head _ h := by cases h
  headed _ h := by cases h
  positive _ h := by cases h
  stock key := by simp [hidle.ledger_eq, Held.reset, takenAt]
  owned key h := by simp [Held.reset, takenAt] at h
  nonneg key onHand h := hconserved.nonneg key onHand (hidle.ledger_eq ▸ h)
  short _ _ h := by cases h

/-- What a transaction relies on survives the steps of the others, which only ever lower the committed
stock. -/
theorem Holding.around (hheld : Holding storeId held t db) (haround : SalesDb.Around t db db')
    (hnonneg : ∀ key onHand, db'.committed.stock key = some onHand → 0 ≤ onHand)
    (hlower : ∀ key after, db'.committed.stock key = some after →
      ∃ before, db.committed.stock key = some before ∧ after ≤ before) :
    Holding storeId held t db' where
  lines := haround.lines.trans hheld.lines
  stores source header hheader := by
    by_cases howner : db.headers.owner source = some t
    · have hget : (db'.ledger t).header source = (db.ledger t).header source :=
        haround.headers.get source howner
      rw [hget]
      exact hheld.stores source header ((haround.headers.rows source howner).symm.trans hheader)
    · rw [SalesDb.header_eq ((haround.headers.owner source).not.mpr howner), hheader]
      rfl
  head source hsource := by
    obtain ⟨howner, hstore⟩ := hheld.head source hsource
    refine ⟨(haround.headers.owner source).mpr howner, ?_⟩
    have hget : (db'.ledger t).header source = (db.ledger t).header source :=
      haround.headers.get source howner
    rw [hget, hstore]
  headed := hheld.headed
  positive := hheld.positive
  stock key := by
    by_cases howner : db.stock.owner key = some t
    · have hget : (db'.ledger t).stock key = (db.ledger t).stock key := haround.stock.get key howner
      have hrows : db'.committed.stock key = db.committed.stock key := haround.stock.rows key howner
      rw [hget, hrows, hheld.stock]
    · have hnone : takenAt storeId held.taken key = 0 := by
        by_contra h
        exact howner (hheld.owned key h)
      rw [SalesDb.stock_eq ((haround.stock.owner key).not.mpr howner), hnone]
      simp
  owned key h := (haround.stock.owner key).mpr (hheld.owned key h)
  nonneg key onHand h := by
    by_cases howner : db.stock.owner key = some t
    · exact hheld.nonneg key onHand ((haround.stock.get key howner).symm.trans h)
    · rw [SalesDb.stock_eq ((haround.stock.owner key).not.mpr howner)] at h
      exact hnonneg key onHand h
  short productId quantity hshort onHand h := by
    by_cases howner : db.stock.owner (storeId, productId) = some t
    · exact hheld.short productId quantity hshort onHand ((haround.stock.get _ howner).symm.trans h)
    · rw [SalesDb.stock_eq ((haround.stock.owner _).not.mpr howner)] at h
      obtain ⟨before, hbefore, hle⟩ := hlower _ onHand h
      have := hheld.short productId quantity hshort before ((SalesDb.stock_eq howner).trans hbefore)
      omega

theorem Conserved.commit [DecidableEq T] (hconserved : Conserved start db)
    (hheld : Holding storeId held t db) (hbalanced : held.Balanced) : Conserved start (db.commit t) := by
  obtain ⟨added, hlines, hheaded, hstock⟩ := hconserved.added
  have hstore : ∀ line ∈ held.lines,
      ((db.ledger t).header line.sourceTransactionId).map Header.storeId = some storeId :=
    fun line hline => (hheld.head _ (hheld.headed line hline)).2
  have hsold : ∀ key, soldAt (db.ledger t).header key (added ++ held.lines) =
      soldAt db.committed.header key added + takenAt storeId held.taken key := by
    intro key
    rw [soldAt_append, soldAt_eq_takenAt hstore, takenAt_perm hbalanced]
    congr 1
    apply soldAt_congr
    intro line hline
    obtain ⟨header, hheader⟩ := Option.isSome_iff_exists.mp (hheaded line hline)
    rw [hheld.stores _ header hheader, hheader]
    rfl
  constructor
  · rw [SalesDb.commit_committed]
    refine ⟨added ++ held.lines, ?_, ?_, ?_⟩
    · rw [SalesDb.ledger_lines, hlines, hheld.lines, List.append_assoc]
    · intro line hline
      rcases List.mem_append.mp hline with hline | hline
      · obtain ⟨header, hheader⟩ := Option.isSome_iff_exists.mp (hheaded line hline)
        have := hheld.stores _ header hheader
        exact Option.isSome_map (f := Header.storeId) ▸ this ▸ rfl
      · have := hstore line hline
        exact Option.isSome_map (f := Header.storeId) ▸ this ▸ rfl
    · intro key
      rw [hheld.stock, hstock, Option.map_map, hsold]
      congr 1
      funext onHand
      exact Int.sub_sub _ _ _
  · rw [SalesDb.commit_committed]
    exact hheld.nonneg

/-! ### A transaction's own steps -/

variable {ws : List Write}

theorem pending_of_ledger {lines : List Line} (hlines : (db.ledger t).lines = db.committed.lines ++ lines) :
    db.lines.pending t = lines :=
  List.append_cancel_left ((SalesDb.ledger_lines db t).symm.trans hlines)

theorem Holding.same (hheld : Holding storeId held t db) (hwrote : SalesDb.Wrote t ws db db')
    (hheader : ((db.ledger t).writes ws).header = (db.ledger t).header)
    (hlines : ((db.ledger t).writes ws).lines = (db.ledger t).lines)
    (hstock : ((db.ledger t).writes ws).stock = (db.ledger t).stock) : Holding storeId held t db' := by
  rw [← hwrote.ledger] at hheader hlines hstock
  refine ⟨pending_of_ledger ?_, ?_, ?_, hheld.headed, hheld.positive, ?_, ?_, ?_, ?_⟩
  · rw [hlines, hwrote.committed, SalesDb.ledger_lines, hheld.lines]
  · rw [hheader, hwrote.committed]
    exact hheld.stores
  · intro source hsource
    obtain ⟨howner, hstore⟩ := hheld.head source hsource
    exact ⟨hwrote.held _ howner, hheader ▸ hstore⟩
  · rw [hstock, hwrote.committed]
    exact hheld.stock
  · exact fun key h => hwrote.held _ (hheld.owned key h)
  · rw [hstock]
    exact hheld.nonneg
  · rw [hstock]
    exact hheld.short

theorem Holding.headed_by (hheld : Holding storeId held t db) {source : String}
    (hlines : held.lines = [] ∨ held.head = some source)
    (howner : db.holder (.header source) = some t)
    (hstore : ((db.ledger t).header source).map Header.storeId = some storeId) :
    Holding storeId { held with head := some source } t db where
  lines := hheld.lines
  stores := hheld.stores
  head sale hsale := by
    obtain rfl := Option.some.inj hsale
    exact ⟨howner, hstore⟩
  headed line hline := by
    rcases hlines with hnil | hhead
    · exact absurd (hnil ▸ hline) (List.not_mem_nil)
    · exact hhead.symm.trans (hheld.headed line hline)
  positive := hheld.positive
  stock := hheld.stock
  owned := hheld.owned
  nonneg := hheld.nonneg
  short := hheld.short

theorem Holding.putHeader (hheld : Holding storeId held t db) {source : String} {header : Header}
    (hwrote : SalesDb.Wrote t [.putHeader source header] db db') (hstore : header.storeId = storeId)
    (hsame : ∀ before, (db.ledger t).header source = some before → before.storeId = storeId)
    (hlines : held.lines = [] ∨ held.head = some source) :
    Holding storeId { held with head := some source } t db' := by
  have hheader : (db'.ledger t).header = Function.update (db.ledger t).header source (some header) := by
    rw [hwrote.ledger]
    rfl
  have hstock : (db'.ledger t).stock = (db.ledger t).stock := by
    rw [hwrote.ledger]
    rfl
  have howner : db'.holder (.header source) = some t :=
    hwrote.taken _ (List.mem_singleton_self _) _ rfl
  refine Holding.headed_by ⟨pending_of_ledger ?_, ?_, ?_, hheld.headed, hheld.positive, ?_, ?_, ?_, ?_⟩
    hlines howner ?_
  · rw [hwrote.ledger, hwrote.committed]
    exact (SalesDb.ledger_lines db t).trans (congrArg _ hheld.lines)
  · intro sale before hbefore
    rw [hwrote.committed] at hbefore
    have hkept := hheld.stores sale before hbefore
    rw [hheader]
    by_cases hsale : sale = source
    · subst hsale
      obtain ⟨own, hown, hownStore⟩ := Option.map_eq_some_iff.mp hkept
      rw [Function.update_self, ← hownStore, hsame own hown, ← hstore]
      rfl
    · rw [Function.update_of_ne hsale, hkept]
  · intro sale hsale
    obtain ⟨hsaleOwner, hsaleStore⟩ := hheld.head sale hsale
    refine ⟨hwrote.held _ hsaleOwner, ?_⟩
    rw [hheader]
    by_cases hne : sale = source
    · rw [hne, Function.update_self, ← hstore]
      rfl
    · rw [Function.update_of_ne hne, hsaleStore]
  · rw [hstock, hwrote.committed]
    exact hheld.stock
  · exact fun key h => hwrote.held _ (hheld.owned key h)
  · rw [hstock]
    exact hheld.nonneg
  · rw [hstock]
    exact hheld.short
  · rw [hheader, Function.update_self, ← hstore]
    rfl

theorem Holding.addLine (hheld : Holding storeId held t db) {line : Line}
    (hwrote : SalesDb.Wrote t ws db db') (hws : (db.ledger t).writes ws = (db.ledger t).write (.addLine line))
    (hhead : held.head = some line.sourceTransactionId) :
    Holding storeId { held with lines := held.lines ++ [line] } t db' := by
  have hledger : db'.ledger t = (db.ledger t).write (.addLine line) := hwrote.ledger.trans hws
  refine ⟨pending_of_ledger ?_, ?_, ?_, ?_, hheld.positive, ?_, ?_, ?_, ?_⟩
  · rw [hledger, hwrote.committed]
    change (db.ledger t).lines ++ [line] = _
    rw [SalesDb.ledger_lines, hheld.lines, List.append_assoc]
  · rw [hledger, hwrote.committed]
    exact hheld.stores
  · intro source hsource
    obtain ⟨howner, hstore⟩ := hheld.head source hsource
    exact ⟨hwrote.held _ howner, hledger ▸ hstore⟩
  · intro l hl
    rcases List.mem_append.mp hl with hl | hl
    · exact hheld.headed l hl
    · rw [List.mem_singleton.mp hl]
      exact hhead
  · rw [hledger, hwrote.committed]
    exact hheld.stock
  · exact fun key h => hwrote.held _ (hheld.owned key h)
  · rw [hledger]
    exact hheld.nonneg
  · rw [hledger]
    exact hheld.short

theorem Holding.putStock (hheld : Holding storeId held t db) {productId quantity onHand : ℤ}
    (hwrote : SalesDb.Wrote t [.putStock (storeId, productId) (onHand - quantity)] db db')
    (hon : (db.ledger t).stock (storeId, productId) = some onHand) (hle : quantity ≤ onHand)
    (hpositive : 0 < quantity) :
    Holding storeId { held with taken := held.taken ++ [(productId, quantity)] } t db' := by
  have hheader : (db'.ledger t).header = (db.ledger t).header := by
    rw [hwrote.ledger]
    rfl
  have hstock : (db'.ledger t).stock = Function.update (db.ledger t).stock (storeId, productId)
      (some (onHand - quantity)) := by
    rw [hwrote.ledger]
    rfl
  refine ⟨pending_of_ledger ?_, ?_, ?_, hheld.headed, ?_, ?_, ?_, ?_, ?_⟩
  · rw [hwrote.ledger, hwrote.committed]
    exact (SalesDb.ledger_lines db t).trans (congrArg _ hheld.lines)
  · rw [hheader, hwrote.committed]
    exact hheld.stores
  · intro source hsource
    obtain ⟨howner, hstore⟩ := hheld.head source hsource
    exact ⟨hwrote.held _ howner, hheader ▸ hstore⟩
  · intro e he
    rcases List.mem_append.mp he with he | he
    · exact hheld.positive e he
    · rw [List.mem_singleton.mp he]
      exact hpositive
  · intro key
    rw [hstock, hwrote.committed, takenAt_append, takenAt_singleton]
    by_cases hkey : key = (storeId, productId)
    · subst hkey
      obtain ⟨before, hbefore, hdiff⟩ := Option.map_eq_some_iff.mp ((hheld.stock _).symm.trans hon)
      rw [Function.update_self, hbefore, if_pos rfl, ← hdiff]
      exact congrArg some (Int.sub_sub _ _ _)
    · rw [Function.update_of_ne hkey, hheld.stock, if_neg (Ne.symm hkey), Int.add_zero]
  · intro key h
    rw [takenAt_append, takenAt_singleton] at h
    by_cases hkey : key = (storeId, productId)
    · rw [hkey]
      exact hwrote.taken _ (List.mem_singleton_self _) _ rfl
    · rw [if_neg (Ne.symm hkey), Int.add_zero] at h
      exact hwrote.held _ (hheld.owned key h)
  · intro key after hafter
    rw [hstock] at hafter
    by_cases hkey : key = (storeId, productId)
    · subst hkey
      rw [Function.update_self] at hafter
      have := Option.some.inj hafter
      omega
    · rw [Function.update_of_ne hkey] at hafter
      exact hheld.nonneg key after hafter
  · intro product wanted hshort after hafter
    rw [hstock] at hafter
    by_cases hkey : product = productId
    · subst hkey
      rw [Function.update_self] at hafter
      have hbefore := hheld.short product wanted hshort onHand hon
      have := Option.some.inj hafter
      omega
    · rw [Function.update_of_ne (by simpa using hkey)] at hafter
      exact hheld.short product wanted hshort after hafter

/-- An update that finds too little (or nothing) is worth remembering: the row can only get less. -/
theorem Holding.tooLittle (hheld : Holding storeId held t db) {productId quantity : ℤ}
    (hlittle : ∀ onHand, (db.ledger t).stock (storeId, productId) = some onHand → onHand < quantity) :
    Holding storeId { held with short := some (productId, quantity) } t db where
  lines := hheld.lines
  stores := hheld.stores
  head := hheld.head
  headed := hheld.headed
  positive := hheld.positive
  stock := hheld.stock
  owned := hheld.owned
  nonneg := hheld.nonneg
  short product wanted hshort := by
    obtain ⟨rfl, rfl⟩ := Prod.mk.inj (Option.some.inj hshort)
    exact hlittle

end Invariant
end RetailSegmentation.Sales
