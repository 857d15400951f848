import Mathlib.Data.List.Nodup
import Mathlib.Logic.Function.Basic
import RetailSegmentation.FloorOpening

/-! The sale screen of the floor phone (`SalesViewModel.kt`, `FloorWrites.queueSale`): the basket, the
confirming tap and its coroutine, product searches and other users signing in, each one turn of the main
thread. -/

namespace RetailSegmentation.FloorSales

/-! ### The screen -/

structure Product where
  productId : ℤ
  listPrice : String
  isActive : Bool
  deriving DecidableEq, Repr

structure Customer where
  customerId : String
  deriving DecidableEq, Repr

structure Channel where
  channelId : ℤ
  name : String
  deriving DecidableEq, Repr

structure SaleLine where
  product : Product
  quantity : Int32 := 1
  deriving DecidableEq

structure SaleBuilderState where
  query : String := ""
  products : List Product := []
  lines : List SaleLine := []
  loading : Bool := false
  error : Option Floor.ApiError := none
  confirming : Bool := false
  queuedRowId : Option ℕ := none

inductive HttpAnswer (α : Type) where
  | body (value : α)
  | refused (error : Floor.ApiError)
  | unreachable

inductive RowState where
  | pending
  | done
  | refused
  deriving DecidableEq, Repr

/-- A row of a check-in: the store of its body, and where it stands. -/
structure CheckIn where
  storeId : ℤ
  state : RowState
  deriving DecidableEq, Repr

structure SaleLineRequest where
  productId : ℤ
  quantity : Int32
  unitPrice : String
  deriving DecidableEq

/-- A queued SALE; the keys are numbered as they are drawn. -/
structure SaleRow where
  clientId : ℕ
  userId : String
  customerId : String
  storeId : ℤ
  channelId : ℤ
  occurredAt : ℤ
  lines : List SaleLineRequest
  deriving DecidableEq

/-- What the confirming tap sees. -/
structure Tap where
  userId : Option String
  customer : Option Customer
  store : Option Floor.ChosenStore
  channels : List Channel
  lines : List SaleLine
  now : ℤ

/-- What the coroutine of a confirm waits for: the check-in, its turn with it, or the insertion of its row. -/
inductive Phase where
  | reading
  | read (checkIn : Option CheckIn)
  | inserting
  deriving DecidableEq

/-- The coroutine of a confirm, with what its tap saw, how often the sale had been reset then, and the latest
check-ins of all users as its query found them. -/
structure Confirm where
  user : String
  customer : Customer
  store : Floor.ChosenStore
  channel : Channel
  lines : List SaleLineRequest
  now : ℤ
  phase : Phase
  tap : Tap
  resets : ℕ
  checkIns : String → Option CheckIn

/-- A row handed to the queue, with the tap and the check-ins it rests on and how often the sale had been reset. -/
structure Queued where
  row : SaleRow
  tap : Tap
  checkIns : String → Option CheckIn
  resets : ℕ

/-- The view model over the phone's session and its queue. -/
structure Model where
  userId : Option String
  chosenStore : Option Floor.ChosenStore
  owner : Option String
  selectedCustomer : Option Customer
  channels : List Channel
  sale : SaleBuilderState
  searches : ℕ
  checkIns : String → Option CheckIn
  drawn : ℕ
  confirms : ℕ → Option Confirm
  queued : List Queued
  resets : ℕ

def physicalStore : String := "physical_store"

def checkInRequired : Floor.ApiError := ⟨0, "check_in_required", "Check in at the selected store first.",
    none, none⟩

def queueFailed : Floor.ApiError :=
  ⟨0, "queue_failed", "Could not save the sale on this phone. Try confirming again.", none, none⟩

def SaleLine.request (line : SaleLine) : SaleLineRequest :=
  ⟨line.product.productId, line.quantity, line.product.listPrice⟩

def addLine (lines : List SaleLine) (product : Product) : List SaleLine :=
  match lines.findIdx? (fun line => line.product.productId = product.productId) with
  | none => lines ++ [{ product }]
  | some index => lines.modify index fun line => { line with quantity := line.quantity + 1 }

def setLine (lines : List SaleLine) (productId : ℤ) (quantity : Int32) : List SaleLine :=
  if quantity ≤ 0 then lines.filter fun line => line.product.productId ≠ productId
  else lines.map fun line => if line.product.productId = productId then { line with quantity } else line

/-- Whether a check-in lets a sale be queued at a store. -/
def admits (store : Floor.ChosenStore) (checkIn : Option CheckIn) : Bool :=
  checkIn.any fun checkIn => checkIn.storeId = store.storeId ∧ checkIn.state ≠ .refused

namespace Model

/-- As the screen is opened. -/
def start (userId : Option String) (chosenStore : Option Floor.ChosenStore)
    (checkIns : String → Option CheckIn) : Model :=
  ⟨userId, chosenStore, userId, none, [], { }, 0, checkIns, 0, fun _ => none, [], 0⟩

def Busy (m : Model) : Prop := m.sale.confirming ∨ m.sale.queuedRowId ≠ none

instance (m : Model) : Decidable m.Busy := inferInstanceAs (Decidable (_ ∨ _))

def userCollected (m : Model) : Model :=
  if m.owner ≠ m.userId then
    { m with owner := m.userId, selectedCustomer := none, channels := [], sale := { }, resets := m.resets + 1 }
  else m

def searchProducts (m : Model) (query : String) : Model :=
  { m with sale := { m.sale with query, loading := true, error := none }, searches := m.searches + 1 }

def productsAnswered (m : Model) (answer : HttpAnswer (List Product)) : Model :=
  if m.searches = 0 then m
  else match answer with
    | .body products =>
      { m with sale := { m.sale with loading := false, products }, searches := m.searches - 1 }
    | .refused error =>
      { m with sale := { m.sale with loading := false, error := some error }, searches := m.searches - 1 }
    | .unreachable =>
      { m with
        sale := { m.sale with loading := false, error := some (.unreachable none) }, searches := m.searches - 1 }

def addProduct (m : Model) (product : Product) : Model :=
  if m.Busy ∨ ¬ product.isActive then m
  else { m with sale := { m.sale with lines := addLine m.sale.lines product, error := none } }

def setQuantity (m : Model) (productId : ℤ) (quantity : Int32) : Model :=
  if m.Busy then m else { m with sale := { m.sale with lines := setLine m.sale.lines productId quantity } }

/-- What the coroutine of a confirm takes along. -/
def confirmation (m : Model) (now : ℤ) : Option Confirm := do
  let user ← m.userId
  let customer ← m.selectedCustomer
  let store ← m.chosenStore
  let channel ← m.channels.find? fun channel => channel.name = physicalStore
  let lines := m.sale.lines.map SaleLine.request
  if lines = [] then none
  else some ⟨user, customer, store, channel, lines, now, .reading,
    ⟨m.userId, m.selectedCustomer, m.chosenStore, m.channels, m.sale.lines, now⟩, m.resets, fun _ => none⟩

def setConfirm (m : Model) (id : ℕ) (confirm : Option Confirm) : Model :=
  { m with confirms := Function.update m.confirms id confirm }

def confirm (m : Model) (now : ℤ) : Model :=
  if m.Busy then m
  else match m.confirmation now with
    | none => m
    | some confirm => { m.setConfirm m.drawn (some confirm) with
        sale := { m.sale with confirming := true, error := none }, drawn := m.drawn + 1 }

/-- The query `latestCheckIn` of a confirm. -/
def queried (m : Model) (id : ℕ) : Model :=
  match m.confirms id with
  | some confirm =>
    if confirm.phase = .reading then m.setConfirm id
      (some { confirm with phase := .read (m.checkIns confirm.user), checkIns := m.checkIns })
    else m
  | none => m

/-- The coroutine is over. -/
def ended (m : Model) (id : ℕ) : Model := m.setConfirm id none

/-- The row is handed to the queue. -/
def queueSale (m : Model) (id : ℕ) (confirm : Confirm) : Model :=
  { m.setConfirm id (some { confirm with phase := .inserting }) with
    queued := m.queued ++ [⟨⟨id, confirm.user, confirm.customer.customerId, confirm.store.storeId,
      confirm.channel.channelId, confirm.now, confirm.lines⟩, confirm.tap, confirm.checkIns, m.resets⟩] }

def checkInRead (m : Model) (id : ℕ) : Model :=
  match m.confirms id with
  | some confirm => match confirm.phase with
    | .read checkIn =>
      if m.userId ≠ some confirm.user then m.ended id
      else if admits confirm.store checkIn then m.queueSale id confirm
      else { m.ended id with sale := { m.sale with confirming := false, error := some checkInRequired } }
    | _ => m
  | none => m

def inserted (m : Model) (id : ℕ) (rowId : ℕ) : Model :=
  match m.confirms id with
  | some confirm => if confirm.phase = .inserting then
      if m.userId = some confirm.user then
        { m.ended id with sale := { m.sale with queuedRowId := some rowId, confirming := false } }
      else m.ended id
    else m
  | none => m

def failed (m : Model) (id : ℕ) : Model :=
  match m.confirms id with
  | some _ => { m.ended id with
      sale := { m.sale with confirming := false, error := some queueFailed }
      queued := m.queued.filter fun q => q.row.clientId ≠ id }
  | none => m

def newSale (m : Model) : Model :=
  if m.sale.confirming then m else { m with sale := { }, resets := m.resets + 1 }

end Model

/-- A turn of the main thread, or a query of the phone's database. -/
inductive Event where
  | userChanged (userId : Option String)
  | userCollected
  | storeChanged (store : Option Floor.ChosenStore)
  | channelsListed (channels : List Channel)
  | selectCustomer (customer : Customer)
  | checkInsChanged (checkIns : String → Option CheckIn)
  | searchProducts (query : String)
  | productsAnswered (answer : HttpAnswer (List Product))
  | addProduct (product : Product)
  | setQuantity (productId : ℤ) (quantity : Int32)
  | confirm (now : ℤ)
  | queried (id : ℕ)
  | checkInRead (id : ℕ)
  | inserted (id : ℕ) (rowId : ℕ)
  | failed (id : ℕ)
  | newSale

def Model.after (m : Model) : Event → Model
  | .userChanged userId => { m with userId }
  | .userCollected => m.userCollected
  | .storeChanged store => { m with chosenStore := store }
  | .channelsListed channels => { m with channels }
  | .selectCustomer customer => { m with selectedCustomer := some customer }
  | .checkInsChanged checkIns => { m with checkIns }
  | .searchProducts query => m.searchProducts query
  | .productsAnswered answer => m.productsAnswered answer
  | .addProduct product => m.addProduct product
  | .setQuantity productId quantity => m.setQuantity productId quantity
  | .confirm now => m.confirm now
  | .queried id => m.queried id
  | .checkInRead id => m.checkInRead id
  | .inserted id rowId => m.inserted id rowId
  | .failed id => m.failed id
  | .newSale => m.newSale

/-- After some turns that are as they may be. -/
inductive Reached (may : Model → Event → Prop) : Model → Prop where
  | start (userId : Option String) (chosenStore : Option Floor.ChosenStore) (checkIns : String → Option CheckIn) :
    Reached may (.start userId chosenStore checkIns)
  | next {m : Model} (h : Reached may m) (event : Event) (hmay : may m event) : Reached may (m.after event)

/-! ### What the queue is to hold -/

/-- A row is of the user who confirmed and of what the tap saw, with good lines; and the user's latest
check-in was at its store and not refused. -/
structure Queued.Faithful (q : Queued) : Prop where
  user : q.tap.userId = some q.row.userId
  customer : q.tap.customer.map (·.customerId) = some q.row.customerId
  store : q.tap.store.map (·.storeId) = some q.row.storeId
  channel : ∃ channel ∈ q.tap.channels, channel.name = physicalStore ∧ q.row.channelId = channel.channelId
  lines : q.row.lines = q.tap.lines.map SaleLine.request
  distinct : (q.row.lines.map (·.productId)).Nodup
  quantities : ∀ line ∈ q.row.lines, 1 ≤ line.quantity
  checkIn : ∃ checkIn, q.checkIns q.row.userId = some checkIn ∧ checkIn.storeId = q.row.storeId ∧
    checkIn.state ≠ .refused

structure Model.OneSale (m : Model) : Prop where
  faithful : ∀ q ∈ m.queued, q.Faithful
  once : (m.queued.map (·.resets)).Nodup

/-- No quantity is at its bound when one more is added; and a confirm that goes on after the sale has been reset
neither queues its row nor ends another confirm. -/
def Model.Meets (m : Model) : Event → Prop
  | .addProduct product => ¬ m.Busy → product.isActive →
    ∀ line ∈ m.sale.lines, line.product.productId = product.productId → line.quantity ≠ Int32.maxValue
  | .checkInRead id => ∀ confirm checkIn, m.confirms id = some confirm → confirm.phase = .read checkIn →
    m.userId = some confirm.user →
      confirm.resets = m.resets ∨ ¬ admits confirm.store checkIn ∧ ¬ m.sale.confirming
  | .failed id => ∀ confirm, m.confirms id = some confirm → confirm.resets = m.resets ∨ ¬ m.sale.confirming
  | _ => True

/-! ### Lines -/

/-- The products are distinct and each is there at least once. -/
structure Basket (lines : List SaleLine) : Prop where
  distinct : (lines.map (·.product.productId)).Nodup
  quantities : ∀ line ∈ lines, 1 ≤ line.quantity

theorem one_le_succ {quantity : Int32} (hquantity : 1 ≤ quantity) (hmax : quantity ≠ Int32.maxValue) :
    1 ≤ quantity + 1 := by
  have hlow : 1 ≤ quantity.toInt := Int32.le_iff_toInt_le.mp hquantity
  have hhigh : quantity.toInt < 2147483647 := by
    have hle : quantity.toInt ≤ 2147483647 := quantity.toInt_le
    have hne : quantity.toInt ≠ 2147483647 := fun heq => hmax (Int32.toInt_inj.mp heq)
    omega
  have hsucc : (quantity + 1).toInt = quantity.toInt + 1 := by
    rw [Int32.toInt_add]
    exact Int.bmod_eq_of_le (by simp; omega) (by simp; omega)
  refine Int32.le_iff_toInt_le.mpr ?_
  rw [hsucc]
  change 1 ≤ quantity.toInt + 1
  omega

theorem addLine_cons (line : SaleLine) (rest : List SaleLine) (product : Product) :
    addLine (line :: rest) product =
      if line.product.productId = product.productId then { line with quantity := line.quantity + 1 } :: rest
      else line :: addLine rest product := by
  unfold addLine
  rw [List.findIdx?_cons]
  by_cases hsame : line.product.productId = product.productId
  · simp [hsame]
  · cases rest.findIdx? (fun line => line.product.productId = product.productId) with
    | none => simp [hsame]
    | some index => simp [hsame]

theorem productIds_addLine (lines : List SaleLine) (product : Product) :
    (addLine lines product).map (·.product.productId) =
      if product.productId ∈ lines.map (·.product.productId) then lines.map (·.product.productId)
      else lines.map (·.product.productId) ++ [product.productId] := by
  induction lines with
  | nil => rfl
  | cons line rest ih =>
    rw [addLine_cons]
    by_cases hsame : line.product.productId = product.productId
    · simp [hsame]
    · rw [if_neg hsame, List.map_cons, ih, List.map_cons]
      by_cases hmem : product.productId ∈ rest.map (·.product.productId)
      · rw [if_pos hmem, if_pos (List.mem_cons_of_mem _ hmem)]
      · rw [if_neg hmem, if_neg (List.not_mem_cons_of_ne_of_not_mem (Ne.symm hsame) hmem), List.cons_append]

theorem mem_addLine {lines : List SaleLine} {product : Product} {line : SaleLine}
    (hline : line ∈ addLine lines product) :
    line ∈ lines ∨ line = { product } ∨
      ∃ old ∈ lines, old.product.productId = product.productId ∧ line.quantity = old.quantity + 1 := by
  induction lines with
  | nil => exact .inr (.inl (List.mem_singleton.mp hline))
  | cons first rest ih =>
    rw [addLine_cons] at hline
    by_cases hsame : first.product.productId = product.productId
    · rw [if_pos hsame] at hline
      obtain rfl | hline := List.mem_cons.mp hline
      · exact .inr (.inr ⟨first, List.mem_cons_self, hsame, rfl⟩)
      · exact .inl (List.mem_cons_of_mem _ hline)
    · rw [if_neg hsame] at hline
      obtain rfl | hline := List.mem_cons.mp hline
      · exact .inl List.mem_cons_self
      · obtain hold | hnew | ⟨old, hold, hid, hquantity⟩ := ih hline
        · exact .inl (List.mem_cons_of_mem _ hold)
        · exact .inr (.inl hnew)
        · exact .inr (.inr ⟨old, List.mem_cons_of_mem _ hold, hid, hquantity⟩)

theorem Basket.addLine {lines : List SaleLine} {product : Product} (h : Basket lines)
    (hmax : ∀ line ∈ lines, line.product.productId = product.productId → line.quantity ≠ Int32.maxValue) :
    Basket (addLine lines product) := by
  constructor
  · rw [productIds_addLine]
    split_ifs with hmem
    · exact h.distinct
    · refine List.nodup_append.mpr ⟨h.distinct, List.nodup_singleton _, fun id hid id' hid' hsame => hmem ?_⟩
      rwa [← List.mem_singleton.mp hid', ← hsame]
  · intro line hline
    obtain hold | rfl | ⟨old, hold, hid, hquantity⟩ := mem_addLine hline
    · exact h.quantities line hold
    · exact Int32.le_refl 1
    · rw [hquantity]
      exact one_le_succ (h.quantities old hold) (hmax old hold hid)

theorem Basket.setLine {lines : List SaleLine} (h : Basket lines) (productId : ℤ) (quantity : Int32) :
    Basket (setLine lines productId quantity) := by
  unfold FloorSales.setLine
  split_ifs with hquantity
  · exact ⟨h.distinct.sublist (List.filter_sublist.map _),
      fun line hline => h.quantities line (List.mem_of_mem_filter hline)⟩
  · constructor
    · have hids : (lines.map fun line =>
          if line.product.productId = productId then { line with quantity } else line).map
          (·.product.productId) = lines.map (·.product.productId) := by
        rw [List.map_map]
        refine List.map_congr_left fun line _ => ?_
        simp only [Function.comp_apply]
        split_ifs
        · rfl
        · rfl
      rw [hids]
      exact h.distinct
    · intro line' hline'
      obtain ⟨line, hline, rfl⟩ := List.mem_map.mp hline'
      split_ifs
      · have hpos := Int32.lt_iff_toInt_lt.mp (Int32.not_le.mp hquantity)
        exact Int32.le_iff_toInt_le.mpr hpos
      · exact h.quantities line hline

/-! ### Confirms -/

/-- A confirm takes along what its tap saw. -/
structure Confirm.Kept (c : Confirm) : Prop where
  user : c.tap.userId = some c.user
  customer : c.tap.customer = some c.customer
  store : c.tap.store = some c.store
  channel : c.channel ∈ c.tap.channels ∧ c.channel.name = physicalStore
  lines : c.lines = c.tap.lines.map SaleLine.request
  basket : Basket c.tap.lines
  read : ∀ checkIn, c.phase = .read checkIn → checkIn = c.checkIns c.user

theorem Confirm.Kept.setRead {c : Confirm} (h : c.Kept) (checkIns : String → Option CheckIn) :
    ({ c with phase := .read (checkIns c.user), checkIns } : Confirm).Kept :=
  ⟨h.user, h.customer, h.store, h.channel, h.lines, h.basket, fun _ hphase => (Phase.read.inj hphase).symm⟩

theorem Confirm.Kept.setInserting {c : Confirm} (h : c.Kept) : ({ c with phase := .inserting } : Confirm).Kept :=
  ⟨h.user, h.customer, h.store, h.channel, h.lines, h.basket, fun _ => Phase.noConfusion⟩

def Confirm.row (c : Confirm) (id : ℕ) : SaleRow :=
  ⟨id, c.user, c.customer.customerId, c.store.storeId, c.channel.channelId, c.now, c.lines⟩

theorem Confirm.Kept.faithful {c : Confirm} (h : c.Kept) (hadmits : admits c.store (c.checkIns c.user))
    (id resets : ℕ) : Queued.Faithful ⟨c.row id, c.tap, c.checkIns, resets⟩ := by
  have hids : c.lines.map (·.productId) = c.tap.lines.map (·.product.productId) := by
    rw [h.lines, List.map_map]
    rfl
  constructor
  · exact h.user
  · exact congrArg (Option.map (·.customerId)) h.customer
  · exact congrArg (Option.map (·.storeId)) h.store
  · exact ⟨c.channel, h.channel.1, h.channel.2, rfl⟩
  · exact h.lines
  · change (c.lines.map (·.productId)).Nodup
    rw [hids]
    exact h.basket.distinct
  · intro line hline
    change line ∈ c.lines at hline
    rw [h.lines] at hline
    obtain ⟨shown, hshown, rfl⟩ := List.mem_map.mp hline
    exact h.basket.quantities shown hshown
  · obtain ⟨checkIn, hcheckIn, hgood⟩ := (Option.any_eq_true _ _).mp hadmits
    exact ⟨checkIn, hcheckIn, of_decide_eq_true hgood⟩

namespace Model

variable {m : Model} {id : ℕ} {c : Confirm}

theorem confirmation_cases {now : ℤ} (hc : m.confirmation now = some c) (hbasket : Basket m.sale.lines) :
    c.Kept ∧ c.resets = m.resets ∧ c.phase = .reading := by
  simp only [Model.confirmation, Option.bind_eq_bind, Option.bind_eq_some_iff] at hc
  obtain ⟨user, huser, customer, hcustomer, store, hstore, channel, hchannel, hc⟩ := hc
  split_ifs at hc
  obtain rfl := Option.some.inj hc
  refine ⟨⟨huser, hcustomer, hstore, ⟨List.mem_of_find?_eq_some hchannel, ?_⟩, rfl, hbasket, fun _ => ?_⟩, rfl, rfl⟩
  · simpa using List.find?_some hchannel
  · exact Phase.noConfusion

/-! ### One sale between two resets -/

/-- Confirms keep what their taps saw, rows are faithful; and of the time since the last reset there is at
most one confirm, at most one row, no row before the confirm has come to its insertion, and neither while the
sale is open. -/
structure Orderly (m : Model) : Prop where
  basket : Basket m.sale.lines
  kept : ∀ id c, m.confirms id = some c → c.Kept ∧ c.resets ≤ m.resets
  rows : ∀ q ∈ m.queued, q.Faithful ∧ q.resets ≤ m.resets
  once : (m.queued.map (·.resets)).Nodup
  single : ∀ id c id' c', m.confirms id = some c → m.confirms id' = some c' → c.resets = m.resets →
    c'.resets = m.resets → id = id'
  unspent : ∀ id c, m.confirms id = some c → c.resets = m.resets → c.phase ≠ .inserting →
    ∀ q ∈ m.queued, q.resets ≠ m.resets
  own : ∀ id c, m.confirms id = some c → c.resets = m.resets → ∀ q ∈ m.queued,
    q.resets = m.resets → q.row.clientId = id
  idle : ¬ m.Busy → (∀ id c, m.confirms id = some c → c.resets ≠ m.resets) ∧ ∀ q ∈ m.queued, q.resets ≠ m.resets

/-- Every confirm of the second model is one of the first, that may have come to a later phase. -/
def Older (m m' : Model) : Prop :=
  ∀ id c', m'.confirms id = some c' → ∃ c, m.confirms id = some c ∧ c.resets = c'.resets ∧ (c.Kept → c'.Kept) ∧
    (c.phase = .inserting → c'.phase = .inserting)

theorem older_of_eq {m' : Model} (hconfirms : m'.confirms = m.confirms) : m.Older m' :=
  fun _ c hc => ⟨c, hconfirms ▸ hc, rfl, fun hkept => hkept, fun hphase => hphase⟩

/-- A turn that leaves the rows alone, starts no confirm, and opens no sale that was not open. -/
theorem Orderly.aside {m' : Model} (h : m.Orderly) (hbasket : Basket m'.sale.lines) (hbusy : m.Busy → m'.Busy)
    (hconfirms : m.Older m') (hqueued : m'.queued = m.queued) (hresets : m'.resets = m.resets) : m'.Orderly := by
  constructor
  · exact hbasket
  · intro id c' hc'
    obtain ⟨c, hc, hsame, hkept, -⟩ := hconfirms id c' hc'
    rw [← hsame, hresets]
    exact ⟨hkept (h.kept id c hc).1, (h.kept id c hc).2⟩
  · rw [hqueued, hresets]
    exact h.rows
  · rw [hqueued]
    exact h.once
  · intro id c' id' d' hc' hd' hnow hnow'
    obtain ⟨c, hc, hsame, -, -⟩ := hconfirms id c' hc'
    obtain ⟨d, hd, hsame', -, -⟩ := hconfirms id' d' hd'
    exact h.single id c id' d hc hd (by omega) (by omega)
  · intro id c' hc' hnow hphase
    obtain ⟨c, hc, hsame, -, hinserting⟩ := hconfirms id c' hc'
    rw [hqueued, hresets]
    exact h.unspent id c hc (by omega) fun hc => hphase (hinserting hc)
  · intro id c' hc' hnow
    obtain ⟨c, hc, hsame, -, -⟩ := hconfirms id c' hc'
    rw [hqueued, hresets]
    exact h.own id c hc (by omega)
  · intro hidle
    have hfree := h.idle fun hbusy' => hidle (hbusy hbusy')
    rw [hqueued, hresets]
    refine ⟨fun id c' hc' => ?_, hfree.2⟩
    obtain ⟨c, hc, hsame, -, -⟩ := hconfirms id c' hc'
    rw [← hsame]
    exact hfree.1 id c hc

theorem Orderly.reset {m' : Model} (h : m.Orderly) (hlines : m'.sale.lines = [])
    (hconfirms : m'.confirms = m.confirms)
    (hqueued : m'.queued = m.queued) (hresets : m'.resets = m.resets + 1) : m'.Orderly := by
  have hconfirm : ∀ id c, m'.confirms id = some c → c.resets < m'.resets := by
    rw [hconfirms, hresets]
    exact fun id c hc => Nat.lt_succ_of_le (h.kept id c hc).2
  have hrow : ∀ q ∈ m'.queued, q.resets < m'.resets := by
    rw [hqueued, hresets]
    exact fun q hq => Nat.lt_succ_of_le (h.rows q hq).2
  constructor
  · rw [hlines]
    exact ⟨List.nodup_nil, fun line hline => absurd hline List.not_mem_nil⟩
  · exact fun id c hc => ⟨(h.kept id c (hconfirms ▸ hc)).1, Nat.le_of_lt (hconfirm id c hc)⟩
  · exact fun q hq => ⟨(h.rows q (hqueued ▸ hq)).1, Nat.le_of_lt (hrow q hq)⟩
  · rw [hqueued]
    exact h.once
  · exact fun id c _ _ hc _ hnow => absurd hnow (Nat.ne_of_lt (hconfirm id c hc))
  · exact fun id c hc hnow => absurd hnow (Nat.ne_of_lt (hconfirm id c hc))
  · exact fun id c hc hnow => absurd hnow (Nat.ne_of_lt (hconfirm id c hc))
  · exact fun _ => ⟨fun id c hc => Nat.ne_of_lt (hconfirm id c hc), fun q hq => Nat.ne_of_lt (hrow q hq)⟩

theorem confirms_setConfirm {confirm : Option Confirm} {id' : ℕ} {c' : Confirm}
    (hc : (m.setConfirm id confirm).confirms id' = some c') :
    id' = id ∧ confirm = some c' ∨ id' ≠ id ∧ m.confirms id' = some c' := by
  change Function.update m.confirms id confirm id' = some c' at hc
  by_cases hid : id' = id
  · refine .inl ⟨hid, ?_⟩
    rwa [hid, Function.update_self] at hc
  · refine .inr ⟨hid, ?_⟩
    rwa [Function.update_of_ne hid] at hc

theorem confirms_ended {id' : ℕ} {c' : Confirm} (hc : (m.ended id).confirms id' = some c') :
    id' ≠ id ∧ m.confirms id' = some c' := by
  obtain ⟨-, hnone⟩ | hother := confirms_setConfirm hc
  · cases hnone
  · exact hother

theorem Orderly.ended (h : m.Orderly) (id : ℕ) : (m.ended id).Orderly :=
  h.aside h.basket (fun hbusy => hbusy)
    (fun _ c hc => ⟨c, (confirms_ended hc).2, rfl, fun hkept => hkept, fun hphase => hphase⟩) rfl rfl

theorem Orderly.released (h : m.Orderly) (hc : m.confirms id = some c) (error : Floor.ApiError)
    {rows : List Queued}
    (hrows : rows.Sublist m.queued) (hlate : c.resets = m.resets ∨ ¬ m.sale.confirming)
    (hspent : c.resets = m.resets → ∀ q ∈ rows, q.resets ≠ m.resets) :
    ({ m.ended id with
      sale := { m.sale with confirming := false, error := some error }, queued := rows } : Model).Orderly := by
  have hended := h.ended id
  constructor
  · exact h.basket
  · exact hended.kept
  · exact fun q hq => h.rows q (hrows.subset hq)
  · exact h.once.sublist (hrows.map _)
  · exact hended.single
  · exact fun id' c' hc' hnow hphase q hq => hended.unspent id' c' hc' hnow hphase q (hrows.subset hq)
  · exact fun id' c' hc' hnow q hq => hended.own id' c' hc' hnow q (hrows.subset hq)
  · intro hidle
    obtain hnow | hconfirming := hlate
    · refine ⟨fun id' c' hc' hnow' => ?_, hspent hnow⟩
      obtain ⟨hother, hc'⟩ := confirms_ended hc'
      exact hother (h.single id' c' id c hc' hc hnow' hnow)
    · have hfree : ¬ m.Busy := fun hbusy => hidle (.inr (hbusy.resolve_left hconfirming))
      exact ⟨(hended.idle hfree).1, fun q hq => (h.idle hfree).2 q (hrows.subset hq)⟩

theorem Orderly.queried (h : m.Orderly) (id : ℕ) : (m.queried id).Orderly := by
  unfold Model.queried
  split
  · rename_i c hc
    split_ifs with hphase
    · refine h.aside h.basket (fun hbusy => hbusy) (fun id' c' hc' => ?_) rfl rfl
      obtain ⟨rfl, hnew⟩ | ⟨-, hc'⟩ := confirms_setConfirm hc'
      · obtain rfl := Option.some.inj hnew
        refine ⟨c, hc, rfl, fun hkept => hkept.setRead _, fun hinserting => ?_⟩
        cases hphase.symm.trans hinserting
      · exact ⟨c', hc', rfl, fun hkept => hkept, fun hinserting => hinserting⟩
    · exact h
  · exact h

theorem Orderly.confirm (h : m.Orderly) (now : ℤ) : (m.confirm now).Orderly := by
  unfold Model.confirm
  split_ifs with hbusy
  · exact h
  · split
    · exact h
    · rename_i c hc
      obtain ⟨hkept, hresets, hphase⟩ := confirmation_cases hc h.basket
      obtain ⟨hconfirms, hqueued⟩ := h.idle hbusy
      have hnew : ∀ id' c', (m.setConfirm m.drawn (some c)).confirms id' = some c' → c'.resets = m.resets →
          id' = m.drawn := by
        intro id' c' hc' hnow
        obtain ⟨hid, -⟩ | ⟨-, hold⟩ := confirms_setConfirm hc'
        · exact hid
        · exact absurd hnow (hconfirms id' c' hold)
      constructor
      · exact h.basket
      · intro id' c' hc'
        obtain ⟨-, hsame⟩ | ⟨-, hold⟩ := confirms_setConfirm hc'
        · obtain rfl := Option.some.inj hsame
          exact ⟨hkept, Nat.le_of_eq hresets⟩
        · exact h.kept id' c' hold
      · exact h.rows
      · exact h.once
      · exact fun id' c' id'' c'' hc' hc'' hnow hnow' =>
          (hnew id' c' hc' hnow).trans (hnew id'' c'' hc'' hnow').symm
      · exact fun _ _ _ _ _ => hqueued
      · exact fun _ _ _ _ q hq hnow => absurd hnow (hqueued q hq)
      · exact fun hidle => absurd (.inl rfl) hidle

theorem Orderly.queueSale (h : m.Orderly) (hc : m.confirms id = some c) (hphase : c.phase ≠ .inserting)
    (hnow : c.resets = m.resets) (hadmits : admits c.store (c.checkIns c.user)) : (m.queueSale id c).Orderly := by
  have hkept := h.kept id c hc
  have hunspent := h.unspent id c hc hnow hphase
  have hbusy : m.Busy := by
    by_contra hidle
    exact (h.idle hidle).1 id c hc hnow
  have hold : ∀ id' c', (m.setConfirm id (some { c with phase := .inserting })).confirms id' = some c' →
      c'.resets = m.resets → id' = id ∧ c'.phase = .inserting := by
    intro id' c' hc' hnow'
    obtain ⟨hid, hsame⟩ | ⟨hid, hother⟩ := confirms_setConfirm hc'
    · obtain rfl := Option.some.inj hsame
      exact ⟨hid, rfl⟩
    · exact absurd (h.single id' c' id c hother hc hnow' hnow) hid
  constructor
  · exact h.basket
  · intro id' c' hc'
    obtain ⟨-, hsame⟩ | ⟨-, hother⟩ := confirms_setConfirm hc'
    · obtain rfl := Option.some.inj hsame
      exact ⟨hkept.1.setInserting, hkept.2⟩
    · exact h.kept id' c' hother
  · intro q hq
    obtain hq | hq := List.mem_append.mp hq
    · exact h.rows q hq
    · rw [List.mem_singleton.mp hq]
      exact ⟨hkept.1.faithful hadmits id m.resets, Nat.le_refl _⟩
  · change ((m.queued ++ [_]).map _).Nodup
    rw [List.map_append, List.nodup_append]
    refine ⟨h.once, List.nodup_singleton _, fun resets hresets resets' hresets' hsame => ?_⟩
    obtain ⟨q, hq, rfl⟩ := List.mem_map.mp hresets
    exact hunspent q hq (hsame.trans (List.mem_singleton.mp hresets'))
  · exact fun id' c' id'' c'' hc' hc'' hnow' hnow'' =>
      (hold id' c' hc' hnow').1.trans (hold id'' c'' hc'' hnow'').1.symm
  · exact fun id' c' hc' hnow' hinserting => absurd (hold id' c' hc' hnow').2 hinserting
  · intro id' c' hc' hnow' q hq hrow
    rw [(hold id' c' hc' hnow').1]
    obtain hq | hq := List.mem_append.mp hq
    · exact absurd hrow (hunspent q hq)
    · rw [List.mem_singleton.mp hq]
  · exact fun hidle => absurd hbusy hidle

theorem Orderly.checkInRead (h : m.Orderly) (id : ℕ) (hmeets : m.Meets (.checkInRead id)) :
    (m.checkInRead id).Orderly := by
  unfold Model.checkInRead
  split
  · rename_i c hc
    split
    · rename_i checkIn hphase
      have hreading : c.phase ≠ .inserting := by
        rw [hphase]
        exact Phase.noConfusion
      split_ifs with huser hadmits
      · exact h.ended id
      · have hlate := hmeets c checkIn hc hphase (not_not.mp huser)
        have hlatest := (h.kept id c hc).1.read checkIn hphase
        exact h.queueSale hc hreading (hlate.resolve_right fun hrefused => hrefused.1 hadmits) (hlatest ▸ hadmits)
      · have hlate := hmeets c checkIn hc hphase (not_not.mp huser)
        exact h.released hc checkInRequired (List.Sublist.refl _) (hlate.imp_right And.right)
          fun hnow => h.unspent id c hc hnow hreading
    · exact h
  · exact h

theorem Orderly.inserted (h : m.Orderly) (id rowId : ℕ) : (m.inserted id rowId).Orderly := by
  unfold Model.inserted
  split
  · split_ifs
    · exact (h.ended id).aside h.basket (fun _ => .inr (Option.some_ne_none rowId)) (older_of_eq rfl) rfl rfl
    · exact h.ended id
    · exact h
  · exact h

theorem Orderly.failed (h : m.Orderly) (id : ℕ) (hmeets : m.Meets (.failed id)) : (m.failed id).Orderly := by
  unfold Model.failed
  split
  · rename_i c hc
    refine h.released hc queueFailed List.filter_sublist (hmeets c hc) fun hnow q hq hrow => ?_
    obtain ⟨hq, hother⟩ := List.mem_filter.mp hq
    exact of_decide_eq_true hother (h.own id c hc hnow q hq hrow)
  · exact h

theorem Orderly.newSale (h : m.Orderly) : m.newSale.Orderly := by
  unfold Model.newSale
  split_ifs
  · exact h
  · exact h.reset rfl rfl rfl rfl

theorem Orderly.userCollected (h : m.Orderly) : m.userCollected.Orderly := by
  unfold Model.userCollected
  split_ifs
  · exact h.reset rfl rfl rfl rfl
  · exact h

theorem Orderly.productsAnswered (h : m.Orderly) (answer : HttpAnswer (List Product)) :
    (m.productsAnswered answer).Orderly := by
  unfold Model.productsAnswered
  split_ifs
  · exact h
  · cases answer with
    | body products => exact h.aside h.basket (fun hbusy => hbusy) (older_of_eq rfl) rfl rfl
    | refused error => exact h.aside h.basket (fun hbusy => hbusy) (older_of_eq rfl) rfl rfl
    | unreachable => exact h.aside h.basket (fun hbusy => hbusy) (older_of_eq rfl) rfl rfl

theorem Orderly.addProduct (h : m.Orderly) (product : Product) (hmeets : m.Meets (.addProduct product)) :
    (m.addProduct product).Orderly := by
  unfold Model.addProduct
  split_ifs with hblocked
  · exact h
  · obtain ⟨hidle, hactive⟩ := not_or.mp hblocked
    have hbasket := h.basket.addLine (hmeets hidle (not_not.mp hactive))
    exact h.aside hbasket (fun hbusy => hbusy) (older_of_eq rfl) rfl rfl

theorem Orderly.setQuantity (h : m.Orderly) (productId : ℤ) (quantity : Int32) :
    (m.setQuantity productId quantity).Orderly := by
  unfold Model.setQuantity
  split_ifs
  · exact h
  · exact h.aside (h.basket.setLine productId quantity) (fun hbusy => hbusy) (older_of_eq rfl) rfl rfl

theorem Orderly.after (h : m.Orderly) (event : Event) (hmeets : m.Meets event) : (m.after event).Orderly := by
  cases event with
  | userChanged userId => exact h.aside h.basket (fun hbusy => hbusy) (older_of_eq rfl) rfl rfl
  | userCollected => exact h.userCollected
  | storeChanged store => exact h.aside h.basket (fun hbusy => hbusy) (older_of_eq rfl) rfl rfl
  | channelsListed channels => exact h.aside h.basket (fun hbusy => hbusy) (older_of_eq rfl) rfl rfl
  | selectCustomer customer => exact h.aside h.basket (fun hbusy => hbusy) (older_of_eq rfl) rfl rfl
  | checkInsChanged checkIns => exact h.aside h.basket (fun hbusy => hbusy) (older_of_eq rfl) rfl rfl
  | searchProducts query => exact h.aside h.basket (fun hbusy => hbusy) (older_of_eq rfl) rfl rfl
  | productsAnswered answer => exact h.productsAnswered answer
  | addProduct product => exact h.addProduct product hmeets
  | setQuantity productId quantity => exact h.setQuantity productId quantity
  | confirm now => exact h.confirm now
  | queried id => exact h.queried id
  | checkInRead id => exact h.checkInRead id hmeets
  | inserted id rowId => exact h.inserted id rowId
  | failed id => exact h.failed id hmeets
  | newSale => exact h.newSale

end Model

/-! ### Runs -/

theorem Reached.orderly {m : Model} (h : Reached Model.Meets m) : m.Orderly := by
  induction h with
  | start userId chosenStore checkIns =>
    constructor
    · exact ⟨List.nodup_nil, fun line hline => absurd hline List.not_mem_nil⟩
    · exact fun _ _ hc => absurd hc (Option.some_ne_none _).symm
    · exact fun q hq => absurd hq List.not_mem_nil
    · exact List.nodup_nil
    · exact fun _ _ _ _ hc => absurd hc (Option.some_ne_none _).symm
    · exact fun _ _ hc => absurd hc (Option.some_ne_none _).symm
    · exact fun _ _ hc => absurd hc (Option.some_ne_none _).symm
    · exact fun _ => ⟨fun _ _ hc => absurd hc (Option.some_ne_none _).symm, fun q hq => absurd hq List.not_mem_nil⟩
  | next _ event hmeets ih => exact ih.after event hmeets

/-- In every run whose turns meet the condition, a sale that has been confirmed is queued once: as its tap saw it,
with good lines, at a store where its user has checked in. -/
theorem one_sale {m : Model} (h : Reached Model.Meets m) : m.OneSale :=
  ⟨fun q hq => (h.orderly.rows q hq).1, h.orderly.once⟩

def Model.run (m : Model) (events : List Event) : Model := events.foldl Model.after m

/-- Each turn of a run is as it may be. -/
def Model.May (may : Model → Event → Prop) : Model → List Event → Prop
  | _, [] => True
  | m, event :: events => may m event ∧ Model.May may (m.after event) events

theorem Reached.run {may : Model → Event → Prop} {m : Model} (h : Reached may m) {events : List Event}
    (hmay : Model.May may m events) : Reached may (m.run events) := by
  induction events generalizing m with
  | nil => exact h
  | cons event events ih => exact ih (h.next event hmay.1) hmay.2

/-- Ana has checked in at store 1. -/
def opened : Model := .start (some "ana") (some ⟨1, "Centro"⟩) fun user => if user = "ana" then some ⟨1,
    .done⟩ else none

def lamp : Product := ⟨7, "120.00", true⟩

def basketTurns : List Event :=
  [.channelsListed [⟨3, physicalStore⟩], .selectCustomer ⟨"c1"⟩, .storeChanged (some ⟨1, "Centro"⟩),
    .addProduct lamp]

theorem one_sale_lamp :
    (opened.run (basketTurns ++ [.confirm 0, .queried 0, .checkInRead 0, .inserted 0 1])).OneSale := by
  refine one_sale (Reached.run (.start _ _ _) ?_)
  refine ⟨trivial, trivial, trivial, fun _ _ line hline => ?_, trivial, trivial, fun c checkIn hc _ _ => ?_,
    trivial, trivial⟩
  · exact absurd hline List.not_mem_nil
  · cases hc
    exact .inl rfl

/-- One more lamp than an `Int` counts. -/
def overflowTurns : List Event :=
  basketTurns ++ [.setQuantity 7 Int32.maxValue, .addProduct lamp, .confirm 0, .queried 0, .checkInRead 0]

theorem may_all (m : Model) (events : List Event) : Model.May (fun _ _ => True) m events := by
  induction events generalizing m with
  | nil => trivial
  | cons event events ih => exact ⟨trivial, ih _⟩

theorem overflow_negative : ¬ ∀ m, Reached (fun _ _ => True) m → m.OneSale := by
  intro h
  have hreached : Reached (fun _ _ => True) (opened.run overflowTurns) := .run (.start _ _ _) (may_all _ _)
  have hfaithful := (h _ hreached).faithful
  have hquantities : ∀ q ∈ (opened.run overflowTurns).queued, ∀ line ∈ q.row.lines, 1 ≤ line.quantity :=
    fun q hq => (hfaithful q hq).quantities
  revert hquantities
  decide

/-- Ana signs out and in again while her check-in is read, and confirms another basket. -/
def lateTurns : List Event :=
  basketTurns ++ [.confirm 0, .userChanged none, .userCollected, .userChanged (some "ana"), .userCollected] ++
    basketTurns ++ [.confirm 1, .queried 0, .checkInRead 0, .queried 1, .checkInRead 1]

theorem late_twice : ∃ m, Reached (fun _ _ => True) m ∧ ¬ (m.queued.map (·.resets)).Nodup :=
  ⟨opened.run lateTurns, .run (.start _ _ _) (may_all _ _), by decide⟩

end RetailSegmentation.FloorSales
