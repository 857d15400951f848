import Mathlib.Data.List.Destutter
import RetailSegmentation.FloorOpening

/-! The scan screen of the floor phone (`ScanViewModel.kt`, `ScanSession.kt`): frames, entries by hand, openings of
products and the answers to their look-ups, each one turn of the main thread. -/

namespace RetailSegmentation.FloorScans

/-! ### Scans -/

/-- Kotlin's classes of characters: white space, and the value of a decimal digit. -/
structure Characters where
  isWhitespace : Char → Bool
  digit : Char → Option ℕ

inductive Payload where
  | productId (value : ℕ)
  | notAProduct
  deriving DecidableEq, Repr

/-- Of digits; `null` beyond an `Int`. -/
def toIntOrNull (digits : List ℕ) : Option ℕ :=
  let value := digits.foldl (fun n d => 10 * n + d) 0
  if value ≤ 2147483647 then some value else none

def parseProductId (characters : Characters) (raw : List Char) : Payload :=
  let text := ((raw.dropWhile characters.isWhitespace).reverse.dropWhile characters.isWhitespace).reverse
  if text = [] ∨ text.any (fun c => (characters.digit c).isNone) then .notAProduct
  else match toIntOrNull (text.filterMap characters.digit) with
    | none => .notAProduct
    | some value => if 1 ≤ value then .productId value else .notAProduct

/-- The ids are numbered as they are drawn. -/
structure Scan where
  payload : Payload
  clientEventId : ℕ
  occurredAt : ℤ
  deriving DecidableEq, Repr

structure ScanSession where
  last : Option (List Char)
  deriving DecidableEq, Repr

/-- A scan for a new code, nothing for a frame that repeats the last one. -/
def ScanSession.onDecoded (characters : Characters) (session : ScanSession) (raw : List Char) (newId : ℕ)
    (now : ℤ) :
    Option Scan × ScanSession :=
  if session.last = some raw then (none, session) else (some ⟨parseProductId characters raw, newId, now⟩,
    ⟨some raw⟩)

def ScanSession.scanAgain (_ : ScanSession) : ScanSession := ⟨none⟩

/-! ### The view model -/

structure Product where
  productId : ℕ
  name : String
  deriving DecidableEq, Repr

inductive ScanResult where
  | idle
  | noStore
  | notAProduct
  | productNotFound
  | looking
  | shown (product : Product) (storeName : String) (quantity : Option ℤ) (stockError : Option Floor.ApiError)
    (rowId : Option ℕ)
  | failed (error : Floor.ApiError)
  deriving DecidableEq, Repr

/-- What `latestScan` tells apart: the id of a scan, or of an opening. -/
inductive Token where
  | scan (id : ℕ)
  | opening (id : ℕ)
  deriving DecidableEq, Repr

/-- What `call` comes to. -/
inductive Answer (α : Type) where
  | body (value : α)
  | refused (error : Floor.ApiError)

def Answer.quantity : Answer ℤ → Option ℤ
  | .body quantityOnHand => some quantityOnHand
  | .refused _ => none

def Answer.stockError : Answer ℤ → Option Floor.ApiError
  | .body _ => none
  | .refused error => if error.code ≠ "stock_level_not_found" then some error else none

/-- What a look-up waits for: the product, its stock, or the insertion of its row. -/
inductive Phase where
  | product
  | stock (product : Product)
  | insert (product : Product) (quantity : Option ℤ) (stockError : Option Floor.ApiError)

/-- A look-up under way; only one of a scan counts. -/
structure LookUp where
  user : String
  store : Floor.ChosenStore
  productId : ℕ
  scan : Option Scan
  phase : Phase

/-- A queued QR_SCAN. -/
structure QrRow where
  clientEventId : ℕ
  storeId : ℤ
  productId : ℕ
  occurredAt : ℤ
  customerId : Option String
  userId : String
  deriving DecidableEq, Repr

/-- A call of the scan session. -/
inductive Call where
  | decoded (raw : List Char)
  | again
  deriving DecidableEq, Repr

/-- What became of a scan: who was signed in and which store was chosen at it; the product that was found, and
who was signed in then; who was signed in at the answer of stock-service; and whether its user was signed in
all the while. -/
structure Story where
  raw : List Char
  scan : Scan
  user : Option String
  store : Option Floor.ChosenStore
  found : Option (Product × Option String)
  stock : Option (Option String)
  stayed : Bool
  deriving DecidableEq

def Story.setFound (product : Product) (user : Option String) (story : Story) : Story :=
  { story with found := some (product, user) }

def Story.setStock (user : Option String) (story : Story) : Story := { story with stock := some user }

theorem Story.raw_setFound (product : Product) (user : Option String) (story : Story) :
    (story.setFound product user).raw = story.raw :=
  rfl

theorem Story.raw_setStock (user : Option String) (story : Story) : (story.setStock user).raw = story.raw :=
  rfl

theorem Story.scan_setFound (product : Product) (user : Option String) (story : Story) :
    (story.setFound product user).scan = story.scan :=
  rfl

theorem Story.scan_setStock (user : Option String) (story : Story) : (story.setStock user).scan = story.scan :=
  rfl

/-- The view model over the phone's session; the last four fields are what has happened: the calls of the scan
session, its scans, the newest scan or opening, and what the result shown is of. -/
structure Model where
  userId : Option String
  chosenStore : Option Floor.ChosenStore
  currentUser : Option String
  latestScan : Option Token
  session : ScanSession
  result : ScanResult
  drawn : ℕ
  lookUps : Token → Option LookUp
  rows : List QrRow
  calls : List Call
  stories : List Story
  newest : Option Token
  shownFor : Option Token

namespace Model

/-- As the screen is opened. -/
def start (userId : Option String) (chosenStore : Option Floor.ChosenStore) : Model :=
  ⟨userId, chosenStore, userId, none, ⟨none⟩, .idle, 0, fun _ => none, [], [], [], none, none⟩

/-- `session.scanAgain()`. -/
def forget (m : Model) : Model := { m with session := m.session.scanAgain, calls := m.calls ++ [.again] }

def scanAgain (m : Model) : Model := { m.forget with latestScan := none, result := .idle, shownFor := none }

def synchronizeSession (m : Model) : Model :=
  if m.userId ≠ m.currentUser then { m with currentUser := m.userId }.scanAgain else m

/-- `result.value = answer`. -/
def put (m : Model) (token : Token) (answer : ScanResult) : Model :=
  { m with result := answer, shownFor := some token }

/-- `show`, with the check of `stillSignedIn`. -/
def present (m : Model) (token : Token) (user : String) (answer : ScanResult) : Model :=
  if m.userId = some user then (if m.latestScan = some token then m.put token answer else m)
  else m.synchronizeSession

def setLookUp (m : Model) (token : Token) (lookUp : Option LookUp) : Model :=
  { m with lookUps := Function.update m.lookUps token lookUp }

/-- `lookUp`, up to its first request. -/
def lookUp (m : Model) (token : Token) (user : String) (store : Floor.ChosenStore) (productId : ℕ)
    (scan : Option Scan) : Model :=
  (m.put token .looking).setLookUp token (some ⟨user, store, productId, scan, .product⟩)

def handle (m : Model) (scan : Scan) : Model :=
  match m.userId with
  | none => m
  | some user =>
    let m := { m with latestScan := some (.scan scan.clientEventId) }
    match m.chosenStore with
    | none => m.put (.scan scan.clientEventId) .noStore
    | some store => match scan.payload with
      | .notAProduct => m.put (.scan scan.clientEventId) .notAProduct
      | .productId value => m.lookUp (.scan scan.clientEventId) user store value (some scan)

/-- `session.onDecoded(raw)`, noted. -/
def decode (characters : Characters) (m : Model) (raw : List Char) (now : ℤ) : Option Scan × Model :=
  match m.session.onDecoded characters raw m.drawn now with
  | (none, session) => (none, { m with session, calls := m.calls ++ [.decoded raw] })
  | (some scan, session) => (some scan, { m with
      session, calls := m.calls ++ [.decoded raw], drawn := m.drawn + 1, newest := some (.scan scan.clientEventId)
      stories := m.stories ++ [⟨raw, scan, m.userId, m.chosenStore, none, none, true⟩] })

def onDecoded (characters : Characters) (m : Model) (raw : List Char) (now : ℤ) : Model :=
  match m.synchronizeSession.decode characters raw now with
  | (none, m) => m
  | (some scan, m) => m.handle scan

def onManualEntry (characters : Characters) (m : Model) (raw : List Char) (now : ℤ) : Model :=
  m.forget.onDecoded characters raw now

def opened (m : Model) : Model :=
  { m.forget with drawn := m.drawn + 1, latestScan := some (.opening m.drawn), newest := some (.opening m.drawn) }

def showProduct (m : Model) (productId : ℕ) : Model :=
  let m := m.synchronizeSession
  match m.userId with
  | none => m
  | some user =>
    match m.chosenStore with
    | none => m.opened.put (.opening m.drawn) .noStore
    | some store => m.opened.lookUp (.opening m.drawn) user store productId none

/-- What is noted of the scan of this token. -/
def note (m : Model) (token : Token) (change : Story → Story) : Model :=
  { m with stories := m.stories.map fun story =>
      if token = .scan story.scan.clientEventId then change story else story }

def productAnswered (m : Model) (token : Token) (answer : Answer Product) : Model :=
  match m.lookUps token with
  | some ⟨user, store, productId, scan, .product⟩ => match answer with
    | .refused error => (m.setLookUp token none).present token user
        (if error.status = 404 then .productNotFound else .failed error)
    | .body product =>
      let m := m.note token (.setFound product m.userId)
      if m.userId = some user then m.setLookUp token (some ⟨user, store, productId, scan, .stock product⟩)
      else (m.setLookUp token none).synchronizeSession
  | _ => m

/-- `queueQrScan`, as `count` calls it. -/
def queueQrScan (scan : Scan) (productId : ℕ) (storeId : ℤ) (userId : String) : QrRow :=
  ⟨scan.clientEventId, storeId, productId, scan.occurredAt, none, userId⟩

/-- The answer of stock-service; the row is handed to the queue in the same turn. -/
def stockAnswered (m : Model) (token : Token) (answer : Answer ℤ) : Model :=
  match m.lookUps token with
  | some ⟨user, store, productId, scan, .stock product⟩ =>
    let m := m.note token (.setStock m.userId)
    if m.userId = some user then
      match scan with
      | none => (m.setLookUp token none).present token user
          (.shown product store.name answer.quantity answer.stockError none)
      | some scan => { m.setLookUp token
            (some ⟨user, store, productId, some scan, .insert product answer.quantity answer.stockError⟩) with
          rows := m.rows ++ [queueQrScan scan product.productId store.storeId user] }
    else (m.setLookUp token none).synchronizeSession
  | _ => m

def inserted (m : Model) (token : Token) (rowId : ℕ) : Model :=
  match m.lookUps token with
  | some ⟨user, store, _, _, .insert product quantity stockError⟩ =>
    (m.setLookUp token none).present token user (.shown product store.name quantity stockError (some rowId))
  | _ => m

/-- The session of the phone is another user's, or nobody's. -/
def userChanged (m : Model) (userId : Option String) : Model :=
  { m with userId, stories := m.stories.map fun story =>
      if story.stock = none ∧ userId ≠ story.user then { story with stayed := false } else story }

end Model

/-- A turn of the main thread. -/
inductive Event where
  | decoded (raw : List Char) (now : ℤ)
  | entered (raw : List Char) (now : ℤ)
  | scanAgain
  | showProduct (productId : ℕ)
  | userChanged (userId : Option String)
  | userCollected
  | storeChanged (store : Option Floor.ChosenStore)
  | productAnswered (token : Token) (answer : Answer Product)
  | stockAnswered (token : Token) (answer : Answer ℤ)
  | inserted (token : Token) (rowId : ℕ)

def Model.after (characters : Characters) (m : Model) : Event → Model
  | .decoded raw now => m.onDecoded characters raw now
  | .entered raw now => m.onManualEntry characters raw now
  | .scanAgain => m.scanAgain
  | .showProduct productId => m.showProduct productId
  | .userChanged userId => m.userChanged userId
  | .userCollected => m.synchronizeSession
  | .storeChanged store => { m with chosenStore := store }
  | .productAnswered token answer => m.productAnswered token answer
  | .stockAnswered token answer => m.stockAnswered token answer
  | .inserted token rowId => m.inserted token rowId

/-- Products-service answers with the product it is asked for. -/
def Model.Asked (m : Model) : Event → Prop
  | .productAnswered token (.body product) =>
    ∀ lookUp, m.lookUps token = some lookUp → product.productId = lookUp.productId
  | _ => True

/-- After some turns of a screen that was opened for some user, with some store. -/
inductive Reached (characters : Characters) : Model → Prop where
  | start (userId : Option String) (chosenStore : Option Floor.ChosenStore) :
      Reached characters (.start userId chosenStore)
  | next {m : Model} (h : Reached characters m) (event : Event) (hasked : m.Asked event) :
    Reached characters (m.after characters event)

/-! ### What the rows are to be -/

def Call.frame? : Call → Option (List Char)
  | .decoded raw => some raw
  | .again => none

/-- One code for each maximal run of equal frames. -/
def framesOf (calls : List Call) : List (List Char) := (calls.destutter (· ≠ ·)).filterMap Call.frame?

/-- The row of a scan: where a store was chosen and the product was found, with the scan's user signed in at both
answers. -/
def Story.row? (story : Story) : Option QrRow :=
  story.user.bind fun user => story.store.bind fun store => story.found.bind fun found =>
    story.stock.bind fun stock =>
    if found.2 = some user ∧ stock = some user then
      some ⟨story.scan.clientEventId, store.storeId, found.1.productId, story.scan.occurredAt, none, user⟩
    else none

/-- The row of a scan whose user was signed in all the while until the stock's answer. -/
def Story.claimed? (story : Story) : Option QrRow := if story.stayed then story.row? else none

/-- Scans and rows are as they are to be, with the row of a scan as `row?` says. -/
structure Model.Counted (characters : Characters) (row? : Story → Option QrRow) (m : Model) : Prop where
  scans : m.stories.map (·.raw) = framesOf m.calls
  parsed : ∀ story ∈ m.stories, story.scan.payload = parseProductId characters story.raw
  ids : (m.stories.map (·.scan.clientEventId)).Nodup
  found : ∀ story ∈ m.stories, ∀ found ∈ story.found, story.scan.payload = .productId found.1.productId
  rows : ∀ story ∈ m.stories, m.rows.filter (·.clientEventId = story.scan.clientEventId) = (row? story).toList
  queued : ∀ row ∈ m.rows, ∃ story ∈ m.stories, row.clientEventId = story.scan.clientEventId
  shown : m.result = .idle ∨ m.shownFor = m.newest

/-! ### Frames -/

theorem destutter'_append_singleton (a b : Call) (l : List Call) : (l ++ [b]).destutter' (· ≠ ·) a =
    if (a :: l).getLast? = some b then l.destutter' (· ≠ ·) a else l.destutter' (· ≠ ·) a ++ [b] := by
  induction l generalizing a with
  | nil =>
    by_cases hab : a = b
    · simp [List.destutter', hab]
    · simp [List.destutter', hab]
  | cons c rest ih =>
    rw [List.cons_append, List.getLast?_cons_cons]
    by_cases hac : a = c
    · rw [List.destutter'_cons_neg _ (by simp [hac]), List.destutter'_cons_neg _ (by simp [hac]), ih, hac]
    · rw [List.destutter'_cons_pos _ hac, List.destutter'_cons_pos _ hac, ih]
      split_ifs
      · rfl
      · rfl

/-- The code that the scan session holds after the calls. -/
def lastOf (calls : List Call) : Option (List Char) := calls.getLast?.bind Call.frame?

theorem framesOf_append (calls : List Call) (call : Call) : framesOf (calls ++ [call]) =
    if calls.getLast? = some call then framesOf calls else framesOf calls ++ call.frame?.toList := by
  cases calls with
  | nil => cases call <;> rfl
  | cons first rest =>
    rw [framesOf, List.cons_append, List.destutter_cons', destutter'_append_singleton]
    split_ifs
    · rfl
    · rw [List.filterMap_append, framesOf, List.destutter_cons']
      cases call <;> rfl

theorem framesOf_again (calls : List Call) : framesOf (calls ++ [.again]) = framesOf calls := by
  rw [framesOf_append]
  split_ifs
  · rfl
  · exact List.append_nil _

theorem lastOf_append (calls : List Call) (call : Call) : lastOf (calls ++ [call]) = call.frame? := by
  rw [lastOf, List.getLast?_concat, Option.bind_some]

theorem getLast?_eq_decoded {calls : List Call} {raw : List Char} :
    calls.getLast? = some (.decoded raw) ↔ lastOf calls = some raw := by
  rw [lastOf]
  constructor
  · intro h
    rw [h]
    rfl
  · intro h
    obtain ⟨call, hcall, hframe⟩ := Option.bind_eq_some_iff.mp h
    cases call with
    | decoded raw' =>
      cases hframe
      exact hcall
    | again => cases hframe

namespace Model

/-! ### What a turn does -/

section
variable (characters : Characters) (m : Model) (token : Token)

theorem handle_cases (scan : Scan) :
    m.userId = none ∧ m.handle scan = m ∨
    ∃ user, m.userId = some user ∧
      ((∃ answer, m.handle scan =
          { m with latestScan := some (.scan scan.clientEventId) }.put (.scan scan.clientEventId) answer) ∨
        ∃ store value, m.chosenStore = some store ∧ scan.payload = .productId value ∧ m.handle scan =
          { m with latestScan := some (.scan scan.clientEventId) }.lookUp (.scan scan.clientEventId) user store value
            (some scan)) := by
  unfold Model.handle
  cases huser : m.userId with
  | none => exact .inl ⟨rfl, rfl⟩
  | some user =>
    refine .inr ⟨user, rfl, ?_⟩
    cases hstore : m.chosenStore with
    | none => exact .inl ⟨.noStore, by simp⟩
    | some store =>
      cases hpayload : scan.payload with
      | notAProduct => exact .inl ⟨.notAProduct, by simp⟩
      | productId value => exact .inr ⟨store, value, rfl, rfl, by simp⟩

def scanned (m : Model) (raw : List Char) (scan : Scan) : Model :=
  { m with
    session := ⟨some raw⟩, calls := m.calls ++ [.decoded raw], drawn := m.drawn + 1
    newest := some (.scan scan.clientEventId)
    stories := m.stories ++ [⟨raw, scan, m.userId, m.chosenStore, none, none, true⟩] }

theorem onDecoded_cases (raw : List Char) (now : ℤ) :
    m.synchronizeSession.session.last = some raw ∧ m.onDecoded characters raw now =
      { m.synchronizeSession with calls := m.synchronizeSession.calls ++ [.decoded raw] } ∨
    m.synchronizeSession.session.last ≠ some raw ∧ ∃ scan, scan.payload = parseProductId characters raw ∧
      scan.clientEventId = m.synchronizeSession.drawn ∧
      m.onDecoded characters raw now = (m.synchronizeSession.scanned raw scan).handle scan := by
  unfold Model.onDecoded Model.decode ScanSession.onDecoded
  by_cases hlast : m.synchronizeSession.session.last = some raw
  · rw [if_pos hlast]
    exact .inl ⟨hlast, rfl⟩
  · rw [if_neg hlast]
    exact .inr ⟨hlast, _, rfl, rfl, rfl⟩

theorem showProduct_cases (productId : ℕ) :
    m.showProduct productId = m.synchronizeSession ∨
    ∃ user, m.synchronizeSession.userId = some user ∧
      (m.showProduct productId =
          m.synchronizeSession.opened.put (.opening m.synchronizeSession.drawn) .noStore ∨
        ∃ store, m.showProduct productId =
          m.synchronizeSession.opened.lookUp (.opening m.synchronizeSession.drawn) user store productId none) := by
  unfold Model.showProduct
  cases huser : m.synchronizeSession.userId with
  | none => exact .inl (by simp [huser])
  | some user =>
    refine .inr ⟨user, rfl, ?_⟩
    cases hstore : m.synchronizeSession.chosenStore with
    | none => exact .inl (by simp [huser, hstore])
    | some store => exact .inr ⟨store, by simp [huser, hstore]⟩

/-- What an answer leaves: a change of the story of its scan, the look-up as it goes on, and the rows that it
queues. -/
def answered (m : Model) (token : Token) (change : Story → Story) (lookUp : Option LookUp)
    (queued : List QrRow) : Model :=
  { (m.note token change).setLookUp token lookUp with rows := m.rows ++ queued }

theorem answered_nil (change : Story → Story) (lookUp : Option LookUp) :
    m.answered token change lookUp [] = (m.note token change).setLookUp token lookUp := by
  simp only [answered, List.append_nil]
  rfl

theorem note_id : m.note token id = m := by simp [note]

theorem productAnswered_cases (answer : Answer Product) :
    m.productAnswered token answer = m ∨
    ∃ user store productId scan, m.lookUps token = some ⟨user, store, productId, scan, .product⟩ ∧
      ((∃ shown, m.productAnswered token answer = (m.answered token id none []).present token user shown) ∨
        ∃ product, answer = .body product ∧
          (m.userId = some user ∧ m.productAnswered token answer =
            m.answered token (.setFound product m.userId)
              (some ⟨user, store, productId, scan, .stock product⟩) [] ∨
          m.userId ≠ some user ∧ m.productAnswered token answer =
            (m.answered token (.setFound product m.userId)
              none []).synchronizeSession)) := by
  simp only [answered_nil, note_id]
  unfold Model.productAnswered
  split
  · rename_i user store productId scan hlookUp
    refine .inr ⟨user, store, productId, scan, hlookUp, ?_⟩
    cases answer with
    | refused error => exact .inl ⟨_, rfl⟩
    | body product =>
      refine .inr ⟨product, rfl, ?_⟩
      by_cases huser : m.userId = some user
      · exact .inl ⟨huser, if_pos huser⟩
      · exact .inr ⟨huser, if_neg huser⟩
  · exact .inl rfl

theorem stockAnswered_cases (answer : Answer ℤ) :
    m.stockAnswered token answer = m ∨
    ∃ user store productId scan product, m.lookUps token = some ⟨user, store, productId, scan, .stock product⟩ ∧
      (m.userId = some user ∧ scan = none ∧ (∃ shown, m.stockAnswered token answer =
          (m.answered token (.setStock m.userId) none []).present token user shown) ∨
        (∃ counted phase, m.userId = some user ∧ scan = some counted ∧ m.stockAnswered token answer =
          m.answered token (.setStock m.userId)
            (some ⟨user, store, productId, some counted, .insert product phase answer.stockError⟩)
            [queueQrScan counted product.productId store.storeId user]) ∨
        m.userId ≠ some user ∧ m.stockAnswered token answer =
          (m.answered token (.setStock m.userId) none []).synchronizeSession) := by
  simp only [answered_nil]
  unfold Model.stockAnswered
  split
  · rename_i user store productId scan product hlookUp
    refine .inr ⟨user, store, productId, scan, product, hlookUp, ?_⟩
    by_cases huser : m.userId = some user
    · cases scan with
      | none => exact .inl ⟨huser, rfl, _, if_pos huser⟩
      | some counted => exact .inr (.inl ⟨counted, _, huser, rfl, if_pos huser⟩)
    · exact .inr (.inr ⟨huser, if_neg huser⟩)
  · exact .inl rfl

theorem inserted_cases (rowId : ℕ) :
    m.inserted token rowId = m ∨
    ∃ user shown, (m.lookUps token).isSome ∧ m.inserted token rowId =
      (m.answered token id none []).present token user shown := by
  simp only [answered_nil, note_id]
  unfold Model.inserted
  split
  · rename_i hlookUp
    exact .inr ⟨_, _, by rw [hlookUp]; rfl, rfl⟩
  · exact .inl rfl

end

variable {characters : Characters} {m : Model} {token : Token}

/-! ### The scans are those of the frames -/

/-- The scans so far are those of the calls, and the scan session holds the last code. -/
structure Framed (m : Model) : Prop where
  scans : m.stories.map (·.raw) = framesOf m.calls
  last : m.session.last = lastOf m.calls

theorem Framed.congr {m' : Model} (h : m.Framed) (hstories : m'.stories.map (·.raw) = m.stories.map (·.raw))
    (hcalls : m'.calls = m.calls) (hsession : m'.session = m.session) : m'.Framed :=
  ⟨by rw [hstories, hcalls, h.scans], by rw [hsession, hcalls, h.last]⟩

theorem Framed.forget (h : m.Framed) : m.forget.Framed :=
  ⟨by rw [Model.forget, framesOf_again, h.scans], by rw [Model.forget, lastOf_append]; rfl⟩

theorem Framed.scanAgain (h : m.Framed) : m.scanAgain.Framed := h.forget.congr rfl rfl rfl

theorem Framed.synchronizeSession (h : m.Framed) : m.synchronizeSession.Framed := by
  rw [Model.synchronizeSession]
  split_ifs
  · exact Framed.scanAgain (h.congr rfl rfl rfl)
  · exact h

theorem Framed.present (h : m.Framed) (token : Token) (user : String) (answer : ScanResult) :
    (m.present token user answer).Framed := by
  rw [Model.present]
  split_ifs
  · exact h.congr rfl rfl rfl
  · exact h
  · exact h.synchronizeSession

theorem Framed.change (h : m.Framed) {change : Story → Story} (hraw : ∀ story, (change story).raw = story.raw) :
    { m with stories := m.stories.map change }.Framed := by
  refine h.congr ?_ rfl rfl
  rw [List.map_map]
  exact List.map_congr_left fun story _ => hraw story

theorem Framed.answered (h : m.Framed) {change : Story → Story} (hraw : ∀ story, (change story).raw = story.raw)
    (lookUp : Option LookUp) (queued : List QrRow) : (m.answered token change lookUp queued).Framed := by
  refine Framed.congr (m := m.note token change) (h.change fun story => ?_) rfl rfl rfl
  split_ifs
  · exact hraw story
  · rfl

theorem Framed.onDecoded (h : m.Framed) (raw : List Char) (now : ℤ) : (m.onDecoded characters raw now).Framed := by
  have hsync := h.synchronizeSession
  obtain ⟨hlast, heq⟩ | ⟨hlast, scan, -, -, heq⟩ := m.onDecoded_cases characters raw now
  · have hrepeat := getLast?_eq_decoded.mpr (hsync.last ▸ hlast)
    rw [heq]
    constructor
    · rw [framesOf_append, if_pos hrepeat]
      exact hsync.scans
    · rw [lastOf_append]
      exact hlast
  · have hscanned : (m.synchronizeSession.scanned raw scan).Framed := by
      constructor
      · rw [scanned, framesOf_append, if_neg fun hrepeat => hlast (hsync.last.trans (getLast?_eq_decoded.mp hrepeat)),
          List.map_append, hsync.scans]
        rfl
      · rw [scanned, lastOf_append]
        rfl
    rw [heq]
    obtain ⟨-, heq⟩ | ⟨user, -, ⟨answer, heq⟩ | ⟨store, value, -, -, heq⟩⟩ :=
      (m.synchronizeSession.scanned raw scan).handle_cases scan
    · rwa [heq]
    · rw [heq]
      exact hscanned.congr rfl rfl rfl
    · rw [heq]
      exact hscanned.congr rfl rfl rfl

theorem Framed.after (h : m.Framed) (event : Event) : (m.after characters event).Framed := by
  cases event with
  | decoded raw now => exact h.onDecoded raw now
  | entered raw now => exact h.forget.onDecoded raw now
  | scanAgain => exact h.scanAgain
  | showProduct productId =>
    have hsync := h.synchronizeSession
    change (m.showProduct productId).Framed
    obtain heq | ⟨user, -, heq | ⟨store, heq⟩⟩ := m.showProduct_cases productId
    · rwa [heq]
    · rw [heq]
      exact hsync.forget.congr rfl rfl rfl
    · rw [heq]
      exact hsync.forget.congr rfl rfl rfl
  | userChanged userId =>
    refine Framed.congr (h.change fun story => ?_) rfl rfl rfl
    split_ifs
    · rfl
    · rfl
  | userCollected => exact h.synchronizeSession
  | storeChanged store => exact h.congr rfl rfl rfl
  | productAnswered token answer =>
    change (m.productAnswered token answer).Framed
    obtain heq | ⟨user, store, productId, scan, -, ⟨shown, heq⟩ | ⟨product, -, ⟨-, heq⟩ | ⟨-, heq⟩⟩⟩ :=
      m.productAnswered_cases token answer
    · rwa [heq]
    · rw [heq]
      exact (h.answered (fun _ => rfl) _ _).present _ _ _
    · rw [heq]
      exact h.answered (Story.raw_setFound product m.userId) _ _
    · rw [heq]
      exact (h.answered (Story.raw_setFound product m.userId) _ _).synchronizeSession
  | stockAnswered token answer =>
    change (m.stockAnswered token answer).Framed
    obtain heq | ⟨user, store, productId, scan, product, -,
      ⟨-, -, shown, heq⟩ | ⟨counted, quantity, -, -, heq⟩ | ⟨-, heq⟩⟩ :=
      m.stockAnswered_cases token answer
    · rwa [heq]
    · rw [heq]
      exact (h.answered (Story.raw_setStock m.userId) _ _).present _ _ _
    · rw [heq]
      exact h.answered (Story.raw_setStock m.userId) _ _
    · rw [heq]
      exact (h.answered (Story.raw_setStock m.userId) _ _).synchronizeSession
  | inserted token rowId =>
    change (m.inserted token rowId).Framed
    obtain heq | ⟨user, shown, -, heq⟩ := m.inserted_cases token rowId
    · rwa [heq]
    · rw [heq]
      exact (h.answered (fun _ => rfl) _ _).present _ _ _

/-! ### The result shown is of the newest scan or opening -/

/-- Nobody has a scan or opening that is current when nobody is signed in; one that is current is the newest; and a
result is of the current one. -/
structure Displays (m : Model) : Prop where
  nobody : m.currentUser = none → m.latestScan = none
  newest : ∀ token, m.latestScan = some token → m.newest = some token
  shown : m.result = .idle ∨ ∃ token, m.latestScan = some token ∧ m.shownFor = some token

theorem synchronizeSession_userId : m.synchronizeSession.userId = m.synchronizeSession.currentUser := by
  rw [Model.synchronizeSession]
  split_ifs with hsame
  · rfl
  · exact not_not.mp hsame

theorem Displays.congr {m' : Model} (h : m.Displays) (huser : m'.currentUser = m.currentUser)
    (hlatest : m'.latestScan = m.latestScan) (hnewest : m'.newest = m.newest) (hresult : m'.result = m.result)
    (hshown : m'.shownFor = m.shownFor) : m'.Displays :=
  ⟨by rw [huser, hlatest]; exact h.nobody, by rw [hlatest, hnewest]; exact h.newest,
    by rw [hlatest, hresult, hshown]; exact h.shown⟩

theorem displays_scanAgain : m.scanAgain.Displays :=
  ⟨fun _ => rfl, fun _ htoken => absurd htoken (Option.some_ne_none _).symm, .inl rfl⟩

theorem Displays.synchronizeSession (h : m.Displays) : m.synchronizeSession.Displays := by
  rw [Model.synchronizeSession]
  split_ifs
  · exact displays_scanAgain
  · exact h

theorem Displays.put (h : m.Displays) (hlatest : m.latestScan = some token) (answer : ScanResult) :
    (m.put token answer).Displays :=
  ⟨h.nobody, h.newest, .inr ⟨token, hlatest, rfl⟩⟩

theorem Displays.present (h : m.Displays) (user : String) (answer : ScanResult) :
    (m.present token user answer).Displays := by
  rw [Model.present]
  split_ifs with huser hlatest
  · exact h.put hlatest answer
  · exact h
  · exact h.synchronizeSession

theorem displays_of_newest (huser : m.currentUser ≠ none) (hlatest : m.latestScan = some token)
    (hnewest : m.newest = some token) (hshown : m.shownFor = some token) : m.Displays := by
  refine ⟨fun hnone => absurd hnone huser, fun token' htoken' => ?_, .inr ⟨token, hlatest, hshown⟩⟩
  have hsame : token = token' := Option.some.inj (hlatest.symm.trans htoken')
  rw [← hsame]
  exact hnewest

theorem Displays.onDecoded (h : m.Displays) (raw : List Char) (now : ℤ) :
    (m.onDecoded characters raw now).Displays := by
  have hsync := h.synchronizeSession
  have huser := m.synchronizeSession_userId
  obtain ⟨-, heq⟩ | ⟨-, scan, -, -, heq⟩ := m.onDecoded_cases characters raw now
  · rw [heq]
    exact hsync.congr rfl rfl rfl rfl rfl
  · rw [heq]
    obtain ⟨hnone, heq⟩ | ⟨user, hsome, heq⟩ := (m.synchronizeSession.scanned raw scan).handle_cases scan
    · have hlatest : m.synchronizeSession.latestScan = none := hsync.nobody (huser.symm.trans hnone)
      have hidle : m.synchronizeSession.result = .idle :=
        hsync.shown.resolve_right fun ⟨token, htoken, _⟩ => by
          rw [hlatest] at htoken
          cases htoken
      rw [heq]
      refine ⟨fun _ => hlatest, fun token htoken => ?_, .inl hidle⟩
      cases hlatest.symm.trans htoken
    · have hcurrent : m.synchronizeSession.currentUser ≠ none := by
        rw [← huser, show m.synchronizeSession.userId = some user from hsome]
        exact Option.some_ne_none user
      obtain ⟨answer, heq⟩ | ⟨store, value, -, -, heq⟩ := heq
      · rw [heq]
        exact displays_of_newest hcurrent rfl rfl rfl
      · rw [heq]
        exact displays_of_newest hcurrent rfl rfl rfl

theorem Displays.showProduct (h : m.Displays) (productId : ℕ) : (m.showProduct productId).Displays := by
  have hsync := h.synchronizeSession
  obtain heq | ⟨user, hsome, heq⟩ := m.showProduct_cases productId
  · rwa [heq]
  · have hcurrent : m.synchronizeSession.currentUser ≠ none := by
      rw [← m.synchronizeSession_userId, hsome]
      exact Option.some_ne_none user
    obtain heq | ⟨store, heq⟩ := heq
    · rw [heq]
      exact displays_of_newest hcurrent rfl rfl rfl
    · rw [heq]
      exact displays_of_newest hcurrent rfl rfl rfl

theorem Displays.answered (h : m.Displays) (change : Story → Story) (lookUp : Option LookUp)
    (queued : List QrRow) :
    (m.answered token change lookUp queued).Displays :=
  h.congr rfl rfl rfl rfl rfl

theorem Displays.after (h : m.Displays) (event : Event) : (m.after characters event).Displays := by
  cases event with
  | decoded raw now => exact h.onDecoded raw now
  | entered raw now => exact Displays.onDecoded (m := m.forget) (h.congr rfl rfl rfl rfl rfl) raw now
  | scanAgain => exact displays_scanAgain
  | showProduct productId => exact h.showProduct productId
  | userChanged userId => exact h.congr rfl rfl rfl rfl rfl
  | userCollected => exact h.synchronizeSession
  | storeChanged store => exact h.congr rfl rfl rfl rfl rfl
  | productAnswered token answer =>
    change (m.productAnswered token answer).Displays
    obtain heq | ⟨user, store, productId, scan, -, ⟨shown, heq⟩ | ⟨product, -, ⟨-, heq⟩ | ⟨-, heq⟩⟩⟩ :=
      m.productAnswered_cases token answer
    · rwa [heq]
    · rw [heq]
      exact (h.answered id _ _).present _ _
    · rw [heq]
      exact h.answered _ _ _
    · rw [heq]
      exact (h.answered _ _ _).synchronizeSession
  | stockAnswered token answer =>
    change (m.stockAnswered token answer).Displays
    obtain heq | ⟨user, store, productId, scan, product, -,
      ⟨-, -, shown, heq⟩ | ⟨counted, quantity, -, -, heq⟩ | ⟨-, heq⟩⟩ :=
      m.stockAnswered_cases token answer
    · rwa [heq]
    · rw [heq]
      exact (h.answered _ _ _).present _ _
    · rw [heq]
      exact h.answered _ _ _
    · rw [heq]
      exact (h.answered _ _ _).synchronizeSession
  | inserted token rowId =>
    change (m.inserted token rowId).Displays
    obtain heq | ⟨user, shown, -, heq⟩ := m.inserted_cases token rowId
    · rwa [heq]
    · rw [heq]
      exact (h.answered id _ _).present _ _

/-! ### Each scan is counted as its story says -/

def rowsOf (m : Model) (id : ℕ) : List QrRow := m.rows.filter (·.clientEventId = id)

end Model

/-- A look-up knows as much as the story of its scan. -/
structure LookUp.Follows (lookUp : LookUp) (story : Story) : Prop where
  scan : lookUp.scan = some story.scan
  user : story.user = some lookUp.user
  store : story.store = some lookUp.store
  payload : story.scan.payload = .productId lookUp.productId
  product : lookUp.phase = .product → story.found = none ∧ story.stock = none
  stock : ∀ product, lookUp.phase = .stock product →
    story.found = some (product, some lookUp.user) ∧ story.stock = none

/-- The story of a scan against its rows and its look-up. -/
structure Story.Traced (characters : Characters) (story : Story) (rows : List QrRow)
    (lookUp : Option LookUp) : Prop where
  parsed : story.scan.payload = parseProductId characters story.raw
  found : ∀ found ∈ story.found, story.scan.payload = .productId found.1.productId
  rows : rows = story.row?.toList
  follows : ∀ l ∈ lookUp, l.Follows story

theorem Story.row?_of_stock {story : Story} (hstock : story.stock = none) : story.row? = none := by
  simp [Story.row?, hstock]

theorem Story.row?_eq {story : Story} {user : String} {store : Floor.ChosenStore} {found : Product × Option String}
    {stock : Option String} (huser : story.user = some user) (hstore : story.store = some store)
    (hfound : story.found = some found) (hstock : story.stock = some stock) :
    story.row? = if found.2 = some user ∧ stock = some user then
      some ⟨story.scan.clientEventId, store.storeId, found.1.productId, story.scan.occurredAt, none,
        user⟩ else none := by
  simp [Story.row?, huser, hstore, hfound, hstock]

section
variable {characters : Characters} {story : Story} {rows : List QrRow} {l : LookUp} {product : Product}

theorem Story.Traced.setFound (h : story.Traced characters rows (some l)) (hphase : l.phase = .product)
    (hasked : product.productId = l.productId) (userId : Option String) {lookUp : Option LookUp}
    (hfollows : ∀ l' ∈ lookUp, l'.Follows (story.setFound product userId)) :
    (story.setFound product userId).Traced characters rows lookUp := by
  have hl := h.follows l rfl
  have hstock := (hl.product hphase).2
  refine ⟨h.parsed, fun found hfound => ?_, ?_, hfollows⟩
  · obtain rfl : _ = found := Option.some.inj hfound
    exact hl.payload.trans (congrArg Payload.productId hasked.symm)
  · rw [h.rows, row?_of_stock hstock, @row?_of_stock (story.setFound product userId) hstock]

theorem LookUp.Follows.setFound (h : l.Follows story) (hphase : l.phase = .product) :
    ({ l with phase := .stock product } : LookUp).Follows (story.setFound product (some l.user)) := by
  refine ⟨h.scan, h.user, h.store, h.payload, fun hproduct => ?_, fun product' hstock => ?_⟩
  · cases hproduct
  · cases hstock
    exact ⟨rfl, (h.product hphase).2⟩

theorem Story.Traced.setStock (h : story.Traced characters rows (some l)) (hphase : l.phase = .stock product)
    {lookUp : Option LookUp} (hfollows : ∀ l' ∈ lookUp, l'.Follows (story.setStock (some l.user))) :
    (story.setStock (some l.user)).Traced characters
      (rows ++ [Model.queueQrScan story.scan product.productId l.store.storeId l.user]) lookUp := by
  have hl := h.follows l rfl
  obtain ⟨hfound, hstock⟩ := hl.stock product hphase
  refine ⟨h.parsed, h.found, ?_, hfollows⟩
  have hrow : (story.setStock (some l.user)).row? =
      some (Model.queueQrScan story.scan product.productId l.store.storeId l.user) := by
    rw [@row?_eq (story.setStock (some l.user)) _ _ _ _ hl.user hl.store hfound rfl, if_pos ⟨rfl, rfl⟩]
    rfl
  rw [h.rows, row?_of_stock hstock, hrow]
  rfl

theorem Story.Traced.setStock_of_ne (h : story.Traced characters rows (some l)) (hphase : l.phase = .stock product)
    {userId : Option String} (huser : userId ≠ some l.user) :
    (story.setStock userId).Traced characters rows none := by
  have hl := h.follows l rfl
  obtain ⟨hfound, hstock⟩ := hl.stock product hphase
  refine ⟨h.parsed, h.found, ?_, fun _ hnone => absurd hnone (Option.not_mem_none _)⟩
  rw [h.rows, row?_of_stock hstock, @row?_eq (story.setStock userId) _ _ _ _ hl.user hl.store hfound rfl,
    if_neg fun hboth => huser hboth.2]

end

namespace Model

variable {characters : Characters} {m : Model} {token : Token}

/-- Every scan is traced, under an id of its own, and nothing else has a row or a look-up that counts. -/
structure Ledger (characters : Characters) (m : Model) : Prop where
  traced : ∀ story ∈ m.stories, story.Traced characters (m.rowsOf story.scan.clientEventId)
    (m.lookUps (.scan story.scan.clientEventId))
  drawn : ∀ story ∈ m.stories, story.scan.clientEventId < m.drawn
  ids : (m.stories.map (·.scan.clientEventId)).Nodup
  queued : ∀ row ∈ m.rows, ∃ story ∈ m.stories, row.clientEventId = story.scan.clientEventId
  scans : ∀ id, (m.lookUps (.scan id)).isSome → ∃ story ∈ m.stories, id = story.scan.clientEventId
  openings : ∀ id, ∀ lookUp ∈ m.lookUps (.opening id), lookUp.scan = none

theorem Ledger.congr {m' : Model} (h : m.Ledger characters) (hstories : m'.stories = m.stories)
    (hrows : m'.rows = m.rows) (hlookUps : m'.lookUps = m.lookUps) (hdrawn : m'.drawn = m.drawn) :
    m'.Ledger characters := by
  constructor
  · intro story hstory
    rw [hstories] at hstory
    rw [rowsOf, hrows, hlookUps]
    exact h.traced story hstory
  · rw [hstories, hdrawn]
    exact h.drawn
  · rw [hstories]
    exact h.ids
  · rw [hstories, hrows]
    exact h.queued
  · rw [hstories, hlookUps]
    exact h.scans
  · rw [hlookUps]
    exact h.openings

theorem Ledger.synchronizeSession (h : m.Ledger characters) : m.synchronizeSession.Ledger characters := by
  rw [Model.synchronizeSession]
  split_ifs
  · exact h.congr rfl rfl rfl rfl
  · exact h

theorem Ledger.present (h : m.Ledger characters) (user : String) (answer : ScanResult) :
    (m.present token user answer).Ledger characters := by
  rw [Model.present]
  split_ifs
  · exact h.congr rfl rfl rfl rfl
  · exact h
  · exact h.synchronizeSession

theorem ids_note {change : Story → Story} (hscan : ∀ story, (change story).scan = story.scan) :
    (m.note token change).stories.map (·.scan.clientEventId) = m.stories.map (·.scan.clientEventId) := by
  rw [note, List.map_map]
  refine List.map_congr_left fun story _ => ?_
  by_cases htoken : token = .scan story.scan.clientEventId
  · simp [htoken, hscan]
  · simp [htoken]

theorem exists_scan_iff {stories stories' : List Story}
    (hids : stories'.map (·.scan.clientEventId) = stories.map (·.scan.clientEventId)) {id : ℕ} :
    (∃ story ∈ stories', id = story.scan.clientEventId) ↔ ∃ story ∈ stories, id = story.scan.clientEventId := by
  have hmem : id ∈ stories'.map (·.scan.clientEventId) ↔ id ∈ stories.map (·.scan.clientEventId) := by
    rw [hids]
  simpa only [List.mem_map, eq_comm (b := id)] using hmem

theorem Ledger.answered (h : m.Ledger characters) {change : Story → Story} {lookUp : Option LookUp}
    {queued : List QrRow} (hknown : ∀ id, token = .scan id → ∃ story ∈ m.stories, id = story.scan.clientEventId)
    (hscan : ∀ story, (change story).scan = story.scan)
    (hqueued : ∀ row ∈ queued, token = .scan row.clientEventId)
    (hopening : ∀ id, token = .opening id → ∀ l ∈ lookUp, l.scan = none)
    (htraced : ∀ story ∈ m.stories, token = .scan story.scan.clientEventId →
      (change story).Traced characters (m.rowsOf story.scan.clientEventId ++ queued) lookUp) :
    (m.answered token change lookUp queued).Ledger characters := by
  have hids : (m.answered token change lookUp queued).stories.map (·.scan.clientEventId) =
      m.stories.map (·.scan.clientEventId) := m.ids_note hscan
  constructor
  · intro story' hstory'
    obtain ⟨story, hstory, rfl⟩ := List.mem_map.mp hstory'
    by_cases htoken : token = .scan story.scan.clientEventId
    · have hfilter : queued.filter (·.clientEventId = story.scan.clientEventId) = queued := by
        refine List.filter_eq_self.mpr fun row hrow => ?_
        have hrow := hqueued row hrow
        rw [htoken] at hrow
        simpa using (Token.scan.inj hrow).symm
      have hnew := htraced story hstory htoken
      rw [if_pos htoken, hscan]
      simpa [Model.answered, rowsOf, Model.setLookUp, Model.note, htoken, hfilter] using hnew
    · have hfilter : queued.filter (·.clientEventId = story.scan.clientEventId) = [] := by
        refine List.filter_eq_nil_iff.mpr fun row hrow hsame => htoken ?_
        rw [hqueued row hrow, of_decide_eq_true hsame]
      have hold := h.traced story hstory
      rw [if_neg htoken]
      simpa [Model.answered, rowsOf, Model.setLookUp, Model.note, Ne.symm htoken, hfilter] using hold
  · intro story' hstory'
    have hid : ∃ story ∈ m.stories, story'.scan.clientEventId = story.scan.clientEventId :=
      (exists_scan_iff hids).mp ⟨story', hstory', rfl⟩
    obtain ⟨story, hstory, hid⟩ := hid
    rw [hid]
    exact h.drawn story hstory
  · exact hids.symm ▸ h.ids
  · intro row hrow
    refine (exists_scan_iff hids).mpr ?_
    obtain hrow | hrow := List.mem_append.mp hrow
    · exact h.queued row hrow
    · exact hknown _ (hqueued row hrow)
  · intro id hsome
    refine (exists_scan_iff hids).mpr ?_
    by_cases htoken : token = .scan id
    · exact hknown id htoken
    · refine h.scans id ?_
      simpa [Model.answered, Model.setLookUp, Model.note, Ne.symm htoken] using hsome
  · intro id l hl
    by_cases htoken : token = .opening id
    · refine hopening id htoken l ?_
      simpa [Model.answered, Model.setLookUp, Model.note, htoken] using hl
    · refine h.openings id l ?_
      simpa [Model.answered, Model.setLookUp, Model.note, Ne.symm htoken] using hl

theorem Ledger.lookUp (h : m.Ledger characters) {user : String} {store : Floor.ChosenStore} {productId : ℕ}
    {scan : Option Scan} (hknown : ∀ id, token = .scan id → ∃ story ∈ m.stories, id = story.scan.clientEventId)
    (hopening : ∀ id, token = .opening id → scan = none)
    (hfollows : ∀ story ∈ m.stories, token = .scan story.scan.clientEventId →
      LookUp.Follows ⟨user, store, productId, scan, .product⟩ story) :
    (m.lookUp token user store productId scan).Ledger characters := by
  have hput : (m.put token .looking).Ledger characters := h.congr rfl rfl rfl rfl
  have heq : m.lookUp token user store productId scan =
      (m.put token .looking).answered token id (some ⟨user, store, productId, scan, .product⟩) [] := by
    rw [answered_nil, note_id]
    rfl
  rw [heq]
  refine hput.answered hknown (fun _ => rfl) (fun _ hrow => absurd hrow List.not_mem_nil)
    (fun id htoken l hl => ?_)
    fun story hstory htoken => ?_
  · obtain rfl : _ = l := Option.some.inj hl
    exact hopening id htoken
  · have htraced := h.traced story hstory
    refine ⟨htraced.parsed, htraced.found, by rw [List.append_nil]; exact htraced.rows, fun l hl => ?_⟩
    obtain rfl : _ = l := Option.some.inj hl
    exact hfollows story hstory htoken

theorem Ledger.fresh (h : m.Ledger characters) : m.rowsOf m.drawn = [] ∧ m.lookUps (.scan m.drawn) = none := by
  constructor
  · refine List.filter_eq_nil_iff.mpr fun row hrow hid => ?_
    obtain ⟨story, hstory, hsame⟩ := h.queued row hrow
    have hdrawn := h.drawn story hstory
    have hid := of_decide_eq_true hid
    omega
  · by_contra hsome
    obtain ⟨story, hstory, hid⟩ := h.scans m.drawn (Option.isSome_iff_ne_none.mpr hsome)
    have hdrawn := h.drawn story hstory
    omega

theorem Ledger.scanned (h : m.Ledger characters) {raw : List Char} {scan : Scan}
    (hpayload : scan.payload = parseProductId characters raw) (hid : scan.clientEventId = m.drawn) :
    (m.scanned raw scan).Ledger characters := by
  obtain ⟨hrows, hlookUp⟩ := h.fresh
  constructor
  · intro story hstory
    obtain hstory | hstory := List.mem_append.mp hstory
    · exact h.traced story hstory
    · rw [List.mem_singleton.mp hstory]
      refine ⟨hpayload, fun _ hfound => absurd hfound (Option.not_mem_none _), ?_, fun l hl => ?_⟩
      · change m.rowsOf scan.clientEventId = _
        rw [hid, hrows]
        simp [Story.row?]
      · change l ∈ m.lookUps (.scan scan.clientEventId) at hl
        rw [hid, hlookUp] at hl
        cases hl
  · intro story hstory
    change story.scan.clientEventId < m.drawn + 1
    obtain hstory | hstory := List.mem_append.mp hstory
    · have hdrawn := h.drawn story hstory
      omega
    · rw [List.mem_singleton.mp hstory]
      exact Nat.lt_succ_of_le hid.le
  · change ((m.stories ++ [_]).map _).Nodup
    rw [List.map_append, List.nodup_append]
    refine ⟨h.ids, List.nodup_singleton _, fun id hold id' hnew hsame => ?_⟩
    obtain ⟨story, hstory, rfl⟩ := List.mem_map.mp hold
    have hdrawn := h.drawn story hstory
    have hnew : id' = scan.clientEventId := List.mem_singleton.mp hnew
    omega
  · intro row hrow
    obtain ⟨story, hstory, hsame⟩ := h.queued row hrow
    exact ⟨story, List.mem_append_left _ hstory, hsame⟩
  · intro id hsome
    obtain ⟨story, hstory, hsame⟩ := h.scans id hsome
    exact ⟨story, List.mem_append_left _ hstory, hsame⟩
  · exact h.openings

theorem Ledger.onDecoded (h : m.Ledger characters) (raw : List Char) (now : ℤ) :
    (m.onDecoded characters raw now).Ledger characters := by
  have hsync := h.synchronizeSession
  obtain ⟨-, heq⟩ | ⟨-, scan, hpayload, hid, heq⟩ := m.onDecoded_cases characters raw now
  · rw [heq]
    exact hsync.congr rfl rfl rfl rfl
  · have hscanned := hsync.scanned hpayload hid
    rw [heq]
    obtain ⟨-, heq⟩ | ⟨user, huser, ⟨answer, heq⟩ | ⟨store, value, hstore, hvalue, heq⟩⟩ :=
      (m.synchronizeSession.scanned raw scan).handle_cases scan
    · rwa [heq]
    · rw [heq]
      exact hscanned.congr rfl rfl rfl rfl
    · rw [heq]
      have hlatest : ({ m.synchronizeSession.scanned raw scan with
          latestScan := some (.scan scan.clientEventId) } : Model).Ledger characters :=
            hscanned.congr rfl rfl rfl rfl
      refine hlatest.lookUp (fun id htoken => ?_) (fun id htoken => ?_) fun story hstory htoken => ?_
      · exact ⟨_, List.mem_append_right _ (List.mem_singleton_self _), (Token.scan.inj htoken).symm⟩
      · cases htoken
      · obtain hstory | hstory := List.mem_append.mp hstory
        · have hdrawn := hsync.drawn story hstory
          have hsame := Token.scan.inj htoken
          omega
        · rw [List.mem_singleton.mp hstory]
          refine ⟨rfl, huser, hstore, hvalue, fun _ => ⟨rfl, rfl⟩, fun _ hphase => ?_⟩
          cases hphase

theorem Ledger.showProduct (h : m.Ledger characters) (productId : ℕ) :
    (m.showProduct productId).Ledger characters := by
  have hsync := h.synchronizeSession
  have hopened : m.synchronizeSession.opened.Ledger characters := by
    constructor
    · exact hsync.traced
    · exact fun story hstory => Nat.lt_succ_of_lt (hsync.drawn story hstory)
    · exact hsync.ids
    · exact hsync.queued
    · exact hsync.scans
    · exact hsync.openings
  obtain heq | ⟨user, -, heq | ⟨store, heq⟩⟩ := m.showProduct_cases productId
  · rwa [heq]
  · rw [heq]
    exact hopened.congr rfl rfl rfl rfl
  · rw [heq]
    refine hopened.lookUp (fun id htoken => ?_) (fun _ _ => rfl) fun story _ htoken => ?_
    · cases htoken
    · cases htoken

theorem Ledger.userChanged (h : m.Ledger characters) (userId : Option String) :
    (m.userChanged userId).Ledger characters := by
  have hids : (m.userChanged userId).stories.map (·.scan.clientEventId) = m.stories.map (·.scan.clientEventId) := by
    rw [Model.userChanged, List.map_map]
    refine List.map_congr_left fun story _ => ?_
    simp only [Function.comp_apply]
    split_ifs
    · rfl
    · rfl
  constructor
  · intro story' hstory'
    obtain ⟨story, hstory, rfl⟩ := List.mem_map.mp hstory'
    have htraced := h.traced story hstory
    split_ifs
    · exact ⟨htraced.parsed, htraced.found, htraced.rows, fun l hl =>
        have hl := htraced.follows l hl
        ⟨hl.scan, hl.user, hl.store, hl.payload, hl.product, hl.stock⟩⟩
    · exact htraced
  · intro story' hstory'
    obtain ⟨story, hstory, hid⟩ := (exists_scan_iff hids).mp ⟨story', hstory', rfl⟩
    rw [hid]
    exact h.drawn story hstory
  · exact hids.symm ▸ h.ids
  · exact fun row hrow => (exists_scan_iff hids).mpr (h.queued row hrow)
  · exact fun id hsome => (exists_scan_iff hids).mpr (h.scans id hsome)
  · exact h.openings

section
variable {l : LookUp}

theorem Ledger.known (h : m.Ledger characters) (hlookUp : m.lookUps token = some l) (id : ℕ)
    (htoken : token = .scan id) :
    ∃ story ∈ m.stories, id = story.scan.clientEventId :=
  h.scans id (by rw [← htoken, hlookUp]; rfl)

theorem Ledger.of_token (h : m.Ledger characters) (hlookUp : m.lookUps token = some l) {story : Story}
    (hstory : story ∈ m.stories) (htoken : token = .scan story.scan.clientEventId) :
    story.Traced characters (m.rowsOf story.scan.clientEventId) (some l) := by
  have htraced := h.traced story hstory
  rwa [← htoken, hlookUp] at htraced

theorem Ledger.ended (h : m.Ledger characters) (hlookUp : m.lookUps token = some l) :
    (m.answered token id none []).Ledger characters := by
  refine h.answered (h.known hlookUp) (fun _ => rfl) (fun _ hrow => absurd hrow List.not_mem_nil)
    (fun _ _ _ hnone => absurd hnone (Option.not_mem_none _)) fun story hstory htoken => ?_
  have htraced := h.of_token hlookUp hstory htoken
  rw [List.append_nil]
  exact ⟨htraced.parsed, htraced.found, htraced.rows, fun _ hnone => absurd hnone (Option.not_mem_none _)⟩

theorem Ledger.setFound (h : m.Ledger characters) {product : Product} (hlookUp : m.lookUps token = some l)
    (hphase : l.phase = .product) (hasked : product.productId = l.productId) :
    (m.answered token (.setFound product m.userId) none []).Ledger characters ∧
      (m.userId = some l.user →
        (m.answered token (.setFound product m.userId) (some { l with phase := .stock product })
          []).Ledger characters) := by
  constructor
  · refine h.answered (h.known hlookUp) (Story.scan_setFound product m.userId)
      (fun _ hrow => absurd hrow List.not_mem_nil) (fun _ _ _ hnone => absurd hnone (Option.not_mem_none _))
      fun story hstory htoken => ?_
    rw [List.append_nil]
    exact (h.of_token hlookUp hstory htoken).setFound hphase hasked _
      fun _ hnone => absurd hnone (Option.not_mem_none _)
  · intro huser
    refine h.answered (h.known hlookUp) (Story.scan_setFound product m.userId)
      (fun _ hrow => absurd hrow List.not_mem_nil) (fun id htoken l' hl' => ?_) fun story hstory htoken => ?_
    · obtain rfl : _ = l' := Option.some.inj hl'
      exact h.openings id l (by rw [← htoken]; exact hlookUp)
    · have htraced := h.of_token hlookUp hstory htoken
      rw [List.append_nil]
      refine htraced.setFound hphase hasked _ fun l' hl' => ?_
      obtain rfl : _ = l' := Option.some.inj hl'
      rw [huser]
      exact (htraced.follows l rfl).setFound hphase

/-- The stock's answer with the user of the look-up signed in: an opening has no row, a scan has its row. -/
theorem Ledger.setStock (h : m.Ledger characters) {product : Product} (hlookUp : m.lookUps token = some l)
    (hphase : l.phase = .stock product) (huser : m.userId = some l.user) :
    (l.scan = none → (m.answered token (.setStock m.userId) none []).Ledger characters) ∧
      ∀ counted quantity stockError, l.scan = some counted →
        (m.answered token (.setStock m.userId) (some { l with phase := .insert product quantity stockError })
          [queueQrScan counted product.productId l.store.storeId l.user]).Ledger characters := by
  constructor
  · intro hscan
    refine h.answered (h.known hlookUp) (Story.scan_setStock m.userId) (fun _ hrow => absurd hrow List.not_mem_nil)
      (fun _ _ _ hnone => absurd hnone (Option.not_mem_none _)) fun story hstory htoken => ?_
    have hcounted := ((h.of_token hlookUp hstory htoken).follows l rfl).scan
    cases hscan.symm.trans hcounted
  · intro counted quantity stockError hscan
    refine h.answered (h.known hlookUp) (Story.scan_setStock m.userId) (fun row hrow => ?_)
      (fun id htoken l' hl' => ?_) fun story hstory htoken => ?_
    · rw [List.mem_singleton.mp hrow]
      cases htoken : token with
      | scan id =>
        obtain ⟨story, hstory, hid⟩ := h.known hlookUp id htoken
        have hcounted := ((h.of_token hlookUp hstory (hid ▸ htoken)).follows l rfl).scan
        rw [hid, ← Option.some.inj (hscan.symm.trans hcounted)]
        rfl
      | opening id => cases hscan.symm.trans (h.openings id l (by rw [← htoken]; exact hlookUp))
    · cases hscan.symm.trans (h.openings id l (by rw [← htoken]; exact hlookUp))
    · have htraced := h.of_token hlookUp hstory htoken
      have hl := htraced.follows l rfl
      rw [huser, Option.some.inj (hscan.symm.trans hl.scan)]
      refine htraced.setStock hphase fun l' hl' => ?_
      obtain rfl : _ = l' := Option.some.inj hl'
      refine ⟨hscan.trans (hscan.symm.trans hl.scan), hl.user, hl.store, hl.payload, fun hproduct => ?_,
        fun _ hstock => ?_⟩
      · cases hproduct
      · cases hstock

theorem Ledger.setStock_of_ne (h : m.Ledger characters) {product : Product} (hlookUp : m.lookUps token = some l)
    (hphase : l.phase = .stock product) (huser : m.userId ≠ some l.user) :
    (m.answered token (.setStock m.userId) none []).Ledger characters := by
  refine h.answered (h.known hlookUp) (Story.scan_setStock m.userId) (fun _ hrow => absurd hrow List.not_mem_nil)
    (fun _ _ _ hnone => absurd hnone (Option.not_mem_none _)) fun story hstory htoken => ?_
  rw [List.append_nil]
  exact (h.of_token hlookUp hstory htoken).setStock_of_ne hphase huser

end

theorem Ledger.after (h : m.Ledger characters) (event : Event) (hasked : m.Asked event) :
    (m.after characters event).Ledger characters := by
  cases event with
  | decoded raw now => exact h.onDecoded raw now
  | entered raw now => exact Ledger.onDecoded (m := m.forget) (h.congr rfl rfl rfl rfl) raw now
  | scanAgain => exact h.congr rfl rfl rfl rfl
  | showProduct productId => exact h.showProduct productId
  | userChanged userId => exact h.userChanged userId
  | userCollected => exact h.synchronizeSession
  | storeChanged store => exact h.congr rfl rfl rfl rfl
  | productAnswered token answer =>
    change (m.productAnswered token answer).Ledger characters
    obtain heq | ⟨user, store, productId, scan, hlookUp, ⟨shown, heq⟩ | ⟨product, hanswer, heq⟩⟩ :=
      m.productAnswered_cases token answer
    · rwa [heq]
    · rw [heq]
      exact (h.ended hlookUp).present _ _
    · rw [hanswer] at hasked
      have hfound := h.setFound hlookUp rfl (hasked _ hlookUp)
      obtain ⟨huser, heq⟩ | ⟨-, heq⟩ := heq
      · rw [heq]
        exact hfound.2 huser
      · rw [heq]
        exact hfound.1.synchronizeSession
  | stockAnswered token answer =>
    change (m.stockAnswered token answer).Ledger characters
    obtain heq | ⟨user, store, productId, scan, product, hlookUp,
      ⟨huser, hscan, shown, heq⟩ | ⟨counted, quantity, huser, hscan, heq⟩ | ⟨huser, heq⟩⟩ :=
      m.stockAnswered_cases token answer
    · rwa [heq]
    · rw [heq]
      exact ((h.setStock hlookUp rfl huser).1 hscan).present _ _
    · have hcounted := (h.setStock hlookUp rfl huser).2 counted quantity answer.stockError hscan
      rw [heq, ← hscan]
      exact hcounted
    · rw [heq]
      exact (h.setStock_of_ne hlookUp rfl huser).synchronizeSession
  | inserted token rowId =>
    change (m.inserted token rowId).Ledger characters
    obtain heq | ⟨user, shown, hpending, heq⟩ := m.inserted_cases token rowId
    · rwa [heq]
    · obtain ⟨l, hlookUp⟩ := Option.isSome_iff_exists.mp hpending
      rw [heq]
      exact (h.ended hlookUp).present _ _

end Model

/-! ### Runs -/

variable {characters : Characters} {m : Model}

theorem Reached.kept (h : Reached characters m) : m.Framed ∧ m.Displays ∧ m.Ledger characters := by
  induction h with
  | start userId chosenStore =>
    refine ⟨⟨rfl, rfl⟩, ⟨fun _ => rfl, fun _ htoken => absurd htoken (Option.some_ne_none _).symm, .inl rfl⟩, ?_⟩
    constructor
    · exact fun _ hstory => absurd hstory List.not_mem_nil
    · exact fun _ hstory => absurd hstory List.not_mem_nil
    · exact List.nodup_nil
    · exact fun _ hrow => absurd hrow List.not_mem_nil
    · exact fun _ hsome => absurd hsome (by simp [Model.start])
    · exact fun _ _ hlookUp => absurd hlookUp (Option.not_mem_none _)
  | next _ event hasked ih =>
    obtain ⟨hframed, hdisplays, hledger⟩ := ih
    exact ⟨hframed.after event, hdisplays.after event, hledger.after event hasked⟩

/-- Whatever comes in whatever order: one scan for each run of equal frames, one row for each scan whose
product was found at a chosen store with its user signed in at the answers of both services, and none for any
other; and what is shown is of the newest scan or opening. -/
theorem counted (h : Reached characters m) : m.Counted characters Story.row? := by
  obtain ⟨hframed, hdisplays, hledger⟩ := h.kept
  constructor
  · exact hframed.scans
  · exact fun story hstory => (hledger.traced story hstory).parsed
  · exact hledger.ids
  · exact fun story hstory => (hledger.traced story hstory).found
  · exact fun story hstory => (hledger.traced story hstory).rows
  · exact hledger.queued
  · obtain hidle | ⟨token, hlatest, hshown⟩ := hdisplays.shown
    · exact .inl hidle
    · exact .inr (hshown.trans (hdisplays.newest token hlatest).symm)

/-- The digits and the blank of ASCII. -/
def ascii : Characters where
  isWhitespace c := c = ' '
  digit c := if '0' ≤ c ∧ c ≤ '9' then some (c.toNat - '0'.toNat) else none

/-- Ana scans product 7 in store 1, and it is found. -/
def lookedUp : Model :=
  ((Model.start (some "ana") (some ⟨1, "Centro"⟩)).after ascii (.decoded ['7'] 0)).after ascii
    (.productAnswered (.scan 0) (.body ⟨7, "Lamp"⟩))

theorem reached_lookedUp : Reached ascii lookedUp := by
  refine .next (.next (.start _ _) (.decoded ['7'] 0) trivial) _ fun lookUp hlookUp => ?_
  cases hlookUp
  rfl

theorem counted_ana : (lookedUp.after ascii (.stockAnswered (.scan 0) (.body 3))).Counted ascii Story.row? :=
  counted (.next reached_lookedUp (.stockAnswered (.scan 0) (.body 3)) trivial)

/-- Ana signs out and in again before stock-service answers. -/
def backAgain : Model :=
  ((lookedUp.after ascii (.userChanged none)).after ascii (.userChanged (some "ana"))).after ascii
    (.stockAnswered (.scan 0) (.body 3))

theorem counted_backAgain : ¬ ∀ (characters : Characters) (m : Model), Reached characters m →
    m.Counted characters Story.claimed? := by
  intro h
  have hreached : Reached ascii backAgain :=
    .next (.next (.next reached_lookedUp (.userChanged none) trivial) (.userChanged (some "ana")) trivial)
      (.stockAnswered (.scan 0) (.body 3)) trivial
  have hrows := (h ascii backAgain hreached).rows
  revert hrows
  decide

end RetailSegmentation.FloorScans
