import Mathlib.Data.List.Dedup
import Mathlib.Data.List.ReduceOption
import Mathlib.Data.List.Sort
import RetailSegmentation.KitErrors
import RetailSegmentation.TransactionServer
import RetailSegmentation.TransactionTables

/-! customer-preferences-service (`services/customer-preferences`). A customer has two preference sets,
each replaced only as a whole, in one transaction under the customer's advisory lock. The tables here
are the rows of one customer. -/

namespace RetailSegmentation.Preferences

open Program Transactions

inductive PreferenceSet where
  | preferredChannels | interestCategories
  deriving DecidableEq, Repr

namespace PreferenceSet

/-- The request member that carries the set. -/
def field : PreferenceSet → String
  | preferredChannels => "channel_ids"
  | interestCategories => "category_ids"

def primaryKey : PreferenceSet → String
  | preferredChannels => "customer_preferred_channel_pkey"
  | interestCategories => "customer_interest_category_pkey"

def referenceKey : PreferenceSet → String
  | preferredChannels => "customer_preferred_channel_channel_id_fkey"
  | interestCategories => "customer_interest_category_category_id_fkey"

def customerKey : PreferenceSet → String
  | preferredChannels => "customer_preferred_channel_customer_id_fkey"
  | interestCategories => "customer_interest_category_customer_id_fkey"

def unknownCode : PreferenceSet → String
  | preferredChannels => "unknown_channel"
  | interestCategories => "unknown_category"

def unknownMessage : PreferenceSet → String
  | preferredChannels => "A channel id references no channel."
  | interestCategories => "A category id references no category."

/-- 422 naming the submitted position of the id that references nothing. -/
def unknown (set : PreferenceSet) (index : ℕ) : ApiError :=
  ⟨422, set.unknownCode, set.unknownMessage, [⟨set.field ++ "[" ++ toString index ++ "]", "unknown"⟩]⟩

end PreferenceSet

def customerNotFound : ApiError := ⟨404, "customer_not_found", "The customer does not exist.", []⟩

def invalidBody (field code message : String) : ApiError := ⟨422, "invalid_body", message, [⟨field, code⟩]⟩

def internalError : ApiError :=
  ⟨500, "internal_error", "The service could not complete the request.", []⟩

/-! ### The submitted list -/

/-- A finite double, as far as `format!("{value:.0}")` and `fract` tell it apart. -/
inductive Double where
  | whole (n : ℤ)
  | negativeZero
  | fractional
  deriving DecidableEq, Repr

/-- A JSON number as `serde_json` reads it. -/
structure JsonNumber where
  asI64 : Option ℤ
  asU64 : Option ℕ
  asF64 : Option Double
  deriving DecidableEq, Repr

/-- The texts `integer_text` gives. -/
inductive IntegerText where
  | decimal (n : ℤ)
  | minusZero
  deriving DecidableEq, Repr

/-- The integer an item names; `none` for an item that is no number, or names none. -/
def integerText : Option JsonNumber → Option IntegerText
  | none => none
  | some number => match number.asI64, number.asU64, number.asF64 with
    | some n, _, _ => some (.decimal n)
    | none, some n, _ => some (.decimal n)
    | none, none, some (.whole n) => some (.decimal n)
    | none, none, some .negativeZero => some .minusZero
    | none, none, _ => none

/-- `text.parse::<i16>().ok()`. -/
def IntegerText.parse : IntegerText → Option ℤ
  | decimal n => if -32768 ≤ n ∧ n ≤ 32767 then some n else none
  | minusZero => some 0

def submittedFrom (set : PreferenceSet) :
    List IntegerText → List (Option JsonNumber) → Except ApiError (List (Option ℤ))
  | _, [] => .ok []
  | seen, item :: rest =>
    match integerText item with
    | none => .error (invalidBody set.field "invalid_type" "Each id is an integer.")
    | some text =>
      if text ∈ seen then
        .error (invalidBody set.field "duplicate" "The list contains the same id twice.")
      else (submittedFrom set (text :: seen) rest).map (text.parse :: ·)

/-- The submitted ids in order; `none` marks one outside the key range. The body is `none` where it has
no list under the set's member. -/
def submittedIds (set : PreferenceSet) :
    Option (List (Option JsonNumber)) → Except ApiError (List (Option ℤ))
  | none => .error (invalidBody set.field "required" "The list of ids is required.")
  | some items => submittedFrom set [] items

/-! ### Tables -/

/-- A row of `customer_preferred_channel` or `customer_interest_category`. -/
abbrev Key := PreferenceSet × ℤ

/-- The tables the rows refer to, which no call changes. -/
structure References where
  hasCustomer : Bool
  hasReference : PreferenceSet → ℤ → Bool

/-- A customer's two sets, each sorted ascending. -/
structure Profile where
  preferredChannelIds : List ℤ
  interestCategoryIds : List ℤ
  deriving DecidableEq, Repr

namespace Profile

def ids (p : Profile) : PreferenceSet → List ℤ
  | .preferredChannels => p.preferredChannelIds
  | .interestCategories => p.interestCategoryIds

def replace (p : Profile) : PreferenceSet → List ℤ → Profile
  | .preferredChannels, ids => { p with preferredChannelIds := ids }
  | .interestCategories, ids => { p with interestCategoryIds := ids }

end Profile

def idsOf (rows : AList fun _ : Key => Unit) (set : PreferenceSet) : List ℤ :=
  ((rows.keys.filter (·.1 = set)).map Prod.snd).insertionSort (· ≤ ·)

def profileOf (rows : AList fun _ : Key => Unit) : Profile :=
  ⟨idsOf rows .preferredChannels, idsOf rows .interestCategories⟩

/-- The rows, the holder of the advisory lock, the audit actor of each open transaction, and the history
of commits, which nothing reads. -/
structure PreferenceDb (T : Type) where
  rows : Table T Key Unit
  lock : Option T
  actor : T → Option String
  commits : List T

/-! ### Statements -/

inductive Statement where
  | setConfig (sub : String)
  | customerExists
  | lockCustomer
  | current (set : PreferenceSet)
  | remove (set : PreferenceSet) (kept : List ℤ)
  | insert (set : PreferenceSet) (id : ℤ)
  | readReplaced
  | readProfile
  deriving DecidableEq, Repr

abbrev Result : Statement → Type
  | .setConfig _ => Unit
  | .customerExists => Bool
  | .lockCustomer => Unit
  | .current _ => List ℤ
  | .remove _ _ => Unit
  | .insert _ _ => Unit
  | .readReplaced => Profile × Option String
  | .readProfile => Option Profile

namespace PreferenceDb

variable {T : Type} [DecidableEq T]

def ofRows (rows : AList fun _ : Key => Unit) : PreferenceDb T := ⟨.ofRows rows, none, fun _ => none, []⟩

/-- The rows a DELETE of the ids outside `kept` drops. -/
def dropped (rows : AList fun _ : Key => Unit) (set : PreferenceSet) (kept : List ℤ) : List Key :=
  rows.keys.filter fun k => k.1 = set ∧ k.2 ∉ kept

def deleteRows (t : T) : List Key → Table T Key Unit → Option (Table T Key Unit)
  | [], tb => some tb
  | k :: ks, tb => if hfree : tb.Free t k then deleteRows t ks (tb.put t k none hfree) else none

/-- The constraint an INSERT violates. -/
def insertRefusal (refs : References) (db : PreferenceDb T) (t : T) (set : PreferenceSet) (id : ℤ) :
    Option DbError :=
  if (db.rows.get t (set, id)).isSome then some (.uniqueViolation set.primaryKey)
  else if !refs.hasReference set id then some (.foreignKeyViolation set.referenceKey)
  else if !refs.hasCustomer then some (.foreignKeyViolation set.customerKey)
  else none

/-- The answer to a statement and the tables after it; `none` while it waits, or where it is refused. -/
def answer (refs : References) (t : T) :
    (s : Statement) → PreferenceDb T → Option (Result s × PreferenceDb T)
  | .setConfig sub, db => some ((), { db with actor := Function.update db.actor t (some sub) })
  | .customerExists, db => some (refs.hasCustomer, db)
  | .lockCustomer, db =>
    if db.lock = none ∨ db.lock = some t then some ((), { db with lock := some t }) else none
  | .current set, db => some (idsOf (db.rows.view t) set, db)
  | .remove set kept, db => (deleteRows t (dropped (db.rows.view t) set kept) db.rows).map fun rows =>
      ((), { db with rows })
  | .insert set id, db =>
    if hfree : db.rows.Free t (set, id) then
      match insertRefusal refs db t set id with
      | none => some ((), { db with rows := db.rows.put t (set, id) (some ()) hfree })
      | some _ => none
    else none
  | .readReplaced, db => some ((profileOf (db.rows.view t), db.actor t), db)
  | .readProfile, db =>
    some (if refs.hasCustomer then some (profileOf (db.rows.view t)) else none, db)

def commit (t : T) (db : PreferenceDb T) : PreferenceDb T where
  rows := db.rows.commit t
  lock := if db.lock = some t then none else db.lock
  actor := Function.update db.actor t none
  commits := db.commits ++ [t]

def rollback (t : T) (db : PreferenceDb T) : PreferenceDb T where
  rows := db.rows.rollback t
  lock := if db.lock = some t then none else db.lock
  actor := Function.update db.actor t none
  commits := db.commits

end PreferenceDb

section Server

variable {T : Type} [DecidableEq T]

/-- A commit that is not answered has not happened. -/
def preferenceServer (refs : References) : Server T Statement Result DbError (PreferenceDb T) where
  answers t s db v db' := PreferenceDb.answer refs t s db = some (v, db')
  refuses t s db e := match s with
    | .insert set id => db.rows.Free t (set, id) ∧ PreferenceDb.insertRefusal refs db t set id = some e
    | _ => False
  aborts := IsAbort
  commit := PreferenceDb.commit
  rollback := PreferenceDb.rollback
  losesReplies := False

end Server

/-! ### Programs -/

abbrev PreferenceProg (α : Type) : Type := SqlProg Result DbError Failure α

def execute (s : Statement) : PreferenceProg (Result s) := Transactions.execute .database s

/-- `set.insert_error`. -/
def insertError (set : PreferenceSet) (index : ℕ) : Failure → Failure
  | .database (.foreignKeyViolation name) =>
    if name = set.referenceKey then .api (set.unknown index)
    else if name = set.customerKey then .api customerNotFound
    else .database (.foreignKeyViolation name)
  | e => e

def insertAll (set : PreferenceSet) (current : List ℤ) : ℕ → List (Option ℤ) → PreferenceProg Unit
  | _, [] => .ret ()
  | index, none :: _ => .raise (.api (set.unknown index))
  | index, some id :: rest =>
    if id ∈ current then insertAll set current (index + 1) rest
    else (execute (.insert set id)).tryCatch (fun e => .raise (insertError set index e)) >>= fun _ =>
      insertAll set current (index + 1) rest

def replaceBody (actor : String) (set : PreferenceSet) (ids : List (Option ℤ)) :
    PreferenceProg Profile := do
  execute (.setConfig actor)
  let exists_ ← execute .customerExists
  if !exists_ then .raise (.api customerNotFound)
  else do
    execute .lockCustomer
    let current ← execute (.current set)
    execute (.remove set ids.reduceOption)
    insertAll set current 0 ids
    let (profile, auditActor) ← execute .readReplaced
    if auditActor ≠ some actor then .raise (.api internalError) else .ret profile

def replace (actor : String) (set : PreferenceSet) (ids : List (Option ℤ)) : PreferenceProg Profile :=
  transaction .database (replaceBody actor set ids)

/-- A `PUT` of one set, or a `GET` of the profile. -/
inductive Call where
  | put (actor : String) (set : PreferenceSet) (body : Option (List (Option JsonNumber)))
  | read

/-- `put_set` and `get_preference_profile`; no profile is a customer that does not exist. -/
def Call.program : Call → PreferenceProg (Option Profile)
  | put actor set body => match submittedIds set body with
    | .error e => .raise (.api e)
    | .ok ids => replace actor set ids >>= fun profile => .ret (some profile)
  | read => execute .readProfile

end RetailSegmentation.Preferences
