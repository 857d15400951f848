import Mathlib.Data.List.Sort
import RetailSegmentation.ContentHistory
import RetailSegmentation.KitErrors
import RetailSegmentation.ProgramInterference

/-! The categories of categories-service and their copies in Redis (`services/categories/app/cache.py` and
`service.py`): every copy is stored under the number that a counter shows, and an invalidation increments the
counter. -/

namespace RetailSegmentation.Categories

open Program

/-- A row of `public.category`. -/
structure Category where
  categoryId : ℤ
  name : String
  parentCategoryId : Option ℤ
  deriving DecidableEq, Repr

abbrev Tree := List Category

/-! ### Reads -/

/-- The rows that a page is of: those of one parent (or all), or those below a category. -/
inductive Query where
  | list (parent : Option ℤ)
  | descendants (root : ℤ)
  deriving DecidableEq, Repr

/-- One round of the recursive term: the children of what has been found so far are found too. -/
def grow (tree : Tree) (found : List ℤ) : List ℤ :=
  found ++ ((tree.filter fun row => row.parentCategoryId.any (· ∈ found)).map Category.categoryId).filter (· ∉ found)

/-- `WITH RECURSIVE subtree`: as many rounds as there are rows find everything below the root. -/
def subtree (tree : Tree) (root : ℤ) : List ℤ :=
  (grow tree)^[tree.length] ((tree.filter fun row => row.parentCategoryId = some root).map Category.categoryId)

def Query.rows (tree : Tree) : Query → Tree
  | .list none => tree
  | .list (some parent) => tree.filter fun row => row.parentCategoryId = some parent
  | .descendants root => tree.filter fun row => row.categoryId ∈ subtree tree root

/-- `ORDER BY category_id LIMIT … OFFSET …`. -/
def pageRows (rows : Tree) (limit offset : ℕ) : Tree :=
  ((rows.mergeSort fun a b => a.categoryId ≤ b.categoryId).drop offset).take limit

/-- What a copy is of: `list:…` and `descendants:…` with page and size, `one:…`. -/
inductive Name where
  | page (query : Query) (page size : ℕ)
  | one (categoryId : ℤ)
  deriving DecidableEq, Repr

structure PageValue where
  items : List Category
  total : ℕ
  deriving DecidableEq, Repr

abbrev Value : Name → Type
  | .page _ _ _ => PageValue
  | .one _ => Category

abbrev Key := ℕ × Name

/-! ### Commands -/

inductive Change where
  | insert (row : Category)
  | update (id : ℤ) (name : Option String) (parent : Option (Option ℤ))
  | delete (id : ℤ)
  deriving DecidableEq, Repr

def Change.apply (tree : Tree) : Change → Tree
  | .insert row => tree ++ [row]
  | .update id name parent => tree.map fun row => if row.categoryId = id then
      { row with name := name.getD row.name, parentCategoryId := parent.getD row.parentCategoryId } else row
  | .delete id => tree.filter fun row => row.categoryId ≠ id

/-- `RETURNING`: the row as it is after the change, or was before a delete. -/
def Change.returning (tree : Tree) : Change → Option Category
  | .insert row => some row
  | .update id name parent => ((Change.update id name parent).apply tree).find? fun row => row.categoryId = id
  | .delete id => tree.find? fun row => row.categoryId = id

inductive Command where
  | getVersion
  | getCopy (key : Key)
  | setCopy (key : Key) (value : Value key.2)
  | incrVersion
  | count (query : Query)
  | select (query : Query) (limit offset : ℕ)
  | selectOne (id : ℤ)
  | execute (change : Change)
  | commit
  | nextEvent

/-- Replies of Redis are `none` where its client raises. -/
abbrev Reply : Command → Type
  | .getVersion => Option (Option ℕ)
  | .getCopy key => Option (Option (Value key.2))
  | .setCopy _ _ => Option Unit
  | .incrVersion => Option ℕ
  | .count _ => Except DbError ℕ
  | .select _ _ _ => Except DbError (List Category)
  | .selectOne _ => Except DbError (Option Category)
  | .execute _ => Except DbError (Option Category)
  | .commit => Except DbError Unit
  | .nextEvent => Unit

abbrev CategoriesProg (α : Type) := Prog Command Reply Failure α

def orRaise {α : Type} : Except DbError α → CategoriesProg α
  | .ok a => .ret a
  | .error e => .raise (.database e)

/-! ### `TreeCache` -/

/-- `TreeCache.get`, of a cache with a client. -/
def cacheGet (name : Name) : CategoriesProg (Option (Value name)) := do
  match ← Prog.send Command.getVersion with
  | none => return none
  | some version => return (← Prog.send (Command.getCopy (version.getD 0, name))).join

def cachePut (name : Name) (value : Value name) : CategoriesProg Unit := do
  match ← Prog.send Command.getVersion with
  | none => return ()
  | some version =>
    let _ ← Prog.send (Command.setCopy (version.getD 0, name) value)
    return ()

/-- What a process without `REDIS_CACHE_URL` does instead. -/
def get (client : Bool) (name : Name) : CategoriesProg (Option (Value name)) :=
  if client then cacheGet name else .ret none

def put (client : Bool) (name : Name) (value : Value name) : CategoriesProg Unit :=
  if client then cachePut name value else .ret ()

def invalidateQuietly (client : Bool) : CategoriesProg Unit :=
  if client then do
    let _ ← Prog.send Command.incrVersion
    return ()
  else .ret ()

/-! ### Operations -/

def notFound : ApiError := ⟨404, "category_not_found", "The category does not exist.", []⟩

def pageOf (client : Bool) (query : Query) (page size : ℕ) : CategoriesProg PageValue := do
  let offset := (page - 1) * size
  match ← get client (.page query page size) with
  | some cached => return cached
  | none =>
    let total ← orRaise (← Prog.send (Command.count query))
    let rows ← orRaise (← Prog.send (Command.select query size offset))
    put client (.page query page size) ⟨rows, total⟩
    return ⟨rows, total⟩

def existing (client : Bool) (id : ℤ) : CategoriesProg Category := do
  match ← get client (.one id) with
  | some cached => return cached
  | none =>
    match ← orRaise (← Prog.send (Command.selectOne id)) with
    | none => .raise (.api notFound)
    | some row =>
      put client (.one id) row
      return row

def listDescendants (client : Bool) (id : ℤ) (page size : ℕ) : CategoriesProg PageValue := do
  let _ ← existing client id
  pageOf client (.descendants id) page size

def hasChildren : ApiError := ⟨409, "category_has_children", "The category still has subcategories.", []⟩

def unknownParent : ApiError :=
  ⟨422, "unknown_parent_category", "The parent category does not exist.", [⟨"parent_category_id", "unknown"⟩]⟩

/-- `refusal`; a `RestrictViolation` is a foreign key's violation here. -/
def refusal (deleting : Bool) : DbError → Option ApiError
  | .uniqueViolation constraint =>
    if constraint = "category_pkey" then
      some ⟨409, "category_id_taken", "The category id is already used.", [⟨"category_id", "duplicate"⟩]⟩
    else if constraint = "category_name_key" then
      some ⟨409, "category_name_taken", "The category name is already used.", [⟨"name", "duplicate"⟩]⟩
    else none
  | .foreignKeyViolation constraint =>
    if constraint = "category_parent_category_id_fkey" then some (if deleting then hasChildren else unknownParent)
    else if constraint = "product_category_id_fkey" then
      some ⟨409, "category_has_products", "The category still has products.", []⟩
    else if constraint = "category_has_customer_interest" then
      some ⟨409, "category_has_customer_interest", "A customer names the category as an interest.", []⟩
    else none
  | .checkViolation constraint =>
    if constraint ∈ ["category_not_own_parent", "category_no_cycle"] then
      some ⟨409, "category_cycle", "The category cannot be its own parent or ancestor.",
        [⟨"parent_category_id", "cycle"⟩]⟩
    else none
  | _ => none

/-- `write`: one statement in a transaction of its own. -/
def write (change : Change) (deleting : Bool) : CategoriesProg (Option Category) :=
  Prog.tryCatch
    (do
      let row ← orRaise (← Prog.send (Command.execute change))
      orRaise (← Prog.send Command.commit)
      return row)
    fun
      | .database error => .raise ((refusal deleting error).elim (.database error) .api)
      | error => .raise error

def requireStorableParent : Option ℤ → CategoriesProg Unit
  | none => .ret ()
  | some parent => if 1 ≤ parent ∧ parent ≤ 32767 then .ret () else .raise (.api unknownParent)

def invalidBody : ApiError :=
  ⟨422, "invalid_body", "The parsed body violates the request schema.", [⟨"parent_category_id", "invalid"⟩]⟩

/-- `createCategory`, which answers with the row. -/
def createCategory (client : Bool) (row : Category) : CategoriesProg (Option Category) := do
  requireStorableParent row.parentCategoryId
  let created ← (write (.insert row) false).tryCatch fun
    | .api error => .raise (.api (if error.code = "category_cycle" then invalidBody else error))
    | error => .raise error
  invalidateQuietly client
  return created

def updateCategory (client : Bool) (id : ℤ) (name : Option String) (parent : Option (Option ℤ)) :
    CategoriesProg (Option Category) := do
  requireStorableParent parent.join
  match ← write (.update id name parent) false with
  | none => .raise (.api notFound)
  | some row =>
    invalidateQuietly client
    return some row

def deleteCategory (client : Bool) (id : ℤ) : CategoriesProg (Option Category) := do
  match ← write (.delete id) true with
  | none => .raise (.api notFound)
  | some _ =>
    invalidateQuietly client
    return none

/-- What the consumer of the stream does with an event, and whether it is done with it. -/
def handleEvent (client : Bool) : CategoriesProg Bool := do
  Prog.send Command.nextEvent
  if client then return (← Prog.send Command.incrVersion).isSome else return true

/-- A request, or an event of the stream. -/
inductive Task where
  | list (parent : Option ℤ) (page size : ℕ)
  | one (id : ℤ)
  | descendants (id : ℤ) (page size : ℕ)
  | create (row : Category)
  | update (id : ℤ) (name : Option String) (parent : Option (Option ℤ))
  | delete (id : ℤ)
  | event
  deriving DecidableEq, Repr

inductive Answer where
  | page (value : PageValue)
  | category (row : Category)
  | written (row : Option Category)
  | handled (done : Bool)
  deriving DecidableEq, Repr

def Task.prog (client : Bool) : Task → CategoriesProg Answer
  | .list parent page size => do return .page (← pageOf client (.list parent) page size)
  | .one id => do return .category (← existing client id)
  | .descendants id page size => do return .page (← listDescendants client id page size)
  | .create row => do return .written (← createCategory client row)
  | .update id name parent => do return .written (← updateCategory client id name parent)
  | .delete id => do return .written (← deleteCategory client id)
  | .event => do return .handled (← handleEvent client)

/-- What a task reads, if it reads, and what it is answered with. -/
def Task.reads : Task → Option Name
  | .list parent page size => some (.page (.list parent) page size)
  | .one id => some (.one id)
  | .descendants id page size => some (.page (.descendants id) page size)
  | _ => none

def Answer.of : (name : Name) → Value name → Answer
  | .page _ _ _, value => .page value
  | .one _, row => .category row

/-! ### PostgreSQL and Redis -/

/-- The committed trees, the counter, the copies, and what each transaction is about to commit; and of the
past: for each number that the counter shows, the latest change that an answered invalidation had followed by
then; the change that a task's invalidation follows; and the tree that a task has begun to read last, by its
place in the history. -/
structure World (T : Type) where
  history : History Tree
  version : Option ℕ
  copies : (key : Key) → Option (Value key.2)
  pending : T → Tree → Tree
  floor : ℕ → ℕ
  follows : T → ℕ
  seen : T → ℕ

/-- `client.get(VERSION_KEY) or "0"`. -/
def World.current {T : Type} (w : World T) : ℕ := w.version.getD 0

/-- The latest change that an answered invalidation has followed. -/
def World.invalidated {T : Type} (w : World T) : ℕ := w.floor w.current

/-- `INCR`, after so many changes. -/
def World.incr {T : Type} (w : World T) (change : ℕ) : World T :=
  { w with version := some (w.current + 1), floor := Function.update w.floor (w.current + 1) change }

/-- The counter is gone: it shows zero again. -/
def World.evict {T : Type} (w : World T) : World T :=
  { w with version := none, floor := Function.update w.floor 0 w.invalidated }

section Machine

variable {T : Type} [DecidableEq T]

/-- What a command may be answered with. Redis may fail at every command, and PostgreSQL refuse every
statement; each statement reads what is committed. -/
inductive Answers (t : T) : (c : Command) → World T → Reply c → World T → Prop where
  | getVersion {w : World T} : Answers t .getVersion w (some w.version) w
  | getVersionFailed {w : World T} : Answers t .getVersion w none w
  | getCopy {w : World T} {key : Key} : Answers t (.getCopy key) w (some (w.copies key)) w
  | getCopyFailed {w : World T} {key : Key} : Answers t (.getCopy key) w none w
  | setCopy {w : World T} {key : Key} {value : Value key.2} :
      Answers t (.setCopy key value) w (some ()) { w with copies := Function.update w.copies key (some value) }
  | setCopyUnanswered {w : World T} {key : Key} {value : Value key.2} :
      Answers t (.setCopy key value) w none { w with copies := Function.update w.copies key (some value) }
  | setCopyFailed {w : World T} {key : Key} {value : Value key.2} : Answers t (.setCopy key value) w none w
  | incrVersion {w : World T} :
      Answers t .incrVersion w (some (w.current + 1)) (w.incr (max w.invalidated (w.follows t)))
  | incrVersionUnanswered {w : World T} : Answers t .incrVersion w none (w.incr w.invalidated)
  | incrVersionFailed {w : World T} : Answers t .incrVersion w none w
  | count {w : World T} {query : Query} : Answers t (.count query) w (.ok (query.rows w.history.last).length)
      { w with seen := Function.update w.seen t w.history.count }
  | select {w : World T} {query : Query} {limit offset : ℕ} :
      Answers t (.select query limit offset) w (.ok (pageRows (query.rows w.history.last) limit offset)) w
  | selectOne {w : World T} {id : ℤ} :
      Answers t (.selectOne id) w (.ok (w.history.last.find? fun row => row.categoryId = id))
        { w with seen := Function.update w.seen t w.history.count }
  | execute {w : World T} {change : Change} :
      Answers t (.execute change) w (.ok (change.returning w.history.last))
        { w with pending := Function.update w.pending t change.apply }
  | commit {w : World T} : Answers t .commit w (.ok ())
      { w with
        history := w.history.commit (w.pending t w.history.last)
        follows := Function.update w.follows t (w.history.count + 1) }
  | countRefused {w : World T} {query : Query} {e : DbError} : Answers t (.count query) w (.error e) w
  | selectRefused {w : World T} {query : Query} {limit offset : ℕ} {e : DbError} :
      Answers t (.select query limit offset) w (.error e) w
  | selectOneRefused {w : World T} {id : ℤ} {e : DbError} : Answers t (.selectOne id) w (.error e) w
  | executeRefused {w : World T} {change : Change} {e : DbError} : Answers t (.execute change) w (.error e) w
  | commitRefused {w : World T} {e : DbError} : Answers t .commit w (.error e) w
  | nextEvent {w : World T} {change : ℕ} (hchange : change ≤ w.history.count) :
      Answers t .nextEvent w () { w with follows := Function.update w.follows t change }

/-- Meanwhile another writer of the categories commits, a copy expires or is evicted, and so is the counter where
`mayEvict` lets it. -/
inductive Meanwhile (mayEvict : World T → Prop) : World T → World T → Prop where
  | changed {w : World T} (tree : Tree) : Meanwhile mayEvict w { w with history := w.history.commit tree }
  | expired {w : World T} (key : Key) : Meanwhile mayEvict w { w with copies := Function.update w.copies key none }
  | evicted {w : World T} (hevict : mayEvict w) : Meanwhile mayEvict w w.evict

def machine (mayEvict : World T → Prop) : Machine T Command Reply (World T) where
  step := Answers
  env := Meanwhile mayEvict
  halt _ w w' := w' = w

/-- Every task at its start, no copies, and no counter. -/
def initial (client : T → Bool) (task : T → Task) (tree : Tree) :
    Config T Command Reply Failure Answer (World T) :=
  .initial (fun t => (task t).prog (client t))
    ⟨⟨tree, []⟩, none, fun _ => none, fun _ => id, fun _ => 0, fun _ => 0, fun _ => 0⟩

/-- A copy is stored under no number that the counter has yet to show, and has seen every change that an answered
invalidation had followed when the counter got to its number. -/
def Timely (t : T) (c : Command) (w : World T) : Prop :=
  ∀ key value, c = .setCopy key value → key.1 ≤ w.current ∧ w.floor key.1 ≤ w.seen t

/-- The counter is evicted only while there is no copy. -/
def NoCopies (w : World T) : Prop := ∀ key, w.copies key = none

end Machine

end RetailSegmentation.Categories
