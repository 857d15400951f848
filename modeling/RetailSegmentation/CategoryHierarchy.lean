import RetailSegmentation.AncestorWalk
import RetailSegmentation.TransactionServer
import RetailSegmentation.TransactionTables

/-! The hierarchy of categories (`sql/01_schema.sql`) under whatever transactions: a trigger takes an advisory lock
before a statement that inserts or moves categories, and another walks up from the new parent of every row. -/

namespace RetailSegmentation.CategoryHierarchy

open Program Transactions Forest

/-- A row of `category`, by its `category_id`. -/
structure Row where
  name : String
  parentCategoryId : Option ℤ
  deriving DecidableEq, Repr

abbrev Rows := AList fun _ : ℤ => Row

def parentOf (rows : Rows) (id : ℤ) : Option ℤ := (rows.lookup id).bind Row.parentCategoryId

/-! ### The triggers -/

/-- `WITH RECURSIVE ancestor`: from the new parent up, until nothing new is found. -/
def ancestors (rows : Rows) (parent : ℤ) : List ℤ := climbUnseen (parentOf rows) rows.keys.length [parent] parent

/-- `fn_category_no_cycle`, over the rows that the transaction sees. -/
def noCycle (rows : Rows) (id : ℤ) : Option ℤ → Bool
  | none => true
  | some parent => id ∉ ancestors rows parent

/-- Statements that write categories. An update of the parents may be of several rows, each with its own values. -/
inductive Statement where
  | insert (rows : List (ℤ × Row))
  | update (ids : List ℤ) (change : ℤ → Row → Row)
  | rename (ids : List ℤ) (name : ℤ → Row → String)
  | delete (ids : List ℤ)
  | select

/-- The ids of the rows that were written, and the rows that are read. -/
abbrev Result : Statement → Type
  | .insert _ => Unit
  | .update _ _ => List ℤ
  | .rename _ _ => List ℤ
  | .delete _ => List ℤ
  | .select => List (ℤ × Row)

inductive DbError where
  | noCycle
  | uniqueViolation
  | foreignKeyViolation
  | other
  deriving DecidableEq, Repr

/-- The table and the holder of the hierarchy lock. -/
structure Db (T : Type) where
  table : Table T ℤ Row
  lock : Option T

section Server

variable {T : Type} [DecidableEq T]

/-- The rows of a statement are written one after another, each unlocked by others and allowed over what was
written before it. -/
inductive Writes (t : T) (allowed : Table T ℤ Row → ℤ → Option Row → Prop) :
    List (ℤ × Option Row) → Table T ℤ Row → Table T ℤ Row → Prop
  | nil {tb : Table T ℤ Row} : Writes t allowed [] tb tb
  | cons {id : ℤ} {version : Option Row} {rest : List (ℤ × Option Row)} {tb tb' : Table T ℤ Row} (hfree : tb.Free t id)
      (hallowed : allowed tb id version) (hrest : Writes t allowed rest (tb.put t id version hfree) tb') :
      Writes t allowed ((id, version) :: rest) tb tb'

def Inserted (t : T) (tb : Table T ℤ Row) (id : ℤ) (version : Option Row) : Prop :=
  tb.get t id = none ∧ ∃ row, version = some row ∧ noCycle (tb.view t) id row.parentCategoryId = true

def Updated (change : ℤ → Row → Row) (t : T) (tb : Table T ℤ Row) (id : ℤ) (version : Option Row) : Prop :=
  ∃ row, tb.get t id = some row ∧ version = some (change id row) ∧
    noCycle (tb.view t) id (change id row).parentCategoryId = true

def Renamed (name : ℤ → Row → String) (t : T) (tb : Table T ℤ Row) (id : ℤ) (version : Option Row) : Prop :=
  ∃ row, tb.get t id = some row ∧ version = some { row with name := name id row }

def Deleted (t : T) (tb : Table T ℤ Row) (id : ℤ) (version : Option Row) : Prop :=
  (tb.get t id).isSome = true ∧ version = none

/-- No other transaction holds the hierarchy lock. -/
def Db.Unlocked (db : Db T) (t : T) : Prop := db.lock = none ∨ db.lock = some t

instance (db : Db T) (t : T) : Decidable (db.Unlocked t) := inferInstanceAs (Decidable (_ ∨ _))

/-- The answers to statements. Those that may change a parent take the lock of `fn_category_hierarchy_lock` first.
Unique names and foreign keys may refuse more: nothing here rests on them. -/
inductive Answers (t : T) : (s : Statement) → Db T → Result s → Db T → Prop
  | insert {db : Db T} {rows : List (ℤ × Row)} {table : Table T ℤ Row} (hlock : db.Unlocked t)
      (hwrites : Writes t (Inserted t) (rows.map fun row => (row.1, some row.2)) db.table table) :
      Answers t (.insert rows) db () ⟨table, some t⟩
  | update {db : Db T} {ids : List ℤ} {change : ℤ → Row → Row} {writes : List (ℤ × Option Row)} {table : Table T ℤ Row}
      (hlock : db.Unlocked t) (hids : (writes.map Prod.fst).Sublist ids)
      (hwrites : Writes t (Updated change t) writes db.table table) :
      Answers t (.update ids change) db (writes.map Prod.fst) ⟨table, some t⟩
  | rename {db : Db T} {ids : List ℤ} {name : ℤ → Row → String} {writes : List (ℤ × Option Row)} {table : Table T ℤ Row}
      (hids : (writes.map Prod.fst).Sublist ids) (hwrites : Writes t (Renamed name t) writes db.table table) :
      Answers t (.rename ids name) db (writes.map Prod.fst) { db with table }
  | delete {db : Db T} {ids : List ℤ} {writes : List (ℤ × Option Row)} {table : Table T ℤ Row}
      (hids : (writes.map Prod.fst).Sublist ids) (hwrites : Writes t (Deleted t) writes db.table table) :
      Answers t (.delete ids) db (writes.map Prod.fst) { db with table }
  | select {db : Db T} : Answers t .select db ((db.table.view t).entries.map fun row => (row.1, row.2)) db

def Db.release (db : Db T) (t : T) : Option T := if db.lock = some t then none else db.lock

/-- Any statement may be refused, for any reason. -/
def server : Server T Statement Result DbError (Db T) where
  answers := Answers
  refuses _ _ _ _ := True
  aborts _ := True
  commit t db := ⟨db.table.commit t, db.release t⟩
  rollback t db := ⟨db.table.rollback t, db.release t⟩
  losesReplies := True

end Server

/-! ### What a transaction sees -/

section Invariant

variable {T : Type} {tb : Table T ℤ Row} {t u : T} {id : ℤ}

/-- The parents as a transaction sees them. -/
def parentsOf (tb : Table T ℤ Row) (t : T) (id : ℤ) : Option ℤ := (tb.get t id).bind Row.parentCategoryId

theorem parentOf_view : parentOf (tb.view t) = parentsOf tb t := by
  funext id
  unfold parentOf parentsOf
  rw [Table.lookup_view]

theorem mem_ancestors {rows : Rows} (hacyclic : Acyclic (parentOf rows)) {parent : ℤ} :
    id ∈ ancestors rows parent ↔ Relation.ReflTransGen (Above (parentOf rows)) parent id := by
  have hkeys : ∀ x y, Relation.ReflTransGen (Above (parentOf rows)) parent x → parentOf rows x = some y →
      x ∈ rows.keys := by
    intro x y _ hxy
    obtain ⟨row, hrow, -⟩ := Option.bind_eq_some_iff.mp hxy
    exact AList.mem_keys.mp (AList.lookup_isSome.mp (Option.isSome_iff_exists.mpr ⟨row, hrow⟩))
  obtain ⟨chain, hchain⟩ := climb_ends hacyclic hkeys
  have hwalk : ancestors rows parent = chain :=
    climbUnseen_eq hacyclic (fun x hx => List.mem_singleton.mp hx ▸ .refl) hchain
  rw [hwalk]
  exact mem_climb hchain

theorem acyclic_of_noCycle {parent : Option ℤ} (hacyclic : Acyclic (parentsOf tb t))
    (hallowed : noCycle (tb.view t) id parent = true) : Acyclic (Function.update (parentsOf tb t) id parent) := by
  cases parent with
  | none =>
      refine hacyclic.mono fun x y hxy => ?_
      by_cases hx : x = id
      · subst hx
        rw [Function.update_self] at hxy
        cases hxy
      · rwa [Function.update_of_ne hx] at hxy
  | some parent =>
      refine hacyclic.link fun hpath => ?_
      have hnot : id ∉ ancestors (tb.view t) parent := of_decide_eq_true hallowed
      rw [← parentOf_view] at hacyclic hpath
      exact hnot ((mem_ancestors hacyclic).mpr hpath)

variable [DecidableEq T]

theorem parentsOf_put (version : Option Row) (hfree : tb.Free t id) :
    parentsOf (tb.put t id version hfree) t =
      Function.update (parentsOf tb t) id (version.bind Row.parentCategoryId) := by
  funext x
  unfold parentsOf
  rw [Table.put_get_eq_update]
  by_cases hx : x = id
  · subst hx
    rw [Function.update_self, Function.update_self]
  · rw [Function.update_of_ne hx, Function.update_of_ne hx]

theorem parentsOf_put_other (hu : u ≠ t) (version : Option Row) (hfree : tb.Free t id) :
    parentsOf (tb.put t id version hfree) u = parentsOf tb u := by
  funext x
  unfold parentsOf
  rw [Table.put_get_other hfree version hu]

theorem Writes.keeps {allowed : Table T ℤ Row → ℤ → Option Row → Prop} {I : Table T ℤ Row → Prop}
    {writes : List (ℤ × Option Row)} {tb' : Table T ℤ Row} (h : Writes t allowed writes tb tb')
    (hkeeps : ∀ tb id version (hfree : tb.Free t id), I tb → allowed tb id version → I (tb.put t id version hfree))
    (hstart : I tb) : I tb' := by
  induction h with
  | nil => exact hstart
  | cons hfree hallowed _ ih => exact ih (hkeeps _ _ _ hfree hstart hallowed)

/-- The hierarchy has no cycle: as it is committed, and as the holder of the lock sees it. The others see no parent
that is not committed. -/
structure Rooted (db : Db T) : Prop where
  committed : Acyclic (parentOf db.table.rows)
  holder : ∀ t, db.lock = some t → Acyclic (parentsOf db.table t)
  others : ∀ t, db.lock ≠ some t → ∀ x y, parentsOf db.table t x = some y → parentOf db.table.rows x = some y

variable {db : Db T}

theorem Rooted.sees (h : Rooted db) (t : T) : Acyclic (parentsOf db.table t) := by
  by_cases hlock : db.lock = some t
  · exact h.holder t hlock
  · exact h.committed.mono (h.others t hlock)

/-- What a statement of `t` leaves to the others. -/
structure Aside (t : T) (tb tb' : Table T ℤ Row) : Prop where
  rows : tb'.rows = tb.rows
  others : ∀ u, u ≠ t → parentsOf tb' u = parentsOf tb u

theorem Aside.put {tb' : Table T ℤ Row} (h : Aside t tb tb') (version : Option Row) (hfree : tb'.Free t id) :
    Aside t tb (tb'.put t id version hfree) where
  rows := h.rows
  others u hu := (parentsOf_put_other hu version hfree).trans (h.others u hu)

theorem Rooted.moves (h : Rooted db) {allowed : Table T ℤ Row → ℤ → Option Row → Prop}
    {writes : List (ℤ × Option Row)} {table : Table T ℤ Row} (hlock : db.Unlocked t)
    (hwrites : Writes t allowed writes db.table table)
    (hallowed : ∀ tb id version, allowed tb id version →
      ∃ row, version = some row ∧ noCycle (tb.view t) id row.parentCategoryId = true) : Rooted ⟨table, some t⟩ := by
  obtain ⟨haside, hsees⟩ : Aside t db.table table ∧ Acyclic (parentsOf table t) := by
    refine hwrites.keeps (I := fun tb => Aside t db.table tb ∧ Acyclic (parentsOf tb t))
      (fun tb id version hfree htb hok => ?_) ⟨⟨rfl, fun _ _ => rfl⟩, h.sees t⟩
    obtain ⟨row, rfl, hcheck⟩ := hallowed tb id version hok
    refine ⟨htb.1.put _ hfree, ?_⟩
    rw [parentsOf_put]
    exact acyclic_of_noCycle htb.2 hcheck
  refine ⟨?_, fun u hu => ?_, fun u hu x y hxy => ?_⟩
  · rw [haside.rows]
    exact h.committed
  · obtain rfl := Option.some.inj hu
    exact hsees
  · have hne : u ≠ t := fun heq => hu (heq ▸ rfl)
    have hother : db.lock ≠ some u := by
      obtain hnone | hself := hlock
      · rw [hnone]
        exact nofun
      · rw [hself]
        exact fun heq => hne (Option.some.inj heq).symm
    rw [haside.others u hne] at hxy
    rw [haside.rows]
    exact h.others u hother x y hxy

theorem Rooted.shrinks (h : Rooted db) {allowed : Table T ℤ Row → ℤ → Option Row → Prop}
    {writes : List (ℤ × Option Row)} {table : Table T ℤ Row} (hwrites : Writes t allowed writes db.table table)
    (hallowed : ∀ tb id version, allowed tb id version → ∀ parent, version.bind Row.parentCategoryId = some parent →
      parentsOf tb t id = some parent) : Rooted { db with table } := by
  obtain ⟨haside, hsees⟩ : Aside t db.table table ∧
      ∀ x y, parentsOf table t x = some y → parentsOf db.table t x = some y := by
    refine hwrites.keeps (I := fun tb => Aside t db.table tb ∧
      ∀ x y, parentsOf tb t x = some y → parentsOf db.table t x = some y)
      (fun tb id version hfree htb hok => ⟨htb.1.put _ hfree, fun x y hxy => ?_⟩)
      ⟨⟨rfl, fun _ _ => rfl⟩, fun _ _ hxy => hxy⟩
    rw [parentsOf_put] at hxy
    by_cases hx : x = id
    · subst hx
      rw [Function.update_self] at hxy
      exact htb.2 x y (hallowed tb x version hok y hxy)
    · rw [Function.update_of_ne hx] at hxy
      exact htb.2 x y hxy
  have hbefore : ∀ u x y, parentsOf table u x = some y → parentsOf db.table u x = some y := by
    intro u x y hxy
    by_cases hu : u = t
    · subst hu
      exact hsees x y hxy
    · rwa [haside.others u hu] at hxy
  refine ⟨?_, fun u hu => (h.holder u hu).mono (hbefore u), fun u hu x y hxy => ?_⟩
  · dsimp only
    rw [haside.rows]
    exact h.committed
  · dsimp only
    rw [haside.rows]
    exact h.others u hu x y (hbefore u x y hxy)

/-! ### The end of a transaction -/

omit [DecidableEq T] in
theorem get_of_owned (tb : Table T ℤ Row) (hu : u ≠ t) (howner : tb.owner id = some u) :
    tb.get t id = tb.rows.lookup id := by
  refine Table.get_eq_rows ?_
  rw [howner]
  exact fun heq => hu (Option.some.inj heq)

/-- After a commit another transaction sees what it owns as before, and the rest as it was committed. -/
theorem get_commit (tb : Table T ℤ Row) (hu : u ≠ t) (id : ℤ) :
    (tb.commit t).get u id = if tb.owner id = some u then tb.get u id else tb.get t id := by
  split_ifs with howner
  · exact Table.commit_get_owned t hu howner
  · rw [Table.commit_get_other t hu, if_neg howner]

theorem parentsOf_commit_self (tb : Table T ℤ Row) (t : T) : parentsOf (tb.commit t) t = parentOf (tb.commit t).rows := by
  funext x
  unfold parentsOf parentOf
  rw [Table.get_of_empty (Table.commit_pending_self t)]

theorem parentOf_commit (tb : Table T ℤ Row) (t : T) : parentOf (tb.commit t).rows = parentsOf tb t := by
  funext x
  unfold parentsOf parentOf
  rw [Table.commit_rows]

theorem Rooted.commit (h : Rooted db) (t : T) : Rooted ⟨db.table.commit t, db.release t⟩ := by
  refine ⟨?_, fun u hu => ?_, fun u hu x y hxy => ?_⟩
  · dsimp only
    rw [parentOf_commit]
    exact h.sees t
  · -- `u` goes on holding the lock, so `t` has not held it.
    have hne : u ≠ t := fun heq => release_self t db.lock (heq ▸ hu)
    have hlock : db.lock = some u := (release_other hne db.lock).mp hu
    have hnot : db.lock ≠ some t := by
      rw [hlock]
      exact fun heq => hne (Option.some.inj heq)
    refine (h.holder u hlock).mono fun x y hxy => ?_
    dsimp only at hxy
    unfold parentsOf at hxy ⊢
    rw [get_commit db.table hne] at hxy
    split_ifs at hxy with howner
    · exact hxy
    · rw [Table.get_eq_rows howner]
      exact h.others t hnot x y hxy
  · dsimp only at hxy ⊢
    by_cases hne : u = t
    · subst hne
      rw [parentsOf_commit_self] at hxy
      exact hxy
    · have hother : db.lock ≠ some u := fun heq => hu ((release_other hne db.lock).mpr heq)
      rw [parentOf_commit]
      unfold parentsOf at hxy ⊢
      rw [get_commit db.table hne] at hxy
      split_ifs at hxy with howner
      · rw [get_of_owned db.table hne howner]
        exact h.others u hother x y hxy
      · exact hxy

theorem Rooted.rollback (h : Rooted db) (t : T) : Rooted ⟨db.table.rollback t, db.release t⟩ := by
  have hself : parentsOf (db.table.rollback t) t = parentOf db.table.rows := by
    funext x
    unfold parentsOf parentOf
    rw [Table.rollback_get_self]
  have hothers : ∀ u, u ≠ t → parentsOf (db.table.rollback t) u = parentsOf db.table u := by
    intro u hu
    funext x
    unfold parentsOf
    rw [Table.rollback_get_other t hu]
  refine ⟨h.committed, fun u hu => ?_, fun u hu x y hxy => ?_⟩
  · have hne : u ≠ t := fun heq => release_self t db.lock (heq ▸ hu)
    dsimp only
    rw [hothers u hne]
    exact h.holder u ((release_other hne db.lock).mp hu)
  · dsimp only at hxy ⊢
    by_cases hne : u = t
    · subst hne
      rwa [hself] at hxy
    · rw [hothers u hne] at hxy
      exact h.others u (fun heq => hu ((release_other hne db.lock).mpr heq)) x y hxy

/-! ### Every interleaving -/

theorem Rooted.answered {s : Statement} {v : Result s} {db' : Db T} (h : Rooted db) (hanswer : Answers t s db v db') :
    Rooted db' := by
  cases hanswer with
  | insert hlock hwrites => exact h.moves hlock hwrites fun _ _ _ hok => hok.2
  | update hlock hids hwrites => exact h.moves hlock hwrites fun _ _ _ ⟨_, _, hversion, hok⟩ => ⟨_, hversion, hok⟩
  | rename hids hwrites =>
      refine h.shrinks hwrites fun tb id version ⟨row, hrow, hversion⟩ parent hparent => ?_
      subst hversion
      unfold parentsOf
      rw [hrow]
      exact hparent
  | delete hids hwrites =>
      refine h.shrinks hwrites fun tb id version ⟨_, hversion⟩ parent hparent => ?_
      subst hversion
      cases hparent
  | select => exact h

theorem Rooted.step {c : Request Statement} {r : Transactions.Reply Result DbError c} {db' : Db T} (h : Rooted db)
    (hstep : (server (T := T)).Step t c db r db') : Rooted db' := by
  cases hstep with
  | answered hanswer => exact h.answered hanswer
  | refused _ => exact h.rollback t
  | aborted _ _ => exact h.rollback t
  | committed => exact h.commit t
  | lost _ _ => exact h.commit t
  | rolledBack => exact h.rollback t

variable {E α : Type}

/-- **The hierarchy is a forest.** Over every interleaving of whatever transactions the categories that are committed
form no cycle, nor do those that any transaction sees; so every walk up from a category ends. -/
theorem hierarchy_is_a_forest (prog : T → SqlProg Result DbError E α) (rows : Rows) (hrows : Acyclic (parentOf rows))
    {cfg : Config T (Request Statement) (Transactions.Reply Result DbError) E α (Db T)}
    (hrun : (server (T := T)).machine.Reaches (Config.initial prog ⟨.ofRows rows, none⟩) cfg) :
    Acyclic (parentOf cfg.state.table.rows) ∧
    (∀ t, Acyclic (parentsOf cfg.state.table t)) ∧
    ∀ id, ∃ chain, climb (parentOf cfg.state.table.rows) (cfg.state.table.rows.keys.length + 1) id = some chain := by
  have hstart : Rooted (⟨.ofRows rows, none⟩ : Db T) := by
    refine ⟨hrows, nofun, fun t _ x y hxy => ?_⟩
    unfold parentsOf at hxy
    rwa [Table.ofRows_get] at hxy
  have hrooted : Rooted cfg.state := by
    refine Machine.Reaches.invariant (I := Rooted) (fun t c db r db' h hstep => Rooted.step h hstep)
      (fun db db' _ henv => ?_) (fun t db db' h hhalt => ?_) hrun hstart
    · exact False.elim henv
    · obtain rfl : db' = (server (T := T)).rollback t db := hhalt
      exact Rooted.rollback h t
  refine ⟨hrooted.committed, hrooted.sees, fun id => climb_ends hrooted.committed fun x y _ hxy => ?_⟩
  obtain ⟨row, hrow, -⟩ := Option.bind_eq_some_iff.mp hxy
  exact AList.mem_keys.mp (AList.lookup_isSome.mp (Option.isSome_iff_exists.mpr ⟨row, hrow⟩))

end Invariant

/-! ### Two opposite moves -/

/-- Of two connections one puts the first category under the second, the other the second under the first. -/
def moves (t : Bool) : SqlProg Result DbError DbError (List ℤ) :=
  atomic id (execute id (Statement.update [if t then 1 else 2] fun _ row =>
    { row with parentCategoryId := some (if t then 2 else 1) }))

def shoes : Rows := [⟨1, ⟨"Zapatos", none⟩⟩, ⟨2, ⟨"Botas", none⟩⟩].toAList

def answer (t : Bool) : (s : Statement) → Db Bool → Option (Result s × Db Bool)
  | .update ids change, db =>
    match db.table.get t (ids.headD 0) with
    | some row =>
      if hok : db.table.Free t (ids.headD 0) ∧ db.Unlocked t ∧ ids = [ids.headD 0] ∧
          noCycle (db.table.view t) (ids.headD 0) (change (ids.headD 0) row).parentCategoryId then
        some ([ids.headD 0], ⟨db.table.put t (ids.headD 0) (some (change (ids.headD 0) row)) hok.1, some t⟩)
      else none
    | none => none
  | _, _ => none

theorem answers_of_answer (t : Bool) (s : Statement) (db : Db Bool) (v : Result s) (db' : Db Bool)
    (h : answer t s db = some (v, db')) : Answers t s db v db' := by
  cases s with
  | update ids change =>
      dsimp only [answer] at h
      split at h
      · rename_i row hrow
        split_ifs at h with hok
        obtain ⟨rfl, rfl⟩ := Prod.mk.inj (Option.some.inj h)
        obtain ⟨hfree, hlock, hids, hcheck⟩ := hok
        have hwrites : Writes t (Updated change t) [(ids.headD 0, some (change (ids.headD 0) row))] db.table _ :=
          .cons hfree ⟨row, hrow, rfl, hcheck⟩ .nil
        have hsublist : [ids.headD 0].Sublist ids := hids ▸ List.Sublist.refl _
        refine Answers.update hlock ?_ hwrites
        exact hsublist
      · cases h
  | _ => cases h

theorem acyclic_shoes : Acyclic (parentOf shoes) := by
  have hroots : ∀ row ∈ shoes.entries, row.2.parentCategoryId = none := by decide
  refine acyclic_of_lt (fun _ => (0 : ℕ)) fun a b h => ?_
  obtain ⟨row, hrow, hparent⟩ := Option.bind_eq_some_iff.mp h
  have hnone := hroots ⟨a, row⟩ (AList.mem_lookup_iff.mp hrow)
  rw [hnone] at hparent
  cases hparent

theorem opposite_moves : ∃ cfg, (server (T := Bool)).machine.Reaches (Config.initial moves ⟨.ofRows shoes, none⟩) cfg ∧
    cfg.threads false = some (.raise .noCycle) ∧ parentOf cfg.state.table.rows 1 = some 2 ∧
    parentOf cfg.state.table.rows 2 = none ∧ Acyclic (parentOf cfg.state.table.rows) := by
  have hrun : ((schedule ((server (T := Bool)).respond answer fun _ _ _ => some .noCycle) [true, true, false, false]
      (Config.initial moves ⟨.ofRows shoes, none⟩)).any fun cfg =>
        outcome (cfg.threads false) = some (.error .noCycle) ∧ parentOf cfg.state.table.rows 1 = some 2 ∧
          parentOf cfg.state.table.rows 2 = none) = true := by
    decide +kernel
  obtain ⟨cfg, hcfg, hends⟩ := (Option.any_eq_true _ _).mp hrun
  obtain ⟨hraise, hboots, hshoes⟩ := of_decide_eq_true hends
  have hreaches := Machine.reaches_of_schedule (server (T := Bool)).machine
    (fun _ _ _ _ _ h => Server.step_of_respond answers_of_answer (fun _ _ _ _ _ => trivial) h) _ hcfg
  exact ⟨cfg, hreaches, raise_of_outcome hraise, hboots, hshoes,
    (hierarchy_is_a_forest moves shoes acyclic_shoes hreaches).1⟩

end RetailSegmentation.CategoryHierarchy
