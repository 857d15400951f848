import RetailSegmentation.OutboxProgress
import RetailSegmentation.ProgramProtocol

/-! Any number of relays over one outbox, their passes interleaved command by command with inserts, failures and
crashes: a row is marked only after it was appended and the append confirmed, and only a marked row is purged. -/

namespace RetailSegmentation.Outbox

open Program OldestFirst

/-! ### The outbox and its relays -/

/-- An open transaction: the rows it holds, and the ids it has marked and deleted. -/
structure Transaction (T : Type) where
  held : List (Row T)
  marked : List ℕ
  deleted : List ℕ

/-- What a pass has done, as Redis and PostgreSQL saw it. -/
inductive Happened (τ : Type) where
  | began (t : τ)
  | appended (t : τ) (entry : Entry)
  | answered (t : τ) (local_ : ℤ)
  | committed (t : τ) (eventIds : List ℕ)

/-- The committed rows, the open transactions and the journal, oldest first. -/
structure Shared (τ T : Type) where
  outbox : List (Row T)
  transactions : τ → Option (Transaction T)
  journal : List (Happened τ)

section System

variable {τ T : Type} [DecidableEq τ] [LinearOrder T]

def Shared.put (s : Shared τ T) (t : τ) (transaction : Option (Transaction T)) : Shared τ T :=
  { s with transactions := Function.update s.transactions t transaction }

def Shared.note (s : Shared τ T) (happened : Happened τ) : Shared τ T := { s with journal := s.journal ++ [happened] }

/-- The rows that a purge deletes. -/
def stale (cutoff : T) (outbox : List (Row T)) : List (Row T) :=
  outbox.filter fun row => row.relayedAt.any fun at_ => at_ < cutoff

/-- What a commit makes of the rows. -/
def Transaction.applied (tx : Transaction T) (now : T) (outbox : List (Row T)) : List (Row T) :=
  (setRelayed tx.marked now outbox).filter fun row => row.eventId ∉ tx.deleted

/-- No other transaction has deleted the rows; a statement waits for those that have. -/
def Shared.Free (s : Shared τ T) (t : τ) (rows : List (Row T)) : Prop :=
  ∀ u ≠ t, ∀ tx, s.transactions u = some tx → ∀ row ∈ rows, row.eventId ∉ tx.deleted

/-- What PostgreSQL and Redis may answer. An error may hide that a command was carried out. -/
inductive Answers (t : τ) : (c : Command) → Shared τ T → Reply T c → Shared τ T → Prop
  | connect {s reply} : Answers t .connect s reply s
  | notifies {s reply} : Answers t .notifies s reply s
  | begin {s reply} : Answers t .begin s reply ((s.put t (some ⟨[], [], []⟩)).note (.began t))
  | beginFails {s e} : Answers t .begin s (.error e) s
  | select {s tx limit locked batch} (htx : s.transactions t = some tx)
      (hlocked : ∀ id, locked id = true ↔ ∃ u ≠ t, ∃ tx, s.transactions u = some tx ∧ id ∈ tx.held.map Row.eventId)
      (hbatch : Oldest Row.occurredAt limit (eligible locked s.outbox) batch) :
      Answers t (.select limit) s (.ok batch) (s.put t (some { tx with held := tx.held ++ batch }))
  | selectFails {s limit e} : Answers t (.select limit) s (.error e) s
  | xadd {s entry maxlen reply} : Answers t (.xadd entry maxlen) s reply (s.note (.appended t entry))
  | xaddFails {s entry maxlen e} : Answers t (.xadd entry maxlen) s (.error e) s
  | waitAof {s numlocal numreplicas timeout n replicas} :
      Answers t (.waitAof numlocal numreplicas timeout) s (.ok (n :: replicas)) (s.note (.answered t n))
  | waitAofEmpty {s numlocal numreplicas timeout} : Answers t (.waitAof numlocal numreplicas timeout) s (.ok []) s
  | waitAofFails {s numlocal numreplicas timeout e} :
      Answers t (.waitAof numlocal numreplicas timeout) s (.error e) s
  | mark {s tx eventIds reply} (htx : s.transactions t = some tx) :
      Answers t (.mark eventIds) s reply (s.put t (some { tx with marked := tx.marked ++ eventIds }))
  | markFails {s eventIds e} : Answers t (.mark eventIds) s (.error e) s
  | commit {s tx reply} (now : T) (htx : s.transactions t = some tx) : Answers t .commit s reply
      (({ s with outbox := tx.applied now s.outbox }.put t none).note (.committed t tx.marked))
  | commitFails {s e} : Answers t .commit s (.error e) (s.put t none)
  | rollback {s reply} : Answers t .rollback s reply (s.put t none)
  | purgeDue {s seconds due} : Answers t (.purgeDue seconds) s due s
  | purge {s tx days reply} (cutoff : T) (htx : s.transactions t = some tx)
      (hfree : s.Free t (stale cutoff s.outbox)) :
      Answers t (.purge days) s reply
        (s.put t (some { tx with deleted := tx.deleted ++ (stale cutoff s.outbox).map Row.eventId }))
  | purgeAlone {s days reply} (cutoff : T) (htx : s.transactions t = none)
      (hfree : s.Free t (stale cutoff s.outbox)) :
      Answers t (.purge days) s reply { s with outbox := purged cutoff s.outbox }
  | purgeFails {s days e} : Answers t (.purge days) s (.error e) s
  | notePurge {s} : Answers t .notePurge s () s

/-- What else happens: a row is inserted, under an id of its own, or a connection is lost. -/
inductive Meanwhile : Shared τ T → Shared τ T → Prop
  | insert {s row} (hnew : row.relayedAt = none) (hid : row.eventId ∉ s.outbox.map Row.eventId)
      (hdeleted : ∀ u tx, s.transactions u = some tx → row.eventId ∉ tx.deleted) :
      Meanwhile s { s with outbox := s.outbox ++ [row] }
  | lost {s} (t : τ) : Meanwhile s (s.put t none)

variable (τ T) in
def relaying : Machine τ Command (Reply T) (Shared τ T) where
  step := Answers
  env := Meanwhile
  halt _ s s' := s' = s

end System

/-! ### Deliveries -/

section Deliveries

variable {τ T : Type}

/-- In its transaction, the pass has appended the row's own entry. -/
def Sent (relay : Relay T) (t : τ) (row : Row T) (journal : List (Happened τ)) : Prop :=
  ∃ earlier between later text, journal = earlier ++ .began t :: (between ++ .appended t (row.entry text) :: later) ∧
    relay.timestamp row.occurredAt = some text ∧ .began t ∉ between ++ later

/-- And the local append-only file was confirmed after that. -/
def Delivered (relay : Relay T) (t : τ) (row : Row T) (journal : List (Happened τ)) : Prop :=
  ∃ earlier between later after text n,
    journal = earlier ++ .began t :: (between ++ .appended t (row.entry text) :: (later ++ .answered t n :: after)) ∧
      relay.timestamp row.occurredAt = some text ∧ 1 ≤ n ∧ .began t ∉ between ++ later ++ after

variable {relay : Relay T} {t : τ} {row : Row T} {journal : List (Happened τ)} {happened : Happened τ}

theorem Sent.append (h : Sent relay t row journal) (hother : happened ≠ .began t) :
    Sent relay t row (journal ++ [happened]) := by
  obtain ⟨earlier, between, later, text, rfl, htext, hbegan⟩ := h
  refine ⟨earlier, between, later ++ [happened], text, by simp, htext, ?_⟩
  simp only [List.mem_append, List.mem_singleton] at hbegan ⊢
  exact fun hmem => hbegan (by tauto)

theorem Delivered.append (h : Delivered relay t row journal) (hother : happened ≠ .began t) :
    Delivered relay t row (journal ++ [happened]) := by
  obtain ⟨earlier, between, later, after, text, n, rfl, htext, hn, hbegan⟩ := h
  refine ⟨earlier, between, later, after ++ [happened], text, n, by simp, htext, hn, ?_⟩
  simp only [List.mem_append, List.mem_singleton] at hbegan ⊢
  exact fun hmem => hbegan (by tauto)

theorem Sent.answered (h : Sent relay t row journal) {n : ℤ} (hn : 1 ≤ n) :
    Delivered relay t row (journal ++ [.answered t n]) := by
  obtain ⟨earlier, between, later, text, rfl, htext, hbegan⟩ := h
  exact ⟨earlier, between, later, [], text, n, by simp, htext, hn, by simpa using hbegan⟩

theorem Sent.of_begun {later : List (Happened τ)} {earlier : List (Happened τ)} {text : String}
    (hbegan : .began t ∉ later) (htext : relay.timestamp row.occurredAt = some text) :
    Sent relay t row (earlier ++ .began t :: later ++ [.appended t (row.entry text)]) :=
  ⟨earlier, later, [], text, by simp, htext, by simpa using hbegan⟩

/-- The pass is in a transaction. -/
def Begun (t : τ) (journal : List (Happened τ)) : Prop :=
  ∃ earlier later, journal = earlier ++ .began t :: later ∧ .began t ∉ later

theorem Begun.append (h : Begun t journal) (hother : happened ≠ .began t) : Begun t (journal ++ [happened]) := by
  obtain ⟨earlier, later, rfl, hbegan⟩ := h
  refine ⟨earlier, later ++ [happened], by simp, ?_⟩
  simp only [List.mem_append, List.mem_singleton]
  exact fun hmem => hbegan (by tauto)

end Deliveries

/-! ### What holds of the outbox -/

section Invariants

variable {τ T : Type}

/-- The journal has grown, by no new transaction of the pass. -/
def Grown (t : τ) (journal journal' : List (Happened τ)) : Prop :=
  journal' = journal ∨ ∃ happened, happened ≠ .began t ∧ journal' = journal ++ [happened]

structure Transaction.Sound (relay : Relay T) (t : τ) (s : Shared τ T) (tx : Transaction T) : Prop where
  held : ∀ row ∈ tx.held, row ∈ s.outbox ∧ row.relayedAt = none
  marked : ∀ id ∈ tx.marked, ∃ row ∈ tx.held, row.eventId = id ∧ Delivered relay t row s.journal
  deleted : ∀ row ∈ s.outbox, row.eventId ∈ tx.deleted → row.relayedAt ≠ none

/-- Every transaction is sound, and no two hold one row. -/
structure Sound (relays : τ → Relay T) (s : Shared τ T) : Prop where
  keys : (s.outbox.map Row.eventId).Nodup
  transactions : ∀ t tx, s.transactions t = some tx → tx.Sound (relays t) t s
  apart : ∀ t u tx tx', t ≠ u → s.transactions t = some tx → s.transactions u = some tx' →
    ∀ row ∈ tx.held, row ∉ tx'.held

/-- What a pass knows at a point. -/
inductive Stage (T : Type) where
  | free
  | batch (selected : List (Row T)) (sent : List ℕ) (confirmed : Bool)

def Knows (relay : Relay T) (t : τ) : Stage T → Shared τ T → Prop
  | .free, _ => True
  | .batch selected sent confirmed, s => ∀ tx, s.transactions t = some tx → Begun t s.journal ∧
      (∀ row ∈ selected, row ∈ tx.held) ∧ ∀ id ∈ sent, ∃ row ∈ selected, row.eventId = id ∧
        if confirmed then Delivered relay t row s.journal else Sent relay t row s.journal

/-- Every row is as it was, or new and unrelayed, or marked by the commit of a transaction that has delivered
it; and no unrelayed row is gone. -/
structure Advances (relays : τ → Relay T) (s s' : Shared τ T) : Prop where
  rows : ∀ row' ∈ s'.outbox, row' ∈ s.outbox ∨
    row'.relayedAt = none ∧ row'.eventId ∉ s.outbox.map Row.eventId ∨
    ∃ row ∈ s.outbox, ∃ t eventIds now, row.relayedAt = none ∧ row' = { row with relayedAt := some now } ∧
      s'.journal = s.journal ++ [.committed t eventIds] ∧ row.eventId ∈ eventIds ∧
      Delivered (relays t) t row s.journal
  kept : ∀ row ∈ s.outbox, row.relayedAt = none → row.eventId ∈ s'.outbox.map Row.eventId

variable {relays : τ → Relay T} {relay : Relay T} {s s' : Shared τ T} {t u : τ} {tx : Transaction T}
  {journal journal' : List (Happened τ)}

theorem Delivered.grown {row : Row T} (h : Delivered relay t row journal) (hgrown : Grown t journal journal') :
    Delivered relay t row journal' := by
  obtain rfl | ⟨happened, hother, rfl⟩ := hgrown
  · exact h
  · exact h.append hother

theorem Transaction.Sound.mono (h : tx.Sound relay t s) (hheld : ∀ row ∈ tx.held, row ∈ s'.outbox)
    (hdeleted : ∀ row ∈ s'.outbox, row.eventId ∈ tx.deleted → row.relayedAt ≠ none)
    (hgrown : Grown t s.journal s'.journal) : tx.Sound relay t s' where
  held row hrow := ⟨hheld row hrow, (h.held row hrow).2⟩
  marked id hid := by
    obtain ⟨row, hrow, hrowid, hdelivered⟩ := h.marked id hid
    exact ⟨row, hrow, hrowid, hdelivered.grown hgrown⟩
  deleted := hdeleted

theorem Knows.mono {stage : Stage T} (h : Knows relay t stage s)
    (hsame : ∀ tx, s'.transactions t = some tx → s.transactions t = some tx) (hgrown : Grown t s.journal s'.journal) :
    Knows relay t stage s' := by
  cases stage with
  | free => trivial
  | batch selected sent confirmed =>
      intro tx htx
      obtain ⟨hbegun, hheld, hsent⟩ := h tx (hsame tx htx)
      obtain hsame | ⟨happened, hother, happend⟩ := hgrown
      · rw [hsame]
        exact ⟨hbegun, hheld, hsent⟩
      · rw [happend]
        refine ⟨hbegun.append hother, hheld, fun id hid => ?_⟩
        obtain ⟨row, hrow, hrowid, hdone⟩ := hsent id hid
        refine ⟨row, hrow, hrowid, ?_⟩
        cases confirmed with
        | true => exact Delivered.append hdone hother
        | false => exact Sent.append hdone hother

/-- A step of one pass that leaves the rows, and what it leaves of its own transaction. -/
theorem Sound.own (h : Sound relays s) (houtbox : s'.outbox = s.outbox)
    (hothers : ∀ u ≠ t, s'.transactions u = s.transactions u) (hgrown : ∀ u ≠ t, Grown u s.journal s'.journal)
    (hown : ∀ tx, s'.transactions t = some tx → tx.Sound (relays t) t s' ∧
      ∀ u ≠ t, ∀ tx', s.transactions u = some tx' → ∀ row ∈ tx.held, row ∉ tx'.held) : Sound relays s' where
  keys := houtbox ▸ h.keys
  transactions u tx htx := by
    by_cases hut : u = t
    · subst hut
      exact (hown tx htx).1
    · have hsound := h.transactions u tx (hothers u hut ▸ htx)
      refine hsound.mono ?_ ?_ (hgrown u hut)
      · rw [houtbox]
        exact fun row hrow => (hsound.held row hrow).1
      · rw [houtbox]
        exact hsound.deleted
  apart u v tx tx' huv htx htx' row hrow hrow' := by
    by_cases hut : u = t
    · subst hut
      exact (hown tx htx).2 v huv.symm tx' (hothers v huv.symm ▸ htx') row hrow hrow'
    · by_cases hvt : v = t
      · subst hvt
        exact (hown tx' htx').2 u hut tx (hothers u hut ▸ htx) row hrow' hrow
      · exact h.apart u v tx tx' huv (hothers u hut ▸ htx) (hothers v hvt ▸ htx') row hrow hrow'

theorem Advances.same (houtbox : s'.outbox = s.outbox) : Advances relays s s' where
  rows row hrow := .inl (houtbox ▸ hrow)
  kept row hrow _ := by
    rw [houtbox]
    exact List.mem_map_of_mem hrow

end Invariants

/-! ### The contract -/

section Contract

variable {τ T : Type}

/-- Where an answer leads. -/
def Stage.after : (c : Command) → Reply T c → Stage T → Stage T
  | .begin, .ok (), _ => .batch [] [] false
  | .begin, .error _, _ => .free
  | .select _, .ok rows, .batch _ _ _ => .batch rows [] false
  | .xadd entry _, .ok (), .batch selected sent _ => .batch selected (sent ++ [entry.eventId]) false
  | .waitAof _ _ _, .ok (n :: _), .batch selected sent confirmed =>
    if 1 ≤ n then .batch selected sent true else .batch selected sent confirmed
  | .commit, _, _ => .free
  | .rollback, _, _ => .free
  | _, _, stage => stage

/-- An entry is made of a selected row, and only ids of confirmed entries are marked. -/
def protocol (relay : Relay T) : Protocol Command (Reply T) (Stage T) where
  may c stage := match c with
    | .xadd entry _ => ∃ selected sent, stage = .batch selected sent false ∧ ∃ row ∈ selected, ∃ text,
      relay.timestamp row.occurredAt = some text ∧ entry = row.entry text
    | .mark eventIds => ∃ selected, stage = .batch selected eventIds true
    | _ => True
  next c r stage stage' := stage' = stage.after c r

variable (relays : τ → Relay T)

def deliveryContract : Contract τ Command (Reply T) (Shared τ T) (Stage T) where
  inv := Sound relays
  at_ t := Knows (relays t) t
  guar _ _ s _ s' := Advances relays s s'

variable {relays} {s s' : Shared τ T} {t u : τ} {stage : Stage T}

/-- What a step of one pass has to show: the rows, its own transaction, and that the others may go on. -/
theorem keeps_of_own (hsound : Sound relays s) (houtbox : s'.outbox = s.outbox)
    (hothers : ∀ u ≠ t, s'.transactions u = s.transactions u) (hgrown : ∀ u ≠ t, Grown u s.journal s'.journal)
    (hown : ∀ tx, s'.transactions t = some tx → tx.Sound (relays t) t s' ∧
      ∀ u ≠ t, ∀ tx', s.transactions u = some tx' → ∀ row ∈ tx.held, row ∉ tx'.held) :
    (deliveryContract relays).Keeps t s s' where
  inv := hsound.own houtbox hothers hgrown hown
  others u hut _ hm := hm.mono (fun _ htx => hothers u hut ▸ htx) (hgrown u hut)

theorem keeps_self (hsound : Sound relays s) : (deliveryContract relays).Keeps t s s :=
  ⟨hsound, fun _ _ _ hm => hm⟩

theorem keeps_note (hsound : Sound relays s) {happened : Happened τ} (hother : ∀ u, happened ≠ .began u) :
    (deliveryContract relays).Keeps t s (s.note happened) := by
  have hgrown : ∀ u, Grown u s.journal (s.note happened).journal := fun u => .inr ⟨happened, hother u, rfl⟩
  refine keeps_of_own hsound rfl (fun _ _ => rfl) (fun u _ => hgrown u) fun tx htx => ?_
  have htx' := hsound.transactions t tx htx
  refine ⟨htx'.mono (fun row hrow => (htx'.held row hrow).1) htx'.deleted (hgrown t), ?_⟩
  exact fun u hut tx' hu => hsound.apart t u tx tx' hut.symm htx hu

end Contract

/-! ### Every command keeps it -/

section Commands

variable {τ T : Type} [DecidableEq τ] {relays : τ → Relay T} {s s' : Shared τ T} {t u : τ} {stage : Stage T}
  {tx : Transaction T}

theorem put_self {tx : Option (Transaction T)} : (s.put t tx).transactions t = tx := by
  unfold Shared.put
  exact Function.update_self _ _ _

theorem put_other {tx : Option (Transaction T)} (hut : u ≠ t) :
    (s.put t tx).transactions u = s.transactions u := by
  unfold Shared.put
  exact Function.update_of_ne hut _ _

theorem keeps_drop (hsound : Sound relays s) : (deliveryContract relays).Keeps t s (s.put t none) := by
  refine keeps_of_own hsound rfl (fun u hut => put_other hut) (fun _ _ => .inl rfl) fun tx htx => ?_
  rw [put_self] at htx
  cases htx

theorem keeps_begin (hsound : Sound relays s) :
    (deliveryContract relays).Keeps t s ((s.put t (some ⟨[], [], []⟩)).note (.began t)) := by
  refine keeps_of_own hsound rfl (fun u hut => put_other hut) (fun u hut => .inr ⟨_, ?_, rfl⟩) fun tx htx => ?_
  · exact fun heq => hut (Happened.began.inj heq).symm
  · obtain rfl : ⟨[], [], []⟩ = tx := Option.some.inj (put_self.symm.trans htx)
    exact ⟨⟨by simp, by simp, by simp⟩, by simp⟩

theorem keeps_put (hsound : Sound relays s) (htx : s.transactions t = some tx) {held : List (Row T)}
    {marked deleted : List ℕ} (hheld : ∀ row ∈ held, row ∈ s.outbox ∧ row.relayedAt = none)
    (hapart : ∀ u ≠ t, ∀ tx', s.transactions u = some tx' → ∀ row ∈ held, row ∉ tx'.held)
    (hmarked : ∀ id ∈ marked, ∃ row ∈ tx.held, row.eventId = id ∧ Delivered (relays t) t row s.journal)
    (hdeleted : ∀ row ∈ s.outbox, row.eventId ∈ deleted → row.relayedAt ≠ none) :
    (deliveryContract relays).Keeps t s
      (s.put t (some ⟨tx.held ++ held, tx.marked ++ marked, tx.deleted ++ deleted⟩)) := by
  have hold := hsound.transactions t tx htx
  refine keeps_of_own hsound rfl (fun u hut => put_other hut) (fun _ _ => .inl rfl) fun tx' htx' => ?_
  obtain rfl := Option.some.inj (put_self.symm.trans htx')
  refine ⟨⟨?_, ?_, ?_⟩, ?_⟩
  · intro row hrow
    exact (List.mem_append.mp hrow).elim (hold.held row) (hheld row)
  · intro id hid
    obtain ⟨row, hrow, hdone⟩ := (List.mem_append.mp hid).elim (hold.marked id) (hmarked id)
    exact ⟨row, List.mem_append_left _ hrow, hdone⟩
  · intro row hrow hid
    exact (List.mem_append.mp hid).elim (hold.deleted row hrow) (hdeleted row hrow)
  · intro u hut tx' hu row hrow
    exact (List.mem_append.mp hrow).elim (hsound.apart t u tx tx' hut.symm htx hu row) (hapart u hut tx' hu row)

/-! ### Commits and purges -/

section Commits

variable {now : T} {outbox : List (Row T)} {row : Row T}

omit [DecidableEq τ] in
theorem Sound.eq_of_id (hsound : Sound relays s) {row row' : Row T} (hrow : row ∈ s.outbox)
    (hrow' : row' ∈ s.outbox)
    (hid : row.eventId = row'.eventId) : row = row' :=
  List.inj_on_of_nodup_map hsound.keys hrow hrow' hid

theorem ids_setRelayed (eventIds : List ℕ) (now : T) (outbox : List (Row T)) :
    (setRelayed eventIds now outbox).map Row.eventId = outbox.map Row.eventId := by
  unfold setRelayed
  rw [List.map_map]
  refine List.map_congr_left fun row _ => ?_
  simp only [Function.comp_apply]
  split_ifs <;> rfl

theorem mem_applied {row' : Row T} (h : row' ∈ tx.applied now outbox) : ∃ row ∈ outbox,
    row'.eventId = row.eventId ∧ row.eventId ∉ tx.deleted ∧
      (row.eventId ∈ tx.marked ∧ row' = { row with relayedAt := some now } ∨ row' = row) := by
  obtain ⟨hset, hdeleted⟩ := List.mem_filter.mp h
  obtain ⟨row, hrow, rfl⟩ := List.mem_map.mp hset
  by_cases hmarked : row.eventId ∈ tx.marked
  · rw [if_pos hmarked] at hdeleted ⊢
    exact ⟨row, hrow, rfl, of_decide_eq_true hdeleted, .inl ⟨hmarked, rfl⟩⟩
  · rw [if_neg hmarked] at hdeleted ⊢
    exact ⟨row, hrow, rfl, of_decide_eq_true hdeleted, .inr rfl⟩

theorem id_mem_applied (hrow : row ∈ outbox) (hdeleted : row.eventId ∉ tx.deleted) :
    row.eventId ∈ (tx.applied now outbox).map Row.eventId := by
  have hid : row.eventId ∈ (setRelayed tx.marked now outbox).map Row.eventId := by
    rw [ids_setRelayed]
    exact List.mem_map_of_mem hrow
  obtain ⟨row', hrow', hsame⟩ := List.mem_map.mp hid
  exact List.mem_map.mpr ⟨row', List.mem_filter.mpr ⟨hrow', decide_eq_true (hsame ▸ hdeleted)⟩, hsame⟩

theorem mem_applied_of_other (hrow : row ∈ outbox) (hmarked : row.eventId ∉ tx.marked)
    (hdeleted : row.eventId ∉ tx.deleted) : row ∈ tx.applied now outbox :=
  List.mem_filter.mpr ⟨List.mem_map.mpr ⟨row, hrow, if_neg hmarked⟩, decide_eq_true hdeleted⟩

omit [DecidableEq τ] in
theorem Sound.held_of_marked (hsound : Sound relays s) (htx : s.transactions t = some tx) (hrow : row ∈ s.outbox)
    (hmarked : row.eventId ∈ tx.marked) : row ∈ tx.held ∧ Delivered (relays t) t row s.journal := by
  obtain ⟨row', hrow', hid, hdelivered⟩ := (hsound.transactions t tx htx).marked _ hmarked
  obtain rfl := hsound.eq_of_id ((hsound.transactions t tx htx).held row' hrow').1 hrow hid
  exact ⟨hrow', hdelivered⟩

theorem keeps_commit (hsound : Sound relays s) (htx : s.transactions t = some tx) (now : T) :
    (deliveryContract relays).Keeps t s
      (({ s with outbox := tx.applied now s.outbox }.put t none).note (.committed t tx.marked)) := by
  have hold := hsound.transactions t tx htx
  have hgrown : ∀ u, Grown u s.journal (s.journal ++ [.committed t tx.marked]) :=
    fun u => .inr ⟨.committed t tx.marked, by simp, rfl⟩
  have hother : ∀ {u tx'}, (({ s with outbox := tx.applied now s.outbox }.put t none).note
      (.committed t tx.marked)).transactions u = some tx' → u ≠ t ∧ s.transactions u = some tx' := by
    intro u tx' hu
    by_cases hut : u = t
    · subst hut
      cases put_self.symm.trans hu
    · exact ⟨hut, (put_other (s := { s with outbox := tx.applied now s.outbox }) hut).symm.trans hu⟩
  refine ⟨⟨?_, ?_, ?_⟩, ?_⟩
  · have hids : ((tx.applied now s.outbox).map Row.eventId).Sublist
        ((setRelayed tx.marked now s.outbox).map Row.eventId) := List.filter_sublist.map _
    rw [ids_setRelayed] at hids
    exact hids.nodup hsound.keys
  · intro u tx' hu
    obtain ⟨hut, hu'⟩ := hother hu
    have htx' := hsound.transactions u tx' hu'
    refine htx'.mono ?_ ?_ (hgrown u)
    · intro row hrow
      obtain ⟨hmem, hnone⟩ := htx'.held row hrow
      refine mem_applied_of_other hmem (fun hmarked => ?_) fun hdeleted => hold.deleted row hmem hdeleted hnone
      exact hsound.apart t u tx tx' hut.symm htx hu' row (hsound.held_of_marked htx hmem hmarked).1 hrow
    · intro row' hrow' hid
      obtain ⟨row, hrow, -, -, ⟨-, rfl⟩ | rfl⟩ := mem_applied hrow'
      · exact Option.some_ne_none now
      · exact htx'.deleted row' hrow hid
  · intro u v tx₁ tx₂ huv hu hv
    exact hsound.apart u v tx₁ tx₂ huv (hother hu).2 (hother hv).2
  · exact fun u _ _ hm => hm.mono (fun _ hu => (hother hu).2) (hgrown u)

theorem advances_commit (hsound : Sound relays s) (htx : s.transactions t = some tx) (now : T) :
    Advances relays s (({ s with outbox := tx.applied now s.outbox }.put t none).note (.committed t tx.marked)) where
  rows row' hrow' := by
    obtain ⟨row, hrow, -, -, ⟨hmarked, rfl⟩ | rfl⟩ := mem_applied hrow'
    · obtain ⟨hheld, hdelivered⟩ := hsound.held_of_marked htx hrow hmarked
      have hnone := ((hsound.transactions t tx htx).held row hheld).2
      exact .inr (.inr ⟨row, hrow, t, tx.marked, now, hnone, rfl, rfl, hmarked, hdelivered⟩)
    · exact .inl hrow
  kept row hrow hnone :=
    id_mem_applied hrow fun hdeleted => (hsound.transactions t tx htx).deleted row hrow hdeleted hnone

end Commits

section Purges

variable [LinearOrder T] {cutoff : T} {row : Row T}

theorem mem_stale {outbox : List (Row T)} (h : row ∈ stale cutoff outbox) :
    row ∈ outbox ∧ row.relayedAt ≠ none := by
  obtain ⟨hmem, hrelayed⟩ := List.mem_filter.mp h
  refine ⟨hmem, fun hnone => ?_⟩
  rw [hnone] at hrelayed
  cases hrelayed

theorem mem_purged {outbox : List (Row T)} (hrow : row ∈ outbox) (hnone : row.relayedAt = none) :
    row ∈ purged cutoff outbox := by
  refine List.mem_filter.mpr ⟨hrow, ?_⟩
  rw [hnone]
  rfl

omit [DecidableEq τ] in
theorem Sound.stale_relayed (hsound : Sound relays s) :
    ∀ row ∈ s.outbox, row.eventId ∈ (stale cutoff s.outbox).map Row.eventId → row.relayedAt ≠ none := by
  intro row hrow hid
  obtain ⟨row', hrow', hsame⟩ := List.mem_map.mp hid
  obtain ⟨hmem, hrelayed⟩ := mem_stale hrow'
  rwa [← hsound.eq_of_id hmem hrow hsame]

omit [DecidableEq τ] in
theorem keeps_purgeAlone (hsound : Sound relays s) :
    (deliveryContract relays).Keeps t s { s with outbox := purged cutoff s.outbox } where
  inv :=
    { keys := (List.filter_sublist.map _).nodup hsound.keys
      transactions := fun u tx hu => (hsound.transactions u tx hu).mono
        (fun row hrow => mem_purged ((hsound.transactions u tx hu).held row hrow).1
          ((hsound.transactions u tx hu).held row hrow).2)
        (fun row hrow => (hsound.transactions u tx hu).deleted row (List.mem_of_mem_filter hrow)) (.inl rfl)
      apart := hsound.apart }
  others _ _ _ hm := hm.mono (fun _ htx => htx) (.inl rfl)

omit [DecidableEq τ] in
theorem advances_purgeAlone : Advances relays s { s with outbox := purged cutoff s.outbox } where
  rows _ hrow := .inl (List.mem_of_mem_filter hrow)
  kept _ hrow hnone := List.mem_map_of_mem (mem_purged hrow hnone)

end Purges

/-! ### The protocol is kept -/

theorem knows_put {tx' : Transaction T} (h : Knows (relays t) t stage s) (htx : s.transactions t = some tx)
    (hheld : tx'.held = tx.held) : Knows (relays t) t stage (s.put t (some tx')) := by
  cases stage with
  | free => trivial
  | batch selected sent confirmed =>
      intro tx'' htx''
      obtain rfl := Option.some.inj (put_self.symm.trans htx'')
      rw [hheld]
      exact h tx htx

theorem knows_begin : Knows (relays t) t (.batch [] [] false) ((s.put t (some ⟨[], [], []⟩)).note (.began t)) :=
  fun _ _ => ⟨⟨s.journal, [], rfl, by simp⟩, by simp, by simp⟩

theorem knows_select {selected batch : List (Row T)} {sent : List ℕ} {confirmed : Bool}
    (h : Knows (relays t) t (.batch selected sent confirmed) s) (htx : s.transactions t = some tx) :
    Knows (relays t) t (.batch batch [] false) (s.put t (some { tx with held := tx.held ++ batch })) := by
  intro tx' htx'
  obtain rfl := Option.some.inj (put_self.symm.trans htx')
  exact ⟨(h tx htx).1, fun row hrow => List.mem_append_right _ hrow, by simp⟩

omit [DecidableEq τ] in
theorem knows_xadd {selected : List (Row T)} {sent : List ℕ}
    (h : Knows (relays t) t (.batch selected sent false) s)
    {row : Row T} (hrow : row ∈ selected) {text : String} (htext : (relays t).timestamp row.occurredAt = some text) :
    Knows (relays t) t (.batch selected (sent ++ [row.eventId]) false) (s.note (.appended t (row.entry text))) := by
  intro tx htx
  obtain ⟨hbegun, hheld, hsent⟩ := h tx htx
  refine ⟨hbegun.append (by simp), hheld, fun id hid => ?_⟩
  obtain hid | hid := List.mem_append.mp hid
  · obtain ⟨row', hrow', hrowid, hdone⟩ := hsent id hid
    exact ⟨row', hrow', hrowid, Sent.append hdone (by simp)⟩
  · obtain ⟨earlier, later, hjournal, hbegan⟩ := hbegun
    refine ⟨row, hrow, (List.mem_singleton.mp hid).symm, ?_⟩
    change Sent (relays t) t row (s.journal ++ [.appended t (row.entry text)])
    rw [hjournal]
    exact Sent.of_begun hbegan htext

omit [DecidableEq τ] in
theorem knows_answered {selected : List (Row T)} {sent : List ℕ} {confirmed : Bool}
    (h : Knows (relays t) t (.batch selected sent confirmed) s) {n : ℤ} (hn : 1 ≤ n) :
    Knows (relays t) t (.batch selected sent true) (s.note (.answered t n)) := by
  intro tx htx
  obtain ⟨hbegun, hheld, hsent⟩ := h tx htx
  refine ⟨hbegun.append (by simp), hheld, fun id hid => ?_⟩
  obtain ⟨row, hrow, hrowid, hdone⟩ := hsent id hid
  refine ⟨row, hrow, hrowid, ?_⟩
  cases confirmed with
  | true => exact Delivered.append hdone (by simp)
  | false => exact Sent.answered hdone hn

variable [LinearOrder T]

theorem implements : (deliveryContract relays).Implements (relaying τ T) fun t => protocol (relays t) := by
  intro t c stage hmay s r s' hsound hat hstep
  have hat : Knows (relays t) t stage s := hat
  -- A step that leaves the rows, the transaction and what the pass knows.
  have hstays : stage.after c r = stage → Advances relays s s ∧ (deliveryContract relays).Keeps t s s ∧
      ∃ stage', (deliveryContract relays).at_ t stage' s ∧ stage' = stage.after c r :=
    fun hstage => ⟨.same rfl, keeps_self hsound, stage, hat, hstage.symm⟩
  cases hstep with
  | connect => exact hstays rfl
  | notifies => exact hstays rfl
  | @begin _ reply =>
      refine ⟨.same rfl, keeps_begin hsound, ?_⟩
      cases reply with
      | ok _ => exact ⟨.batch [] [] false, knows_begin, rfl⟩
      | error e => exact ⟨.free, trivial, rfl⟩
  | beginFails => exact ⟨.same rfl, keeps_self hsound, .free, trivial, rfl⟩
  | @select _ tx limit locked batch htx hlocked hbatch =>
      have hbatch : ∀ row ∈ batch, row ∈ s.outbox ∧ row.relayedAt.isNone = true ∧ locked row.eventId = false := by
        intro row hrow
        obtain ⟨hmem, heligible⟩ := List.mem_filter.mp (hbatch.mem hrow)
        rw [Bool.and_eq_true, Bool.not_eq_true'] at heligible
        exact ⟨hmem, heligible⟩
      have hkeeps := @keeps_put τ T _ relays s t tx hsound htx batch [] []
        (fun row hrow => ⟨(hbatch row hrow).1, Option.isNone_iff_eq_none.mp (hbatch row hrow).2.1⟩)
        (fun u hut tx' hu row hrow hheld => by
          have hunlocked := (hbatch row hrow).2.2
          rw [(hlocked row.eventId).mpr ⟨u, hut, tx', hu, List.mem_map_of_mem hheld⟩] at hunlocked
          cases hunlocked)
        (by simp) (by simp)
      simp only [List.append_nil] at hkeeps
      refine ⟨.same rfl, hkeeps, ?_⟩
      cases stage with
      | free => exact ⟨.free, trivial, rfl⟩
      | batch selected sent confirmed => exact ⟨.batch batch [] false, knows_select hat htx, rfl⟩
  | selectFails => exact hstays (by cases stage <;> rfl)
  | @xadd _ entry maxlen reply =>
      obtain ⟨selected, sent, rfl, row, hrow, text, htext, rfl⟩ := hmay
      refine ⟨.same rfl, keeps_note hsound (by simp), ?_⟩
      cases reply with
      | ok _ => exact ⟨.batch selected (sent ++ [row.eventId]) false, knows_xadd hat hrow htext, rfl⟩
      | error e =>
          exact ⟨.batch selected sent false,
            hat.mono (fun _ h => h) (.inr ⟨.appended t (row.entry text), by simp, rfl⟩), rfl⟩
  | xaddFails => exact hstays (by cases stage <;> rfl)
  | @waitAof _ _ _ _ n replicas =>
      refine ⟨.same rfl, keeps_note hsound (by simp), ?_⟩
      have hsame : Knows (relays t) t stage (s.note (.answered t n)) :=
        hat.mono (fun _ h => h) (.inr ⟨.answered t n, by simp, rfl⟩)
      cases stage with
      | free => exact ⟨.free, trivial, rfl⟩
      | batch selected sent confirmed =>
          by_cases hn : 1 ≤ n
          · exact ⟨.batch selected sent true, knows_answered hat hn, (if_pos hn).symm⟩
          · exact ⟨.batch selected sent confirmed, hsame, (if_neg hn).symm⟩
  | waitAofEmpty => exact hstays (by cases stage <;> rfl)
  | waitAofFails => exact hstays (by cases stage <;> rfl)
  | @mark _ tx eventIds reply htx =>
      obtain ⟨selected, rfl⟩ := hmay
      obtain ⟨-, hheld, hdone⟩ := hat tx htx
      have hkeeps := @keeps_put τ T _ relays s t tx hsound htx [] eventIds [] (by simp) (by simp)
        (fun id hid => by
          obtain ⟨row, hrow, hrowid, hdelivered⟩ := hdone id hid
          exact ⟨row, hheld row hrow, hrowid, hdelivered⟩)
        (by simp)
      simp only [List.append_nil] at hkeeps
      exact ⟨.same rfl, hkeeps, .batch selected eventIds true, knows_put hat htx rfl, by cases reply <;> rfl⟩
  | markFails => exact hstays (by cases stage <;> rfl)
  | commit now htx => exact ⟨advances_commit hsound htx now, keeps_commit hsound htx now, .free, trivial, rfl⟩
  | commitFails => exact ⟨.same rfl, keeps_drop hsound, .free, trivial, rfl⟩
  | rollback => exact ⟨.same rfl, keeps_drop hsound, .free, trivial, rfl⟩
  | purgeDue => exact hstays (by cases stage <;> rfl)
  | @purge _ tx days reply cutoff htx hfree =>
      have hkeeps := @keeps_put τ T _ relays s t tx hsound htx [] [] _ (by simp) (by simp) (by simp)
        (@Sound.stale_relayed τ T relays s _ cutoff hsound)
      simp only [List.append_nil] at hkeeps
      exact ⟨.same rfl, hkeeps, stage, knows_put hat htx rfl, by cases reply <;> cases stage <;> rfl⟩
  | @purgeAlone _ days reply cutoff htx hfree =>
      exact ⟨advances_purgeAlone, keeps_purgeAlone hsound, stage, hat.mono (fun _ h => h) (.inl rfl),
        by cases reply <;> cases stage <;> rfl⟩
  | purgeFails => exact hstays (by cases stage <;> rfl)
  | notePurge => exact hstays (by cases stage <;> rfl)

omit [LinearOrder T] [DecidableEq τ] in
theorem keeps_insert (hsound : Sound relays s) {row : Row T} (hid : row.eventId ∉ s.outbox.map Row.eventId)
    (hdeleted : ∀ u tx, s.transactions u = some tx → row.eventId ∉ tx.deleted) :
    Sound relays { s with outbox := s.outbox ++ [row] } where
  keys := by
    rw [List.map_append, List.nodup_append]
    refine ⟨hsound.keys, List.nodup_singleton _, ?_⟩
    rintro id hid' _ hrow rfl
    exact hid (List.mem_singleton.mp hrow ▸ hid')
  transactions u tx hu := by
    have htx := hsound.transactions u tx hu
    refine htx.mono (fun row' hrow' => List.mem_append_left _ (htx.held row' hrow').1) ?_ (.inl rfl)
    intro row' hrow' hmem
    obtain hrow' | hrow' := List.mem_append.mp hrow'
    · exact htx.deleted row' hrow' hmem
    · obtain rfl := List.mem_singleton.mp hrow'
      exact absurd hmem (hdeleted u tx hu)
  apart := hsound.apart

omit [LinearOrder T] [DecidableEq τ] in
theorem advances_insert {row : Row T} (hnew : row.relayedAt = none)
    (hid : row.eventId ∉ s.outbox.map Row.eventId) :
    Advances relays s { s with outbox := s.outbox ++ [row] } where
  rows row' hrow' := by
    obtain hrow' | hrow' := List.mem_append.mp hrow'
    · exact .inl hrow'
    · obtain rfl := List.mem_singleton.mp hrow'
      exact .inr (.inl ⟨hnew, hid⟩)
  kept row' hrow' _ := List.mem_map_of_mem (List.mem_append_left _ hrow')

theorem delivery_closed : (deliveryContract relays).Closed (relaying τ T) where
  env s s' hsound henv := by
    cases henv with
    | insert hnew hid hdeleted =>
        exact ⟨keeps_insert hsound hid hdeleted, fun u m hm => Knows.mono hm (fun _ hu => hu) (.inl rfl)⟩
    | lost t =>
        refine ⟨(@keeps_drop τ T _ relays s t hsound).inv,
          fun u m hm => Knows.mono hm (fun tx hu => ?_) (.inl rfl)⟩
        by_cases hut : u = t
        · subst hut
          cases put_self.symm.trans hu
        · exact (put_other hut).symm.trans hu
  halt t s s' hsound hhalt := by
    obtain rfl : s' = s := hhalt
    exact keeps_self hsound

end Commands

end RetailSegmentation.Outbox
