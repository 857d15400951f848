import RetailSegmentation.CampaignLifecycle

/-! RN-49: no campaign is activated after its end. Both writers judge the end on a read that takes no lock, and the
UPDATE that activates is conditional on the status alone. -/

namespace RetailSegmentation.Campaigns

open Program Transactions

/-! ### Dates -/

theorem Date.not_before_trans {d d' d'' : Date} (h : ¬ d.Before d') (h' : ¬ d'.Before d'') : ¬ d.Before d'' := by
  unfold Date.Before at *
  omega

theorem Date.not_before_self (d : Date) : ¬ d.Before d := by
  unfold Date.Before
  omega

theorem LegalHistory.ends_after {T : Type} {start : Book} {before later : List (T × Event)} {id : ℤ} {c : Campaign}
    {date : Date} (h : LegalHistory start (before ++ later)) (hc : play start before id = some c)
    (hend : ¬ c.details.endsOn.Before date)
    (hedits : ∀ u details, (u, .edited id details) ∈ later → ¬ details.endsOn.Before date) :
    ∃ c, play start (before ++ later) id = some c ∧ ¬ c.details.endsOn.Before date := by
  induction later using List.reverseRecOn with
  | nil => exact ⟨c, by rwa [List.append_nil], hend⟩
  | append_singleton later entry ih =>
      obtain ⟨t, e⟩ := entry
      rw [← List.append_assoc] at h ⊢
      obtain ⟨c, hc, hend⟩ := ih h.of_append fun u details hmem => hedits u details (List.mem_append_left _ hmem)
      have hlegal := h.last
      rw [play_snoc]
      by_cases hid : id = e.id
      · subst hid
        rw [Event.apply_self, hc]
        cases e with
        | created id details => exact absurd (hlegal.1.symm.trans hc) nofun
        | edited id details =>
            exact ⟨_, rfl, hedits t details (List.mem_append_right _ (List.mem_singleton_self _))⟩
        | moved id source target => exact ⟨_, rfl, hend⟩
      · rw [Event.apply_of_ne hid]
        exact ⟨c, hc, hend⟩

/-! ### The current date -/

/-- The campaigns, and how much had been committed when each transaction read one last. -/
structure Dated (T : Type) where
  db : CampaignDb T
  read : T → ℕ

def Statement.reads : Statement → Bool
  | .get _ => true
  | .readStatus _ => true
  | _ => false

/-- A transaction has written nothing when it executes one of these. -/
def Statement.Opening : Statement → Prop
  | .get _ => True
  | .readStatus _ => True
  | .changeStatus _ _ _ _ => True
  | _ => False

section Server

variable {T : Type} [DecidableEq T]

/-- The server of the campaigns, where `CURRENT_DATE` is one date throughout a transaction. -/
def datedServer (vocabulary : Vocabulary) (today : T → Date) : Server T Statement Result DbError (Dated T) where
  answers t s d v d' := (∃ counts, CampaignDb.answer vocabulary ⟨today t, counts⟩ t s d.db = some (v, d'.db)) ∧
    d'.read = if s.reads then Function.update d.read t d.db.history.length else d.read
  refuses t s d e := ∃ counts, CampaignDb.refusal vocabulary ⟨today t, counts⟩ t s d.db = some e
  aborts := IsAbort
  commit t d := { d with db := d.db.commit t }
  rollback t d := { d with db := d.db.rollback t }
  losesReplies := False

/-- No campaign that a transaction has read and is about to activate has been edited since to end before the
transaction's date. -/
def Undisturbed (today : T → Date) (t : T) (c : Request Statement) (d : Dated T) : Prop :=
  ∀ writer id source, c = .execute (.changeStatus writer id source .active) →
    ∀ u details, (u, .edited id details) ∈ d.db.history.drop (d.read t) → ¬ details.endsOn.Before (today t)

theorem campaignStep_of_dated {vocabulary : Vocabulary} {today : T → Date} (t : T) (c : Request Statement)
    (d : Dated T)
    (r : Reply Result DbError c) (d' : Dated T) (h : (datedServer vocabulary today).machine.step t c d r d') :
    (campaignServer T vocabulary).machine.step t c d.db r d'.db := by
  cases h with
  | answered h =>
      obtain ⟨⟨counts, hanswer⟩, -⟩ := h
      exact .answered ⟨_, hanswer⟩
  | refused h =>
      obtain ⟨counts, hrefuse⟩ := h
      exact .refused ⟨_, hrefuse⟩
  | aborted _ habort => exact .aborted _ habort
  | committed => exact .committed
  | lost hlost _ => exact hlost.elim
  | rolledBack => exact .rolledBack

end Server

/-! ### What a transaction goes by -/

/-- What a transaction has seen: nothing that matters, or the end of a campaign. -/
inductive Glance where
  | blank
  | saw (id : ℤ) (endsOn : Date)

/-- A campaign is activated only by who has seen that it has not ended. -/
def glancing (today : Date) : Workflow Statement Result DbError Glance where
  may statement glance := match statement with
    | .changeStatus _ id _ .active => ∃ endsOn, glance = .saw id endsOn ∧ ¬ endsOn.Before today
    | _ => True
  next statement v glance glance' := match statement, v with
    | .get id, c => c = none ∨ ∃ c', c = some c' ∧ glance' = .saw id c'.details.endsOn
    | .readStatus id, found =>
      found = none ∨ ∃ status endsOn, found = some (status, decide (endsOn.Before today)) ∧
        glance' = .saw id endsOn
    | .currentDate, date => date = today ∧ glance' = glance
    | .groupCounts _, _ => glance' = glance
    | _, _ => True
  fails _ _ _ := True
  aborts _ := True
  commits _ := True
  after glance := glance
  undone glance := glance
  losesReplies := False

section Contract

variable {T : Type} {start : Book} {today : T → Date} {t : T} {d d' : Dated T}

/-- The end was that of the campaign when the transaction read it last. -/
def Looked (start : Book) (t : T) (d : Dated T) : Glance → Prop
  | .blank => True
  | .saw id endsOn => d.read t ≤ d.db.history.length ∧
      ∃ c, play start (d.db.history.take (d.read t)) id = some c ∧ c.details.endsOn = endsOn

/-- The committed campaign, if it is there, has not ended before the date. -/
def Running (date : Date) (id : ℤ) (db : CampaignDb T) : Prop :=
  ∃ c, db.rows.rows.lookup id = some c ∧ ¬ c.details.endsOn.Before date

/-- A campaign that is being activated, or was, has not ended before the date of the transaction. -/
structure InTime (start : Book) (today : T → Date) (d : Dated T) : Prop where
  pending : ∀ t id source, d.db.event t = some (.moved id source .active) →
    d.db.rows.owner id = some t ∧ Running (today t) id d.db
  committed : ∀ before t id source after, d.db.history = before ++ (t, .moved id source .active) :: after →
    ∃ details, play start (before ++ [(t, .moved id source .active)]) id = some ⟨details, .active⟩ ∧
      ¬ details.endsOn.Before (today t)

def activationContract (start : Book) (today : T → Date) :
    Contract T (Request Statement) (Reply Result DbError) (Dated T) Glance where
  inv := InTime start today
  at_ t glance d := Looked start t d glance
  guar _ _ _ _ _ := True

/-- What is known of a run beside the dates. -/
def Sane (start : Book) (t : T) (c : Request Statement) (d : Dated T) : Prop :=
  Consistent start [] d.db ∧ ∀ s, c = .execute s → s.Opening → d.db.rows.pending t = ∅

theorem Looked.extend {glance : Glance} (hlooked : Looked start t d glance) (hread : d'.read t = d.read t)
    {later : List (T × Event)} (hhistory : d'.db.history = d.db.history ++ later) : Looked start t d' glance := by
  cases glance with
  | blank => trivial
  | saw id endsOn =>
      obtain ⟨hle, hc⟩ := hlooked
      unfold Looked
      rw [hread, hhistory, List.take_append_of_le_length hle, List.length_append]
      exact ⟨Nat.le_add_right_of_le hle, hc⟩

/-- Statements commit nothing, and leave alone what other transactions have written and hold. -/
structure Beside (t : T) (d d' : Dated T) : Prop where
  rows : d'.db.rows.rows = d.db.rows.rows
  history : d'.db.history = d.db.history
  event : ∀ u ≠ t, d'.db.event u = d.db.event u
  owner : ∀ u ≠ t, ∀ k, d.db.rows.owner k = some u → d'.db.rows.owner k = some u
  read : ∀ u ≠ t, d'.read u = d.read u

theorem Beside.keeps (hinv : InTime start today d) (h : Beside t d d')
    (hown : ∀ id source, d'.db.event t = some (.moved id source .active) →
      d'.db.rows.owner id = some t ∧ Running (today t) id d.db) :
        (activationContract start today).Keeps t d d' := by
  refine ⟨⟨fun u id source hu => ?_, fun before u id source after heq => ?_⟩, fun u hu glance hat => ?_⟩
  · by_cases hut : u = t
    · subst hut
      obtain ⟨howner, c, hc, hend⟩ := hown id source hu
      exact ⟨howner, c, by rwa [h.rows], hend⟩
    · rw [h.event u hut] at hu
      obtain ⟨howner, c, hc, hend⟩ := hinv.pending u id source hu
      exact ⟨h.owner u hut id howner, c, by rwa [h.rows], hend⟩
  · rw [h.history] at heq
    exact hinv.committed before u id source after heq
  · exact Looked.extend hat (h.read u hu) (h.history.trans (List.append_nil _).symm)

theorem Beside.of_read (hdb : d'.db = d.db) (hread : ∀ u ≠ t, d'.read u = d.read u) : Beside t d d' := by
  obtain ⟨db', read⟩ := d'
  obtain rfl : db' = d.db := hdb
  exact ⟨rfl, rfl, fun _ _ => rfl, fun _ _ _ hk => hk, hread⟩

/-- What a read shows of a campaign is what is committed, where the transaction has written nothing. -/
theorem looked_of_get {id : ℤ} {c : Campaign} (hsane : Consistent start [] d.db) (hclean : d.db.rows.pending t = ∅)
    (hget : d.db.rows.get t id = some c) (hdb : d'.db = d.db) (hread : d'.read t = d.db.history.length) :
    Looked start t d' (.saw id c.details.endsOn) := by
  rw [Table.get_of_empty hclean, hsane.rows] at hget
  refine ⟨?_, c, ?_, rfl⟩
  · rw [hread, hdb]
  · rw [hread, hdb, List.take_length]
    exact hget

variable [DecidableEq T]

theorem Beside.of_write {e : Event} {c : Campaign} {db : CampaignDb T} (hwrite : d.db.write t e c = some db)
    (hdb : d'.db = db) (hread : ∀ u ≠ t, d'.read u = d.read u) : Beside t d d' := by
  obtain ⟨hfree, rfl⟩ := CampaignDb.write_eq hwrite
  obtain ⟨db', read⟩ := d'
  obtain rfl : db' = _ := hdb
  exact ⟨rfl, rfl, fun u hu => Function.update_of_ne hu _ _,
    fun u hu k hk => (Table.put_owner_other hfree _ hu k).mpr hk, hread⟩

theorem write_owns {e : Event} {c : Campaign} {db db' : CampaignDb T} (hwrite : db.write t e c = some db') :
    db'.rows.owner e.id = some t ∧ db'.event t = some e := by
  obtain ⟨hfree, rfl⟩ := CampaignDb.write_eq hwrite
  exact ⟨Table.put_owner_self hfree _, Function.update_self _ _ _⟩

theorem beside_of_update {id : ℤ} {source : Status} {e : Event} {change : Campaign → Campaign}
    {refusal : Option DbError} {v : Option Campaign} {db : CampaignDb T}
    (hupdate : d.db.update t id source e change refusal = some (v, db)) (hdb : d'.db = db)
    (hread : d'.read = d.read) : Beside t d d' ∧ (d'.db = d.db ∨ d'.db.rows.owner e.id = some t ∧
      d'.db.event t = some e ∧
      ∃ c, d.db.rows.get t id = some c ∧ c.status = source) := by
  have hothers : ∀ u ≠ t, d'.read u = d.read u := fun u _ => congrFun hread u
  rcases CampaignDb.update_cases hupdate with ⟨-, rfl, -⟩ | ⟨c, hc, hstatus, hwrite, -, -⟩
  · exact ⟨.of_read hdb hothers, .inl hdb⟩
  · obtain ⟨howner, hevent⟩ := write_owns hwrite
    rw [← hdb] at howner hevent
    exact ⟨.of_write hwrite hdb hothers, .inr ⟨howner, hevent, c, hc, hstatus⟩⟩

/-! ### The statements keep it -/

variable {vocabulary : Vocabulary}

theorem glancing_answers {s : Statement} {glance : Glance} {v : Result s} (hinv : InTime start today d)
    (hlooked : Looked start t d glance) (hmay : (glancing (today t)).may s glance)
    (hsane : Sane start t (.execute s) d) (hundisturbed : Undisturbed today t (.execute s) d)
    (hanswer : (datedServer vocabulary today).answers t s d v d') :
    (activationContract start today).Keeps t d d' ∧
      ∃ glance', Looked start t d' glance' ∧ (glancing (today t)).next s v glance glance' := by
  obtain ⟨⟨counts, hanswer⟩, hread⟩ := hanswer
  obtain ⟨hconsistent, hopening⟩ := hsane
  have hothers : ∀ u ≠ t, d'.read u = d.read u := fun u hu => by
    rw [hread]
    split_ifs
    · exact Function.update_of_ne hu _ _
    · rfl
  have hsame : d'.db = d.db → (activationContract start today).Keeps t d d' := fun hdb => by
    refine (Beside.of_read hdb hothers).keeps hinv fun id source hevent => ?_
    rw [hdb] at hevent ⊢
    exact hinv.pending t id source hevent
  have hquiet : s.reads = false → d'.db = d.db → Looked start t d' glance := fun hs hdb => by
    rw [hs] at hread
    exact hlooked.extend (congrFun hread t) ((congrArg _ hdb).trans (List.append_nil _).symm)
  have hwritten : ∀ {e : Event}, (∀ id source, e ≠ .moved id source .active) → Beside t d d' →
      (d'.db = d.db ∨ d'.db.event t = some e) → (activationContract start today).Keeps t d d' := by
    intro e he hbeside hcases
    rcases hcases with hdb | hevent
    · exact hsame hdb
    · exact hbeside.keeps hinv fun id source h => absurd (Option.some.inj (hevent.symm.trans h)) (he id source)
  cases s with
  | setConfig sub =>
      obtain ⟨-, hdb⟩ := Prod.mk.inj (Option.some.inj hanswer)
      exact ⟨hsame hdb.symm, .blank, trivial, trivial⟩
  | lockCreate =>
      simp only [CampaignDb.answer] at hanswer
      split_ifs at hanswer with hfree
      obtain ⟨-, hdb⟩ := Prod.mk.inj (Option.some.inj hanswer)
      refine ⟨Beside.keeps hinv ⟨?_, ?_, ?_, ?_, hothers⟩ ?_, .blank, trivial, trivial⟩
      all_goals rw [← hdb]
      · exact fun _ _ => rfl
      · exact fun _ _ _ hk => hk
      · exact fun id source => hinv.pending t id source
  | duplicateDraft details =>
      obtain ⟨-, hdb⟩ := Prod.mk.inj (Option.some.inj hanswer)
      exact ⟨hsame hdb.symm, .blank, trivial, trivial⟩
  | insert details =>
      simp only [CampaignDb.answer] at hanswer
      split_ifs at hanswer with hrefusal
      obtain ⟨db, hwrite, heq⟩ := Option.map_eq_some_iff.mp hanswer
      obtain ⟨-, hdb⟩ := Prod.mk.inj heq
      have hevent := (write_owns hwrite).2
      rw [hdb] at hevent
      exact ⟨hwritten (e := .created _ details) (fun _ _ h => by cases h) (.of_write hwrite hdb.symm hothers) (.inr hevent), .blank,
        trivial, trivial⟩
  | get id =>
      obtain ⟨hv, hdb⟩ := Prod.mk.inj (Option.some.inj hanswer)
      refine ⟨hsame hdb.symm, ?_⟩
      cases hget : d.db.rows.get t id with
      | none => exact ⟨.blank, trivial, .inl (hv.symm.trans hget)⟩
      | some c =>
          have hlast : d'.read t = d.db.history.length := by
            rw [hread]
            exact Function.update_self _ _ _
          exact ⟨_, looked_of_get hconsistent (hopening _ rfl trivial) hget hdb.symm hlast,
            .inr ⟨c, hv.symm.trans hget, rfl⟩⟩
  | getForUpdate id =>
      simp only [CampaignDb.answer] at hanswer
      split at hanswer
      · obtain ⟨-, hdb⟩ := Prod.mk.inj (Option.some.inj hanswer)
        exact ⟨hsame hdb.symm, .blank, trivial, trivial⟩
      · split_ifs at hanswer with hfree
        obtain ⟨-, hdb⟩ := Prod.mk.inj (Option.some.inj hanswer)
        refine ⟨Beside.keeps hinv ⟨?_, ?_, ?_, ?_, hothers⟩ ?_, .blank, trivial, trivial⟩
        all_goals rw [← hdb]
        · rfl
        · exact fun _ _ => rfl
        · exact fun u hu k hk => (Table.lock_owner_other hfree hu k).mpr hk
        · intro id' source hevent
          obtain ⟨howner, hrunning⟩ := hinv.pending t id' source hevent
          refine ⟨?_, hrunning⟩
          by_cases hid : id' = id
          · rw [hid]
            exact Table.lock_owner_self hfree
          · exact (Table.lock_owner_of_ne hfree hid).trans howner
  | updateDraft id details =>
      obtain ⟨hbeside, hcases⟩ := beside_of_update hanswer rfl hread
      exact ⟨hwritten (e := .edited id details) (fun _ _ h => by cases h) hbeside (hcases.imp_right fun h => h.2.1), .blank,
        trivial, trivial⟩
  | readStatus id =>
      obtain ⟨hv, hdb⟩ := Prod.mk.inj (Option.some.inj hanswer)
      refine ⟨hsame hdb.symm, ?_⟩
      cases hget : d.db.rows.get t id with
      | none => exact ⟨.blank, trivial, .inl (by rw [← hv, hget]; rfl)⟩
      | some c =>
          have hlast : d'.read t = d.db.history.length := by
            rw [hread]
            exact Function.update_self _ _ _
          refine ⟨_, looked_of_get hconsistent (hopening _ rfl trivial) hget hdb.symm hlast,
            .inr ⟨c.status, c.details.endsOn, ?_, rfl⟩⟩
          rw [← hv, hget]
          rfl
  | changeStatus writer id source target =>
      obtain ⟨hbeside, hcases⟩ := beside_of_update hanswer rfl hread
      refine ⟨?_, .blank, trivial, trivial⟩
      rcases hcases with hdb | ⟨howner, hevent, c, hc, -⟩
      · exact hsame hdb
      · refine hbeside.keeps hinv fun id' source' hactive => ?_
        obtain ⟨rfl, rfl, rfl⟩ := Event.moved.inj (Option.some.inj (hevent.symm.trans hactive))
        refine ⟨howner, ?_⟩
        obtain ⟨endsOn, rfl, hend⟩ := hmay
        obtain ⟨hle, c₀, hc₀, rfl⟩ := hlooked
        have hlegal := hconsistent.legal
        rw [← List.take_append_drop (d.read t) d.db.history] at hlegal
        obtain ⟨c', hc', hend'⟩ := hlegal.ends_after hc₀ hend (hundisturbed writer id source rfl)
        rw [List.take_append_drop, ← hconsistent.rows] at hc'
        exact ⟨c', hc', hend'⟩
  | currentDate =>
      obtain ⟨hv, hdb⟩ := Prod.mk.inj (Option.some.inj hanswer)
      exact ⟨hsame hdb.symm, glance, hquiet rfl hdb.symm, hv.symm, rfl⟩
  | groupCounts id =>
      obtain ⟨-, hdb⟩ := Prod.mk.inj (Option.some.inj hanswer)
      exact ⟨hsame hdb.symm, glance, hquiet rfl hdb.symm, rfl⟩

/-! ### Commits and rollbacks keep it -/

theorem Running.commit {u : T} {id : ℤ} {date : Date} {db : CampaignDb T} (hrunning : Running date id db)
    (howner : db.rows.owner id = some u) (hu : u ≠ t) : Running date id (db.commit t) := by
  obtain ⟨c, hc, hend⟩ := hrunning
  refine ⟨c, ?_, hend⟩
  have hnot : db.rows.owner id ≠ some t := fun h => hu (Option.some.inj (howner.symm.trans h))
  calc (db.commit t).rows.rows.lookup id = db.rows.get t id := Table.commit_rows t id
    _ = db.rows.rows.lookup id := Table.get_eq_rows hnot
    _ = some c := hc

theorem InTime.commit_history (hinv : InTime start today d) (hconsistent : Consistent start [] d.db)
    {before after : List (T × Event)} {u : T} {id : ℤ} {source : Status}
    (heq : (d.db.commit t).history = before ++ (u, .moved id source .active) :: after) :
    ∃ details, play start (before ++ [(u, .moved id source .active)]) id = some ⟨details, .active⟩ ∧
      ¬ details.endsOn.Before (today u) := by
  change d.db.history ++ ((d.db.event t).map fun e => (t, e)).toList = _ at heq
  cases hevent : d.db.event t with
  | none =>
      rw [hevent] at heq
      exact hinv.committed before u id source after ((List.append_nil _).symm.trans heq)
  | some e =>
      rw [hevent] at heq
      rcases List.eq_nil_or_concat after with rfl | ⟨after', last, rfl⟩
      · obtain ⟨rfl, hlast⟩ := List.append_inj' heq rfl
        obtain ⟨rfl, rfl⟩ := Prod.mk.inj (List.singleton_inj.mp hlast)
        obtain ⟨-, c, hc, hend⟩ := hinv.pending t id source hevent
        rw [hconsistent.rows] at hc
        refine ⟨c.details, ?_, hend⟩
        rw [play_snoc]
        exact (Event.apply_self _ _).trans (congrArg (Option.map _) hc)
      · rw [List.concat_eq_append, ← List.cons_append, ← List.append_assoc] at heq
        exact hinv.committed before u id source after' (List.append_inj' heq rfl).1

theorem commit_keeps (hinv : InTime start today d) (hconsistent : Consistent start [] d.db) :
    (activationContract start today).Keeps t d { d with db := d.db.commit t } := by
  refine ⟨⟨fun u id source hu => ?_, fun before u id source after heq => hinv.commit_history hconsistent heq⟩,
    fun u _ glance hat => Looked.extend hat rfl rfl⟩
  change Function.update d.db.event t none u = _ at hu
  by_cases hut : u = t
  · subst hut
    rw [Function.update_self] at hu
    cases hu
  · rw [Function.update_of_ne hut] at hu
    obtain ⟨howner, hrunning⟩ := hinv.pending u id source hu
    exact ⟨(Table.commit_owner_other t hut id).mpr howner, hrunning.commit howner hut⟩

theorem rollback_keeps (hinv : InTime start today d) :
    (activationContract start today).Keeps t d { d with db := d.db.rollback t } := by
  refine ⟨⟨fun u id source hu => ?_, hinv.committed⟩,
    fun u _ glance hat => Looked.extend hat rfl (List.append_nil _).symm⟩
  change Function.update d.db.event t none u = _ at hu
  by_cases hut : u = t
  · subst hut
    rw [Function.update_self] at hu
    cases hu
  · rw [Function.update_of_ne hut] at hu
    obtain ⟨howner, hrunning⟩ := hinv.pending u id source hu
    exact ⟨(Table.rollback_owner_other t hut id).mpr howner, hrunning⟩

theorem activationContract_implements : (activationContract start today).Implements
    (((datedServer vocabulary today).machine.guard (Undisturbed today)).guard (Sane start))
    fun t => (glancing (today t)).protocol := by
  intro t c glance hmay d r d' hinv hlooked hstep
  obtain ⟨hsane, hundisturbed, hstep⟩ := hstep
  have hundone : ∀ d' : Dated T, d'.read = d.read → d'.db.history = d.db.history → Looked start t d' glance :=
    fun d' hread hhistory => Looked.extend hlooked (congrFun hread t) (hhistory.trans (List.append_nil _).symm)
  cases hstep with
  | answered hanswer =>
      exact ⟨trivial, glancing_answers hinv hlooked hmay hsane hundisturbed hanswer⟩
  | refused hrefuse => exact ⟨trivial, rollback_keeps hinv, glance, hundone _ rfl rfl, .inl trivial, rfl⟩
  | aborted c habort =>
      refine ⟨trivial, rollback_keeps hinv, glance, hundone _ rfl rfl, ?_⟩
      cases c with
      | execute s => exact ⟨.inr trivial, rfl⟩
      | commit => exact ⟨trivial, .inl rfl⟩
      | rollback => exact ⟨trivial, rfl⟩
  | committed =>
      exact ⟨trivial, commit_keeps hinv hsane.1, glance, Looked.extend hlooked rfl rfl, rfl⟩
  | lost hlost _ => exact hlost.elim
  | rolledBack => exact ⟨trivial, rollback_keeps hinv, glance, hundone _ rfl rfl, rfl⟩

theorem activationContract_closed : (activationContract start today).Closed
    (((datedServer vocabulary today).machine.guard (Undisturbed today)).guard (Sane start)) where
  env d d' _ h := h.elim
  halt t d d' hinv h := by
    obtain rfl : d' = { d with db := d.db.rollback t } := h
    exact rollback_keeps hinv

end Contract

/-! ### Calls -/

section Programs

variable {today : Date} {glance : Glance}

abbrev Glances {α : Type} (today : Date) (p : CampaignProg α) (glance : Glance) : Prop :=
  p.Follows (glancing today).protocol glance (Contract.Ends (fun _ _ => True) fun _ _ => True)

def Allowed (today : Date) (c : Request Statement) : Prop := ∀ glance, (glancing today).protocol.may c glance

theorem issues_statement {raise : DbError → CampaignFailure} {s : Statement} (hs : Allowed today (.execute s)) :
    (Transactions.execute raise s : CampaignProg (Result s)).Issues (Allowed today) :=
  ⟨hs, fun r => by cases r <;> trivial⟩

theorem issues_unit {α : Type} {raise : DbError → CampaignFailure} {body : CampaignProg α}
    (hbody : body.Issues (Allowed today)) : (atomic raise body).Issues (Allowed today) := by
  refine (hbody.bind fun a => ?_).tryCatch fun e => ?_
  · exact ⟨fun _ => trivial, fun r => by cases r <;> trivial⟩
  · exact ⟨fun _ => trivial, fun r => by cases r <;> trivial⟩

theorem issues_inTransaction {α : Type} {sub : String} {body : CampaignProg α}
    (hbody : body.Issues (Allowed today)) :
    (Service.inTransaction sub body).Issues (Allowed today) := by
  refine Prog.Issues.tryCatch (Prog.Issues.tryCatch (Prog.Issues.bind ?_ fun a => ?_) fun e => ?_) fun e => trivial
  · exact (issues_statement (s := .setConfig sub) fun _ => trivial).bind fun _ => hbody
  · exact ⟨fun _ => trivial, fun r => by cases r <;> trivial⟩
  · exact ⟨fun _ => trivial, fun r => trivial⟩

theorem issues_create {α : Type} {raise : DbError → CampaignFailure} {refusal : CampaignFailure}
    {details : Details}
    {k : ℤ × Campaign → CampaignProg α} (hk : ∀ row, (k row).Issues (Allowed today)) :
    (Transactions.execute raise Statement.lockCreate >>= fun _ =>
      Transactions.execute raise (Statement.duplicateDraft details) >>= fun duplicate =>
        if duplicate then .raise refusal
        else Transactions.execute raise (Statement.insert details) >>= k :
          CampaignProg α).Issues (Allowed today) := by
  refine (issues_statement (s := .lockCreate) fun _ => trivial).bind fun _ => ?_
  refine (issues_statement (s := .duplicateDraft details) fun _ => trivial).bind fun duplicate => ?_
  split
  · trivial
  · exact (issues_statement (s := .insert details) fun _ => trivial).bind hk

theorem issues_attempt (sub : String) (details : Details) (n : ℕ) :
    (Service.attempt sub details n).Issues (Allowed today) := by
  induction n with
  | zero => trivial
  | succ n ih =>
      rw [Service.attempt]
      refine Prog.Issues.tryCatch (issues_inTransaction ?_) fun e => ?_
      · unfold Service.createCampaignOnce
        split_ifs
        · trivial
        · exact issues_create fun _ => trivial
      · split_ifs
        · exact ih
        · trivial

theorem issues_serviceCreate (sub : String) (body : Service.CreateBody) :
    (Service.createCampaign sub body).Issues (Allowed today) := by
  obtain ⟨name, labelCode, startsOn, endsOn⟩ := body
  cases name with
  | none => trivial
  | some name =>
      cases startsOn with
      | none => trivial
      | some startsOn =>
          cases endsOn with
          | none => trivial
          | some endsOn => exact issues_attempt sub _ _

theorem issues_apply (changes : Service.Changes) (details : Details) :
    (changes.apply details).Issues (Allowed today) := by
  obtain ⟨name, labelCode, startsOn, endsOn⟩ := changes
  rcases name with _ | _ | name <;> rcases startsOn with _ | _ | startsOn <;> rcases endsOn with _ | _ | endsOn <;> trivial

theorem issues_serviceUpdate (id : ℤ) (changes : Service.Changes) :
    (Service.updateDraft id changes).Issues (Allowed today) := by
  refine (issues_statement (s := .getForUpdate id) fun _ => trivial).bind fun found => ?_
  cases found with
  | none => trivial
  | some current =>
      dsimp only
      split_ifs
      · trivial
      · refine (issues_apply changes current.details).bind fun details => ?_
        split_ifs
        · trivial
        · refine (issues_statement (s := .updateDraft id details) fun _ => trivial).bind fun row => ?_
          cases row <;> trivial

theorem issues_webUpdate (id : ℤ) (details : Details) : (Web.updateDraft id details).Issues (Allowed today) := by
  refine Prog.Issues.tryCatch (issues_unit ?_) fun e => trivial
  refine (issues_statement (s := .get id) fun _ => trivial).bind fun found => ?_
  cases found with
  | none => trivial
  | some current =>
      dsimp only
      split_ifs
      · trivial
      · refine (issues_statement (s := .updateDraft id details) fun _ => trivial).bind fun row => ?_
        cases row <;> trivial

theorem glances_unit {α : Type} {raise : DbError → CampaignFailure} {body : CampaignProg α}
    (hbody : Glances today body glance) : Glances today (atomic raise body) glance :=
  Workflow.follows_atomic hbody (fun _ _ _ => ⟨trivial, trivial, fun _ _ => ⟨trivial, fun _ => trivial⟩⟩)
    fun _ _ _ => ⟨trivial, fun _ _ => trivial⟩

theorem glances_inTransaction {α : Type} {sub : String} {body : CampaignProg α}
    (hbody : ∀ glance, Glances today body glance) : Glances today (Service.inTransaction sub body) glance := by
  refine Prog.Follows.tryCatch (F := fun _ _ => True) (Workflow.follows_transaction (F := fun _ _ => True)
    (P := fun _ _ => True) ?_ (fun _ _ _ => ⟨trivial, trivial, fun _ _ => ⟨trivial, fun _ => trivial⟩⟩)
    fun _ _ _ => trivial) fun _ _ _ => trivial
  exact Workflow.follows_step trivial (fun _ glance _ => hbody glance) fun _ _ => trivial

/-- An UPDATE of the status, to ACTIVE only by who has seen that the campaign has not ended. -/
theorem glances_change {α : Type} {raise : DbError → CampaignFailure} {writer : Writer} {id : ℤ}
    {source target : Status}
    {k : Option Campaign → CampaignProg α}
    (hseen : target = .active → ∃ endsOn, glance = .saw id endsOn ∧ ¬ endsOn.Before today)
    (hk : ∀ row glance, Glances today (k row) glance) :
    Glances today (Transactions.execute raise (Statement.changeStatus writer id source target) >>= k) glance := by
  refine Workflow.follows_step ?_ (fun row glance _ => hk row glance) fun _ _ => trivial
  cases target with
  | active => exact hseen rfl
  | _ => trivial

theorem glances_serviceTransition (id : ℤ) (target expectedStatus : Status) :
    Glances today (Service.transition id target expectedStatus) glance := by
  refine Workflow.follows_step trivial (fun found glance hfound => ?_) fun _ _ => trivial
  rcases hfound with rfl | ⟨status, endsOn, rfl, rfl⟩
  · trivial
  · dsimp only
    split_ifs with hexpected hedge hended
    · trivial
    · trivial
    · refine glances_change (fun htarget => ⟨endsOn, rfl, fun hbefore => hended ⟨htarget, decide_eq_true hbefore⟩⟩) ?_
      intro row glance
      cases row <;> trivial
    · trivial

theorem glances_checks (id : ℤ) (current : Campaign) {given : Option Date}
    (hgiven : ∀ date, given = some date → ¬ date.Before today) :
    (Web.activationChecks id current given).Follows (glancing today).protocol (.saw id current.details.endsOn)
      (Contract.Ends (fun _ glance => glance = .saw id current.details.endsOn ∧ ¬ current.details.endsOn.Before today)
        fun _ _ => True) := by
  have hchecks : ∀ date : Date, ¬ date.Before today →
      (Web.activationChecks id current (some date)).Follows (glancing today).protocol (.saw id current.details.endsOn)
        (Contract.Ends (fun _ glance => glance = .saw id current.details.endsOn ∧ ¬ current.details.endsOn.Before today)
          fun _ _ => True) := by
    intro date hdate
    unfold Web.activationChecks
    dsimp only
    rw [Prog.ret_bind]
    split_ifs with hbefore
    · trivial
    · refine Workflow.follows_step trivial (fun counts glance hglance => ?_) fun _ _ => trivial
      obtain rfl : glance = .saw id current.details.endsOn := hglance
      split
      · trivial
      · exact ⟨rfl, Date.not_before_trans hbefore hdate⟩
  cases given with
  | some date => exact hchecks date (hgiven date rfl)
  | none =>
      refine Workflow.follows_step trivial (fun date glance hdate => ?_) fun _ _ => trivial
      obtain ⟨rfl, rfl⟩ := hdate
      exact hchecks date fun h => Date.not_before_self date h

theorem glances_webTransition (id : ℤ) (action : Web.Action) {given : Option Date}
    (hgiven : ∀ date, given = some date → ¬ date.Before today) :
    Glances today (Web.transition id action given) glance := by
  refine glances_unit (Workflow.follows_step trivial (fun found glance hfound => ?_) fun _ _ => trivial)
  rcases hfound with rfl | ⟨current, rfl, rfl⟩
  · trivial
  · dsimp only
    split_ifs with hedge hactive
    · refine (glances_checks id current hgiven).bind ?_
      rintro - _ ⟨rfl, hend⟩
      exact glances_change (fun _ => ⟨_, rfl, hend⟩) fun row _ => by cases row <;> trivial
    · rw [Prog.ret_bind]
      exact glances_change (fun htarget => absurd htarget hactive) fun row _ => by cases row <;> trivial
    · trivial

/-- A date that is given to a call of the web application is not before the current one. -/
def Call.Current (today : Date) : Call → Prop
  | .webTransition _ _ (some date) => ¬ date.Before today
  | _ => True

theorem glances_program {call : Call} (hcall : call.Current today) : Glances today call.program glance := by
  have hissued : ∀ {α : Type} {p : CampaignProg α} (f : α → Done), p.Issues (Allowed today) →
      Glances today (p >>= fun a => .ret (f a)) glance :=
        fun f hp => Prog.Follows.of_issues (hp.bind fun _ => trivial)
  cases call with
  | serviceCreate sub body => exact hissued _ (issues_serviceCreate sub body)
  | serviceUpdate sub id changes => exact hissued _ (issues_inTransaction (issues_serviceUpdate id changes))
  | serviceTransition sub id target expectedStatus =>
      exact (glances_inTransaction fun _ => glances_serviceTransition id target expectedStatus).bind fun _ _ _ => trivial
  | webCreate details =>
      have hbody := @issues_create today ℤ .database
        (.refused "" "A draft with this name, label and dates already exists.") details (fun row => .ret row.1)
        fun _ => trivial
      exact hissued _ ((issues_unit hbody).tryCatch fun e => trivial)
  | webUpdate id details => exact hissued _ (issues_webUpdate id details)
  | webTransition id action given =>
      refine (glances_webTransition id action fun date hdate => ?_).bind fun _ _ _ => trivial
      subst hdate
      exact hcall

end Programs

/-! ### Every run -/

section Runs

variable {T : Type} [DecidableEq T] {vocabulary : Vocabulary} {today : T → Date}

abbrev DatedConfig (T : Type) : Type :=
  Config T (Request Statement) (Reply Result DbError) CampaignFailure Done (Dated T)

def datedInitial (calls : T → Call) (rows : AList fun _ : ℤ => Campaign) : DatedConfig T :=
  Config.initial (fun t => (calls t).program) ⟨.ofRows rows, fun _ => 0⟩

omit [DecidableEq T] in
theorem inTime_initial (rows : AList fun _ : ℤ => Campaign) :
    InTime (bookOf rows) today (⟨.ofRows rows, fun _ => 0⟩ : Dated T) where
  pending _ _ _ h := by cases h
  committed before _ _ _ _ heq := by cases before <;> cases heq

theorem campaignRun_of_dated {cfg cfg' : DatedConfig T}
    (hrun : ((datedServer vocabulary today).machine.guard (Undisturbed today)).Reaches cfg cfg') :
    (campaignServer T vocabulary).machine.Reaches ⟨cfg.threads, cfg.state.db⟩ ⟨cfg'.threads, cfg'.state.db⟩ := by
  refine Machine.Reaches.map (M := (datedServer vocabulary today).machine.guard (Undisturbed today)) Dated.db
    (fun t c d r d' h => campaignStep_of_dated t c d r d' h.2) (fun _ _ h => h) (fun t d d' h => ?_) hrun
  obtain rfl : d' = { d with db := d.db.rollback t } := h
  rfl

theorem sane_of_run {calls : T → Call} {rows : AList fun _ : ℤ => Campaign} {cfg : DatedConfig T}
    (hrun : ((datedServer vocabulary today).machine.guard (Undisturbed today)).Reaches (datedInitial calls rows) cfg) :
    Consistent (bookOf rows) [] cfg.state.db ∧ ∀ t c k, cfg.threads t = some (.call c k) →
      Sane (bookOf rows) t c cfg.state := by
  have hobeys : (campaignContract (bookOf rows) []).Obeys (fun _ => (writing T).protocol)
      (fun t => Contract.Ends (fun a stage => ∃ e, stage = .done e ∧ Did (calls t) a e) (Failed (calls t)))
      ⟨cfg.threads, cfg.state.db⟩ := by
    apply Contract.Obeys.reaches campaignContract_implements campaignContract_closed _ (campaignRun_of_dated hrun)
    apply Contract.Obeys.initial (initial_consistent rows)
    exact fun t => ⟨.idle, ⟨initial_outlying rows t, fun _ => List.not_mem_nil⟩, follows_program (calls t)⟩
  refine ⟨hobeys.inv, fun t c k hthread => ⟨hobeys.inv, fun s hc hopening => ?_⟩⟩
  obtain ⟨stage, hat, hmay⟩ := hobeys.issues hthread
  subst hc
  cases s with
  | get id =>
      cases stage with
      | idle => exact hat.1.clean.pending
      | _ => exact hmay.elim
  | readStatus id =>
      cases stage with
      | idle => exact hat.1.clean.pending
      | _ => exact hmay.elim
  | changeStatus writer id source target =>
      cases stage with
      | saw id' status => exact hat.1.1.clean.pending
      | _ => exact hmay.elim
  | _ => exact hopening.elim

/-- **Activation before the end.** If no campaign that a transaction has read and is about to activate has
been edited since to end before the transaction's date, a campaign has not ended before that date when its
activation commits. -/
theorem activated_before_end (vocabulary : Vocabulary) (today : T → Date) (calls : T → Call)
    (rows : AList fun _ : ℤ => Campaign) (hcalls : ∀ t, (calls t).Current (today t)) {cfg : DatedConfig T}
    (hrun : ((datedServer vocabulary today).machine.guard (Undisturbed today)).Reaches (datedInitial calls rows) cfg) :
    (∀ id, cfg.state.db.rows.rows.lookup id = play (bookOf rows) cfg.state.db.history id) ∧
    ∀ before t id source after, cfg.state.db.history = before ++ (t, .moved id source .active) :: after →
      ∃ details, play (bookOf rows) (before ++ [(t, .moved id source .active)]) id = some ⟨details, .active⟩ ∧
        ¬ details.endsOn.Before (today t) := by
  have hsane : (((datedServer vocabulary today).machine.guard (Undisturbed today)).guard (Sane (bookOf rows))).Reaches
      (datedInitial calls rows) cfg :=
    Machine.Reaches.guard (fun _ t c k hreaches hthread => (sane_of_run hreaches).2 t c k hthread) hrun
  have hobeys : (activationContract (bookOf rows) today).Obeys (fun t => (glancing (today t)).protocol)
      (fun _ => Contract.Ends (fun _ _ => True) fun _ _ => True) cfg := by
    apply Contract.Obeys.reaches activationContract_implements activationContract_closed _ hsane
    exact Contract.Obeys.initial (inTime_initial rows) fun t => ⟨.blank, trivial, glances_program (hcalls t)⟩
  exact ⟨(sane_of_run hrun).1.rows, hobeys.inv.committed⟩

end Runs

/-! ### An edit beside an activation -/

/-- `true` activates a campaign, and `false` brings its end forward. -/
def promotionCalls : Bool → Call
  | true => .serviceTransition "ana" 1 .active .draft
  | false => .webUpdate 1 winterDetails

def promotionRows : AList fun _ : ℤ => Campaign := AList.singleton 1 ⟨springDetails, .draft⟩

/-- February: winter is over, and spring is not. -/
def february : Bool → Date := fun _ => ⟨2027, 2, 15⟩

/-- The server where every statement that can be answered is. -/
def promotionTurn (t : Bool) (c : Request Statement) (d : Dated Bool) :
    Option (Reply Result DbError c × Dated Bool) :=
  (datedServer springVocabulary february).respond
    (fun t s d => (CampaignDb.answer springVocabulary ⟨february t, fun _ => []⟩ t s d.db).map fun (v, db) =>
      (v, ⟨db, if s.reads then Function.update d.read t d.db.history.length else d.read⟩))
    (fun _ _ _ => none) t c d

theorem step_of_promotionTurn (t : Bool) (c : Request Statement) (d : Dated Bool) (r : Reply Result DbError c)
    (d' : Dated Bool) (h : promotionTurn t c d = some (r, d')) :
    (datedServer springVocabulary february).machine.step t c d r d' := by
  refine Server.step_of_respond (fun t s d v d' hanswer => ?_) (fun _ _ _ _ h => by cases h) h
  obtain ⟨⟨v', db⟩, hdb, heq⟩ := Option.map_eq_some_iff.mp hanswer
  obtain ⟨rfl, rfl⟩ := Prod.mk.inj heq
  exact ⟨⟨_, hdb⟩, rfl⟩

/-- The same, as long as nothing has been committed. -/
def firstTurn (t : Bool) (c : Request Statement) (d : Dated Bool) : Option (Reply Result DbError c × Dated Bool) :=
  if d.db.history = [] then promotionTurn t c d else none

theorem step_of_firstTurn (t : Bool) (c : Request Statement) (d : Dated Bool) (r : Reply Result DbError c)
    (d' : Dated Bool) (h : firstTurn t c d = some (r, d')) :
    ((datedServer springVocabulary february).machine.guard (Undisturbed february)).step t c d r d' := by
  unfold firstTurn at h
  split_ifs at h with hnone
  refine ⟨fun writer id source _ u details hmem => ?_, step_of_promotionTurn t c d r d' h⟩
  rw [hnone, List.drop_nil] at hmem
  exact absurd hmem List.not_mem_nil

/-- An activation by itself. -/
theorem activated_before_end_spring : ∃ cfg : DatedConfig Bool,
    ((datedServer springVocabulary february).machine.guard (Undisturbed february)).Reaches
      (datedInitial promotionCalls promotionRows) cfg ∧
    cfg.state.db.history = [(true, .moved 1 .draft .active)] ∧
    ∃ details, play (bookOf promotionRows) [(true, .moved 1 .draft .active)] 1 = some ⟨details, .active⟩ ∧
      ¬ details.endsOn.Before (february true) := by
  have hrun : ((schedule firstTurn [true, true, true, true] (datedInitial promotionCalls promotionRows)).any fun cfg =>
      cfg.state.db.history = [(true, .moved 1 .draft .active)]) = true := by
    decide +kernel
  obtain ⟨cfg, hcfg, hhistory⟩ := (Option.any_eq_true _ _).mp hrun
  have hreaches := Machine.reaches_of_schedule _ step_of_firstTurn _ hcfg
  have hhistory := of_decide_eq_true hhistory
  refine ⟨cfg, hreaches, hhistory, ?_⟩
  have hcalls : ∀ t, (promotionCalls t).Current (february t) := fun t => by cases t <;> trivial
  exact (activated_before_end springVocabulary february promotionCalls promotionRows hcalls hreaches).2 [] true 1 .draft []
    hhistory

/-- The edit is committed between the read and the UPDATE of the activation. -/
theorem activated_after_end : ∃ cfg : DatedConfig Bool,
    (datedServer springVocabulary february).machine.Reaches (datedInitial promotionCalls promotionRows) cfg ∧
    cfg.state.db.history = [(false, .edited 1 winterDetails), (true, .moved 1 .draft .active)] ∧
    cfg.state.db.rows.rows.lookup 1 = some ⟨winterDetails, .active⟩ ∧
      winterDetails.endsOn.Before (february true) := by
  have hrun : ((schedule promotionTurn [true, true, false, false, false, true, true]
      (datedInitial promotionCalls promotionRows)).any fun cfg =>
      cfg.state.db.history = [(false, .edited 1 winterDetails), (true, .moved 1 .draft .active)] ∧
        cfg.state.db.rows.rows.lookup 1 = some ⟨winterDetails, .active⟩) = true := by
    decide +kernel
  obtain ⟨cfg, hcfg, hends⟩ := (Option.any_eq_true _ _).mp hrun
  obtain ⟨hhistory, hrow⟩ := of_decide_eq_true hends
  exact ⟨cfg, Machine.reaches_of_schedule _ step_of_promotionTurn _ hcfg, hhistory, hrow, by decide⟩

end RetailSegmentation.Campaigns
