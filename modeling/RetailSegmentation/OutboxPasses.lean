import RetailSegmentation.OutboxDelivery

/-! The passes of both kits (`mosaiq_kit/streams.py`, `kit-rs/src/streams.rs`) follow the protocol, so that
delivery is at least once in every interleaving of them. -/

namespace RetailSegmentation.Outbox

open Program OldestFirst

/-! ### Both kits follow the protocol -/

section Kits

variable {T : Type} {relay : Relay T} {selected : List (Row T)} {stage : Stage T} {α : Type}

/-- The pass may end in any way. -/
abbrev Anyhow : Except Failure α → Stage T → Prop := Contract.Ends (fun _ _ => True) fun _ _ => True

theorem follows_deliver_py {rows : List (Row T)} (hrows : ∀ row ∈ rows, row ∈ selected) (eventIds : List ℕ) :
    (Py.deliver relay rows eventIds).Follows (protocol relay) (.batch selected eventIds false)
      (Contract.Ends (fun sent stage => stage = .batch selected sent false) fun _ _ => True) := by
  induction rows generalizing eventIds with
  | nil => exact rfl
  | cons row rows ih =>
      have hrest := ih fun row' hrow' => hrows row' (List.mem_cons_of_mem _ hrow')
      unfold Py.deliver
      by_cases hstream : row.stream ∈ relay.streams
      · rw [if_neg (not_not.mpr hstream)]
        cases htext : relay.timestamp row.occurredAt with
        | none => trivial
        | some text =>
            refine ⟨⟨selected, eventIds, rfl, row, hrows row List.mem_cons_self, text, htext, rfl⟩, ?_⟩
            rintro (e | _) _ rfl
            · trivial
            · exact hrest _
      · rw [if_pos hstream]
        exact hrest eventIds

theorem follows_relayBatch : (Py.relayBatch relay).Follows (protocol relay) (.batch [] [] false) Anyhow := by
  unfold Py.relayBatch
  refine ⟨trivial, ?_⟩
  rintro (e | rows) _ rfl
  · trivial
  refine (follows_deliver_py (fun _ hrow => hrow) []).bind ?_
  rintro sent _ rfl
  by_cases hnone : sent = []
  · rw [if_pos hnone]
    trivial
  rw [if_neg hnone]
  refine ⟨trivial, ?_⟩
  rintro (e | _ | ⟨n, replicas⟩) _ rfl
  · trivial
  · trivial
  by_cases hn : n < 1
  · have hfails : Py.confirmed (T := T) (n :: replicas) = .raise .redis := if_pos hn
    change (Py.confirmed (n :: replicas) >>= _).Follows _ _ _
    rw [hfails]
    trivial
  · have hconfirmed : Py.confirmed (T := T) (n :: replicas) = .ret () := if_neg hn
    change (Py.confirmed (n :: replicas) >>= _).Follows _ _ _
    rw [hconfirmed]
    refine ⟨⟨rows, if_pos (not_lt.mp hn)⟩, ?_⟩
    rintro (e | _) _ rfl <;> trivial

theorem follows_transaction {body : RelayProg T α}
    (hbody : body.Follows (protocol relay) (.batch [] [] false) Anyhow) :
    (Py.transaction body).Follows (protocol relay) stage Anyhow := by
  have hrollback : ∀ e stage', (do
      let _ ← Prog.send .rollback
      .raise e : RelayProg T α).Follows (protocol relay) stage' Anyhow :=
    fun e stage' => ⟨trivial, fun _ _ _ => trivial⟩
  have hcommit : ∀ value stage', (do
      orRaise (← Prog.send .commit)
      return value : RelayProg T α).Follows (protocol relay) stage' Anyhow := by
    refine fun value stage' => ⟨trivial, ?_⟩
    rintro (e | _) _ - <;> trivial
  unfold Py.transaction
  refine ⟨trivial, ?_⟩
  rintro (e | _) _ rfl
  · trivial
  · exact (hbody.tryCatch fun e stage' _ => hrollback e stage').bind fun value stage' _ => hcommit value stage'

theorem follows_purgeStale_py : (Py.purgeStale (T := T)).Follows (protocol relay) stage Anyhow := by
  have hpurge : (do orRaise (← Prog.send (.purge 7)) : RelayProg T Unit).Follows (protocol relay)
      (.batch [] [] false) Anyhow := by
    refine ⟨trivial, ?_⟩
    rintro (e | _) _ - <;> trivial
  have hnote : ∀ stage', (Prog.send Command.notePurge : RelayProg T Unit).Follows (protocol relay) stage' Anyhow :=
    fun _ => ⟨trivial, fun _ _ _ => trivial⟩
  unfold Py.purgeStale
  refine ⟨trivial, ?_⟩
  rintro (_ | _) stage' -
  · trivial
  · exact (follows_transaction hpurge).bind fun _ stage'' _ => hnote stage''

theorem follows_pass_py {after : Option ℕ → RelayProg T ℕ}
    (hafter : ∀ relayed stage', (after relayed).Follows (protocol relay) stage' Anyhow) :
    (Prog.tryCatch (do return some (← Py.transaction (Py.relayBatch relay)))
      (fun e => if e = .redis then .ret none else .raise e) >>= after).Follows (protocol relay) stage Anyhow := by
  have hbatch : (do return some (← Py.transaction (Py.relayBatch relay)) : RelayProg T (Option ℕ)).Follows
      (protocol relay) stage Anyhow := (follows_transaction follows_relayBatch).bind fun _ _ _ => trivial
  refine (hbatch.tryCatch fun e stage' _ => ?_).bind fun relayed stage' _ => hafter relayed stage'
  split_ifs <;> trivial

theorem follows_runOnce_py {wait : Bool} : (Py.runOnce relay wait).Follows (protocol relay) stage Anyhow := by
  have hpurge : ∀ relayed stage', (do
      Py.purgeStale
      return relayed : RelayProg T ℕ).Follows (protocol relay) stage' Anyhow :=
    fun _ _ => follows_purgeStale_py.bind fun _ _ _ => trivial
  unfold Py.runOnce
  refine ⟨trivial, ?_⟩
  rintro (e | _) stage' -
  · trivial
  cases wait with
  | false =>
      refine follows_pass_py fun relayed stage'' => ?_
      cases relayed with
      | none => trivial
      | some relayed => exact hpurge relayed stage''
  | true =>
      refine ⟨trivial, ?_⟩
      rintro (e | _) stage'' -
      · trivial
      refine follows_pass_py fun relayed stage'' => ?_
      cases relayed with
      | none => trivial
      | some relayed => exact hpurge relayed stage''

theorem follows_deliver_rs {rows : List (Row T)} (hrows : ∀ row ∈ rows, row ∈ selected) (eventIds : List ℕ) :
    (Rs.deliver relay rows eventIds).Follows (protocol relay) (.batch selected eventIds false)
      (Contract.Ends (fun delivery stage => ∀ sent, delivery = .ok sent → stage = .batch selected sent false)
        fun _ _ => True) := by
  induction rows generalizing eventIds with
  | nil =>
      rintro sent ⟨⟩
      rfl
  | cons row rows ih =>
      have hrest := ih fun row' hrow' => hrows row' (List.mem_cons_of_mem _ hrow')
      unfold Rs.deliver
      by_cases hstream : row.stream ∈ relay.streams
      · rw [if_neg (not_not.mpr hstream)]
        cases htext : relay.timestamp row.occurredAt with
        | none => trivial
        | some text =>
            refine ⟨⟨selected, eventIds, rfl, row, hrows row List.mem_cons_self, text, htext, rfl⟩, ?_⟩
            rintro (e | _) _ rfl
            · rintro sent ⟨⟩
            · exact hrest _
      · rw [if_pos hstream]
        exact hrest eventIds

theorem follows_confirm (sent : List ℕ) : (Rs.confirm (T := T) sent).Follows (protocol relay)
    (.batch selected sent false) (Contract.Ends (fun delivery stage => ∀ ids, delivery = .ok ids → 0 < ids.length →
      stage = .batch selected ids true) fun _ _ => True) := by
  cases sent with
  | nil =>
      rintro ids ⟨⟩ hlength
      exact absurd hlength (lt_irrefl 0)
  | cons eventId eventIds =>
      refine ⟨trivial, ?_⟩
      rintro (e | _ | ⟨n, replicas⟩) _ rfl
      · rintro ids ⟨⟩
      · rintro ids ⟨⟩
      · by_cases hn : 1 ≤ n
        · have hconfirmed : (if 1 ≤ (n :: replicas).headD 0 then Except.ok (eventId :: eventIds) else .error .redis) =
              (Except.ok (eventId :: eventIds) : Except Failure (List ℕ)) := if_pos hn
          rintro ids hids -
          obtain rfl := Except.ok.inj (hconfirmed.symm.trans hids)
          exact if_pos hn
        · have hfails : (if 1 ≤ (n :: replicas).headD 0 then Except.ok (eventId :: eventIds) else .error .redis) =
              (Except.error .redis : Except Failure (List ℕ)) := if_neg hn
          rintro ids hids
          cases hfails.symm.trans hids

theorem follows_purgeStale_rs : (Rs.purgeStale (T := T)).Follows (protocol relay) stage Anyhow := by
  unfold Rs.purgeStale
  refine ⟨trivial, ?_⟩
  rintro (_ | _) stage' -
  · trivial
  refine ⟨trivial, ?_⟩
  rintro (e | _) stage'' -
  · trivial
  · exact ⟨trivial, fun _ _ _ => trivial⟩

theorem follows_finish {delivery : Except Failure (List ℕ)}
    (hmay : ∀ ids, delivery = .ok ids → 0 < ids.length → stage = .batch selected ids true) :
    (Rs.finish (T := T) delivery).Follows (protocol relay) stage Anyhow := by
  cases delivery with
  | error e =>
      refine ⟨trivial, ?_⟩
      rintro (e | _) _ - <;> trivial
  | ok ids =>
      have hcommit : ∀ stage', (do
          orRaise (← Prog.send .commit)
          Rs.purgeStale
          return ids.length : RelayProg T ℕ).Follows (protocol relay) stage' Anyhow := by
        refine fun stage' => ⟨trivial, ?_⟩
        rintro (e | _) stage'' -
        · trivial
        · exact follows_purgeStale_rs.bind fun _ _ _ => trivial
      unfold Rs.finish
      dsimp only
      by_cases hlength : 0 < ids.length
      · rw [if_pos hlength]
        refine ⟨⟨selected, hmay ids rfl hlength⟩, ?_⟩
        rintro (e | _) stage' -
        · trivial
        · exact hcommit stage'
      · rw [if_neg hlength]
        exact hcommit stage

theorem follows_pass_rs {after : Except Failure (List ℕ) → RelayProg T ℕ}
    (hafter : ∀ selected delivery stage', (∀ sent, delivery = .ok sent → stage' = .batch selected sent false) →
      (after delivery).Follows (protocol relay) stage' Anyhow) : (do
      orRaise (← Prog.send .begin)
      let rows ← orRaise (← Prog.send (.select 100))
      after (← Rs.deliver relay rows []) : RelayProg T ℕ).Follows (protocol relay) stage Anyhow := by
  refine ⟨trivial, ?_⟩
  rintro (e | _) _ rfl
  · trivial
  refine ⟨trivial, ?_⟩
  rintro (e | rows) _ rfl
  · trivial
  exact (follows_deliver_rs (fun _ hrow => hrow) []).bind fun delivery stage' hsent => hafter rows delivery stage' hsent

theorem follows_runOnce_rs {wait : Bool} : (Rs.runOnce relay wait).Follows (protocol relay) stage Anyhow := by
  have hrefused : ∀ e stage', (Rs.finish (T := T) (.error e)).Follows (protocol relay) stage' Anyhow :=
    fun e _ => @follows_finish T relay [] _ (.error e) (by rintro ids ⟨⟩)
  have hsent : ∀ selected sent, (do
      Rs.finish (← Rs.confirm sent) : RelayProg T ℕ).Follows (protocol relay) (.batch selected sent false) Anyhow :=
    fun _ sent => (follows_confirm sent).bind fun _ _ hmay => follows_finish hmay
  unfold Rs.runOnce
  refine ⟨trivial, ?_⟩
  rintro (e | _) stage' -
  · trivial
  cases wait with
  | false =>
      refine follows_pass_rs fun selected delivery stage'' hdelivery => ?_
      cases delivery with
      | error e => exact hrefused e stage''
      | ok sent =>
          obtain rfl := hdelivery sent rfl
          exact hsent selected sent
  | true =>
      refine ⟨trivial, ?_⟩
      rintro (e | _) stage'' -
      · trivial
      refine follows_pass_rs fun selected delivery stage'' hdelivery => ?_
      cases delivery with
      | error e => exact hrefused e stage''
      | ok sent =>
          obtain rfl := hdelivery sent rfl
          exact hsent selected sent

theorem Kit.follows_runOnce (kit : Kit) {wait : Bool} :
    (kit.runOnce relay wait).Follows (protocol relay) stage Anyhow := by
  cases kit with
  | py => exact follows_runOnce_py
  | rs => exact follows_runOnce_rs

end Kits

/-! ### At least once -/

section Delivery

variable {τ T : Type} [DecidableEq τ] [LinearOrder T]

/-- Passes of any relays of both kits, not begun, over an outbox: what a relay's loop makes, one after another. -/
def passes (relays : τ → Relay T) (kits : τ → Kit) (waits : τ → Bool) (outbox : List (Row T)) :
    Config τ Command (Reply T) Failure ℕ (Shared τ T) :=
  Config.initial (fun t => (kits t).runOnce (relays t) (waits t)) ⟨outbox, fun _ => none, []⟩

omit [DecidableEq τ] [LinearOrder T] in
theorem sound_start (relays : τ → Relay T) {outbox : List (Row T)} (hkeys : (outbox.map Row.eventId).Nodup) :
    Sound relays ⟨outbox, fun _ => none, []⟩ where
  keys := hkeys
  transactions := by
    intro t tx htx
    cases htx
  apart := by
    intro t u tx tx' _ htx
    cases htx

theorem obeys_passes (relays : τ → Relay T) (kits : τ → Kit) (waits : τ → Bool) {outbox : List (Row T)}
    (hkeys : (outbox.map Row.eventId).Nodup) {cfg : Config τ Command (Reply T) Failure ℕ (Shared τ T)}
    (hrun : (relaying τ T).Reaches (passes relays kits waits outbox) cfg) :
    (deliveryContract relays).Obeys (fun t => protocol (relays t)) (fun _ => Anyhow) cfg := by
  refine Contract.Obeys.reaches implements delivery_closed ?_ hrun
  exact Contract.Obeys.initial (sound_start relays hkeys) fun t => ⟨.free, trivial, (kits t).follows_runOnce⟩

/-- **Outbox delivery is at least once.** In every interleaving of passes of both kits with new rows, failures and
crashes, a row is marked relayed only by the commit of a transaction that has appended its own entry and had that
confirmed, and no row is deleted that is not marked. -/
theorem delivered_at_least_once (relays : τ → Relay T) (kits : τ → Kit) (waits : τ → Bool) {outbox : List (Row T)}
    (hkeys : (outbox.map Row.eventId).Nodup) {cfg cfg' : Config τ Command (Reply T) Failure ℕ (Shared τ T)}
    (hrun : (relaying τ T).Reaches (passes relays kits waits outbox) cfg) (hstep : (relaying τ T).Step cfg cfg') :
    Advances relays cfg.state cfg'.state := by
  have hobeys := obeys_passes relays kits waits hkeys hrun
  cases hstep with
  | command hthread hstep => exact hobeys.guar implements hthread hstep
  | env henv =>
      cases henv with
      | insert hnew hid _ => exact advances_insert hnew hid
      | lost t => exact .same rfl
  | halt hhalt =>
      obtain rfl := hhalt
      exact .same rfl

end Delivery

/-! ### A pass that fails after its commit -/

def sale : Row ℕ := ⟨0, "stream:sales.v1.recorded", "INSERT", "7", 1, none⟩

/-- Everything is carried out, but for the purge. -/
def failingPurge (_ : Unit) : (c : Command) → Shared Unit ℕ → Option (Reply ℕ c × Shared Unit ℕ)
  | .connect, s => some (.ok (), s)
  | .notifies, s => some (.ok (), s)
  | .begin, s => some (.ok (), (s.put () (some ⟨[], [], []⟩)).note (.began ()))
  | .select limit, s =>
    (s.transactions ()).bind fun tx =>
      if 0 < limit ∧ s.outbox = [sale] then some (.ok [sale], s.put () (some { tx with held := tx.held ++ [sale] }))
      else none
  | .xadd entry _, s => some (.ok (), s.note (.appended () entry))
  | .waitAof _ _ _, s => some (.ok [1], s.note (.answered () 1))
  | .mark eventIds, s =>
    (s.transactions ()).map fun tx => (.ok (), s.put () (some { tx with marked := tx.marked ++ eventIds }))
  | .commit, s =>
    (s.transactions ()).map fun tx =>
      (.ok (), ({ s with outbox := tx.applied 2 s.outbox }.put () none).note (.committed () tx.marked))
  | .rollback, s => some (.ok (), s.put () none)
  | .purgeDue _, s => some (true, s)
  | .purge _, s => some (.error .database, s)
  | .notePurge, s => some ((), s)

theorem oldest_sale {limit : ℕ} (hlimit : 0 < limit) :
    Oldest Row.occurredAt limit (eligible (fun _ => false) [sale]) [sale] := by
  refine ⟨[sale], .refl _, List.pairwise_singleton _ _, ?_⟩
  exact (List.take_of_length_le hlimit).symm

theorem step_of_failingPurge (t : Unit) (c : Command) (s : Shared Unit ℕ) (r : Reply ℕ c) (s' : Shared Unit ℕ)
    (h : failingPurge t c s = some (r, s')) : (relaying Unit ℕ).step t c s r s' := by
  cases c with
  | select limit =>
      obtain ⟨tx, htx, h⟩ := Option.bind_eq_some_iff.mp h
      split_ifs at h with hsale
      obtain ⟨rfl, rfl⟩ := Prod.mk.inj (Option.some.inj h)
      have hlocked : ∀ id, (fun _ : ℕ => false) id = true ↔
          ∃ u ≠ t, ∃ tx, s.transactions u = some tx ∧ id ∈ tx.held.map Row.eventId :=
        fun id => iff_of_false Bool.false_ne_true fun ⟨u, hu, _⟩ => hu rfl
      refine .select htx hlocked ?_
      rw [hsale.2]
      exact oldest_sale hsale.1
  | mark eventIds =>
      obtain ⟨tx, htx, h⟩ := Option.map_eq_some_iff.mp h
      obtain ⟨rfl, rfl⟩ := Prod.mk.inj h
      exact .mark htx
  | commit =>
      obtain ⟨tx, htx, h⟩ := Option.map_eq_some_iff.mp h
      obtain ⟨rfl, rfl⟩ := Prod.mk.inj h
      exact .commit 2 htx
  | connect =>
      obtain ⟨rfl, rfl⟩ := Prod.mk.inj (Option.some.inj h)
      exact .connect
  | notifies =>
      obtain ⟨rfl, rfl⟩ := Prod.mk.inj (Option.some.inj h)
      exact .notifies
  | begin =>
      obtain ⟨rfl, rfl⟩ := Prod.mk.inj (Option.some.inj h)
      exact .begin
  | xadd entry maxlen =>
      obtain ⟨rfl, rfl⟩ := Prod.mk.inj (Option.some.inj h)
      exact .xadd
  | waitAof numlocal numreplicas timeout =>
      obtain ⟨rfl, rfl⟩ := Prod.mk.inj (Option.some.inj h)
      exact .waitAof
  | rollback =>
      obtain ⟨rfl, rfl⟩ := Prod.mk.inj (Option.some.inj h)
      exact .rollback
  | purgeDue seconds =>
      obtain ⟨rfl, rfl⟩ := Prod.mk.inj (Option.some.inj h)
      exact .purgeDue
  | purge days =>
      obtain ⟨rfl, rfl⟩ := Prod.mk.inj (Option.some.inj h)
      exact .purgeFails
  | notePurge =>
      obtain ⟨rfl, rfl⟩ := Prod.mk.inj (Option.some.inj h)
      exact .notePurge

abbrev lonePass (kit : Kit) : Config Unit Command (Reply ℕ) Failure ℕ (Shared Unit ℕ) :=
  passes (fun _ => salesRelay) (fun _ => kit) (fun _ => false) [sale]

theorem commit_delivered : ∃ cfg cfg', (relaying Unit ℕ).Reaches (lonePass .py) cfg ∧
    (relaying Unit ℕ).Step cfg cfg' ∧
    cfg.state.outbox = [sale] ∧ cfg'.state.outbox = [{ sale with relayedAt := some 2 }] ∧
    Advances (fun _ => salesRelay) cfg.state cfg'.state := by
  have hrun : ((schedule failingPurge [(), (), (), (), (), ()] (lonePass .py)).any fun cfg =>
      cfg.state.outbox = [sale] ∧ (schedule failingPurge [()] cfg).any fun cfg' =>
        cfg'.state.outbox = [{ sale with relayedAt := some 2 }]) = true := by
    decide +kernel
  obtain ⟨cfg, hcfg, hboth⟩ := (Option.any_eq_true _ _).mp hrun
  obtain ⟨hbefore, hstep⟩ := of_decide_eq_true hboth
  obtain ⟨cfg', hcfg', hafter⟩ := (Option.any_eq_true _ _).mp hstep
  have hreaches := Machine.reaches_of_schedule _ step_of_failingPurge _ hcfg
  have hstep := Machine.step_of_schedule _ step_of_failingPurge hcfg'
  have hkeys : ([sale].map Row.eventId).Nodup := List.nodup_singleton _
  exact ⟨cfg, cfg', hreaches, hstep, hbefore, of_decide_eq_true hafter,
    delivered_at_least_once (fun _ => salesRelay) (fun _ => .py) (fun _ => false) hkeys hreaches hstep⟩

/-- The rows are marked, and the pass raises what its purge has raised. -/
theorem relayed_by_failed_pass :
    (∃ cfg, (relaying Unit ℕ).Reaches (lonePass .py) cfg ∧ cfg.threads () = some (.raise .database) ∧
      cfg.state.outbox = [{ sale with relayedAt := some 2 }]) ∧
    ∃ cfg, (relaying Unit ℕ).Reaches (lonePass .rs) cfg ∧ cfg.threads () = some (.raise .database) ∧
      cfg.state.outbox = [{ sale with relayedAt := some 2 }] := by
  have hraises : ∀ kit turns, ((schedule failingPurge turns (lonePass kit)).any fun cfg =>
      outcome (cfg.threads ()) = some (.error .database) ∧
        cfg.state.outbox = [{ sale with relayedAt := some 2 }]) = true →
      ∃ cfg, (relaying Unit ℕ).Reaches (lonePass kit) cfg ∧ cfg.threads () = some (.raise .database) ∧
        cfg.state.outbox = [{ sale with relayedAt := some 2 }] := by
    intro kit turns hrun
    obtain ⟨cfg, hcfg, hboth⟩ := (Option.any_eq_true _ _).mp hrun
    obtain ⟨hraise, hrows⟩ := of_decide_eq_true hboth
    exact ⟨cfg, Machine.reaches_of_schedule _ step_of_failingPurge _ hcfg, raise_of_outcome hraise, hrows⟩
  constructor
  · exact hraises .py [(), (), (), (), (), (), (), (), (), (), ()] (by decide +kernel)
  · exact hraises .rs [(), (), (), (), (), (), (), (), ()] (by decide +kernel)

end RetailSegmentation.Outbox
