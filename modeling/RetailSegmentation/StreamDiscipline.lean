import RetailSegmentation.StreamGroups

/-! The rules that the consumers of a group keep: an acknowledgement has a reason, what was delivered is pending or
acknowledged, and a process changes nothing of another's. -/

namespace RetailSegmentation.StreamConsumer

open Program
open AccessChanges (Fields eventId)

/-! ### Deliveries -/

section Groups

variable {group : Group} {host : String} {present ids : List ℕ} {count id : ℕ}

namespace Group

theorem mem_fresh (hid : id ∈ group.fresh present count) : id ∈ present ∧ group.next ≤ id := by
  obtain ⟨hmem, hnext⟩ := List.mem_filter.mp (List.mem_of_mem_take hid)
  exact ⟨hmem, of_decide_eq_true hnext⟩

theorem next_deliver (hids : ids ≠ []) : (group.deliver host ids).next = ids.getLast hids + 1 := by
  unfold deliver
  rw [List.getLast?_eq_some_getLast hids]
  rfl

theorem next_le_deliver (hids : ∀ id ∈ ids, group.next ≤ id) : group.next ≤ (group.deliver host ids).next := by
  by_cases hnil : ids = []
  · rw [hnil]
    rfl
  · rw [next_deliver hnil]
    exact (hids _ (List.getLast_mem hnil)).trans (Nat.le_succ _)

theorem deliver_next_le {bound : ℕ} (hids : ∀ id ∈ ids, id < bound) (hnext : group.next ≤ bound) :
    (group.deliver host ids).next ≤ bound := by
  by_cases hnil : ids = []
  · rw [hnil]
    exact hnext
  · rw [next_deliver hnil]
    exact hids _ (List.getLast_mem hnil)

theorem mem_fresh_of_lt (hsorted : present.Pairwise (· < ·)) (hid : id ∈ present) (hnext : group.next ≤ id)
    (hlt : id < (group.deliver host (group.fresh present count)).next) : id ∈ group.fresh present count := by
  have hmem : id ∈ present.filter fun id => group.next ≤ id := List.mem_filter.mpr ⟨hid, decide_eq_true hnext⟩
  have hfiltered : (present.filter fun id => group.next ≤ id).Pairwise (· < ·) := hsorted.filter _
  rw [← List.take_append_drop count (present.filter fun id => group.next ≤ id)] at hmem hfiltered
  by_cases hnil : group.fresh present count = []
  · rw [hnil] at hlt
    exact absurd hlt (Nat.not_lt.mpr hnext)
  · rw [next_deliver hnil] at hlt
    obtain htake | hdrop := List.mem_append.mp hmem
    · exact htake
    · have hbefore := (List.pairwise_append.mp hfiltered).2.2 _ (List.getLast_mem hnil) id hdrop
      omega

theorem lt_next_deliver (hsorted : present.Pairwise (· < ·)) (hid : id ∈ group.fresh present count) :
    id < (group.deliver host (group.fresh present count)).next := by
  have hnil := List.ne_nil_of_mem hid
  have hfresh : (group.fresh present count).Pairwise (· < ·) :=
    (hsorted.filter _).sublist (List.take_sublist _ _)
  rw [next_deliver hnil]
  rw [← List.dropLast_append_getLast hnil] at hid hfresh
  obtain hinit | hlast := List.mem_append.mp hid
  · exact Nat.lt_succ_of_lt ((List.pairwise_append.mp hfresh).2.2 id hinit _ (List.mem_singleton_self _))
  · exact Nat.lt_succ_of_le (List.mem_singleton.mp hlast).le

theorem ids_deliver : (group.deliver host ids).ids = group.ids ++ ids := by
  unfold Group.ids deliver
  rw [List.map_append, List.map_map]
  exact congrArg _ (List.map_id' _)

theorem ids_redeliver : (group.redeliver host ids).ids = group.ids := by
  unfold Group.ids redeliver
  rw [List.map_map]
  refine List.map_congr_left fun p _ => ?_
  simp only [Function.comp_apply]
  split_ifs <;> rfl

theorem mem_ids_remove : id ∈ (group.remove ids).ids ↔ id ∈ group.ids ∧ id ∉ ids := by
  unfold Group.ids remove
  simp only [List.mem_map, List.mem_filter, decide_eq_true_eq]
  constructor
  · rintro ⟨p, ⟨hp, hnot⟩, rfl⟩
    exact ⟨⟨p, hp, rfl⟩, hnot⟩
  · rintro ⟨⟨p, hp, rfl⟩, hnot⟩
    exact ⟨p, ⟨hp, hnot⟩, rfl⟩

theorem mem_own (hid : id ∈ group.own host count) : id ∈ group.ids := by
  obtain ⟨p, hp, rfl⟩ := List.mem_map.mp (List.mem_of_mem_take hid)
  exact List.mem_map_of_mem (List.mem_of_mem_filter hp)

theorem mem_of_deliveries {deliveries : ℕ} (h : group.deliveries id = some deliveries) :
    ∃ p ∈ group.pending, p.id = id ∧ p.deliveries = deliveries := by
  obtain ⟨p, hp, hdeliveries⟩ := Option.map_eq_some_iff.mp h
  have hid := List.find?_some hp
  exact ⟨p, List.mem_of_find?_eq_some hp, of_decide_eq_true hid, hdeliveries⟩

end Group

end Groups

/-! ### What is known of the past -/

section Past

variable {T : Type} [DecidableEq T] {w w' w'' : World T} {t u : T} {id : ℕ}

/-- The events that a process has handled. -/
def events (w : World T) (t : T) : List String := w.succeeded.filterMap fun done =>
  if done.1 = t ∧ eventId done.2.2 ≠ "" then some (eventId done.2.2) else none

/-- Why process `t` may acknowledge an entry: it was trimmed, `t` has handled it or another entry of its event, or
its handler has failed with it and it was delivered five times. -/
inductive Justified (w : World T) (t : T) (id : ℕ) : Prop
  | trimmed (hadded : id < w.added.length) (hgone : id ∉ w.present)
  | handled {fields : Fields} (hfields : w.added[id]? = some fields) (hdone : (t, id, fields) ∈ w.succeeded)
  | repeated {fields fields' : Fields} {other : ℕ} (hfields : w.added[id]? = some fields) (hevent : eventId fields ≠ "")
      (hdone : (t, other, fields') ∈ w.succeeded) (hsame : eventId fields' = eventId fields)
  | exhausted (hfailed : (t, id) ∈ w.failed) (hfive : 5 ≤ w.delivered.count id)

/-- What has been is not lost, and what is gone does not come back. -/
structure Grows (w w' : World T) : Prop where
  added : w.added <+: w'.added
  gone : ∀ id < w.added.length, id ∉ w.present → id ∉ w'.present
  delivered : ∀ id, w.delivered.count id ≤ w'.delivered.count id
  succeeded : ∀ done ∈ w.succeeded, done ∈ w'.succeeded
  failed : ∀ entry ∈ w.failed, entry ∈ w'.failed

omit [DecidableEq T] in
theorem Grows.refl (w : World T) : Grows w w :=
  ⟨List.prefix_rfl, fun _ _ h => h, fun _ => le_rfl, fun _ h => h, fun _ h => h⟩

omit [DecidableEq T] in
theorem Grows.trans (h : Grows w w') (h' : Grows w' w'') : Grows w w'' where
  added := h.added.trans h'.added
  gone id hid hgone := h'.gone id (hid.trans_le h.added.length_le) (h.gone id hid hgone)
  delivered id := (h.delivered id).trans (h'.delivered id)
  succeeded done hdone := h'.succeeded done (h.succeeded done hdone)
  failed entry hentry := h'.failed entry (h.failed entry hentry)

omit [DecidableEq T] in
theorem Grows.fields (h : Grows w w') {fields : Fields} (hfields : w.added[id]? = some fields) :
    w'.added[id]? = some fields := by
  obtain ⟨hlt, -⟩ := List.getElem?_eq_some_iff.mp hfields
  obtain ⟨more, hmore⟩ := h.added
  rw [← hmore, List.getElem?_append_left hlt, hfields]

omit [DecidableEq T] in
theorem Justified.mono (hjustified : Justified w t id) (h : Grows w w') : Justified w' t id := by
  cases hjustified with
  | trimmed hadded hgone => exact .trimmed (hadded.trans_le h.added.length_le) (h.gone id hadded hgone)
  | handled hfields hdone => exact .handled (h.fields hfields) (h.succeeded _ hdone)
  | repeated hfields hevent hdone hsame => exact .repeated (h.fields hfields) hevent (h.succeeded _ hdone) hsame
  | exhausted hfailed hfive => exact .exhausted (h.failed _ hfailed) (hfive.trans (h.delivered id))

/-- What a process knows of an entry that it has read. -/
def Received (w : World T) (entry : Entry) : Prop :=
  match entry.fields with
  | none => entry.id < w.added.length ∧ entry.id ∉ w.present
  | some fields => w.added[entry.id]? = some fields

omit [DecidableEq T] in
theorem Received.mono {entry : Entry} (hreceived : Received w entry) (h : Grows w w') : Received w' entry := by
  unfold Received at hreceived ⊢
  cases hfields : entry.fields with
  | none =>
      rw [hfields] at hreceived
      exact ⟨hreceived.1.trans_le h.added.length_le, h.gone _ hreceived.1 hreceived.2⟩
  | some fields =>
      rw [hfields] at hreceived
      exact h.fields hreceived

omit [DecidableEq T] in
theorem received_entry (hadded : id < w.added.length) : Received w (w.entry id) := by
  by_cases hpresent : id ∈ w.present
  · have hentry : w.entry id = ⟨id, some w.added[id]⟩ := by
      unfold World.entry
      rw [if_pos hpresent, List.getElem?_eq_getElem hadded]
    rw [hentry]
    exact List.getElem?_eq_getElem hadded
  · have hentry : w.entry id = ⟨id, none⟩ := by
      unfold World.entry
      rw [if_neg hpresent]
    rw [hentry]
    exact ⟨hadded, hpresent⟩

/-- What a group keeps: what was delivered and is still there is pending or acknowledged. -/
structure GroupSound (w : World T) (group : Group) : Prop where
  created : group.created ≤ group.next
  next : group.next ≤ w.added.length
  pending : ∀ p ∈ group.pending, p.id < group.next ∧ p.deliveries ≤ w.delivered.count p.id
  kept : ∀ id ∈ w.present, group.created ≤ id → id < group.next → id ∈ group.ids ∨ ∃ t, (t, id) ∈ w.acked

omit [DecidableEq T] in
theorem GroupSound.lt {group : Group} (h : GroupSound w group) (hid : id ∈ group.ids) : id < w.added.length := by
  obtain ⟨p, hp, rfl⟩ := List.mem_map.mp hid
  exact (h.pending p hp).1.trans_le h.next

structure Sound (process : T → Process) (w : World T) : Prop where
  present : ∀ id ∈ w.present, id < w.added.length
  sorted : w.present.Pairwise (· < ·)
  group : ∀ group, w.group = some group → GroupSound w group
  acked : ∀ entry ∈ w.acked, Justified w entry.1 entry.2
  spaced : ∀ t, Recent.Spaced (process t).capacity (events w t)

/-- What process `t` knows of `w` it knows of `w'`: others change neither its attributes nor what it has handled. -/
structure Since (t : T) (w w' : World T) : Prop where
  grows : Grows w w'
  consumer : w'.consumers t = w.consumers t
  events : events w' t = events w t

theorem Since.refl (t : T) (w : World T) : Since t w w := ⟨.refl w, rfl, rfl⟩

theorem Since.trans (h : Since t w w') (h' : Since t w' w'') : Since t w w'' :=
  ⟨h.grows.trans h'.grows, h'.consumer.trans h.consumer, h'.events.trans h.events⟩

def Synced (process : T → Process) (t : T) (w : World T) : Prop :=
  (w.consumers t).handled = Recent.recent (process t).capacity (events w t)

theorem Synced.mono {process : T → Process} (hsynced : Synced process t w) (h : Since t w w') : Synced process t w' := by
  unfold Synced
  rw [h.consumer, h.events]
  exact hsynced

end Past

/-! ### Steps -/

section Steps

variable {T : Type} [DecidableEq T] {process : T → Process} {w w' s : World T} {t u : T} {group : Group}

theorem events_of_succeeded (h : w'.succeeded = w.succeeded) : events w' u = events w u := by
  unfold events
  rw [h]

theorem since_of_grows (hgrows : Grows w w') (hconsumers : w'.consumers = w.consumers)
    (hsucceeded : w'.succeeded = w.succeeded) : Since u w w' :=
  ⟨hgrows, by rw [hconsumers], events_of_succeeded hsucceeded⟩

omit [DecidableEq T] in
theorem grows_deliver (w : World T) (group : Option Group) (ids : List ℕ) :
    Grows w { w with group, delivered := w.delivered ++ ids } :=
  { Grows.refl w with
    delivered := fun id => by
      change w.delivered.count id ≤ (w.delivered ++ ids).count id
      rw [List.count_append]
      exact Nat.le_add_right _ _ }

theorem Sound.deliver (h : Sound process w) {found : Option Group} {ids : List ℕ}
    (hgroup : ∀ group, found = some group → GroupSound { w with delivered := w.delivered ++ ids } group) :
    Sound process { w with group := found, delivered := w.delivered ++ ids } where
  present := h.present
  sorted := h.sorted
  group group hfound :=
    have hsound := hgroup group hfound
    ⟨hsound.created, hsound.next, hsound.pending, hsound.kept⟩
  acked entry hentry := (h.acked entry hentry).mono (grows_deliver w found ids)
  spaced t := h.spaced t

theorem Sound.same (h : Sound process w) (hgrows : Grows w w') (hadded : w'.added = w.added)
    (hpresent : w'.present = w.present) (hgroup : w'.group = w.group) (hdelivered : w'.delivered = w.delivered)
    (hacked : w'.acked = w.acked) (hspaced : ∀ t, Recent.Spaced (process t).capacity (events w' t)) :
    Sound process w' := by
  refine ⟨?_, ?_, fun group hfound => ?_, ?_, hspaced⟩
  · rw [hpresent, hadded]
    exact h.present
  · rw [hpresent]
    exact h.sorted
  · obtain ⟨hcreated, hnext, hpending, hkept⟩ := h.group group (hgroup ▸ hfound)
    refine ⟨hcreated, ?_, ?_, ?_⟩
    · rw [hadded]
      exact hnext
    · rw [hdelivered]
      exact hpending
    · rw [hpresent, hacked]
      exact hkept
  · rw [hacked]
    exact fun entry hentry => (h.acked entry hentry).mono hgrows

theorem GroupSound.deliver (h : GroupSound w group) (hsound : Sound process w) (host : String) (count : ℕ) :
    GroupSound { w with delivered := w.delivered ++ group.fresh w.present count }
      (group.deliver host (group.fresh w.present count)) where
  created := h.created.trans (Group.next_le_deliver fun _ hid => (Group.mem_fresh hid).2)
  next := Group.deliver_next_le (fun id hid => hsound.present id (Group.mem_fresh hid).1) h.next
  pending p hp := by
    have hnext : group.next ≤ (group.deliver host (group.fresh w.present count)).next :=
      Group.next_le_deliver fun _ hid => (Group.mem_fresh hid).2
    rw [List.count_append]
    obtain hp | hp := List.mem_append.mp hp
    · obtain ⟨hlt, hdeliveries⟩ := h.pending p hp
      exact ⟨hlt.trans_le hnext, hdeliveries.trans (Nat.le_add_right _ _)⟩
    · obtain ⟨id, hid, rfl⟩ := List.mem_map.mp hp
      refine ⟨Group.lt_next_deliver hsound.sorted hid, ?_⟩
      exact (List.one_le_count_iff.mpr hid).trans (Nat.le_add_left _ _)
  kept id hid hcreated hlt := by
    rw [Group.ids_deliver, List.mem_append]
    by_cases hnext : group.next ≤ id
    · exact .inl (.inr (Group.mem_fresh_of_lt hsound.sorted hid hnext hlt))
    · exact (h.kept id hid hcreated (not_le.mp hnext)).imp_left .inl

omit [DecidableEq T] in
theorem GroupSound.redeliver (h : GroupSound w group) (host : String) (ids : List ℕ) :
    GroupSound { w with delivered := w.delivered ++ ids } (group.redeliver host ids) where
  created := h.created
  next := h.next
  pending p hp := by
    obtain ⟨q, hq, rfl⟩ := List.mem_map.mp hp
    obtain ⟨hlt, hdeliveries⟩ := h.pending q hq
    rw [List.count_append]
    split_ifs with hmem
    · exact ⟨hlt, Nat.add_le_add hdeliveries (List.one_le_count_iff.mpr hmem)⟩
    · exact ⟨hlt, hdeliveries.trans (Nat.le_add_right _ _)⟩
  kept id hid hcreated hlt := by
    rw [Group.ids_redeliver]
    exact h.kept id hid hcreated hlt

omit [DecidableEq T] in
theorem GroupSound.remove (h : GroupSound w group) {ids : List ℕ}
    (hids : ∀ id ∈ ids, id ∈ w.present → ∃ t, (t, id) ∈ w.acked) : GroupSound w (group.remove ids) where
  created := h.created
  next := h.next
  pending p hp := h.pending p (List.mem_of_mem_filter hp)
  kept id hid hcreated hlt := by
    rw [Group.mem_ids_remove]
    by_cases hmem : id ∈ ids
    · exact .inr (hids id hmem hid)
    · exact (h.kept id hid hcreated hlt).imp_left fun hpending => ⟨hpending, hmem⟩

def World.acknowledge (w : World T) (t : T) (id : ℕ) : World T :=
  { w with
    group := w.group.map fun group => group.remove [id]
    acked := w.acked ++ [(t, id)] }

omit [DecidableEq T] in
theorem grows_acknowledge (w : World T) (t : T) (id : ℕ) : Grows w (w.acknowledge t id) := { Grows.refl w with }

theorem Sound.acknowledge (h : Sound process w) {id : ℕ} (hid : Justified w t id) :
    Sound process (w.acknowledge t id) where
  present := h.present
  sorted := h.sorted
  group group hgroup := by
    obtain ⟨group, hfound, rfl⟩ := Option.map_eq_some_iff.mp hgroup
    have hsound := h.group group hfound
    have hkept : GroupSound (w.acknowledge t id) group := by
      refine ⟨hsound.created, hsound.next, hsound.pending, fun id' hid' hcreated hlt => ?_⟩
      refine (hsound.kept id' hid' hcreated hlt).imp_right ?_
      rintro ⟨u, hu⟩
      exact ⟨u, List.mem_append_left _ hu⟩
    refine hkept.remove fun id' hid' _ => ?_
    obtain rfl := List.mem_singleton.mp hid'
    exact ⟨t, List.mem_append_right _ (List.mem_singleton_self _)⟩
  acked entry hentry := by
    obtain hentry | hentry := List.mem_append.mp hentry
    · exact (h.acked entry hentry).mono (grows_acknowledge w t id)
    · obtain rfl := List.mem_singleton.mp hentry
      exact hid.mono (grows_acknowledge w t id)
  spaced t := h.spaced t

end Steps

/-! ### Commands -/

section Commands

variable {T : Type} [DecidableEq T] {process : T → Process} {w w' s : World T} {t u : T}

/-- A point of a process: a world that it has been in since it last changed anything of its own. -/
def discipline (process : T → Process) : Contract T Command Reply (World T) (World T) where
  inv := Sound process
  at_ := Since
  guar _ _ _ _ _ := True

theorem keeps (hsound : Sound process w') (hsince : ∀ u, u ≠ t → Since u w w') :
    (discipline process).Keeps t w w' :=
  ⟨hsound, fun u hu _ hat => Since.trans hat (hsince u hu)⟩

omit [DecidableEq T] in
theorem Meanwhile.grows (h : Meanwhile w w') : Grows w w' := by
  cases h with
  | xadd fields =>
      refine { Grows.refl w with added := List.prefix_append _ _, gone := fun id hid hgone hmem => ?_ }
      obtain hmem | hmem := List.mem_append.mp hmem
      · exact hgone hmem
      · exact hid.ne (List.mem_singleton.mp hmem)
  | trim hpresent => exact { Grows.refl w with gone := fun _ _ hgone hmem => hgone (hpresent.subset hmem) }
  | lost => exact { Grows.refl w with }

theorem Meanwhile.since (h : Meanwhile w w') : Since t w w' := by
  have hgrows := h.grows
  cases h <;> exact since_of_grows hgrows rfl rfl

theorem Sound.meanwhile (h : Sound process w) (henv : Meanwhile w w') : Sound process w' := by
  have hgrows := henv.grows
  cases henv with
  | xadd fields =>
      refine ⟨fun id hid => ?_, ?_, fun group hgroup => ?_, fun entry hentry => (h.acked entry hentry).mono hgrows,
        fun t => h.spaced t⟩
      · rw [List.length_append, List.length_singleton]
        obtain hid | hid := List.mem_append.mp hid
        · exact Nat.lt_succ_of_lt (h.present id hid)
        · exact Nat.lt_succ_of_le (List.mem_singleton.mp hid).le
      · refine List.pairwise_append.mpr ⟨h.sorted, List.pairwise_singleton _ _, fun id hid id' hid' => ?_⟩
        obtain rfl := List.mem_singleton.mp hid'
        exact h.present id hid
      · have hsound := h.group group hgroup
        refine ⟨hsound.created, hsound.next.trans hgrows.added.length_le, hsound.pending, fun id hid hcreated hlt => ?_⟩
        obtain hid | hid := List.mem_append.mp hid
        · exact hsound.kept id hid hcreated hlt
        · obtain rfl := List.mem_singleton.mp hid
          exact absurd hlt (Nat.not_lt.mpr hsound.next)
  | trim hpresent =>
      refine ⟨fun id hid => h.present id (hpresent.subset hid), h.sorted.sublist hpresent, fun group hgroup => ?_,
        fun entry hentry => (h.acked entry hentry).mono hgrows, fun t => h.spaced t⟩
      have hsound := h.group group hgroup
      exact ⟨hsound.created, hsound.next, hsound.pending, fun id hid => hsound.kept id (hpresent.subset hid)⟩
  | lost => exact ⟨h.present, h.sorted, nofun, fun entry hentry => (h.acked entry hentry).mono hgrows, fun t => h.spaced t⟩

theorem closed : (discipline process).Closed (machine process) where
  env w w' hsound henv := ⟨Sound.meanwhile hsound henv, fun _ _ hat => Since.trans hat (Meanwhile.since henv)⟩
  halt t w w' hsound hhalt := by
    obtain rfl : w' = w := hhalt
    exact keeps hsound fun u _ => .refl u w'

abbrev Gives {α : Type} (process : T → Process) (t : T) (p : ConsumerProg α) (s : World T)
    (P : α → World T → Prop) : Prop :=
  (discipline process).Safe (machine process) t p s
    (Contract.Ends (fun a s' => Grows s s' ∧ Synced process t s' ∧ P a s') fun _ s' => Grows s s' ∧ Synced process t s')

theorem Gives.since {α : Type} {p : ConsumerProg α} {P : α → World T → Prop} (hp : Gives process t p s P)
    (h : Grows w s) : (discipline process).Safe (machine process) t p s (Contract.Ends
      (fun a s' => Grows w s' ∧ Synced process t s' ∧ P a s') fun _ s' => Grows w s' ∧ Synced process t s') := by
  refine Contract.Safe.mono hp ?_
  rintro (e | a) s' hends
  · exact ⟨h.trans hends.1, hends.2⟩
  · exact ⟨h.trans hends.1, hends.2⟩

theorem Gives.seq {α β : Type} {p : ConsumerProg α} {f : α → ConsumerProg β} {P : α → World T → Prop}
    {P' : β → World T → Prop} (hp : Gives process t p s P)
    (hf : ∀ a s', Grows s s' → Synced process t s' → P a s' → Gives process t (f a) s' P') :
    Gives process t (p >>= f) s P' := by
  exact Contract.safe_seq hp fun a s' ⟨hgrows, hsynced, ha⟩ => (hf a s' hgrows hsynced ha).since hgrows

theorem Gives.of_ret {α : Type} {a : α} {P : α → World T → Prop} (hsynced : Synced process t s) (ha : P a s) :
    Gives process t (.ret a) s P :=
  ⟨.refl s, hsynced, ha⟩

theorem gives_orRaise {α : Type} {P : α → World T → Prop} (hsynced : Synced process t s) (r : Except Failure α)
    (hr : ∀ a, r = .ok a → P a s) : Gives process t (orRaise r) s P := by
  cases r with
  | ok a => exact ⟨.refl s, hsynced, hr a rfl⟩
  | error e => exact ⟨.refl s, hsynced⟩

theorem gives_shared {c : Command} {P : Reply c → World T → Prop} (hsynced : Synced process t s)
    (h : ∀ w r w', Sound process w → Since t s w → Answers process t c w r w' →
      (Sound process w' ∧ Grows w w' ∧ w'.consumers = w.consumers ∧ w'.succeeded = w.succeeded) ∧ P r w') :
    Gives process t (Prog.send c) s P := by
  intro w r w' hsound hsince hanswer
  obtain ⟨⟨hsound', hgrows, hconsumers, hsucceeded⟩, hr⟩ := h w r w' hsound hsince hanswer
  have hkept : ∀ u, Since u w w' := fun u => since_of_grows hgrows hconsumers hsucceeded
  have hnow : Since t s w' := Since.trans hsince (hkept t)
  exact ⟨trivial, keeps hsound' fun u _ => hkept u, w', .refl t w', hnow.grows, hsynced.mono hnow, hr⟩

/-- A command that changes whether a process has found its group or read what is its own. -/
theorem gives_attribute {c : Command} {P : Reply c → World T → Prop} (hsynced : Synced process t s)
    (h : ∀ w r w', Answers process t c w r w' → P r w' ∧ ∃ consumer, w' = w.set t consumer ∧
      consumer.handled = (w.consumers t).handled) : Gives process t (Prog.send c) s P := by
  intro w r w' hsound hsince hanswer
  obtain ⟨hr, consumer, rfl, hhandled⟩ := h w r w' hanswer
  have hgrows : Grows w (w.set t consumer) := { Grows.refl w with }
  have hsynced' : Synced process t (w.set t consumer) := by
    unfold Synced World.set
    dsimp only
    rw [Function.update_self, hhandled]
    exact hsynced.mono hsince
  exact ⟨trivial, keeps (hsound.same hgrows rfl rfl rfl rfl rfl hsound.spaced) fun u hu =>
    ⟨hgrows, Function.update_of_ne hu _ _, rfl⟩, _, .refl t _, hsince.grows.trans hgrows, hsynced', hr⟩

end Commands

end RetailSegmentation.StreamConsumer
