import RetailSegmentation.StreamDiscipline

/-! The passes of both kits' consumers keep the rules. So over every interleaving nothing is acknowledged without a
reason, nothing that was delivered is lost, and an event is handled again only after as many others as are remembered. -/

namespace RetailSegmentation.StreamConsumer

open Program
open AccessChanges (Fields eventId)

/-! ### Reading and acknowledging -/

section Entries

variable {T : Type} [DecidableEq T] {process : T → Process} {w w' s : World T} {t u : T}

theorem CarriedOut.ok {α : Type} {a b : α} {r : Except Failure α} (h : CarriedOut a r) (hr : r = .ok b) : b = a := by
  obtain h | h := h
  · exact Except.ok.inj (hr.symm.trans h)
  · cases hr.symm.trans h

theorem gives_xreadgroup (hsynced : Synced process t s) (marker : Marker) (count : ℕ) :
    Gives process t (Prog.send (Command.xreadgroup marker count)) s fun r s' =>
      ∀ entries, r = .ok entries → ∀ entry ∈ entries, Received s' entry := by
  refine gives_shared hsynced fun w r w' hsound _ hanswer => ?_
  cases hanswer with
  | @readNew _ _ group _ hgroup hr =>
      have hgrows := grows_deliver w (some (group.deliver (process t).host (group.fresh w.present count)))
        (group.fresh w.present count)
      refine ⟨⟨hsound.deliver fun group' hfound => ?_, hgrows, rfl, rfl⟩, fun entries hentries entry hentry => ?_⟩
      · obtain rfl := Option.some.inj hfound
        exact (hsound.group _ hgroup).deliver hsound _ _
      · rw [hr.ok hentries] at hentry
        obtain ⟨id, hid, rfl⟩ := List.mem_map.mp hentry
        exact (received_entry (hsound.present id (Group.mem_fresh hid).1)).mono hgrows
  | @readOwn _ _ group _ hgroup hr =>
      have hgrows := grows_deliver w (some (group.redeliver (process t).host (w.kept (group.own (process t).host count))))
        (w.kept (group.own (process t).host count))
      refine ⟨⟨hsound.deliver fun group' hfound => ?_, hgrows, rfl, rfl⟩, fun entries hentries entry hentry => ?_⟩
      · obtain rfl := Option.some.inj hfound
        exact (hsound.group _ hgroup).redeliver _ _
      · rw [hr.ok hentries] at hentry
        obtain ⟨id, hid, rfl⟩ := List.mem_map.mp hentry
        exact (received_entry ((hsound.group _ hgroup).lt (Group.mem_own hid))).mono hgrows
  | notRead he => exact ⟨⟨hsound, .refl w, rfl, rfl⟩, nofun⟩

theorem gives_xclaim (hsynced : Synced process t s) (ids : List ℕ) :
    Gives process t (Prog.send (Command.xclaim ids)) s fun r s' =>
      ∀ entries, r = .ok entries → ∀ entry ∈ entries, Received s' entry := by
  refine gives_shared hsynced fun w r w' hsound _ hanswer => ?_
  cases hanswer with
  | @claimed _ _ claimed group _ hgroup hclaimed hpending hr =>
      have hgrows := grows_deliver w (some ((group.redeliver (process t).host (w.kept claimed)).remove
        (w.trimmed claimed))) (w.kept claimed)
      refine ⟨⟨hsound.deliver fun group' hfound => ?_, hgrows, rfl, rfl⟩, fun entries hentries entry hentry => ?_⟩
      · obtain rfl := Option.some.inj hfound
        refine ((hsound.group _ hgroup).redeliver _ _).remove fun id hid hpresent => ?_
        exact absurd hpresent (of_decide_eq_true (List.mem_filter.mp hid).2)
      · rw [hr.ok hentries] at hentry
        obtain ⟨id, hid, rfl⟩ := List.mem_map.mp hentry
        exact (received_entry ((hsound.group _ hgroup).lt (hpending id (List.mem_of_mem_filter hid)))).mono hgrows
  | notClaimed he => exact ⟨⟨hsound, .refl w, rfl, rfl⟩, nofun⟩

theorem gives_ack (hsynced : Synced process t s) {id : ℕ} (hid : Justified s t id) :
    Gives process t (ack id) s fun _ _ => True := by
  refine Gives.seq (gives_shared (P := fun _ _ => True) hsynced fun w r w' hsound hsince hanswer => ?_)
    fun r s' _ hsynced' _ => gives_orRaise hsynced' r fun _ _ => trivial
  cases hanswer with
  | acked hr =>
      exact ⟨⟨hsound.acknowledge (hid.mono hsince.grows), grows_acknowledge w t id, rfl, rfl⟩, trivial⟩
  | notAcked he => exact ⟨⟨hsound, .refl w, rfl, rfl⟩, trivial⟩

theorem gives_deliveryCount (hsynced : Synced process t s) (id : ℕ) :
    Gives process t (deliveryCount id) s fun count s' => 5 ≤ count → 5 ≤ s'.delivered.count id := by
  refine Gives.seq (gives_shared (P := fun r s' => ∀ pending : Option ℕ, r = Except.ok pending →
    5 ≤ pending.getD 1 → 5 ≤ s'.delivered.count id) hsynced fun w r w' hsound _ hanswer => ?_)
    fun r s' _ hsynced' hr => ?_
  · cases hanswer with
    | @counted _ _ group hgroup =>
        refine ⟨⟨hsound, .refl w, rfl, rfl⟩, fun pending hpending hfive => ?_⟩
        obtain rfl := Except.ok.inj hpending
        cases hdeliveries : group.deliveries id with
        | none =>
            rw [hdeliveries] at hfive
            exact absurd hfive (by decide)
        | some deliveries =>
            rw [hdeliveries] at hfive
            obtain ⟨p, hp, rfl, rfl⟩ := Group.mem_of_deliveries hdeliveries
            exact hfive.trans ((hsound.group _ hgroup).pending p hp).2
    | notCounted he => exact ⟨⟨hsound, .refl w, rfl, rfl⟩, nofun⟩
  · exact Gives.seq (gives_orRaise (P := fun (pending : Option ℕ) s' => 5 ≤ pending.getD 1 → 5 ≤ s'.delivered.count id) hsynced' r hr)
      fun pending s'' _ hsynced'' hpending => .of_ret hsynced'' hpending

/-! ### An event and its handler -/

theorem gives_isHandled (hsynced : Synced process t s) (event : String) :
    Gives process t (isHandled event) s fun found s' =>
      (found = true → event ≠ "" ∧ event ∈ events s' t) ∧
      (found = false → event = "" ∨ event ∉ (s'.consumers t).handled) := by
  unfold isHandled
  split_ifs with hempty
  · exact .of_ret hsynced ⟨nofun, fun _ => .inl hempty⟩
  · refine gives_shared hsynced fun w r w' hsound hsince hanswer => ?_
    cases hanswer with
    | handled =>
        refine ⟨⟨hsound, .refl w, rfl, rfl⟩, fun hfound => ⟨hempty, ?_⟩, fun hfound => .inr (of_decide_eq_false hfound)⟩
        have hmem := of_decide_eq_true hfound
        rw [hsynced.mono hsince] at hmem
        exact List.mem_dedup.mp (List.mem_of_mem_drop hmem)

/-- The event that a handler's success adds. -/
def eventOf (fields : Fields) : List String := if eventId fields = "" then [] else [eventId fields]

theorem events_succeeded (w : World T) (t u : T) (id : ℕ) (fields : Fields) :
    events { w with succeeded := w.succeeded ++ [(u, id, fields)] } t =
      events w t ++ if u = t then eventOf fields else [] := by
  unfold events eventOf
  rw [List.filterMap_append, List.filterMap_cons, List.filterMap_nil]
  by_cases hut : u = t <;> by_cases hempty : eventId fields = "" <;> simp [hut, hempty]

theorem handler_spec (hsynced : Synced process t s) (id : ℕ) {fields : Fields}
    (hnew : eventId fields = "" ∨ eventId fields ∉ (s.consumers t).handled) :
    (discipline process).CmdSpec (machine process) t (.handler id fields) s fun ok s' => Grows s s' ∧
      (ok = true → (t, id, fields) ∈ s'.succeeded ∧ ∃ past, events s' t = past ++ eventOf fields ∧
        (s'.consumers t).handled = Recent.recent (process t).capacity past) ∧
      (ok = false → Synced process t s' ∧ (t, id) ∈ s'.failed) := by
  intro w r w' hsound hsince hanswer
  change Answers process t (.handler id fields) w r w' at hanswer
  have hnow := hsynced.mono hsince
  cases hanswer with
  | succeeded =>
      have hgrows : Grows w { w with succeeded := w.succeeded ++ [(t, id, fields)] } :=
        { Grows.refl w with succeeded := fun _ h => List.mem_append_left _ h }
      have hspaced : ∀ u, Recent.Spaced (process u).capacity
          (events { w with succeeded := w.succeeded ++ [(t, id, fields)] } u) := by
        intro u
        rw [events_succeeded]
        split_ifs with htu
        · subst htu
          unfold eventOf
          split_ifs with hempty
          · rw [List.append_nil]
            exact hsound.spaced t
          · refine (hsound.spaced t).append ?_
            rw [← hnow, hsince.consumer]
            exact hnew.resolve_left hempty
        · rw [List.append_nil]
          exact hsound.spaced u
      refine ⟨trivial, keeps (hsound.same hgrows rfl rfl rfl rfl rfl hspaced) fun u hu => ⟨hgrows, rfl, ?_⟩, _,
        .refl t _, hsince.grows.trans hgrows, fun _ => ⟨List.mem_append_right _ (List.mem_singleton_self _),
          events w t, ?_, hnow⟩, nofun⟩
      · rw [events_succeeded, if_neg (Ne.symm hu), List.append_nil]
      · rw [events_succeeded, if_pos rfl]
  | failed =>
      have hgrows : Grows w { w with failed := w.failed ++ [(t, id)] } :=
        { Grows.refl w with failed := fun _ h => List.mem_append_left _ h }
      exact ⟨trivial, keeps (hsound.same hgrows rfl rfl rfl rfl rfl hsound.spaced) fun u hu => ⟨hgrows, rfl, rfl⟩, _,
        .refl t _, hsince.grows.trans hgrows, nofun,
        fun _ => ⟨hnow, List.mem_append_right _ (List.mem_singleton_self _)⟩⟩

theorem gives_rememberEvent {fields : Fields} {past : List String} (hevents : events s t = past ++ eventOf fields)
    (hhandled : (s.consumers t).handled = Recent.recent (process t).capacity past) :
    Gives process t (rememberEvent (eventId fields)) s fun _ _ => True := by
  unfold eventOf at hevents
  unfold rememberEvent
  split_ifs at hevents ⊢ with hempty
  · refine .of_ret ?_ trivial
    unfold Synced
    rw [hhandled, hevents, List.append_nil]
  · intro w r w' hsound hsince hanswer
    change Answers process t (.remember (eventId fields)) w r w' at hanswer
    cases hanswer with
    | remember =>
        have hgrows : Grows w (w.set t { w.consumers t with
            handled := (process t).kit.remember (process t).capacity (w.consumers t).handled (eventId fields) }) :=
          { Grows.refl w with }
        refine ⟨trivial, keeps (hsound.same hgrows rfl rfl rfl rfl rfl hsound.spaced) fun u hu =>
          ⟨hgrows, Function.update_of_ne hu _ _, rfl⟩, _, .refl t _, hsince.grows.trans hgrows, ?_, trivial⟩
        have hnow : events w t = past ++ [eventId fields] := hsince.events.trans hevents
        unfold Synced World.set
        dsimp only
        rw [Function.update_self, Kit.remember_eq, hsince.consumer, hhandled, Recent.remember_recent, ← hnow]
        rfl

end Entries

/-! ### Passes -/

section Passes

variable {T : Type} [DecidableEq T] {process : T → Process} {w w' s : World T} {t : T}

/-- Whatever it answers, it keeps the rules. -/
abbrev Keeps {α : Type} (process : T → Process) (t : T) (p : ConsumerProg α) : Prop :=
  ∀ s : World T, Synced process t s → Gives process t p s fun _ _ => True

theorem justified_of_event {id : ℕ} {fields : Fields} (hfields : s.added[id]? = some fields) (hevent : eventId fields ≠ "")
    (hhandled : eventId fields ∈ events s t) : Justified s t id := by
  obtain ⟨⟨u, other, fields'⟩, hdone, hsome⟩ := List.mem_filterMap.mp hhandled
  split_ifs at hsome with hmine
  obtain ⟨rfl, -⟩ := hmine
  exact .repeated hfields hevent hdone (Option.some.inj hsome)

theorem gives_handleEntries (entries : List Entry) (processed : ℕ) (hsynced : Synced process t s)
    (hentries : ∀ entry ∈ entries, Received s entry) :
    Gives process t (handleEntries entries processed) s fun _ _ => True := by
  induction entries generalizing processed s with
  | nil => exact .of_ret hsynced trivial
  | cons entry entries ih =>
      have hentry := hentries entry List.mem_cons_self
      have hrest : ∀ s', Grows s s' → ∀ entry ∈ entries, Received s' entry := fun s' hgrows entry hmem =>
        (hentries entry (List.mem_cons_of_mem _ hmem)).mono hgrows
      rw [handleEntries]
      unfold Received at hentry
      cases hfields : entry.fields with
      | none =>
          rw [hfields] at hentry
          exact Gives.seq (gives_ack hsynced (.trimmed hentry.1 hentry.2)) fun _ s' hgrows hsynced' _ =>
            ih _ hsynced' (hrest s' hgrows)
      | some fields =>
          rw [hfields] at hentry
          refine Gives.seq (gives_isHandled hsynced (eventId fields)) fun found s₁ hgrows₁ hsynced₁ ⟨hfound, hnew⟩ => ?_
          cases found with
          | true =>
              obtain ⟨hevent, hhandled⟩ := hfound rfl
              refine Gives.seq (gives_ack hsynced₁ (justified_of_event (hgrows₁.fields hentry) hevent hhandled)) ?_
              exact fun _ s' hgrows hsynced' _ => ih _ hsynced' (hrest s' (hgrows₁.trans hgrows))
          | false =>
              refine Contract.CmdSpec.mono (handler_spec hsynced₁ entry.id (hnew rfl)) ?_
              rintro succeeded s₂ ⟨hgrows₂, hok, hfail⟩
              have hgrows := hgrows₁.trans hgrows₂
              cases succeeded with
              | true =>
                  obtain ⟨hdone, past, hevents, hhandled⟩ := hok rfl
                  have hafter : Gives process t (do
                      rememberEvent (eventId fields)
                      ack entry.id
                      handleEntries entries (processed + 1)) s₂ fun _ _ => True := by
                    refine Gives.seq (gives_rememberEvent hevents hhandled) fun _ s₃ hgrows₃ hsynced₃ _ => ?_
                    have hreason := Justified.handled ((hgrows.trans hgrows₃).fields hentry) (hgrows₃.succeeded _ hdone)
                    exact Gives.seq (gives_ack hsynced₃ hreason) fun _ s₄ hgrows₄ hsynced₄ _ =>
                      ih _ hsynced₄ (hrest s₄ ((hgrows.trans hgrows₃).trans hgrows₄))
                  exact hafter.since hgrows₂
              | false =>
                  obtain ⟨hsynced₂, hfailed⟩ := hfail rfl
                  have hafter : Gives process t (do
                      let deliveries ← deliveryCount entry.id
                      if 5 ≤ deliveries then
                        ack entry.id
                        handleEntries entries (processed + 1)
                      else handleEntries entries processed) s₂ fun _ _ => True := by
                    refine Gives.seq (gives_deliveryCount hsynced₂ entry.id) fun n s₃ hgrows₃ hsynced₃ hfive => ?_
                    split_ifs with hmany
                    · have hreason := Justified.exhausted (hgrows₃.failed _ hfailed) (hfive hmany)
                      exact Gives.seq (gives_ack hsynced₃ hreason) fun _ s₄ hgrows₄ hsynced₄ _ =>
                        ih _ hsynced₄ (hrest s₄ ((hgrows.trans hgrows₃).trans hgrows₄))
                    · exact ih _ hsynced₃ (hrest s₃ (hgrows.trans hgrows₃))
                  exact hafter.since hgrows₂

theorem gives_read (hsynced : Synced process t s) (marker : Marker) :
    Gives process t (read marker) s fun entries s' => ∀ entry ∈ entries, Received s' entry :=
  Gives.seq (gives_xreadgroup hsynced marker 100) fun r _ _ hsynced' hr =>
    gives_orRaise (P := fun entries s' => ∀ entry ∈ entries, Received s' entry) hsynced' r hr

theorem keeps_setAttribute {c : Command} (h : ∀ w r w', Answers process t c w r w' → ∃ consumer, w' = w.set t consumer ∧
    consumer.handled = (w.consumers t).handled) : Keeps process t (Prog.send c) :=
  fun _ hsynced => gives_attribute hsynced fun w r w' hanswer => ⟨trivial, h w r w' hanswer⟩

theorem keeps_setGroupReady (ready : Bool) : Keeps process t (Prog.send (Command.setGroupReady ready)) :=
  keeps_setAttribute fun w r w' hanswer => by
    cases hanswer
    exact ⟨_, rfl, rfl⟩

theorem keeps_setStarted (started : Bool) : Keeps process t (Prog.send (Command.setStarted started)) :=
  keeps_setAttribute fun w r w' hanswer => by
    cases hanswer
    exact ⟨_, rfl, rfl⟩

theorem keeps_ensureGroup : Keeps process t ensureGroup := by
  intro s hsynced
  refine Gives.seq (gives_shared (P := fun _ _ => True) hsynced fun w r w' hsound _ hanswer => ?_)
    fun ready s₁ _ hsynced₁ _ => ?_
  · cases hanswer
    exact ⟨⟨hsound, .refl w, rfl, rfl⟩, trivial⟩
  · split_ifs
    · exact .of_ret hsynced₁ trivial
    · refine Gives.seq (P := fun _ _ => True) (Contract.safe_handle (Gives.seq (P := fun _ _ => True)
        (gives_shared hsynced₁ fun w r w' hsound _ hanswer => ?_) fun r s₂ _ hsynced₂ _ =>
          gives_orRaise hsynced₂ r fun _ _ => trivial) fun e s₂ ⟨hgrows₂, hsynced₂⟩ => ?_)
        fun _ s₃ _ hsynced₃ _ => keeps_setGroupReady true s₃ hsynced₃
      · cases hanswer with
        | created hgroup hr =>
            refine ⟨⟨⟨hsound.present, hsound.sorted, fun group hfound => ?_, fun entry hentry =>
              (hsound.acked entry hentry).mono { Grows.refl w with }, hsound.spaced⟩, { Grows.refl w with }, rfl, rfl⟩,
                trivial⟩
            obtain rfl := Option.some.inj hfound
            exact ⟨le_rfl, le_rfl, nofun, fun id _ hcreated hlt => absurd hlt (Nat.not_lt.mpr hcreated)⟩
        | notCreated he => exact ⟨⟨hsound, .refl w, rfl, rfl⟩, trivial⟩
      · split_ifs
        · exact ⟨hgrows₂, hsynced₂, trivial⟩
        · exact ⟨hgrows₂, hsynced₂⟩

theorem keeps_handleOwn : Keeps process t handleOwn := by
  intro s hsynced
  refine Gives.seq (gives_shared (P := fun _ _ => True) hsynced fun w r w' hsound _ hanswer => ?_)
    fun started s₁ _ hsynced₁ _ => ?_
  · cases hanswer
    exact ⟨⟨hsound, .refl w, rfl, rfl⟩, trivial⟩
  · split_ifs
    · exact .of_ret hsynced₁ trivial
    · refine Gives.seq (gives_read hsynced₁ .own) fun entries s₂ _ hsynced₂ hentries => ?_
      refine Gives.seq (gives_handleEntries entries 0 hsynced₂ hentries) fun processed s₃ _ hsynced₃ _ => ?_
      exact Gives.seq (keeps_setStarted true s₃ hsynced₃) fun _ s₄ _ hsynced₄ _ => .of_ret hsynced₄ trivial

theorem keeps_handleIdle (processed : ℕ) : Keeps process t (handleIdle processed) := by
  intro s hsynced
  refine Gives.seq (gives_shared (P := fun _ _ => True) hsynced fun w r w' hsound _ hanswer => ?_)
    fun r s₁ _ hsynced₁ _ => Gives.seq (gives_orRaise (P := fun _ _ => True) hsynced₁ r fun _ _ => trivial)
      fun ids s₂ _ hsynced₂ _ => ?_
  · cases hanswer <;> exact ⟨⟨hsound, .refl w, rfl, rfl⟩, trivial⟩
  · split_ifs
    · exact .of_ret hsynced₂ trivial
    · refine Gives.seq (gives_xclaim hsynced₂ ids) fun r s₃ _ hsynced₃ hr => ?_
      exact Gives.seq (gives_orRaise (P := fun entries s' => ∀ entry ∈ entries, Received s' entry) hsynced₃ r hr)
        fun entries s₄ _ hsynced₄ hentries => gives_handleEntries entries processed hsynced₄ hentries

theorem keeps_runPass : Keeps process t runPass := by
  intro s hsynced
  refine Gives.seq (keeps_handleOwn s hsynced) fun processed s₁ _ hsynced₁ _ => ?_
  refine Gives.seq (keeps_handleIdle processed s₁ hsynced₁) fun processed s₂ _ hsynced₂ _ => ?_
  exact Gives.seq (gives_read hsynced₂ .new) fun entries s₃ _ hsynced₃ hentries =>
    gives_handleEntries entries processed hsynced₃ hentries

theorem keeps_forgetGroup : Keeps process t forgetGroup := fun s hsynced =>
  Gives.seq (keeps_setGroupReady false s hsynced) fun _ s₁ _ hsynced₁ _ => keeps_setStarted false s₁ hsynced₁

theorem keeps_runOnce : Keeps process t runOnce := by
  intro s hsynced
  refine Gives.seq (keeps_ensureGroup s hsynced) fun _ s₁ _ hsynced₁ _ => ?_
  refine Contract.safe_handle (keeps_runPass s₁ hsynced₁) fun e s₂ ⟨hgrows₂, hsynced₂⟩ => ?_
  split_ifs
  · refine Gives.since (P := fun _ _ => True) (Gives.seq (keeps_forgetGroup s₂ hsynced₂) fun _ s₃ _ hsynced₃ _ => ?_)
      hgrows₂
    exact Gives.seq (keeps_ensureGroup s₃ hsynced₃) fun _ s₄ _ hsynced₄ _ => keeps_runPass s₄ hsynced₄
  · exact ⟨hgrows₂, hsynced₂⟩

theorem keeps_passes {recover : Failure → ConsumerProg Unit} (hrecover : ∀ e, Keeps process t (recover e)) (n : ℕ) :
    Keeps process t (passes recover n) := by
  induction n with
  | zero => exact fun s hsynced => .of_ret hsynced trivial
  | succ n ih =>
      intro s hsynced
      refine Gives.seq (P := fun _ _ => True) (Contract.safe_handle (Gives.seq (keeps_runOnce s hsynced)
        fun _ s₁ _ hsynced₁ _ => .of_ret hsynced₁ trivial) fun e s₁ ⟨hgrows₁, hsynced₁⟩ => ?_)
        fun _ s₂ _ hsynced₂ _ => ih s₂ hsynced₂
      exact (hrecover e s₁ hsynced₁).since hgrows₁

theorem keeps_run (kit : Kit) (n : ℕ) : Keeps process t (kit.run n) := by
  cases kit with
  | py => exact keeps_passes (fun _ s hsynced => .of_ret hsynced trivial) n
  | rs => exact keeps_passes (fun _ s hsynced => .of_ret hsynced trivial) n
  | rsReconnect =>
      refine keeps_passes (fun e s hsynced => ?_) n
      split_ifs
      · exact keeps_forgetGroup s hsynced
      · exact .of_ret hsynced trivial

/-! ### Every interleaving -/

theorem sound_of_consuming (passes : T → ℕ) (stream : List Fields)
    {cfg : Config T Command Reply Failure Unit (World T)}
    (hrun : (machine process).Reaches (consuming process passes stream) cfg) : Sound process cfg.state := by
  have hgood : (discipline process).Good (machine process) (fun _ _ _ => True) (consuming process passes stream) := by
    refine Contract.Good.initial ⟨fun id hid => List.mem_range.mp hid, List.pairwise_lt_range, nofun, nofun,
      fun t => .nil _⟩ fun t => ⟨_, .refl t _, ?_⟩
    have hsynced : Synced process t (consuming process passes stream).state := List.drop_nil.symm
    exact Contract.Safe.mono (keeps_run (process t).kit (passes t) _ hsynced) fun _ _ _ => trivial
  exact (hgood.reaches closed hrun).inv

/-- **No entry is lost.** Over every interleaving of consumers of both kits, with failures, crashes, trimming and a
group that may be lost, an entry that is there and was added after the group was created is still to be delivered,
pending, or acknowledged; and what was acknowledged was acknowledged for a reason. -/
theorem no_entry_is_lost (process : T → Process) (passes : T → ℕ) (stream : List Fields)
    {cfg : Config T Command Reply Failure Unit (World T)}
    (hrun : (machine process).Reaches (consuming process passes stream) cfg) :
    (∀ group, cfg.state.group = some group → ∀ id ∈ cfg.state.present, group.created ≤ id →
      group.next ≤ id ∨ id ∈ group.ids ∨ ∃ t, (t, id) ∈ cfg.state.acked) ∧
    ∀ t id, (t, id) ∈ cfg.state.acked → Justified cfg.state t id := by
  have hsound := sound_of_consuming passes stream hrun
  refine ⟨fun group hgroup id hid hcreated => ?_, fun t id hacked => hsound.acked _ hacked⟩
  obtain hlt | hnext := Nat.lt_or_ge id group.next
  · exact .inr ((hsound.group group hgroup).kept id hid hcreated hlt)
  · exact .inl hnext

/-- **An event is handled again only after others.** Between two successes of a process's handler with one event,
it has succeeded with as many other events as the memory holds. -/
theorem handled_again_after (process : T → Process) (passes : T → ℕ) (stream : List Fields)
    {cfg : Config T Command Reply Failure Unit (World T)}
    (hrun : (machine process).Reaches (consuming process passes stream) cfg) {t : T} {before mid after : List String}
    {event : String} (hagain : events cfg.state t = before ++ event :: (mid ++ event :: after)) :
    (process t).capacity ≤ (mid.filter fun other => other ≠ event).dedup.length :=
  (sound_of_consuming passes stream hrun).spaced t before event mid after hagain

end Passes

/-! ### A pass over three entries -/

/-- One process that remembers one event. -/
def lone (_ : Unit) : Process := ⟨.py, "host", 1⟩

/-- Nothing fails. -/
def succeed (t : Unit) : (c : Command) → World Unit → Option (Reply c × World Unit)
  | .groupReady, w => some ((w.consumers t).groupReady, w)
  | .setGroupReady groupReady, w => some ((), w.set t { w.consumers t with groupReady })
  | .started, w => some ((w.consumers t).started, w)
  | .setStarted started, w => some ((), w.set t { w.consumers t with started })
  | .handled event, w => some (decide (event ∈ (w.consumers t).handled), w)
  | .remember event, w => some ((), w.set t { w.consumers t with
      handled := (lone t).kit.remember (lone t).capacity (w.consumers t).handled event })
  | .handler id fields, w => some (true, { w with succeeded := w.succeeded ++ [(t, id, fields)] })
  | .xgroupCreate, w =>
    if w.group = none then some (.ok (), { w with group := some ⟨w.added.length, w.added.length, []⟩ }) else none
  | .xreadgroup .new count, w => w.group.map fun group =>
      (.ok ((group.fresh w.present count).map w.entry),
        { w with
          group := some (group.deliver (lone t).host (group.fresh w.present count))
          delivered := w.delivered ++ group.fresh w.present count })
  | .xreadgroup .own count, w => w.group.map fun group =>
      (.ok ((group.own (lone t).host count).map w.entry),
        { w with
          group := some (group.redeliver (lone t).host (w.kept (group.own (lone t).host count)))
          delivered := w.delivered ++ w.kept (group.own (lone t).host count) })
  | .xpendingIdle _, w => w.group.map fun _ => (.ok [], w)
  | .xclaim _, _ => none
  | .xpendingRange id, w => w.group.map fun group => (.ok (group.deliveries id), w)
  | .xack id, w => some (.ok (), w.acknowledge t id)

theorem answers_of_succeed (t : Unit) (c : Command) (w : World Unit) (r : Reply c) (w' : World Unit)
    (h : succeed t c w = some (r, w')) : Answers lone t c w r w' := by
  cases c with
  | xclaim ids => cases h
  | xgroupCreate =>
      dsimp only [succeed] at h
      split_ifs at h with hgroup
      obtain ⟨rfl, rfl⟩ := Prod.mk.inj (Option.some.inj h)
      exact .created hgroup (.inl rfl)
  | xreadgroup marker count =>
      cases marker <;> obtain ⟨group, hgroup, heq⟩ := Option.map_eq_some_iff.mp h <;>
        obtain ⟨rfl, rfl⟩ := Prod.mk.inj heq
      · exact .readOwn hgroup (.inl rfl)
      · exact .readNew hgroup (.inl rfl)
  | xpendingIdle count =>
      obtain ⟨group, hgroup, heq⟩ := Option.map_eq_some_iff.mp h
      obtain ⟨rfl, rfl⟩ := Prod.mk.inj heq
      exact .idle hgroup (List.nil_sublist _) (Nat.zero_le _)
  | xpendingRange id =>
      obtain ⟨group, hgroup, heq⟩ := Option.map_eq_some_iff.mp h
      obtain ⟨rfl, rfl⟩ := Prod.mk.inj heq
      exact .counted hgroup
  | xack id =>
      obtain ⟨rfl, rfl⟩ := Prod.mk.inj (Option.some.inj h)
      exact .acked (.inl rfl)
  | _ =>
      obtain ⟨rfl, rfl⟩ := Prod.mk.inj (Option.some.inj h)
      constructor

/-- Entries are added, once the group has been created. -/
def World.addAll (w : World Unit) (entries : List Fields) : World Unit :=
  entries.foldl (fun w fields => { w with added := w.added ++ [fields], present := w.present ++ [w.added.length] }) w

theorem reaches_addAll {cfg : Config Unit Command Reply Failure Unit (World Unit)} (entries : List Fields) :
    (machine lone).Reaches cfg ⟨cfg.threads, cfg.state.addAll entries⟩ := by
  induction entries generalizing cfg with
  | nil => exact .refl
  | cons fields entries ih =>
      exact .head (.env (.xadd fields)) ih

def ofEvent (event : String) : Fields := fun name => if name = "event_id" then some event else none

theorem pass_over_three : ∃ cfg, (machine lone).Reaches (consuming lone (fun _ => 1) []) cfg ∧
    events cfg.state () = ["a", "b", "a"] ∧ cfg.state.acked = [((), 0), ((), 1), ((), 2)] ∧
    cfg.state.group = some ⟨0, 3, []⟩ := by
  have hrun : ((schedule succeed [(), (), ()] (consuming lone (fun _ => 1) [])).bind fun cfg =>
      schedule succeed (List.replicate 17 ())
        ⟨cfg.threads, cfg.state.addAll [ofEvent "a", ofEvent "b", ofEvent "a"]⟩).any fun cfg =>
      events cfg.state () = ["a", "b", "a"] ∧ cfg.state.acked = [((), 0), ((), 1), ((), 2)] ∧
        cfg.state.group = some ⟨0, 3, []⟩ := by
    decide +kernel
  obtain ⟨cfg, hcfg, hdone⟩ := (Option.any_eq_true _ _).mp hrun
  obtain ⟨cfg', hfirst, hsecond⟩ := Option.bind_eq_some_iff.mp hcfg
  have hreaches := Machine.reaches_of_schedule (machine lone) answers_of_succeed _ hfirst
  have hreaches' := Machine.reaches_of_schedule (machine lone) answers_of_succeed _ hsecond
  exact ⟨cfg, (hreaches.trans (reaches_addAll _)).trans hreaches', of_decide_eq_true hdone⟩

theorem acknowledged_after_success : ∃ cfg, (machine lone).Reaches (consuming lone (fun _ => 1) []) cfg ∧
    (∃ t, (t, 2) ∈ cfg.state.acked) ∧ Justified cfg.state () 2 := by
  obtain ⟨cfg, hrun, -, hacked, -⟩ := pass_over_three
  have hmem : ((), 2) ∈ cfg.state.acked := by
    rw [hacked]
    decide
  exact ⟨cfg, hrun, ⟨(), hmem⟩, (no_entry_is_lost lone (fun _ => 1) [] hrun).2 () 2 hmem⟩

theorem handled_again_after_one : ∃ cfg, (machine lone).Reaches (consuming lone (fun _ => 1) []) cfg ∧
    events cfg.state () = [] ++ "a" :: (["b"] ++ "a" :: []) ∧
    (lone ()).capacity ≤ (["b"].filter fun other => other ≠ "a").dedup.length := by
  obtain ⟨cfg, hrun, hevents, -⟩ := pass_over_three
  have hagain : events cfg.state () = [] ++ "a" :: (["b"] ++ "a" :: []) := hevents
  exact ⟨cfg, hrun, hagain, handled_again_after lone (fun _ => 1) [] hrun hagain⟩

end RetailSegmentation.StreamConsumer
