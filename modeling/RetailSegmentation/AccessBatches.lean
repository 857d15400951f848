import RetailSegmentation.AccessChanges

/-! Entries handled together and one at a time, where nothing fails: what is acknowledged is the same, and
which users are revoked. -/

namespace RetailSegmentation.AccessChanges

open Program Grouping

/-! ### Runs where nothing fails -/

/-- `revoke_users` returns, and Redis answers. -/
def succeed (capacity : ℕ) : (c : Command) → World Unit → Reply c × World Unit
  | .handled event, w => (event ∈ w.handled.keys, w)
  | .remember event, w => ((), { w with handled := remember capacity w.handled event })
  | .revokeUsers users, w => (.ok (), { w with revocations := w.revocations ++ [((), users)] })
  | .xpendingRange id, w => (.ok none, { w with counts := w.counts ++ [((), id, 1)] })
  | .xack ids, w => (.ok (), { w with acks := w.acks ++ ids.map fun id => ((), id) })

/-- A memory, and nothing done yet. -/
def fresh (handled : Dict String Unit) : World Unit := ⟨handled, [], [], []⟩

namespace World

def users (w : World Unit) : List String := w.revocations.flatMap (·.2)

def acked (w : World Unit) : List String := w.acks.map (·.2)

def revoke (w : World Unit) (users : List String) : World Unit := { w with revocations := w.revocations ++ [((), users)] }

def ack (w : World Unit) (ids : List String) : World Unit := { w with acks := w.acks ++ ids.map fun id => ((), id) }

def rememberEvent (w : World Unit) (capacity : ℕ) (event : String) : World Unit :=
  if event = "" then w else { w with handled := remember capacity w.handled event }

variable (w : World Unit)

@[simp] theorem users_revoke (users : List String) : (w.revoke users).users = w.users ++ users := by
  simp [World.users, revoke]

@[simp] theorem users_ack (ids : List String) : (w.ack ids).users = w.users := rfl

@[simp] theorem acked_revoke (users : List String) : (w.revoke users).acked = w.acked := rfl

@[simp] theorem acked_ack (ids : List String) : (w.ack ids).acked = w.acked ++ ids := by
  simp [acked, ack]

@[simp] theorem handled_revoke (users : List String) : (w.revoke users).handled = w.handled := rfl

@[simp] theorem handled_ack (ids : List String) : (w.ack ids).handled = w.handled := rfl

@[simp] theorem users_rememberEvent (capacity : ℕ) (event : String) :
    (w.rememberEvent capacity event).users = w.users := by
  unfold rememberEvent
  split_ifs <;> rfl

@[simp] theorem acked_rememberEvent (capacity : ℕ) (event : String) :
    (w.rememberEvent capacity event).acked = w.acked := by
  unfold rememberEvent
  split_ifs <;> rfl

@[simp] theorem handled_rememberEvent (capacity : ℕ) (event : String) : (w.rememberEvent capacity event).handled =
    if event = "" then w.handled else remember capacity w.handled event := by
  unfold rememberEvent
  split_ifs <;> rfl

end World

section Runs

variable (capacity : ℕ) (w : World Unit)

theorem run_isHandled (event : String) :
    (isHandled event).run (succeed capacity) w = (.ok (decide (event ≠ "" ∧ event ∈ w.handled.keys)), w) := by
  unfold isHandled
  split_ifs with hevent
  · simp [hevent]
  · simp [hevent, Prog.send, succeed]

theorem run_rememberEvent (event : String) :
    (rememberEvent event).run (succeed capacity) w = (.ok (), w.rememberEvent capacity event) := by
  unfold rememberEvent World.rememberEvent
  split_ifs <;> rfl

theorem run_succeeds (users : List String) :
    (succeeds users).run (succeed capacity) w = (.ok true, w.revoke users) := rfl

theorem run_isDuplicate (event : String) (seen : List String) : (isDuplicate event seen).run (succeed capacity) w =
    (.ok (decide (event ≠ "" ∧ (event ∈ w.handled.keys ∨ event ∈ seen))), w) := by
  unfold isDuplicate
  rw [Prog.run_bind, run_isHandled]
  by_cases hhandled : event ≠ "" ∧ event ∈ w.handled.keys
  · simp [hhandled.1, hhandled.2]
  · by_cases hevent : event = ""
    · simp [hevent]
    · have hnot : event ∉ w.handled.keys := fun hmem => hhandled ⟨hevent, hmem⟩
      simp [hevent, hnot]

/-! ### One at a time -/

def Kit.Takes (handled : Dict String Unit) (fields : Fields) : Prop :=
  eventId fields = "" ∨ eventId fields ∉ handled.keys

instance (handled : Dict String Unit) (fields : Fields) : Decidable (Kit.Takes handled fields) :=
  inferInstanceAs (Decidable (_ ∨ _))

def Kit.after (w : World Unit) (entry : Entry) : World Unit :=
  match entry.fields with
  | none => w.ack [entry.id]
  | some fields =>
    if Kit.Takes w.handled fields then
      ((w.revoke (entityId fields).toList).rememberEvent capacity (eventId fields)).ack [entry.id]
    else w.ack [entry.id]

theorem Kit.after_trimmed {entry : Entry} (hfields : entry.fields = none) :
    Kit.after capacity w entry = w.ack [entry.id] := by
  unfold Kit.after
  rw [hfields]

theorem Kit.after_taken {entry : Entry} {fields : Fields} (hfields : entry.fields = some fields)
    (htakes : Kit.Takes w.handled fields) : Kit.after capacity w entry =
      ((w.revoke (entityId fields).toList).rememberEvent capacity (eventId fields)).ack [entry.id] := by
  unfold Kit.after
  rw [hfields]
  exact if_pos htakes

theorem Kit.after_duplicate {entry : Entry} {fields : Fields} (hfields : entry.fields = some fields)
    (htakes : ¬ Kit.Takes w.handled fields) : Kit.after capacity w entry = w.ack [entry.id] := by
  unfold Kit.after
  rw [hfields]
  exact if_neg htakes

theorem Kit.run_handleEntries (entries : List Entry) (processed : ℕ) :
    (Kit.handleEntries entries processed).run (succeed capacity) w =
      (.ok (processed + entries.length), entries.foldl (Kit.after capacity) w) := by
  induction entries generalizing processed w with
  | nil => rfl
  | cons entry rest ih =>
      have hcount : processed + 1 + rest.length = processed + (entry :: rest).length := by
        rw [List.length_cons]
        omega
      rw [Kit.handleEntries, List.foldl_cons]
      cases hfields : entry.fields with
      | none =>
          rw [Kit.after_trimmed capacity w hfields, ← hcount]
          exact ih (w.ack [entry.id]) (processed + 1)
      | some fields =>
          simp only
          rw [Prog.run_bind, run_isHandled]
          by_cases htakes : Kit.Takes w.handled fields
          · have hnot : ¬ (eventId fields ≠ "" ∧ eventId fields ∈ w.handled.keys) := fun h =>
              htakes.elim h.1 fun hnew => hnew h.2
            rw [Kit.after_taken capacity w hfields htakes, ← hcount]
            simp only [hnot, decide_false, Bool.false_eq_true, if_false]
            rw [Kit.one, Prog.run_bind, run_succeeds]
            simp only [if_true]
            rw [Prog.run_bind, run_rememberEvent]
            exact ih _ (processed + 1)
          · have hheld : eventId fields ≠ "" ∧ eventId fields ∈ w.handled.keys := by
              obtain ⟨hevent, hmem⟩ := not_or.mp htakes
              exact ⟨hevent, not_not.mp hmem⟩
            rw [Kit.after_duplicate capacity w hfields htakes, ← hcount]
            simp only [hheld, ne_eq, not_false_eq_true, and_self, decide_true, if_true]
            exact ih (w.ack [entry.id]) (processed + 1)

/-! ### Together -/

def Takes (handled : Dict String Unit) (seen : List String) (fields : Fields) : Prop :=
  eventId fields = "" ∨ eventId fields ∉ handled.keys ∧ eventId fields ∉ seen

instance (handled : Dict String Unit) (seen : List String) (fields : Fields) :
    Decidable (Takes handled seen fields) :=
  inferInstanceAs (Decidable (_ ∨ _))

/-- The loop over the entries has gone one entry further. -/
def sortEntry (handled : Dict String Unit) (sorted : Sorted) (entry : Entry) : Sorted :=
  match entry.fields with
  | none => sorted.acknowledge entry.id
  | some fields =>
    if Takes handled sorted.seen fields then sorted.take entry.id fields else sorted.acknowledge entry.id

theorem sortEntry_trimmed (handled : Dict String Unit) (sorted : Sorted) {entry : Entry}
    (hfields : entry.fields = none) :
    sortEntry handled sorted entry = sorted.acknowledge entry.id := by
  unfold sortEntry
  rw [hfields]

theorem sortEntry_taken {handled : Dict String Unit} {sorted : Sorted} {entry : Entry} {fields : Fields}
    (hfields : entry.fields = some fields) (htakes : Takes handled sorted.seen fields) :
    sortEntry handled sorted entry = sorted.take entry.id fields := by
  unfold sortEntry
  rw [hfields]
  exact if_pos htakes

theorem sortEntry_duplicate {handled : Dict String Unit} {sorted : Sorted} {entry : Entry} {fields : Fields}
    (hfields : entry.fields = some fields) (htakes : ¬ Takes handled sorted.seen fields) :
    sortEntry handled sorted entry = sorted.acknowledge entry.id := by
  unfold sortEntry
  rw [hfields]
  exact if_neg htakes

theorem run_sortEntries (entries : List Entry) (sorted : Sorted) :
    (sortEntries entries sorted).run (succeed capacity) w =
    (.ok (entries.foldl (sortEntry w.handled) sorted), w) := by
  induction entries generalizing sorted with
  | nil => rfl
  | cons entry rest ih =>
      rw [sortEntries, List.foldl_cons]
      cases hfields : entry.fields with
      | none =>
          rw [sortEntry_trimmed w.handled sorted hfields]
          exact ih _
      | some fields =>
          simp only
          rw [Prog.run_bind, run_isDuplicate]
          by_cases htakes : Takes w.handled sorted.seen fields
          · have hnot : ¬ (eventId fields ≠ "" ∧ (eventId fields ∈ w.handled.keys ∨ eventId fields ∈ sorted.seen)) :=
              fun h => htakes.elim h.1 fun hnew => h.2.elim hnew.1 hnew.2
            rw [sortEntry_taken hfields htakes]
            simp only [hnot, decide_false, Bool.false_eq_true, if_false]
            exact ih _
          · have hheld : eventId fields ≠ "" ∧ (eventId fields ∈ w.handled.keys ∨
              eventId fields ∈ sorted.seen) := by
              obtain ⟨hevent, hmem⟩ := not_or.mp htakes
              refine ⟨hevent, ?_⟩
              by_contra hnot
              exact hmem (not_or.mp hnot)
            rw [sortEntry_duplicate hfields htakes]
            simp only [hheld, ne_eq, not_false_eq_true, and_self, decide_true, if_true]
            exact ih _

/-- What the memory is when the events of a batch have been remembered. -/
def World.rememberAll (entries : List (String × String)) : World Unit :=
  entries.foldl (fun w entry => w.rememberEvent capacity entry.2) w

theorem run_rememberAll (entries : List (String × String)) (acknowledged : List String) :
    (rememberAll entries acknowledged).run (succeed capacity) w =
      (.ok (acknowledged ++ entries.map Prod.fst), w.rememberAll capacity entries) := by
  induction entries generalizing acknowledged w with
  | nil => rw [List.map_nil, List.append_nil]; rfl
  | cons entry rest ih =>
      rw [rememberAll, Prog.run_bind, run_rememberEvent]
      refine (ih (w.rememberEvent capacity entry.2) (acknowledged ++ [entry.1])).trans ?_
      rw [List.append_assoc]
      rfl

@[simp] theorem users_rememberAll (entries : List (String × String)) :
    (w.rememberAll capacity entries).users = w.users := by
  induction entries generalizing w with
  | nil => rfl
  | cons entry rest ih => exact (ih _).trans (World.users_rememberEvent w capacity entry.2)

@[simp] theorem acked_rememberAll (entries : List (String × String)) :
    (w.rememberAll capacity entries).acked = w.acked := by
  induction entries generalizing w with
  | nil => rfl
  | cons entry rest ih => exact (ih _).trans (World.acked_rememberEvent w capacity entry.2)

/-- What has been collected of a whole batch. -/
def sorted (handled : Dict String Unit) (entries : List Entry) : Sorted := entries.foldl (sortEntry handled) .empty

def Sorted.ids (sorted : Sorted) : List String := sorted.acknowledged ++ sorted.batch.map Prod.fst

theorem ids_acknowledge_perm (sorted : Sorted) (id : String) :
    (sorted.acknowledge id).ids.Perm (sorted.ids ++ [id]) := by
  unfold Sorted.ids Sorted.acknowledge
  rw [List.append_assoc, List.append_assoc]
  exact List.perm_append_comm.append_left _

theorem ids_take (sorted : Sorted) (id : String) (fields : Fields) :
    (sorted.take id fields).ids = sorted.ids ++ [id] := by
  unfold Sorted.ids Sorted.take
  rw [List.map_append, List.append_assoc]
  rfl

theorem ids_sortEntry_perm (handled : Dict String Unit) (sorted : Sorted) (entry : Entry) :
    (sortEntry handled sorted entry).ids.Perm (sorted.ids ++ [entry.id]) := by
  cases hfields : entry.fields with
  | none =>
      rw [sortEntry_trimmed handled sorted hfields]
      exact ids_acknowledge_perm sorted entry.id
  | some fields =>
      by_cases htakes : Takes handled sorted.seen fields
      · rw [sortEntry_taken hfields htakes, ids_take]
      · rw [sortEntry_duplicate hfields htakes]
        exact ids_acknowledge_perm sorted entry.id

theorem ids_sorted_perm (handled : Dict String Unit) (entries : List Entry) :
    (sorted handled entries).ids.Perm (entries.map (·.id)) := by
  induction entries using List.reverseRecOn with
  | nil => exact .refl _
  | append_singleton entries entry ih =>
      unfold sorted at ih ⊢
      rw [List.foldl_append, List.map_append]
      exact (ids_sortEntry_perm handled _ entry).trans (ih.append_right _)

/-- What is done for a batch: its users, and then the events to remember. -/
def World.revokeBatch (w : World Unit) (sorted : Sorted) : World Unit :=
  if sorted.batch = [] then w else (w.revoke sorted.users).rememberAll capacity sorted.batch

theorem run_revokeBatch (sorted : Sorted) : (revokeBatch sorted).run (succeed capacity) w =
    (.ok sorted.ids, w.revokeBatch capacity sorted) := by
  unfold revokeBatch World.revokeBatch Sorted.ids
  split_ifs with hbatch
  · rw [hbatch, List.map_nil, List.append_nil]
    rfl
  · rw [Prog.run_bind, run_succeeds]
    exact run_rememberAll capacity (w.revoke sorted.users) sorted.batch sorted.acknowledged

theorem run_handleEntries (entries : List Entry) : (handleEntries entries).run (succeed capacity) w =
    (.ok entries.length, (w.revokeBatch capacity (sorted w.handled entries)).ack (sorted w.handled entries).ids) := by
  have hlength : (sorted w.handled entries).ids.length = entries.length :=
    (ids_sorted_perm w.handled entries).length_eq.trans (List.length_map _)
  unfold handleEntries
  rw [Prog.run_bind, run_sortEntries]
  change ((revokeBatch (sorted w.handled entries)) >>= _).run (succeed capacity) w = _
  rw [Prog.run_bind, run_revokeBatch]
  simp only
  split_ifs with hids
  · rw [hids] at hlength ⊢
    rw [← hlength]
    simp [World.ack]
  · rw [← hlength]
    rfl

/-! ### Users -/

def Occurs (before : List Entry) (event : String) : Prop :=
  ∃ other ∈ before, ∃ fields, other.fields = some fields ∧ eventId fields = event

/-- Something holds of an entry with fields and of those before it. -/
def SomeEntry (entries : List Entry) (P : List Entry → Fields → Prop) : Prop :=
  ∃ before entry after fields, entries = before ++ entry :: after ∧ entry.fields = some fields ∧ P before fields

theorem SomeEntry.nil {P : List Entry → Fields → Prop} : ¬ SomeEntry [] P := by
  rintro ⟨before, entry, after, -, hsplit, -⟩
  exact List.append_ne_nil_of_right_ne_nil before (List.cons_ne_nil entry after) hsplit.symm

theorem SomeEntry.concat {entries : List Entry} {last : Entry} {P : List Entry → Fields → Prop} :
    SomeEntry (entries ++ [last]) P ↔
      SomeEntry entries P ∨ ∃ fields, last.fields = some fields ∧ P entries fields := by
  constructor
  · rintro ⟨before, entry, after, fields, hsplit, hfields, hP⟩
    rcases List.eq_nil_or_concat after with rfl | ⟨after, final, rfl⟩
    · obtain ⟨rfl, hlast⟩ := List.append_inj' hsplit rfl
      obtain rfl := List.head_eq_of_cons_eq hlast
      exact .inr ⟨fields, hfields, hP⟩
    · rw [List.concat_eq_append, ← List.cons_append, ← List.append_assoc] at hsplit
      obtain ⟨rfl, -⟩ := List.append_inj' hsplit rfl
      exact .inl ⟨before, entry, after, fields, rfl, hfields, hP⟩
  · rintro (⟨before, entry, after, fields, rfl, hfields, hP⟩ | ⟨fields, hfields, hP⟩)
    · exact ⟨before, entry, after ++ [last], fields, by simp, hfields, hP⟩
    · exact ⟨entries, last, [], fields, rfl, hfields, hP⟩

theorem occurs_concat {entries : List Entry} {last : Entry} {event : String} : Occurs (entries ++ [last]) event ↔
    Occurs entries event ∨ ∃ fields, last.fields = some fields ∧ eventId fields = event := by
  unfold Occurs
  simp only [List.mem_append, List.mem_singleton, or_and_right, exists_or, exists_eq_left]

theorem sorted_concat (handled : Dict String Unit) (entries : List Entry) (last : Entry) :
    sorted handled (entries ++ [last]) = sortEntry handled (sorted handled entries) last := List.foldl_concat ..

theorem mem_seen_take {sorted : Sorted} {id : String} {fields : Fields} {event : String} :
    event ∈ (sorted.take id fields).seen ↔ event ∈ sorted.seen ∨ event ≠ "" ∧ eventId fields = event := by
  unfold Sorted.take
  split_ifs with hempty
  · refine ⟨.inl, fun h => h.resolve_right ?_⟩
    rintro ⟨hne, hevent⟩
    exact hne (hevent.symm.trans hempty)
  · rw [List.mem_append, List.mem_singleton]
    refine or_congr_right ⟨?_, fun h => h.2.symm⟩
    rintro rfl
    exact ⟨hempty, rfl⟩

theorem mem_seen (handled : Dict String Unit) (entries : List Entry) (event : String) :
    event ∈ (sorted handled entries).seen ↔ event ≠ "" ∧ event ∉ handled.keys ∧ Occurs entries event := by
  induction entries using List.reverseRecOn with
  | nil =>
      refine ⟨nofun, ?_⟩
      rintro ⟨-, -, other, hother, -⟩
      exact absurd hother List.not_mem_nil
  | append_singleton entries last ih =>
      rw [sorted_concat, occurs_concat]
      cases hfields : last.fields with
      | none =>
          rw [sortEntry_trimmed handled _ hfields]
          simpa [Sorted.acknowledge] using ih
      | some fields =>
          have hlast : (∃ fields', some fields = some fields' ∧ eventId fields' = event) ↔
            eventId fields = event := by simp
          rw [hlast]
          by_cases htakes : Takes handled (sorted handled entries).seen fields
          · rw [sortEntry_taken hfields htakes, mem_seen_take, ih]
            constructor
            · rintro (⟨hne, hnew, hoccurs⟩ | ⟨hne, rfl⟩)
              · exact ⟨hne, hnew, .inl hoccurs⟩
              · exact ⟨hne, (htakes.resolve_left hne).1, .inr rfl⟩
            · rintro ⟨hne, hnew, hoccurs | hevent⟩
              · exact .inl ⟨hne, hnew, hoccurs⟩
              · exact .inr ⟨hne, hevent⟩
          · rw [sortEntry_duplicate hfields htakes]
            refine ih.trans (and_congr_right fun hne => and_congr_right fun hnew => ⟨.inl, fun h => h.elim id ?_⟩)
            -- An event that is refused and not in the memory has been taken before.
            rintro rfl
            obtain ⟨-, hrefused⟩ := not_or.mp htakes
            exact (ih.mp (by_contra fun hmem => hrefused ⟨hnew, hmem⟩)).2.2

theorem takes_sorted (handled : Dict String Unit) (before : List Entry) (fields : Fields) :
    Takes handled (sorted handled before).seen fields ↔
      eventId fields = "" ∨ eventId fields ∉ handled.keys ∧ ¬ Occurs before (eventId fields) := by
  by_cases hempty : eventId fields = ""
  · exact ⟨fun _ => .inl hempty, fun _ => .inl hempty⟩
  · unfold Takes
    rw [mem_seen]
    refine or_congr_right (and_congr_right fun hnew => not_congr ?_)
    exact ⟨fun h => h.2.2, fun hoccurs => ⟨hempty, hnew, hoccurs⟩⟩

theorem mem_users_sorted (handled : Dict String Unit) (entries : List Entry) (user : String) :
    user ∈ (sorted handled entries).users ↔ SomeEntry entries fun before fields => entityId fields = some user ∧
      (eventId fields = "" ∨ eventId fields ∉ handled.keys ∧ ¬ Occurs before (eventId fields)) := by
  induction entries using List.reverseRecOn with
  | nil => exact ⟨nofun, fun h => absurd h SomeEntry.nil⟩
  | append_singleton entries last ih =>
      rw [sorted_concat, SomeEntry.concat, ← ih]
      cases hfields : last.fields with
      | none =>
          rw [sortEntry_trimmed handled _ hfields]
          simp [Sorted.acknowledge]
      | some fields =>
          simp only [Option.some.injEq, exists_eq_left', ← takes_sorted]
          by_cases htakes : Takes handled (sorted handled entries).seen fields
          · rw [sortEntry_taken hfields htakes]
            simp [Sorted.take, htakes]
          · rw [sortEntry_duplicate hfields htakes]
            simp [Sorted.acknowledge, htakes]

abbrev Kit.afterAll (w : World Unit) (entries : List Entry) : World Unit := entries.foldl (Kit.after capacity) w

theorem Kit.afterAll_concat (entries : List Entry) (last : Entry) :
    Kit.afterAll capacity w (entries ++ [last]) = Kit.after capacity (Kit.afterAll capacity w entries) last :=
  List.foldl_concat ..

theorem Kit.acked_after (entry : Entry) : (Kit.after capacity w entry).acked = w.acked ++ [entry.id] := by
  cases hfields : entry.fields with
  | none =>
      rw [Kit.after_trimmed capacity w hfields]
      exact World.acked_ack w _
  | some fields =>
      by_cases htakes : Kit.Takes w.handled fields
      · rw [Kit.after_taken capacity w hfields htakes]
        simp
      · rw [Kit.after_duplicate capacity w hfields htakes]
        exact World.acked_ack w _

theorem Kit.acked_afterAll (entries : List Entry) :
    (Kit.afterAll capacity w entries).acked = w.acked ++ entries.map (·.id) := by
  induction entries using List.reverseRecOn with
  | nil => rw [List.map_nil, List.append_nil]; rfl
  | append_singleton entries last ih =>
      rw [Kit.afterAll_concat, Kit.acked_after, ih, List.map_append, List.append_assoc]
      rfl

theorem Kit.mem_users_afterAll (entries : List Entry) (user : String) :
    user ∈ (Kit.afterAll capacity w entries).users ↔ user ∈ w.users ∨ SomeEntry entries fun before fields =>
      entityId fields = some user ∧ Kit.Takes (Kit.afterAll capacity w before).handled fields := by
  induction entries using List.reverseRecOn with
  | nil => exact ⟨.inl, fun h => h.resolve_right SomeEntry.nil⟩
  | append_singleton entries last ih =>
      rw [Kit.afterAll_concat, SomeEntry.concat, ← or_assoc, ← ih]
      cases hfields : last.fields with
      | none =>
          rw [Kit.after_trimmed capacity _ hfields]
          simp
      | some fields =>
          simp only [Option.some.injEq, exists_eq_left']
          by_cases htakes : Kit.Takes (Kit.afterAll capacity w entries).handled fields
          · rw [Kit.after_taken capacity _ hfields htakes]
            simp [htakes]
          · rw [Kit.after_duplicate capacity _ hfields htakes]
            simp [htakes]

theorem Kit.handled_afterAll {w : World Unit} (hkeys : w.handled.keys.Nodup) (entries : List Entry) :
    (Kit.afterAll capacity w entries).handled.keys.Nodup ∧
      ∀ event ∈ (Kit.afterAll capacity w entries).handled.keys, event ∈ w.handled.keys ∨ Occurs entries event := by
  induction entries using List.reverseRecOn with
  | nil => exact ⟨hkeys, fun _ => .inl⟩
  | append_singleton entries last ih =>
      obtain ⟨hnodup, hmem⟩ := ih
      have hold : ∀ event ∈ (Kit.afterAll capacity w entries).handled.keys,
          event ∈ w.handled.keys ∨ Occurs (entries ++ [last]) event := fun event hevent =>
        (hmem event hevent).imp_right fun hoccurs => occurs_concat.mpr (.inl hoccurs)
      rw [Kit.afterAll_concat]
      cases hfields : last.fields with
      | none =>
          rw [Kit.after_trimmed capacity _ hfields]
          exact ⟨hnodup, hold⟩
      | some fields =>
          by_cases htakes : Kit.Takes (Kit.afterAll capacity w entries).handled fields
          · rw [Kit.after_taken capacity _ hfields htakes]
            simp only [World.handled_ack, World.handled_rememberEvent, World.handled_revoke]
            split_ifs
            · exact ⟨hnodup, hold⟩
            · refine ⟨nodup_remember capacity hnodup _, fun event hevent => ?_⟩
              rcases mem_remember hnodup hevent with rfl | hevent
              · exact .inr (occurs_concat.mpr (.inr ⟨fields, hfields, rfl⟩))
              · exact hold event hevent
          · rw [Kit.after_duplicate capacity _ hfields htakes]
            exact ⟨hnodup, hold⟩

/-- A user of an entry whose event the memory holds, or an earlier entry has, when the batch comes in, but the
kit has dropped when it gets to it. -/
def Dropped (handled : Dict String Unit) (entries : List Entry) (user : String) : Prop :=
  SomeEntry entries fun before fields => entityId fields = some user ∧ eventId fields ≠ "" ∧
    (eventId fields ∈ handled.keys ∨ Occurs before (eventId fields)) ∧
    eventId fields ∉ ((Kit.handleEntries before 0).run (succeed capacity) (fresh handled)).2.handled.keys

theorem SomeEntry.or {entries : List Entry} {P P' : List Entry → Fields → Prop} :
    SomeEntry entries (fun before fields => P before fields ∨ P' before fields) ↔
      SomeEntry entries P ∨ SomeEntry entries P' := by
  constructor
  · rintro ⟨before, entry, after, fields, hsplit, hfields, hP | hP⟩
    · exact .inl ⟨before, entry, after, fields, hsplit, hfields, hP⟩
    · exact .inr ⟨before, entry, after, fields, hsplit, hfields, hP⟩
  · rintro (⟨before, entry, after, fields, hsplit, hfields, hP⟩ | ⟨before, entry, after, fields, hsplit, hfields, hP⟩)
    · exact ⟨before, entry, after, fields, hsplit, hfields, .inl hP⟩
    · exact ⟨before, entry, after, fields, hsplit, hfields, .inr hP⟩

theorem SomeEntry.congr {entries : List Entry} {P P' : List Entry → Fields → Prop}
    (h : ∀ before fields, P before fields ↔ P' before fields) : SomeEntry entries P ↔ SomeEntry entries P' := by
  unfold SomeEntry
  simp only [h]

theorem users_of_batch (handled : Dict String Unit) (entries : List Entry)
    (hbatch : (sorted handled entries).batch = []) :
    (sorted handled entries).users = [] := by
  induction entries using List.reverseRecOn with
  | nil => rfl
  | append_singleton entries last ih =>
      rw [sorted_concat] at hbatch ⊢
      cases hfields : last.fields with
      | none =>
          rw [sortEntry_trimmed handled _ hfields] at hbatch ⊢
          exact ih hbatch
      | some fields =>
          by_cases htakes : Takes handled (sorted handled entries).seen fields
          · rw [sortEntry_taken hfields htakes] at hbatch
            exact absurd hbatch (List.append_ne_nil_of_right_ne_nil _ (List.cons_ne_nil _ []))
          · rw [sortEntry_duplicate hfields htakes] at hbatch ⊢
            exact ih hbatch

theorem users_handleEntries (handled : Dict String Unit) (entries : List Entry) (user : String) :
    user ∈ ((handleEntries entries).run (succeed capacity) (fresh handled)).2.users ↔
      user ∈ (sorted handled entries).users := by
  rw [run_handleEntries]
  change user ∈ (((fresh handled).revokeBatch capacity (sorted handled entries)).ack _).users ↔ _
  unfold World.revokeBatch
  split_ifs with hbatch
  · rw [users_of_batch handled entries hbatch]
    exact Iff.rfl
  · rw [World.users_ack, users_rememberAll, World.users_revoke]
    exact Iff.rfl

theorem users_iff (handled : Dict String Unit) (hkeys : handled.keys.Nodup) (entries : List Entry)
    (user : String) :
    user ∈ ((Kit.handleEntries entries 0).run (succeed capacity) (fresh handled)).2.users ↔
      user ∈ ((handleEntries entries).run (succeed capacity) (fresh handled)).2.users ∨
        Dropped capacity handled entries user := by
  rw [users_handleEntries, mem_users_sorted, Kit.run_handleEntries, Kit.mem_users_afterAll]
  unfold Dropped
  rw [← SomeEntry.or]
  have hnone : user ∉ (fresh handled).users := nofun
  rw [or_iff_right hnone]
  refine SomeEntry.congr fun before fields => ?_
  rw [Kit.run_handleEntries, ← and_or_left]
  refine and_congr_right fun _ => ?_
  have hmemory := (Kit.handled_afterAll capacity (w := fresh handled) hkeys before).2 (eventId fields)
  unfold Kit.Takes
  constructor
  · rintro (hempty | hnew)
    · exact .inl (.inl hempty)
    · by_cases hempty : eventId fields = ""
      · exact .inl (.inl hempty)
      · by_cases hheld : eventId fields ∈ handled.keys ∨ Occurs before (eventId fields)
        · exact .inr ⟨hempty, hheld, hnew⟩
        · exact .inl (.inr (not_or.mp hheld))
  · rintro ((hempty | ⟨hnew, hfirst⟩) | ⟨-, -, hnew⟩)
    · exact .inl hempty
    · exact .inr fun hmem => (hmemory hmem).elim hnew hfirst
    · exact .inr hnew

/-- **Access changes.** What is acknowledged may be. And where nothing fails, the entries of a batch are all
acknowledged, as they are one at a time, and the users that are revoked are the same, but for those of events
that the kit has dropped from its memory in between. -/
theorem access_changes_kept {T : Type} [DecidableEq T] (batch : T → List Entry)
    {cfg : Config T Command Reply Failure ℕ (World T)} (hrun : (machine T capacity).Reaches (initial batch) cfg) :
    (∀ ack ∈ cfg.state.acks, Justified batch cfg.state ack.1 ack.2) ∧ ∀ entries : List Entry,
      let together := (handleEntries entries).run (succeed capacity) (fresh cfg.state.handled)
      let singly := (Kit.handleEntries entries 0).run (succeed capacity) (fresh cfg.state.handled)
      together.1 = .ok entries.length ∧ singly.1 = .ok entries.length ∧ together.2.acked.Perm singly.2.acked ∧
        ∀ user, user ∈ singly.2.users ↔
          user ∈ together.2.users ∨ Dropped capacity cfg.state.handled entries user := by
  have hsound := sound_of_reaches hrun
  refine ⟨hsound.acks, fun entries => ?_⟩
  refine ⟨?_, ?_, ?_, users_iff capacity cfg.state.handled hsound.nodup entries⟩
  · rw [run_handleEntries]
  · rw [Kit.run_handleEntries, Nat.zero_add]
  · rw [run_handleEntries, Kit.run_handleEntries, Kit.acked_afterAll, World.acked_ack]
    have hacked : ((fresh cfg.state.handled).revokeBatch capacity (sorted cfg.state.handled entries)).acked = [] := by
      unfold World.revokeBatch
      split_ifs
      · rfl
      · rw [acked_rememberAll, World.acked_revoke]
        rfl
    change (World.acked (World.revokeBatch capacity _ (sorted cfg.state.handled entries)) ++ _).Perm _
    rw [hacked]
    exact ids_sorted_perm cfg.state.handled entries

end Runs

/-! ### Events that are dropped -/

theorem step_of_succeed (capacity : ℕ) (c : Command) (w : World Unit) :
    (machine Unit capacity).step () c w (succeed capacity c w).1 (succeed capacity c w).2 := by
  cases c with
  | handled event => exact .handled
  | remember event => exact .remember
  | revokeUsers users => exact .revoked
  | xpendingRange id => exact .pending
  | xack ids => exact .acknowledged

def change (event user : String) : Fields := fun name =>
  if name = "event_id" then some event else if name = "entity_id" then some user else none

@[simp] theorem eventId_change (event user : String) : eventId (change event user) = event := by
  simp [eventId, change]

theorem entityId_change {event user : String} (huser : user ≠ "") : entityId (change event user) = some user := by
  simp [entityId, change, huser]

/-- A change, one that repeats it, and one that is gone. -/
def sample : List Entry := [⟨"1", some (change "a" "u")⟩, ⟨"2", some (change "a" "u")⟩, ⟨"3", none⟩]

theorem access_changes_kept_sample : ∃ cfg : Config Unit Command Reply Failure ℕ (World Unit),
    (machine Unit 10000).Reaches (initial fun _ => sample) cfg ∧
      cfg.state.acks = [((), "2"), ((), "3"), ((), "1")] ∧
    (∀ ack ∈ cfg.state.acks, Justified (fun _ => sample) cfg.state ack.1 ack.2) ∧
    ((Kit.handleEntries sample 0).run (succeed 10000) (fresh cfg.state.handled)).1 = .ok 3 := by
  have hthread : (initial fun _ => sample : Config Unit Command Reply Failure ℕ (World Unit)).threads () =
      some (handleEntries sample) := rfl
  have hreaches := Machine.reaches_of_run (machine Unit 10000) (step_of_succeed 10000) _ hthread
  obtain ⟨hacks, hbatches⟩ := access_changes_kept 10000 (fun _ => sample) hreaches
  refine ⟨_, hreaches, ?_, hacks, (hbatches sample).2.1⟩
  decide

/-- The events of a memory. -/
def names (count : ℕ) : List String := (List.range count).map fun n => String.ofList (List.replicate (n + 1) 'e')

theorem nodup_names (count : ℕ) : (names count).Nodup := by
  refine List.nodup_range.map fun m n heq => ?_
  have hlength := congrArg (fun name : String => name.toList.length) heq
  simpa using hlength

theorem names_succ (count : ℕ) : names (count + 1) = "e" :: (names (count + 1)).tail := by
  unfold names
  rw [List.range_succ_eq_map, List.map_cons]
  rfl

theorem empty_notMem_names (count : ℕ) : "" ∉ names count := by
  intro hmem
  obtain ⟨n, -, hn⟩ := List.mem_map.mp hmem
  have hlength := congrArg (fun name : String => name.toList.length) hn
  simp at hlength

def changes (events : List String) : List Entry := events.map fun event => ⟨event, some (change event "u")⟩

theorem occurs_changes {events : List String} {event : String} : Occurs (changes events) event ↔
    event ∈ events := by
  simp [Occurs, changes]

theorem batch_changes {events : List String} (hevents : events.Nodup) :
    (sorted [] (changes events)).batch = events.map fun event => (event, event) := by
  induction events using List.reverseRecOn with
  | nil => rfl
  | append_singleton events last ih =>
      obtain ⟨hold, -, hlast⟩ := List.nodup_append.mp hevents
      have hnew : last ∉ events := fun hmem => hlast last hmem last (List.mem_singleton_self last) rfl
      have htakes : Takes [] (sorted [] (changes events)).seen (change last "u") := by
        refine (takes_sorted [] _ _).mpr (.inr ⟨List.not_mem_nil, ?_⟩)
        rw [eventId_change, occurs_changes]
        exact hnew
      unfold changes at htakes ih ⊢
      rw [List.map_append, List.map_append, List.map_singleton, List.map_singleton, sorted_concat,
        sortEntry_taken rfl htakes, Sorted.take, eventId_change]
      exact congrArg (· ++ [(last, last)]) (ih hold)

theorem keys_rememberAll {capacity : ℕ} {w : World Unit} {events : List String} (hempty : "" ∉ events)
    (hnodup : (w.handled.keys ++ events).Nodup) (hfit : w.handled.keys.length + events.length ≤ capacity) :
    (w.rememberAll capacity (events.map fun event => (event, event))).handled.keys = w.handled.keys ++ events := by
  induction events generalizing w with
  | nil => exact (List.append_nil _).symm
  | cons event rest ih =>
      have hevent : event ≠ "" := fun h => hempty (h ▸ List.mem_cons_self)
      have hnew : event ∉ w.handled.keys := fun hmem =>
        (List.nodup_append.mp hnodup).2.2 event hmem event List.mem_cons_self rfl
      have hkeys : (w.rememberEvent capacity event).handled.keys = w.handled.keys ++ [event] := by
        have hfilter : w.handled.keys.filter (· ≠ event) = w.handled.keys := by
          rw [List.filter_eq_self]
          exact fun key hkey => decide_eq_true fun h => hnew (h ▸ hkey)
        rw [World.handled_rememberEvent, if_neg hevent,
          keys_remember capacity (List.nodup_append.mp hnodup).1, hfilter,
          Nat.sub_eq_zero_of_le, List.drop_zero]
        rw [List.length_cons] at hfit
        omega
      have hrest := @ih (w.rememberEvent capacity event) (fun h => hempty (List.mem_cons_of_mem _ h))
        (by rw [hkeys, List.append_assoc]; exact hnodup)
        (by rw [hkeys, List.length_append]; rw [List.length_cons] at hfit; simp only [List.length_singleton]; omega)
      rw [hkeys, List.append_assoc] at hrest
      exact hrest

theorem reaches_names (capacity : ℕ) : ∃ cfg : Config Unit Command Reply Failure ℕ (World Unit),
    (machine Unit capacity).Reaches (initial fun _ => changes (names capacity)) cfg ∧
      cfg.state.handled.keys = names capacity := by
  have hthread : (initial fun _ => changes (names capacity) : Config Unit Command Reply Failure ℕ (World Unit)).threads () =
      some (handleEntries (changes (names capacity))) := rfl
  have hreaches := Machine.reaches_of_run (machine Unit capacity) (step_of_succeed capacity) _ hthread
  refine ⟨_, hreaches, ?_⟩
  rw [run_handleEntries]
  change (((fresh []).revokeBatch capacity (sorted [] (changes (names capacity))))).handled.keys = names capacity
  unfold World.revokeBatch
  rw [batch_changes (nodup_names capacity)]
  have hlength : (names capacity).length = capacity := by simp [names]
  split_ifs with hnone
  · rw [List.map_eq_nil_iff.mp hnone]
    rfl
  · refine (keys_rememberAll (empty_notMem_names capacity) ?_ ?_).trans (List.nil_append _)
    · exact nodup_names capacity
    · exact Nat.le_of_eq ((Nat.zero_add _).trans hlength)

theorem dropped_of_full {capacity : ℕ} {handled : Dict String Unit} (hkeys : handled.keys.Nodup)
    (hfull : handled.keys.length = capacity) {first event user : String} {rest : List String}
    (hfirst : handled.keys = first :: rest) (hempty : first ≠ "") (hevent : event ∉ handled.keys) (hne : event ≠ "")
    (huser : user ≠ "") :
    Dropped capacity handled [⟨"1", some (change event "v")⟩, ⟨"2", some (change first user)⟩] user := by
  refine ⟨[_], _, [], change first user, rfl, rfl, entityId_change huser, ?_, .inl ?_, ?_⟩
  · rwa [eventId_change]
  · rw [eventId_change, hfirst]
    exact List.mem_cons_self
  · have htakes : Kit.Takes (fresh handled).handled (change event "v") := by
      refine .inr ?_
      rwa [eventId_change]
    have hfilter : handled.keys.filter (· ≠ event) = handled.keys := by
      rw [List.filter_eq_self]
      exact fun key hkey => decide_eq_true fun h => hevent (h ▸ hkey)
    rw [Kit.run_handleEntries, eventId_change]
    change first ∉ (Kit.after capacity (fresh handled) ⟨"1", some (change event "v")⟩).handled.keys
    rw [Kit.after_taken capacity _ rfl htakes, World.handled_ack, World.handled_rememberEvent,
      World.handled_revoke,
      eventId_change, if_neg hne]
    change first ∉ (remember capacity handled event).keys
    rw [keys_remember capacity hkeys, hfilter, hfull, Nat.add_sub_cancel_left, hfirst, List.cons_append,
      List.drop_one,
      List.tail_cons, List.mem_append, not_or]
    rw [hfirst] at hkeys hevent
    exact ⟨(List.nodup_cons.mp hkeys).1, fun h => hevent (List.mem_singleton.mp h ▸ List.mem_cons_self)⟩

/-- The memory is full. A new event comes in and, after it, the oldest one again: the kit has dropped it by
then and revokes its user, and the batch does not. -/
theorem batches_differ : ∃ cfg : Config Unit Command Reply Failure ℕ (World Unit), ∃ entries : List Entry,
    (machine Unit 10000).Reaches (initial fun _ => changes (names 10000)) cfg ∧
    "u" ∈ ((Kit.handleEntries entries 0).run (succeed 10000) (fresh cfg.state.handled)).2.users ∧
    "u" ∉ ((handleEntries entries).run (succeed 10000) (fresh cfg.state.handled)).2.users := by
  obtain ⟨cfg, hreaches, hkeys⟩ := reaches_names 10000
  have hnodup : cfg.state.handled.keys.Nodup := hkeys ▸ nodup_names 10000
  have hfirst : cfg.state.handled.keys = "e" :: (names 10000).tail := by
    rw [hkeys]
    exact names_succ 9999
  have hnew : "new" ∉ cfg.state.handled.keys := by
    rw [hkeys]
    intro hmem
    obtain ⟨n, -, hn⟩ := List.mem_map.mp hmem
    have hall : ∀ c ∈ "new".toList, c = 'e' := by
      rw [← hn, String.toList_ofList]
      exact fun c hc => List.eq_of_mem_replicate hc
    exact absurd (hall 'n' (by decide)) (by decide)
  refine ⟨cfg, [⟨"1", some (change "new" "v")⟩, ⟨"2", some (change "e" "u")⟩], hreaches, ?_, ?_⟩
  · refine (users_iff 10000 cfg.state.handled hnodup _ "u").mpr (.inr ?_)
    refine dropped_of_full hnodup ?_ hfirst (by decide) hnew (by decide) (by decide)
    rw [hkeys, names, List.length_map, List.length_range]
  · rw [users_handleEntries, mem_users_sorted]
    change ¬ SomeEntry (([] ++ [_]) ++ [_]) _
    rw [SomeEntry.concat, SomeEntry.concat]
    rintro ((hnone | ⟨fields, hfields, huser, -⟩) | ⟨fields, hfields, -, hevent | ⟨hevent, -⟩⟩)
    · exact SomeEntry.nil hnone
    · obtain rfl := Option.some.inj hfields
      rw [entityId_change (by decide)] at huser
      exact absurd (Option.some.inj huser) (by decide)
    · obtain rfl := Option.some.inj hfields
      rw [eventId_change] at hevent
      exact absurd hevent (by decide)
    · obtain rfl := Option.some.inj hfields
      rw [eventId_change, hfirst] at hevent
      exact hevent List.mem_cons_self

end RetailSegmentation.AccessChanges
