import Mathlib.Data.List.Chain
import Mathlib.Data.List.Nodup
import Mathlib.Data.Option.Basic
import Mathlib.Order.Basic

/-! Rows that say from when and until when they hold. A batch gives some of the keys a value from an instant on: it
closes the open rows of these keys and opens new ones. The rows of a key are then those of its batches, one after
another: they leave no gap, do not overlap, and the last is open. -/

namespace Temporal

structure Version (K V T : Type) where
  key : K
  value : V
  validFrom : T
  validTo : Option T
  deriving DecidableEq, Repr

structure Batch (K V T : Type) where
  instant : T
  entries : List (K × V)
  deriving DecidableEq, Repr

variable {K V T : Type}

def Batch.keys (batch : Batch K V T) : List K := batch.entries.map Prod.fst

def Batch.opened (batch : Batch K V T) : List (Version K V T) :=
  batch.entries.map fun entry => ⟨entry.1, entry.2, batch.instant, none⟩

def Version.closeAt (at_ : T) (row : Version K V T) : Version K V T :=
  match row.validTo with
  | none => { row with validTo := some at_ }
  | some _ => row

/-- The rows of a key that got each of these values from these instants on. -/
def versions (k : K) : List (T × V) → List (Version K V T)
  | [] => []
  | [(from_, value)] => [⟨k, value, from_, none⟩]
  | (from_, value) :: (to_, next) :: rest => ⟨k, value, from_, some to_⟩ :: versions k ((to_, next) :: rest)

section Rows

variable [DecidableEq K]

def closed (keys : List K) (at_ : T) (rows : List (Version K V T)) : List (Version K V T) :=
  rows.map fun row => if row.key ∈ keys then row.closeAt at_ else row

def record (rows : List (Version K V T)) (batch : Batch K V T) : List (Version K V T) :=
  closed batch.keys batch.instant rows ++ batch.opened

/-- What the batches make of no rows. -/
def timeline (batches : List (Batch K V T)) : List (Version K V T) := batches.foldl record []

def ofKey (k : K) (rows : List (Version K V T)) : List (Version K V T) := rows.filter fun row => row.key = k

def Batch.tells (batch : Batch K V T) (k : K) : Option (T × V) :=
  (batch.entries.find? fun entry => entry.1 = k).map fun entry => (batch.instant, entry.2)

def said (k : K) (batches : List (Batch K V T)) : List (T × V) := batches.filterMap fun batch => batch.tells k

def current (k : K) (rows : List (Version K V T)) : Option V :=
  (rows.find? fun row => row.key = k ∧ row.validTo.isNone).map Version.value

theorem timeline_append (batches : List (Batch K V T)) (batch : Batch K V T) :
    timeline (batches ++ [batch]) = record (timeline batches) batch := by
  unfold timeline
  rw [List.foldl_append]
  rfl

end Rows

/-! ### The rows of one key -/

section Key

variable {k : K}

@[simp] theorem closeAt_key (at_ : T) (row : Version K V T) : (row.closeAt at_).key = row.key := by
  unfold Version.closeAt
  split <;> rfl

theorem versions_append (said : List (T × V)) (at_ : T) (value : V) :
    versions k (said ++ [(at_, value)]) =
      (versions k said).map (Version.closeAt at_) ++ [⟨k, value, at_, none⟩] := by
  induction said with
  | nil => rfl
  | cons first rest ih =>
      cases rest with
      | nil => rfl
      | cons second rest =>
          change (⟨k, first.2, first.1, some second.1⟩ : Version K V T) ::
            versions k (second :: rest ++ [(at_, value)]) = _
          rw [ih]
          rfl

/-- No gap: each row ends where the next begins. -/
theorem versions_chain (said : List (T × V)) :
    (versions k said).IsChain fun row next => row.validTo = some next.validFrom := by
  induction said with
  | nil => exact .nil
  | cons first rest ih =>
      cases rest with
      | nil => exact .singleton _
      | cons second rest =>
          refine List.isChain_cons.mpr ⟨fun next hnext => ?_, ih⟩
          cases rest <;> obtain rfl := Option.some.inj hnext <;> rfl

/-- Only the last row is open. -/
theorem open_versions (said : List (T × V)) : (versions k said).filter (fun row => row.validTo.isNone) =
    (said.getLast?.map fun last => (⟨k, last.2, last.1, none⟩ : Version K V T)).toList := by
  induction said with
  | nil => rfl
  | cons first rest ih =>
      cases rest with
      | nil => rfl
      | cons second rest =>
          change (versions k (second :: rest)).filter _ = _
          rw [ih, List.getLast?_cons_cons]

/-- Rows without gaps do not overlap, where none ends before it begins. -/
theorem apart_of_chain [Preorder T] {rows : List (Version K V T)}
    (hchain : rows.IsChain fun row next => row.validTo = some next.validFrom)
    (hchecked : ∀ row ∈ rows, ∀ until_, row.validTo = some until_ → row.validFrom ≤ until_) :
    rows.Pairwise fun row later => ∃ until_, row.validTo = some until_ ∧ until_ ≤ later.validFrom := by
  induction rows with
  | nil => exact .nil
  | cons row rows ih =>
      have hrest := ih (List.isChain_cons.mp hchain).2 fun row' hrow' => hchecked row' (List.mem_cons_of_mem _ hrow')
      refine List.pairwise_cons.mpr ⟨fun later hlater => ?_, hrest⟩
      cases rows with
      | nil => cases hlater
      | cons next rows =>
          refine ⟨next.validFrom, (List.isChain_cons.mp hchain).1 next rfl, ?_⟩
          obtain rfl | hlater := List.mem_cons.mp hlater
          · exact le_rfl
          · obtain ⟨until_, huntil, hle⟩ := (List.pairwise_cons.mp hrest).1 later hlater
            exact (hchecked next (by simp) until_ huntil).trans hle

end Key

/-! ### A timeline, key by key -/

section Timeline

variable [DecidableEq K] {k : K}

theorem ofKey_closed (keys : List K) (at_ : T) (rows : List (Version K V T)) :
    ofKey k (closed keys at_ rows) = if k ∈ keys then (ofKey k rows).map (Version.closeAt at_) else ofKey k rows := by
  induction rows with
  | nil => split_ifs <;> rfl
  | cons row rows ih =>
      unfold closed ofKey at ih ⊢
      by_cases hrow : row.key = k
      · subst hrow
        split_ifs at ih ⊢ with hmem <;> simp_all
      · have hother : (if row.key ∈ keys then row.closeAt at_ else row).key ≠ k := by
          split_ifs
          · rwa [closeAt_key]
          · exact hrow
        rw [List.map_cons, List.filter_cons_of_neg (by simpa using hother), ih,
          List.filter_cons_of_neg (by simpa using hrow)]

theorem tells_eq_none {batch : Batch K V T} : batch.tells k = none ↔ k ∉ batch.keys := by
  unfold Batch.tells Batch.keys
  rw [Option.map_eq_none_iff, List.find?_eq_none]
  constructor
  · intro hnone hmem
    obtain ⟨entry, hentry, rfl⟩ := List.mem_map.mp hmem
    exact hnone entry hentry (decide_eq_true rfl)
  · rintro hnot entry hentry hkey
    exact hnot (of_decide_eq_true hkey ▸ List.mem_map_of_mem hentry)

theorem ofKey_opened {batch : Batch K V T} (hkeys : batch.keys.Nodup) :
    ofKey k batch.opened =
      ((batch.tells k).map fun said => (⟨k, said.2, said.1, none⟩ : Version K V T)).toList := by
  obtain ⟨instant, entries⟩ := batch
  unfold ofKey Batch.opened Batch.tells
  induction entries with
  | nil => rfl
  | cons entry entries ih =>
      obtain ⟨hnot, hrest⟩ := List.nodup_cons.mp hkeys
      by_cases hentry : entry.1 = k
      · subst hentry
        have hnone : (entries.map fun e => (⟨e.1, e.2, instant, none⟩ : Version K V T)).filter
            (fun row => row.key = entry.1) = [] := by
          rw [List.filter_eq_nil_iff]
          intro row hrow hkey
          obtain ⟨e, he, rfl⟩ := List.mem_map.mp hrow
          exact hnot ((of_decide_eq_true hkey) ▸ List.mem_map_of_mem he)
        rw [List.map_cons, List.filter_cons_of_pos (by simp), hnone]
        simp
      · rw [List.map_cons, List.filter_cons_of_neg (by simpa using hentry)]
        refine (ih hrest).trans ?_
        simp [hentry]

/-- **The rows of a key** are those of what the batches say of it. -/
theorem ofKey_timeline {batches : List (Batch K V T)} (hkeys : ∀ batch ∈ batches, batch.keys.Nodup) :
    ofKey k (timeline batches) = versions k (said k batches) := by
  induction batches using List.reverseRecOn with
  | nil => rfl
  | append_singleton batches batch ih =>
      have hbatches := ih fun b hb => hkeys b (List.mem_append_left _ hb)
      have hbatch := hkeys batch (List.mem_append_right _ (List.mem_singleton_self _))
      have hsplit : ofKey k (record (timeline batches) batch) =
          ofKey k (closed batch.keys batch.instant (timeline batches)) ++ ofKey k batch.opened := List.filter_append ..
      rw [timeline_append, hsplit, ofKey_closed, ofKey_opened hbatch, hbatches]
      unfold said
      rw [List.filterMap_append, List.filterMap_cons, List.filterMap_nil]
      cases htells : batch.tells k with
      | none =>
          rw [if_neg (tells_eq_none.mp htells)]
          simp
      | some value =>
          have hmem : k ∈ batch.keys := by
            by_contra hnot
            rw [tells_eq_none.mpr hnot] at htells
            cases htells
          have hinstant : value.1 = batch.instant := by
            obtain ⟨entry, -, rfl⟩ := Option.map_eq_some_iff.mp htells
            rfl
          rw [if_pos hmem]
          obtain ⟨at_, value⟩ := value
          obtain rfl : at_ = batch.instant := hinstant
          exact (versions_append _ _ _).symm

theorem mem_of_tells {batch : Batch K V T} {said : T × V} (h : batch.tells k = some said) :
    said.1 = batch.instant ∧ (k, said.2) ∈ batch.entries := by
  obtain ⟨entry, hfind, rfl⟩ := Option.map_eq_some_iff.mp h
  have hfound := List.find?_some hfind
  have hkey : entry.1 = k := of_decide_eq_true hfound
  exact ⟨rfl, hkey ▸ List.mem_of_find?_eq_some hfind⟩

theorem tells_of_mem {batch : Batch K V T} (hkeys : batch.keys.Nodup) {value : V} (h : (k, value) ∈ batch.entries) :
    batch.tells k = some (batch.instant, value) := by
  cases htells : batch.tells k with
  | none => exact absurd (List.mem_map_of_mem (f := Prod.fst) h) (tells_eq_none.mp htells)
  | some said =>
      obtain ⟨hinstant, hmem⟩ := mem_of_tells htells
      have hvalue : (k, said.2) = (k, value) := List.inj_on_of_nodup_map hkeys hmem h rfl
      exact congrArg some (Prod.ext hinstant (Prod.mk.inj hvalue).2)

/-- What is said last of a key is said by the last batch that has it. -/
theorem last_said {batches : List (Batch K V T)} {last : T × V} (h : (said k batches).getLast? = some last) :
    ∃ earlier batch later, batches = earlier ++ batch :: later ∧ batch.tells k = some last ∧
      ∀ other ∈ later, k ∉ other.keys := by
  induction batches using List.reverseRecOn with
  | nil => cases h
  | append_singleton batches batch ih =>
      have hsplit : said k (batches ++ [batch]) = said k batches ++ (batch.tells k).toList := by
        unfold said
        rw [List.filterMap_append, List.filterMap_cons, List.filterMap_nil]
        cases batch.tells k <;> rfl
      rw [hsplit] at h
      cases htells : batch.tells k with
      | some said =>
          rw [htells] at h
          exact ⟨batches, batch, [], rfl, htells.trans (by simpa using h), by simp⟩
      | none =>
          rw [htells] at h
          rw [Option.toList_none, List.append_nil] at h
          obtain ⟨earlier, found, later, rfl, hfound, hlater⟩ := ih h
          refine ⟨earlier, found, later ++ [batch], by simp, hfound, fun other hother => ?_⟩
          obtain hother | hother := List.mem_append.mp hother
          · exact hlater other hother
          · exact List.mem_singleton.mp hother ▸ tells_eq_none.mp htells

/-- Closing a row changes neither its key nor its value nor when it began. -/
def Version.entry (row : Version K V T) : K × V := (row.key, row.value)

theorem entries_closed (keys : List K) (at_ : T) (rows : List (Version K V T)) :
    (closed keys at_ rows).map Version.entry = rows.map Version.entry := by
  unfold closed
  rw [List.map_map]
  refine List.map_congr_left fun row _ => ?_
  simp only [Function.comp_apply]
  split_ifs
  · unfold Version.closeAt
    split <;> rfl
  · rfl

/-- Every entry of every batch is a row, once. -/
theorem entries_timeline (batches : List (Batch K V T)) :
    (timeline batches).map Version.entry = batches.flatMap Batch.entries := by
  induction batches using List.reverseRecOn with
  | nil => rfl
  | append_singleton batches batch ih =>
      have hopened : batch.opened.map Version.entry = batch.entries := by
        unfold Batch.opened
        rw [List.map_map]
        exact List.map_id' _
      rw [timeline_append, List.flatMap_append, List.flatMap_singleton, ← ih]
      unfold record
      rw [List.map_append, entries_closed, hopened]

/-- The value of a key now is what was said of it last. -/
theorem current_timeline {batches : List (Batch K V T)} (hkeys : ∀ batch ∈ batches, batch.keys.Nodup) :
    current k (timeline batches) = (said k batches).getLast?.map Prod.snd := by
  have hfind : (timeline batches).find? (fun row => row.key = k ∧ row.validTo.isNone) =
      ((ofKey k (timeline batches)).filter fun row => row.validTo.isNone).head? := by
    unfold ofKey
    rw [List.filter_filter, List.head?_filter]
    congr 1
    funext row
    cases row.validTo <;> simp
  unfold current
  rw [hfind, ofKey_timeline hkeys, open_versions]
  cases (said k batches).getLast? <;> rfl

end Timeline

end Temporal
