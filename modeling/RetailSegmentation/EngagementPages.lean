import RetailSegmentation.EngagementDays
import RetailSegmentation.PagedRows

/-! The pages of engagement events (`services/engagement/app`): the events of a filter by their time alone, newest
first. -/

namespace RetailSegmentation.EngagementPages

open EngagementDays OldestFirst

inductive EventType where
  | qrScan
  | recoClick
  deriving DecidableEq, Repr

/-- An event, as far as lists ask for it. -/
structure Event where
  eventId : String
  type : EventType
  storeId : ℤ
  customerId : Option String
  occurredAt : Utc
  voided : Bool
  deriving DecidableEq

/-- `engagement_event`. -/
structure Collection where
  events : List Event
  ids : (events.map Event.eventId).Nodup

/-- The `query` of `list_events`: what a request leaves out is not asked for. -/
structure Query where
  type : Option EventType := none
  storeId : Option ℤ := none
  customerId : Option String := none
  voided : Option Bool := none
  first : Option Utc := none
  last : Option Utc := none

def Query.holds (query : Query) (event : Event) : Bool :=
  query.type.all (event.type = ·) && query.storeId.all (event.storeId = ·) &&
    query.customerId.all (event.customerId = some ·) && query.voided.all (event.voided = ·) &&
    query.first.all (·.micros ≤ event.occurredAt.micros) && query.last.all (event.occurredAt.micros ≤ ·.micros)

def Collection.matching (collection : Collection) (query : Query) : List Event :=
  collection.events.filter query.holds

/-- What `sort("occurred_at", DESCENDING)` goes by. -/
def newest (event : Event) : ℕᵒᵈ := OrderDual.toDual event.occurredAt.micros

/-- What `EventStore.find` may return: events of one time in any order. -/
def Finds (collection : Collection) (query : Query) (skip limit : ℕ) (found : List Event × ℕ) : Prop :=
  found.2 = (collection.matching query).length ∧ IsPage newest skip limit (collection.matching query) found.1

/-- What `list_events` may answer. -/
def Lists (collection : Collection) (query : Query) (page size : ℕ) (found : List Event × ℕ) : Prop :=
  Finds collection query ((page - 1) * size) size found

/-- However events of one time are ordered for each page, the pages hold every event that matches once, newest
first. -/
def PagesPartition (collection : Collection) (query : Query) (size : ℕ) : Prop :=
  ∀ pages : ℕ → List Event × ℕ, (∀ page ≥ 1, Lists collection query page size (pages page)) →
    ∀ last, (collection.matching query).length ≤ last * size →
      ((List.range last).flatMap fun k => (pages (k + 1)).1).Perm (collection.matching query) ∧
      ((List.range last).flatMap fun k => (pages (k + 1)).1).Pairwise
        fun a b => b.occurredAt.micros ≤ a.occurredAt.micros

/-- The events of every time are on one page: no page ends between the first of them and the last. -/
def OnOnePage (collection : Collection) (query : Query) (size : ℕ) : Prop :=
  ∀ event ∈ collection.matching query, ∀ k,
    ¬ ((collection.matching query).countP (fun other => event.occurredAt.micros < other.occurredAt.micros) < k * size ∧
      k * size < (collection.matching query).countP fun other => event.occurredAt.micros ≤ other.occurredAt.micros)

theorem pages_partition (collection : Collection) (query : Query) {size : ℕ} (hsize : 0 < size) :
    PagesPartition collection query size ↔ OnOnePage collection query size := by
  have hmatching : (collection.matching query).Nodup := (List.Nodup.of_map _ collection.ids).filter _
  have hiff := @forall_pages_iff Event ℕᵒᵈ _ newest _ size hsize hmatching
  constructor
  · intro hall
    refine hiff.mp fun pages hpages m hm => ?_
    have hlists : ∀ page ≥ 1, Lists collection query page size (pages (page - 1),
      (collection.matching query).length) :=
      fun page _ => ⟨rfl, hpages (page - 1)⟩
    exact hall (fun page => (pages (page - 1), (collection.matching query).length)) hlists m hm
  · intro hone pages hpages last hlast
    refine hiff.mpr hone (fun k => (pages (k + 1)).1) (fun k => ?_) last hlast
    exact (hpages (k + 1) (Nat.succ_pos k)).2

def scan (eventId : String) (micros : ℕ) (h : micros < maxMicros) : Event :=
  ⟨eventId, .qrScan, 1, none, ⟨micros, h⟩, false⟩

/-- Two events of one time, which one page of two holds. -/
def together : Collection := ⟨[scan "a" 1000 (by decide), scan "b" 2000 (by decide), scan "c" 2000 (by decide)], by decide⟩

theorem pages_partition_together : PagesPartition together {} 2 := by
  refine (pages_partition together {} (by decide)).mpr fun event hevent k hbetween => ?_
  have hbounds : ∀ event ∈ together.matching {},
      ((together.matching {}).countP fun other => event.occurredAt.micros < other.occurredAt.micros) % 2 = 0 ∧
      ((together.matching {}).countP fun other => event.occurredAt.micros ≤ other.occurredAt.micros) ≤
        ((together.matching {}).countP fun other => event.occurredAt.micros < other.occurredAt.micros) + 2 := by
    decide
  have hevents := hbounds event hevent
  omega

/-- The two events of one time on pages of one: the first of them may be on both. -/
def tied : Collection := ⟨[scan "a" 1000 (by decide), scan "b" 1000 (by decide)], by decide⟩

theorem tied_repeated : ¬ PagesPartition tied {} 1 := by
  set a := scan "a" 1000 (by decide)
  set b := scan "b" 1000 (by decide)
  have hboth : tied.matching {} = [a, b] := by decide
  have hsorted : [a, b].Pairwise (fun a b => newest a ≤ newest b) ∧
    [b, a].Pairwise fun a b => newest a ≤ newest b := by
    decide
  intro hall
  have hpages : ∀ page ≥ 1, Lists tied {} page 1 (if page ≤ 2 then [a] else [], 2) := by
    intro page hpage
    refine ⟨by rw [hboth]; rfl, ?_⟩
    rw [hboth]
    obtain rfl | rfl | hlater : page = 1 ∨ page = 2 ∨ 2 < page := by omega
    · exact ⟨[a, b], .refl _, hsorted.1, rfl⟩
    · exact ⟨[b, a], .swap a b [], hsorted.2, rfl⟩
    · refine ⟨[a, b], .refl _, hsorted.1, ?_⟩
      rw [if_neg (by omega), List.drop_eq_nil_of_le (by simp only [List.length_cons, List.length_nil]; omega)]
      rfl
  obtain ⟨honce, -⟩ := hall _ hpages 2 (by rw [hboth]; exact le_refl 2)
  rw [hboth] at honce
  revert honce
  decide

end RetailSegmentation.EngagementPages
