import Mathlib.Data.Prod.Lex
import Mathlib.Order.Fin.Basic
import RetailSegmentation.FirstBest
import RetailSegmentation.XmlRendering

/-! The two readers of `Accept`: the kit's (`kit.rs`), which negotiates the format of an answer, and the segments
service's own (`services/segments/src/lib.rs`), which names the segments of the list for it. -/

namespace RetailSegmentation.AcceptHeaders

/-! ### Texts -/

/-- The pieces between the separators. -/
def split (separator : Char) : List Char → List (List Char)
  | [] => [[]]
  | c :: rest =>
    if c = separator then [] :: split separator rest
    else match split separator rest with
      | [] => [[c]]
      | piece :: pieces => (c :: piece) :: pieces

def splitOnce (separator : Char) : List Char → Option (List Char × List Char)
  | [] => none
  | c :: rest =>
    if c = separator then some ([], rest) else (splitOnce separator rest).map fun halves =>
      (c :: halves.1, halves.2)

/-- White space of a header's text. -/
def isBlank (c : Char) : Bool := c = ' ' || c = '\t'

def trim (text : List Char) : List Char := ((text.dropWhile isBlank).reverse.dropWhile isBlank).reverse

def lowercase (text : List Char) : List Char := text.map Char.toLower

/-! ### Numbers -/

/-- The doubles but NaN, in their order (the two zeros are one), and how Rust reads a double; NaN is `none`. -/
structure Doubles (D : Type*) [LinearOrder D] where
  parse : List Char → Option (Option D)
  minusOne : D
  zero : D
  one : D
  minusOne_lt : minusOne < zero
  zero_lt : zero < one

/-- A double. -/
abbrev F64 (D : Type*) := Option D

namespace F64

variable {D : Type*} [LinearOrder D]

/-- No order holds of NaN. -/
def lt : F64 D → F64 D → Bool
  | some a, some b => a < b
  | _, _ => false

def le : F64 D → F64 D → Bool
  | some a, some b => a ≤ b
  | _, _ => false

def clamp (low high : D) : F64 D → F64 D := Option.map fun a => if a < low then low else if high < a then high else a

end F64

inductive Format where
  | json
  | xml
  deriving DecidableEq, Repr

def Format.subtype : Format → List Char
  | .json => "json".toList
  | .xml => "xml".toList

section Readers

variable {D : Type*} [LinearOrder D] (doubles : Doubles D)

/-! ### The kit -/

namespace Kit

structure AcceptItem (D : Type*) where
  kind : List Char
  subtype : List Char
  quality : F64 D
  deriving DecidableEq

/-- Tuples compare by the first, then the second. -/
def AcceptItem.specificity (item : AcceptItem D) : Bool ×ₗ Bool := toLex (item.kind ≠ ['*'], item.subtype ≠ ['*'])

/-- A media type is `application` and one of the formats. -/
def AcceptItem.matches (item : AcceptItem D) (media : Format) : Bool :=
  (item.kind = ['*'] ∧ item.subtype = ['*']) ∨
    (item.kind = "application".toList ∧ (item.subtype = ['*'] ∨ item.subtype = media.subtype))

/-- The loop over the parameters of a member; a `q` that is no number drops the member. -/
def qualityOf (quality : F64 D) : List (List Char) → Option (F64 D)
  | [] => some quality
  | parameter :: rest => match splitOnce '=' parameter with
    | none => qualityOf quality rest
    | some (name, value) =>
      if lowercase (trim name) = ['q'] then
        (doubles.parse (trim value)).bind fun q => qualityOf (F64.clamp doubles.zero doubles.one q) rest
      else qualityOf quality rest

def acceptItem (member : List Char) : Option (AcceptItem D) :=
  match split ';' member with
  | [] => none
  | first :: parameters =>
    let range := lowercase (trim first)
    if range = [] then none
    else (qualityOf doubles (some doubles.one) parameters).bind fun quality =>
      if range = ['*'] then some ⟨['*'], ['*'], quality⟩
      else (splitOnce '/' range).map fun halves => ⟨trim halves.1, trim halves.2, quality⟩

def acceptItems (accept : List Char) : List (AcceptItem D) := (split ',' accept).filterMap (acceptItem doubles)

/-- What `sort_by` puts first: the more specific item, then the one of higher quality. -/
def before (left right : AcceptItem D) : Bool :=
  right.specificity < left.specificity ∨ right.specificity = left.specificity ∧ right.quality.le left.quality

/-- What `sort_by` may leave: with a NaN the items are not in order, and then any order is. -/
structure Sorted (items sorted : List (AcceptItem D)) : Prop where
  perm : sorted.Perm items
  stable : (∀ item ∈ items, item.quality ≠ none) → sorted = items.mergeSort before

structure Best (D : Type*) where
  result : Option Format
  quality : F64 D
  specificity : Bool ×ₗ Bool

def Best.start : Best D := ⟨none, some doubles.minusOne, toLex (false, false)⟩

/-- One turn of the loop of `best_match`; `has_best` is that there is a result. -/
def consider (media : Format) (best : Best D) (item : AcceptItem D) : Best D :=
  if item.quality.le (some doubles.zero) ∨ item.quality.lt best.quality then best
  else if item.matches media ∧
      (best.quality.lt item.quality ∨ best.result = none ∨ best.specificity < item.specificity) then
    ⟨some media, item.quality, item.specificity⟩
  else best

def best (items : List (AcceptItem D)) : Best D :=
  items.foldl (consider doubles .xml) (items.foldl (consider doubles .json) (.start doubles))

/-- `best_match` of the sorted items. -/
def bestMatch (items : List (AcceptItem D)) : Option (Format × F64 D) :=
  (best doubles items).result.map fun format =>
    (format, ((items.find? (·.matches format)).map (·.quality)).getD (some doubles.zero))

end Kit

/-- `to_str` of a header's value, by its bytes. -/
def toStr (value : List Char) : Option (List Char) :=
  if value.all (fun c => c = '\t' || ' ' ≤ c && c ≤ '~') then some value else none

def Kit.acceptHeader (header : Option (List Char)) : Option (List Char) :=
  header.bind fun value =>
    let accept := (toStr value).getD []
    if accept ≠ [] ∧ trim accept ≠ "*/*".toList then some accept else none

/-- The formats that `negotiate` may give. -/
def Kit.Negotiates (header : Option (List Char)) (format : Format) : Prop :=
  match Kit.acceptHeader header with
  | none => format = .json
  | some accept => ∃ sorted quality, Kit.Sorted (Kit.acceptItems doubles accept) sorted ∧
    Kit.bestMatch doubles sorted = some (format, quality) ∧ (F64.lt (some doubles.zero) quality)

/-! ### The service -/

/-- What `capture_request` keeps. -/
def accepted (header : Option (List Char)) : List Char := (header.bind toStr).getD []

/-- The `f64` of a pair, then its `i8`. -/
def pairLt (a b : F64 D × ℤ) : Bool := a.1.lt b.1 || (a.1 = b.1 && a.1 ≠ none && a.2 < b.2)

def specificity (media : List Char) : Option ℤ :=
  if media = "*/*".toList then some 0
  else if media = "application/*".toList then some 1
  else if media = "application/json".toList ∨ media = "application/xml".toList then some 2
  else none

/-- The first `q` that is a number. -/
def ownQuality (parameters : List (List Char)) : F64 D :=
  ((parameters.filterMap fun parameter => "q=".toList.isPrefixOf? (trim parameter)).findSome? fun value =>
    doubles.parse (trim value)).getD (some doubles.one)

/-- The turn of a member for one of the two formats. -/
def consider (name : Format) (media : List Char) (quality : F64 D) (specificity : ℤ) (target : F64 D × ℤ) :
    F64 D × ℤ :=
  if (media = "application/".toList ++ name.subtype ∨ specificity < 2) ∧ (F64.lt (some doubles.zero) quality) ∧
      pairLt target (quality, specificity) then
    (quality, specificity)
  else target

/-- One turn of the loop of `prefers_xml`, over what is kept for JSON and for XML. -/
def considerBoth (targets : (F64 D × ℤ) × (F64 D × ℤ)) (member : List Char) : (F64 D × ℤ) × (F64 D × ℤ) :=
  let parts := split ';' member
  let media := lowercase (trim (parts.headD []))
  match specificity media with
  | none => targets
  | some specificity =>
    let quality := ownQuality doubles parts.tail
    (consider doubles .json media quality specificity targets.1,
      consider doubles .xml media quality specificity targets.2)

def prefersXml (accept : List Char) : Bool :=
  let start : F64 D × ℤ := (some doubles.zero, -1)
  let targets := (split ',' accept).foldl (considerBoth doubles) (start, start)
  (F64.lt (some doubles.zero) targets.2.1) && pairLt targets.1 targets.2

end Readers

/-! ### The list -/

structure SegmentList where
  runId : ℤ
  runAt : Rendering.Scalar
  unassignedCount : ℤ
  segments : Rendering.Items

/-- The members of `list_reply`. -/
def listReply (list : SegmentList) (xml : Bool) : List (String × Rendering.Value) :=
  [("run_id", .scalar (.int list.runId)), ("run_at", .scalar list.runAt),
    ("unassigned_count", .scalar (.int list.unassignedCount)),
    (if xml then "Segment" else "segments", .list list.segments)]

/-! ### Votes -/

/-- The media ranges that a format is in. -/
inductive Range where
  | all
  | application
  | json
  | xml
  deriving DecidableEq, Repr

def Range.matches : Range → Format → Bool
  | .all, _ => true
  | .application, _ => true
  | .json, media => media = .json
  | .xml, media => media = .xml

theorem zero_lt_ranks : 0 < 3 := by decide

theorem one_lt_ranks : 1 < 3 := by decide

theorem two_lt_ranks : 2 < 3 := by decide

def Range.rank : Range → Fin 3
  | .all => ⟨0, zero_lt_ranks⟩
  | .application => ⟨1, one_lt_ranks⟩
  | .json => ⟨2, two_lt_ranks⟩
  | .xml => ⟨2, two_lt_ranks⟩

section Votes

variable {D : Type*} [LinearOrder D] {doubles : Doubles D}

/-- A vote's place among those for a format: by quality, then by how specific it is. -/
def rankFor (media : Format) (vote : Range × F64 D) : Option (D ×ₗ Fin 3) :=
  if vote.1.matches media then vote.2.map fun quality => toLex (quality, vote.1.rank) else none

def ranks (media : Format) (votes : List (Range × F64 D)) : List (D ×ₗ Fin 3) := votes.filterMap (rankFor media)

namespace Kit

def AcceptItem.range? (item : AcceptItem D) : Option Range :=
  if item.kind = ['*'] ∧ item.subtype = ['*'] then some .all
  else if item.kind = "application".toList then
    if item.subtype = ['*'] then some .application
    else if item.subtype = Format.json.subtype then some .json
    else if item.subtype = Format.xml.subtype then some .xml
    else none
  else none

variable (doubles) in
def AcceptItem.vote (item : AcceptItem D) : Option (Range × F64 D) :=
  if item.quality.le (some doubles.zero) then none else item.range?.map fun range => (range, item.quality)

variable (doubles) in
/-- What a member says of the formats as the kit reads it. -/
def vote (member : List Char) : Option (Range × F64 D) := (acceptItem doubles member).bind (·.vote doubles)

end Kit

def ownRange (media : List Char) : Option Range :=
  if media = "*/*".toList then some .all
  else if media = "application/*".toList then some .application
  else if media = "application/json".toList then some .json
  else if media = "application/xml".toList then some .xml
  else none

variable (doubles) in
/-- What a member says of the formats as the service reads it. -/
def ownVote (member : List Char) : Option (Range × F64 D) :=
  let parts := split ';' member
  let quality := ownQuality doubles parts.tail
  if F64.lt (some doubles.zero) quality then
    (ownRange (lowercase (trim (parts.headD [])))).map fun range => (range, quality)
  else none

/-! ### The kit's choice -/

namespace Kit

omit [LinearOrder D] in
theorem AcceptItem.matches_iff (item : AcceptItem D) (media : Format) :
    item.matches media = true ↔ ∃ range ∈ item.range?, range.matches media = true := by
  have hname : "application".toList ≠ ['*'] := by decide
  have hjson : Format.json.subtype ≠ ['*'] := by decide
  have hxml : Format.xml.subtype ≠ ['*'] := by decide
  have hformats : Format.xml.subtype ≠ Format.json.subtype := by decide
  unfold AcceptItem.matches AcceptItem.range?
  split_ifs with hall hkind hsub hsub hsub
  · simp [hall, Range.matches]
  · simp [hkind, hsub, Range.matches]
  · cases media <;> simp [hkind, hsub, Range.matches, hjson, hformats.symm]
  · cases media <;> simp [hkind, hsub, Range.matches, hxml, hformats]
  · cases media <;> simp [*]
  · refine iff_of_false ?_ (by simp)
    rw [decide_eq_true_eq]
    rintro (h | h)
    · exact hall h
    · exact hkind h.1

def specificityOf (rank : Fin 3) : Bool ×ₗ Bool := toLex (decide (0 < rank.val), decide (1 < rank.val))

theorem specificityOf_lt : ∀ m n : Fin 3, specificityOf m < specificityOf n ↔ m < n := by decide

omit [LinearOrder D] in
theorem AcceptItem.specificity_eq {item : AcceptItem D} {range : Range} (hrange : range ∈ item.range?) :
    item.specificity = specificityOf range.rank := by
  have hname : "application".toList ≠ ['*'] := by decide
  have hjson : Format.json.subtype ≠ ['*'] := by decide
  have hxml : Format.xml.subtype ≠ ['*'] := by decide
  unfold AcceptItem.range? at hrange
  split_ifs at hrange with hall hkind hsub hsub hsub <;> cases hrange
  · simp [AcceptItem.specificity, hall, Range.rank, specificityOf]
  · simp [AcceptItem.specificity, hkind, hsub, Range.rank, specificityOf]
  · simp [AcceptItem.specificity, hkind, hsub, hjson, Range.rank, specificityOf]
  · simp [AcceptItem.specificity, hkind, hsub, hxml, Range.rank, specificityOf]

/-- What the loop keeps of the best offer so far. -/
def Best.of (doubles : Doubles D) : Option (Format × (D ×ₗ Fin 3)) → Best D
  | none => .start doubles
  | some (format, rank) => ⟨some format, some (ofLex rank).1, specificityOf (ofLex rank).2⟩

def AcceptItem.offer (doubles : Doubles D) (media : Format) (item : AcceptItem D) : Option (D ×ₗ Fin 3) :=
  (item.vote doubles).bind (rankFor media)

def AcceptItem.IsNumber (doubles : Doubles D) (item : AcceptItem D) : Prop := ∀ vote ∈ item.vote doubles,
    vote.2 ≠ none

theorem AcceptItem.offer_eq {item : AcceptItem D} {media : Format} {range : Range} {quality : D}
    (hrange : range ∈ item.range?) (hmatches : range.matches media = true) (hquality : item.quality = some quality)
    (hpos : doubles.zero < quality) : item.offer doubles media = some (toLex (quality, range.rank)) := by
  rw [Option.mem_def] at hrange
  simp [AcceptItem.offer, AcceptItem.vote, hrange, hquality, F64.le, hpos.not_ge, rankFor, hmatches]

theorem AcceptItem.offer_eq_none {item : AcceptItem D} {media : Format}
    (h : item.quality.le (some doubles.zero) = true ∨ item.matches media = false) :
      item.offer doubles media = none := by
  rcases h with hle | hmatches
  · simp [AcceptItem.offer, AcceptItem.vote, hle]
  · rw [AcceptItem.offer, AcceptItem.vote]
    split_ifs with hle
    · rfl
    · cases hrange : item.range? with
      | none => rfl
      | some range =>
        have hrange' : range.matches media = false := by
          rw [← Bool.not_eq_true] at hmatches ⊢
          exact fun h => hmatches ((item.matches_iff media).mpr ⟨range, hrange, h⟩)
        simp [rankFor, hrange']

theorem consider_of_none {item : AcceptItem D} {media : Format} (best : Best D)
    (h : item.quality.le (some doubles.zero) = true ∨ item.matches media = false) :
    consider doubles media best item = best := by
  rw [consider]
  split_ifs with hskip hbetter
  · rfl
  · rcases h with hle | hmatches
    · exact absurd (.inl hle) hskip
    · rw [hbetter.1] at hmatches
      cases hmatches
  · rfl

theorem consider_of_some {item : AcceptItem D} {media : Format} {range : Range} {quality : D}
    (best : Option (Format × (D ×ₗ Fin 3))) (hrange : range ∈ item.range?) (hmatches : item.matches media = true)
    (hquality : item.quality = some quality) (hpos : doubles.zero < quality) :
    consider doubles media (.of doubles best) item =
      .of doubles (FirstBest.improve media best (toLex (quality, range.rank))) := by
  have hspecificity := AcceptItem.specificity_eq hrange
  have hnew : (⟨some media, item.quality, item.specificity⟩ : Best D) =
      .of doubles (some (media, toLex (quality, range.rank))) := by
    rw [hquality, hspecificity]
    rfl
  cases best with
  | none =>
    rw [FirstBest.improve, if_pos (by simp), ← hnew, consider, if_neg, if_pos]
    · exact ⟨hmatches, .inr (.inl rfl)⟩
    · simp [hquality, F64.le, F64.lt, Best.of, Best.start, hpos.not_ge, (doubles.minusOne_lt.trans hpos).not_gt]
  | some offer =>
    obtain ⟨format, rank⟩ := offer
    have hlt : rank < toLex (quality, range.rank) ↔
        (ofLex rank).1 < quality ∨ (ofLex rank).1 = quality ∧ (ofLex rank).2 < range.rank := Prod.Lex.lt_iff
    by_cases hbetter : rank < toLex (quality, range.rank)
    · rw [FirstBest.improve, if_pos (by simpa using hbetter), ← hnew, consider, if_neg, if_pos]
      · refine ⟨hmatches, ?_⟩
        rcases hlt.mp hbetter with hq | ⟨-, hrank⟩
        · exact .inl (by simpa [hquality, F64.lt, Best.of] using hq)
        · exact .inr (.inr (by rw [hspecificity]; exact (specificityOf_lt _ _).mpr hrank))
      · have hle : (ofLex rank).1 ≤ quality := by
          rcases hlt.mp hbetter with hq | ⟨heq, -⟩
          · exact hq.le
          · exact heq.le
        simp [hquality, F64.le, F64.lt, Best.of, hpos.not_ge, hle.not_gt]
    · rw [FirstBest.improve, if_neg (by simpa using hbetter), consider]
      split_ifs with hskip hmore
      · rfl
      · exfalso
        have hge : (ofLex rank).1 ≤ quality := by
          by_contra hlow
          exact hskip (.inr (by simpa [hquality, F64.lt, Best.of] using hlow))
        rcases hmore.2 with hq | hnone | hspecific
        · exact hbetter (hlt.mpr (.inl (by simpa [hquality, F64.lt, Best.of] using hq)))
        · cases hnone
        · rw [hspecificity] at hspecific
          have hrank := (specificityOf_lt _ _).mp hspecific
          rcases hge.lt_or_eq with hq | heq
          · exact hbetter (hlt.mpr (.inl hq))
          · exact hbetter (hlt.mpr (.inr ⟨heq, hrank⟩))
      · rfl

theorem consider_of (best : Option (Format × (D ×ₗ Fin 3))) {item : AcceptItem D} (media : Format)
    (hnumber : item.IsNumber doubles) :
    consider doubles media (.of doubles best) item =
      .of doubles ((item.offer doubles media).elim best (FirstBest.improve media best)) := by
  by_cases hskip : item.quality.le (some doubles.zero) = true ∨ item.matches media = false
  · rw [consider_of_none _ hskip, AcceptItem.offer_eq_none hskip]
    rfl
  · simp only [not_or, Bool.not_eq_true, Bool.not_eq_false] at hskip
    obtain ⟨hpos, hmatches⟩ := hskip
    obtain ⟨range, hrange, hrangeMatches⟩ := (item.matches_iff media).mp hmatches
    have hvote : (range, item.quality) ∈ item.vote doubles := by
      rw [Option.mem_def] at hrange ⊢
      simp [AcceptItem.vote, hpos, hrange]
    obtain ⟨quality, hquality⟩ : ∃ quality, item.quality = some quality :=
      Option.ne_none_iff_exists'.mp (hnumber _ hvote)
    rw [hquality] at hpos
    have hpos' : doubles.zero < quality := by simpa [F64.le] using hpos
    rw [consider_of_some best hrange hmatches hquality hpos',
      AcceptItem.offer_eq hrange hrangeMatches hquality hpos']
    rfl

theorem foldl_consider_of (media : Format) : ∀ (items : List (AcceptItem D))
    (best : Option (Format × (D ×ₗ Fin 3))),
    (∀ item ∈ items, item.IsNumber doubles) →
      items.foldl (consider doubles media) (.of doubles best) =
        .of doubles (FirstBest.offerAll media best (items.filterMap (·.offer doubles media)))
  | [], best, _ => rfl
  | item :: rest, best, hnumbers => by
    rw [List.foldl_cons, consider_of best media (hnumbers item List.mem_cons_self),
      foldl_consider_of media rest _ fun item hitem => hnumbers item (List.mem_cons_of_mem _ hitem)]
    cases hoffer : item.offer doubles media with
    | none => rw [List.filterMap_cons_none hoffer]; rfl
    | some rank => rw [List.filterMap_cons_some hoffer]; rfl

theorem best_of {items : List (AcceptItem D)} (hnumbers : ∀ item ∈ items, item.IsNumber doubles) :
    best doubles items = .of doubles (FirstBest.offerAll .xml
      (FirstBest.offerAll .json none (items.filterMap (·.offer doubles .json)))
      (items.filterMap (·.offer doubles .xml))) := by
  have hjson := foldl_consider_of .json items none hnumbers
  have hxml := foldl_consider_of .xml items
    (FirstBest.offerAll .json none (items.filterMap (·.offer doubles .json))) hnumbers
  rw [best, show Best.start doubles = .of doubles none from rfl, hjson, hxml]

theorem Best.result_of (best : Option (Format × (D ×ₗ Fin 3))) :
    (Best.of doubles best).result = best.map (·.1) := by
  cases best with
  | none => rfl
  | some offer => rfl

theorem best_result_xml {items : List (AcceptItem D)} (hnumbers : ∀ item ∈ items, item.IsNumber doubles) :
    (best doubles items).result = some .xml ↔
      FirstBest.Outranks (items.filterMap (·.offer doubles .json)) (items.filterMap (·.offer doubles .xml)) := by
  rw [best_of hnumbers, Best.result_of, ← FirstBest.offerAll_offerAll_key (show Format.json ≠ .xml by decide)]
  constructor
  · intro h
    obtain ⟨offer, hoffer, hformat⟩ := Option.map_eq_some_iff.mp h
    exact ⟨offer.2, by rw [hoffer, ← hformat]⟩
  · rintro ⟨rank, hrank⟩
    rw [hrank]
    rfl

/-- The votes of a text's members. -/
def votes (doubles : Doubles D) (accept : List Char) : List (Range × F64 D) :=
  (split ',' accept).filterMap (vote doubles)

theorem offers_eq_ranks (accept : List Char) (media : Format) :
    (acceptItems doubles accept).filterMap (·.offer doubles media) = ranks media (votes doubles accept) := by
  simp only [acceptItems, ranks, votes, List.filterMap_filterMap, vote, AcceptItem.offer, Option.bind_assoc]

theorem mem_votes {accept : List Char} {item : AcceptItem D} (hitem : item ∈ acceptItems doubles accept)
    {vote : Range × F64 D} (hvote : vote ∈ item.vote doubles) : vote ∈ votes doubles accept := by
  obtain ⟨member, hmember, heq⟩ := List.mem_filterMap.mp hitem
  exact List.mem_filterMap.mpr ⟨member, hmember, by rw [Kit.vote, heq]; exact hvote⟩

theorem negotiates_xml_iff {header : Option (List Char)} {accept : List Char}
    (haccept : acceptHeader header = some accept)
    (hnumbers : ∀ vote ∈ votes doubles accept, vote.2 ≠ none) {format : Format} (h : Negotiates doubles header format) :
    format = .xml ↔ FirstBest.Outranks (ranks .json (votes doubles accept)) (ranks .xml (votes doubles accept)) := by
  simp only [Negotiates, haccept] at h
  obtain ⟨sorted, quality, hsorted, hmatch, -⟩ := h
  have hresult : (best doubles sorted).result = some format := by
    obtain ⟨result, hresult, heq⟩ := Option.map_eq_some_iff.mp hmatch
    rw [hresult, (Prod.mk.inj heq).1]
  have hsortedNumbers : ∀ item ∈ sorted, item.IsNumber doubles := fun item hitem vote hvote =>
    hnumbers vote (mem_votes (hsorted.perm.mem_iff.mp hitem) hvote)
  have hranks : ∀ media rank, rank ∈ sorted.filterMap (·.offer doubles media) ↔
    rank ∈ ranks media (votes doubles accept) := by
    intro media rank
    rw [← offers_eq_ranks]
    exact (hsorted.perm.filterMap _).mem_iff
  rw [← FirstBest.Outranks.congr (hranks .json) (hranks .xml), ← best_result_xml hsortedNumbers, hresult,
    Option.some_inj]

end Kit

/-! ### The service's choice -/

/-- The votes of a text's members, as the service reads them. -/
def ownVotes (doubles : Doubles D) (accept : List Char) : List (Range × F64 D) :=
  (split ',' accept).filterMap (ownVote doubles)

/-- What is kept for a format. -/
def targetOf (doubles : Doubles D) : Option (Unit × (D ×ₗ Fin 3)) → F64 D × ℤ
  | none => (some doubles.zero, -1)
  | some (_, rank) => (some (ofLex rank).1, ((ofLex rank).2 : ℕ))

theorem specificity_eq (media : List Char) : specificity media = (ownRange media).map fun range =>
    ((range.rank : ℕ) : ℤ) := by
  unfold specificity ownRange
  split_ifs <;> simp_all [Range.rank]

theorem ownRange_matches {media : List Char} {range : Range} (hrange : ownRange media = some range)
    (name : Format) :
    (media = "application/".toList ++ name.subtype ∨ ((range.rank : ℕ) : ℤ) < 2) ↔ range.matches name = true := by
  unfold ownRange at hrange
  split_ifs at hrange with h h h h <;> cases hrange <;> cases name <;>
    simp [h, Range.rank, Range.matches, Format.subtype]

theorem pairLt_targetOf (best : Option (Unit × (D ×ₗ Fin 3))) {rank : D ×ₗ Fin 3}
    (hpos : doubles.zero < (ofLex rank).1) :
    pairLt (targetOf doubles best) (some (ofLex rank).1, ((ofLex rank).2 : ℕ)) = true ↔
      ∀ offer ∈ best, offer.2 < rank := by
  cases best with
  | none => simp [pairLt, targetOf, F64.lt, hpos]
  | some offer =>
    have hlt : offer.2 < rank ↔ (ofLex offer.2).1 < (ofLex rank).1 ∨
        (ofLex offer.2).1 = (ofLex rank).1 ∧ (ofLex offer.2).2 < (ofLex rank).2 := Prod.Lex.lt_iff
    simp [pairLt, targetOf, F64.lt, hlt]

theorem ownQuality_pos {vote : Range × F64 D} {member : List Char} (h : ownVote doubles member = some vote) :
    ∃ quality, vote.2 = some quality ∧ doubles.zero < quality := by
  simp only [ownVote] at h
  split_ifs at h with hpos
  obtain ⟨range, -, rfl⟩ := Option.map_eq_some_iff.mp h
  cases hquality : ownQuality doubles (split ';' member).tail with
  | none => rw [hquality] at hpos; cases hpos
  | some quality => exact ⟨quality, rfl, by simpa [hquality, F64.lt] using hpos⟩

theorem consider_targetOf (name : Format) {media : List Char} {range : Range}
    (hrange : ownRange media = some range)
    (quality : F64 D) (best : Option (Unit × (D ×ₗ Fin 3))) :
    consider doubles name media quality ((range.rank : ℕ) : ℤ) (targetOf doubles best) =
      targetOf doubles (((if F64.lt (some doubles.zero) quality then some (range, quality) else none).bind
        (rankFor name)).elim best (FirstBest.improve () best)) := by
  simp only [consider, ownRange_matches hrange]
  cases quality with
  | none => simp [F64.lt]
  | some quality =>
    by_cases hpos : doubles.zero < quality
    · have hlt : pairLt (targetOf doubles best) (some quality, ((range.rank : ℕ) : ℤ)) = true ↔
          ∀ offer ∈ best, offer.2 < toLex (quality, range.rank) :=
        @pairLt_targetOf D _ doubles best (toLex (quality, range.rank)) hpos
      by_cases hmatches : range.matches name = true
      · simp only [hmatches, F64.lt, hpos, decide_true, true_and, if_true, Option.bind_some, rankFor,
          Option.map_some,
          Option.elim_some, FirstBest.improve, ← hlt]
        split_ifs with hbetter
        · rfl
        · rfl
      · simp [hmatches, rankFor, F64.lt, hpos]
    · simp [F64.lt, hpos]

theorem considerBoth_targetOf (member : List Char) (json xml : Option (Unit × (D ×ₗ Fin 3))) :
    considerBoth doubles (targetOf doubles json, targetOf doubles xml) member =
      (targetOf doubles (((ownVote doubles member).bind (rankFor .json)).elim json (FirstBest.improve () json)),
        targetOf doubles (((ownVote doubles member).bind (rankFor .xml)).elim xml (FirstBest.improve () xml))) := by
  simp only [considerBoth, specificity_eq, ownVote]
  cases hrange : ownRange (lowercase (trim ((split ';' member).headD []))) with
  | none => simp
  | some range => simp only [Option.map_some, consider_targetOf .json hrange, consider_targetOf .xml hrange]

theorem foldl_considerBoth (members : List (List Char)) (json xml : Option (Unit × (D ×ₗ Fin 3))) :
    members.foldl (considerBoth doubles) (targetOf doubles json, targetOf doubles xml) =
      (targetOf doubles (FirstBest.offerAll () json (ranks .json (members.filterMap (ownVote doubles)))),
        targetOf doubles (FirstBest.offerAll () xml (ranks .xml (members.filterMap (ownVote doubles))))) := by
  induction members generalizing json xml with
  | nil => rfl
  | cons member rest ih =>
    rw [List.foldl_cons, considerBoth_targetOf, ih]
    cases hvote : ownVote doubles member with
    | none => rw [List.filterMap_cons_none hvote]; rfl
    | some vote =>
      rw [List.filterMap_cons_some hvote]
      have hranks : ∀ media best, FirstBest.offerAll () best (ranks media (vote :: rest.filterMap (ownVote doubles))) =
          FirstBest.offerAll () ((rankFor media vote).elim best (FirstBest.improve () best))
            (ranks media (rest.filterMap (ownVote doubles))) := by
        intro media best
        rw [ranks]
        cases hrank : rankFor media vote with
        | none => rw [List.filterMap_cons_none hrank]; rfl
        | some rank => rw [List.filterMap_cons_some hrank]; rfl
      rw [hranks, hranks]
      rfl

theorem ranks_pos {accept : List Char} {media : Format} {rank : D ×ₗ Fin 3}
    (h : rank ∈ ranks media (ownVotes doubles accept)) : doubles.zero < (ofLex rank).1 := by
  obtain ⟨vote, hvote, hrank⟩ := List.mem_filterMap.mp h
  obtain ⟨member, -, hmember⟩ := List.mem_filterMap.mp hvote
  obtain ⟨quality, hquality, hpos⟩ := ownQuality_pos hmember
  simp only [rankFor, hquality] at hrank
  split_ifs at hrank
  cases hrank
  exact hpos

theorem prefersXml_iff (accept : List Char) : prefersXml doubles accept = true ↔
    FirstBest.Outranks (ranks .json (ownVotes doubles accept)) (ranks .xml (ownVotes doubles accept)) := by
  rw [← FirstBest.offerAll_lt_iff () ()]
  have htargets : (split ',' accept).foldl (considerBoth doubles)
    ((some doubles.zero, -1), (some doubles.zero, -1)) =
      (targetOf doubles (FirstBest.offerAll () none (ranks .json (ownVotes doubles accept))),
        targetOf doubles (FirstBest.offerAll () none (ranks .xml (ownVotes doubles accept)))) :=
    foldl_considerBoth _ none none
  simp only [prefersXml, htargets]
  cases hbest : FirstBest.offerAll () none (ranks .xml (ownVotes doubles accept)) with
  | none => simp [targetOf, F64.lt]
  | some best =>
    have hpos := ranks_pos (FirstBest.mem_offerAll hbest).1
    rw [Bool.and_eq_true, show targetOf doubles (some best) = (some (ofLex best.2).1, (((ofLex best.2).2 : ℕ) : ℤ)) from rfl,
      pairLt_targetOf _ hpos]
    simp [F64.lt, hpos]

/-! ### The list's name -/

def Format.segments : Format → String
  | .json => "segments"
  | .xml => "Segment"

/-- The list is named for every format that the kit may negotiate. -/
def NamedAsServed (doubles : Doubles D) (header : Option (List Char)) : Prop :=
  ∀ format, Kit.Negotiates doubles header format →
    (prefersXml doubles (accepted header) = true ↔ format = .xml) ∧
      ∀ list : SegmentList, (listReply list (prefersXml doubles (accepted header))).map Prod.fst =
        ["run_id", "run_at", "unassigned_count", format.segments]

/-- Both readers take a member for the same vote. -/
def ReadAlike (doubles : Doubles D) (member : List Char) : Prop := Kit.vote doubles member = ownVote doubles member

theorem namedAsServed_iff (header : Option (List Char)) : NamedAsServed doubles header ↔
    ∀ format, Kit.Negotiates doubles header format →
      (prefersXml doubles (accepted header) = true ↔ format = .xml) := by
  refine forall₂_congr fun format _ => and_iff_left_of_imp fun h list => ?_
  cases format with
  | json => simp [listReply, show prefersXml doubles (accepted header) = false by simpa using h, Format.segments]
  | xml => simp [listReply, show prefersXml doubles (accepted header) = true by simpa using h, Format.segments]

theorem split_of_notMem {separator : Char} : ∀ {text : List Char}, separator ∉ text → split separator text = [text]
  | [], _ => rfl
  | c :: rest, h => by
    have hc : ¬ c = separator := fun heq => h (heq ▸ List.mem_cons_self)
    rw [split, if_neg hc, split_of_notMem fun hrest => h (List.mem_cons_of_mem _ hrest)]

theorem mem_trim {text : List Char} {c : Char} (hc : c ∈ text) (hblank : isBlank c = false) : c ∈ trim text := by
  have hkeep : ∀ {text : List Char}, c ∈ text → c ∈ text.dropWhile isBlank := by
    intro text hc
    rw [← List.takeWhile_append_dropWhile (p := isBlank) (l := text), List.mem_append] at hc
    rcases hc with hc | hc
    · rw [List.mem_takeWhile_imp hc] at hblank
      cases hblank
    · exact hc
  rw [trim, List.mem_reverse]
  exact hkeep (List.mem_reverse.mpr (hkeep hc))

/-- What the kit answers in JSON without a look at its members, the service does as well. -/
theorem prefersXml_of_acceptHeader {header : Option (List Char)} (h : Kit.acceptHeader header = none) :
    prefersXml doubles (accepted header) = false := by
  have hvotes : accepted header = [] ∨ trim (accepted header) = "*/*".toList := by
    cases header with
    | none => exact .inl rfl
    | some value =>
      by_contra hnot
      rw [not_or] at hnot
      rw [Kit.acceptHeader, Option.bind_some, show (toStr value).getD [] = accepted (some value) from rfl,
        if_pos hnot] at h
      cases h
  rcases hvotes with hempty | hall
  · rw [hempty]
    have hnone : ownVote doubles [] = none := by
      simp only [ownVote]
      split_ifs
      · rfl
      · rfl
    rw [← Bool.not_eq_true, prefersXml_iff, ownVotes, split, List.filterMap_cons_none hnone]
    rintro ⟨rank, hrank, -⟩
    cases hrank
  · have hseparators : ∀ c ∈ accepted header, c ≠ ',' ∧ c ≠ ';' := by
      intro c hc
      constructor
      · rintro rfl
        have hmem := mem_trim hc rfl
        rw [hall] at hmem
        revert hmem
        decide
      · rintro rfl
        have hmem := mem_trim hc rfl
        rw [hall] at hmem
        revert hmem
        decide
    have hmembers := split_of_notMem fun hc => (hseparators _ hc).1 rfl
    have hparts := split_of_notMem fun hc => (hseparators _ hc).2 rfl
    have hvote : ownVote doubles (accepted header) = some (.all, some doubles.one) := by
      have hquality : ownQuality doubles [accepted header].tail = some doubles.one := rfl
      have hrange : ownRange (lowercase "*/*".toList) = some .all := by decide
      have hpos : F64.lt (some doubles.zero) (some doubles.one) = true := decide_eq_true doubles.zero_lt
      simp only [ownVote, hparts, hquality, List.headD_cons, hall, hrange, Option.map_some]
      exact if_pos hpos
    rw [← Bool.not_eq_true, prefersXml_iff, ownVotes, hmembers, List.filterMap_cons_some hvote]
    rintro ⟨rank, hrank, habove⟩
    exact (habove rank hrank).false

/-- Where no quality that the kit reads is NaN, the list is named for its format exactly where the votes for XML
outrank those for JSON in both readings or in neither. -/
theorem namedAsServed_iff_outranks {header : Option (List Char)} {accept : List Char}
    (haccept : Kit.acceptHeader header = some accept) (hnumbers : ∀ vote ∈ Kit.votes doubles accept,
      vote.2 ≠ none) :
    NamedAsServed doubles header ↔ ((∃ format, Kit.Negotiates doubles header format) →
      (FirstBest.Outranks (ranks .json (ownVotes doubles accept)) (ranks .xml (ownVotes doubles accept)) ↔
        FirstBest.Outranks (ranks .json (Kit.votes doubles accept)) (ranks .xml (Kit.votes doubles accept)))) := by
  have htext : accepted header = accept := by
    obtain ⟨value, rfl, hvalue⟩ := Option.bind_eq_some_iff.mp haccept
    simp only at hvalue
    split_ifs at hvalue
    exact Option.some_inj.mp hvalue
  rw [namedAsServed_iff, htext]
  constructor
  · rintro h ⟨format, hformat⟩
    rw [← prefersXml_iff, h format hformat]
    exact Kit.negotiates_xml_iff haccept hnumbers hformat
  · intro h format hformat
    rw [prefersXml_iff, h ⟨format, hformat⟩]
    exact (Kit.negotiates_xml_iff haccept hnumbers hformat).symm

/-- Both readers have the same winner among the votes of a header that the kit negotiates a format for. -/
def SameWinner (doubles : Doubles D) (header : Option (List Char)) : Prop :=
  ∀ accept ∈ Kit.acceptHeader header, (∃ format, Kit.Negotiates doubles header format) →
    (FirstBest.Outranks (ranks .json (ownVotes doubles accept)) (ranks .xml (ownVotes doubles accept)) ↔
      FirstBest.Outranks (ranks .json (Kit.votes doubles accept)) (ranks .xml (Kit.votes doubles accept)))

end Votes

/-! ### A header of two qualities -/

/-- Doubles by their tenths, as Rust reads two of them. -/
def tenths : Doubles ℤ where
  parse text := if text = "0.2".toList then some (some 2) else if text = "0.8".toList then some (some 8) else none
  minusOne := -10
  zero := 0
  one := 10
  minusOne_lt := by decide
  zero_lt := by decide

def capitalQ : Option (List Char) := some "application/xml;Q=0.2, application/json;q=0.8".toList

theorem Kit.mergeSort_swap {left right : AcceptItem ℤ} (h : before left right = false) :
    [left, right].mergeSort before = [right, left] := by
  simp [List.mergeSort, List.MergeSort.Internal.splitInTwo, h]

end RetailSegmentation.AcceptHeaders
