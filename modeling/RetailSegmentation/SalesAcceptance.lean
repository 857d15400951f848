import RetailSegmentation.SalesService

/-! Which phone sales pass their local validation, and with which lines: the chain of checks of
`_validate_local` as one condition on the body. -/

namespace RetailSegmentation.Sales

/-- The line a sale keeps of a line of its request, if the line passes its own checks. -/
def BodyLine.normalized (line : BodyLine) : Option SaleLine :=
  match line.quantity, line.unitPrice.bind Decimal.toCents with
  | some quantity, some cents =>
    if 0 < quantity ∧ quantity ≤ maxQuantity ∧ cents < 10 ^ 10 then some ⟨line.productId, quantity,
      cents⟩ else none
  | _, _ => none

/-- The body passes, and leaves this time and these lines. -/
structure Acceptable (now : Instant) (body : SaleBody) (occurredAt : Timestamp)
    (lines : List SaleLine) : Prop where
  nonempty : body.lines ≠ []
  products : (body.lines.map BodyLine.productId).Nodup
  normalized : body.lines.map BodyLine.normalized = lines.map some
  total : saleTotal lines < 10 ^ 12
  time : body.occurredAt = some occurredAt
  aware : occurredAt.utcOffset ≠ none
  past : occurredAt.instant ≤ now

section Lines

variable {seen : List ℤ} {index : ℕ} {line : BodyLine} {valid : SaleLine}

theorem validateLine_iff : validateLine seen index line = .ok valid ↔
    line.productId ∉ seen ∧ line.normalized = some valid := by
  unfold validateLine BodyLine.normalized
  by_cases hseen : line.productId ∈ seen
  · simp [hseen]
  rw [if_neg hseen]
  cases hquantity : line.quantity with
  | none => simp
  | some quantity =>
      cases hcents : line.unitPrice.bind Decimal.toCents with
      | none =>
          simp only [Option.all_some, Option.any_some, decide_eq_true_eq]
          split_ifs <;> simp
      | some cents =>
          simp only [Option.all_some, Option.any_some, decide_eq_true_eq, Option.getD_some]
          split_ifs with hpositive hlarge hprice hall hall
          all_goals first
            | (simp only [false_iff, not_and]; intro _ h; omega)
            | simp [hseen]
          all_goals omega

theorem validateLines_iff {lines : List BodyLine} {valid : List SaleLine} :
    validateLines seen index lines = .ok valid ↔
      (lines.map BodyLine.productId).Nodup ∧ (∀ line ∈ lines, line.productId ∉ seen) ∧
        lines.map BodyLine.normalized = valid.map some := by
  induction lines generalizing seen index valid with
  | nil =>
      rw [validateLines]
      cases valid <;> simp
  | cons line rest ih =>
      rw [validateLines]
      cases hfirst : validateLine seen index line with
      | error e =>
          refine ⟨fun h => (by cases h), ?_⟩
          rintro ⟨-, hseen, hnormalized⟩
          cases valid with
          | nil => cases hnormalized
          | cons v valid =>
              have hok : validateLine seen index line = .ok v :=
                validateLine_iff.mpr ⟨hseen line List.mem_cons_self, (List.cons.inj hnormalized).1⟩
              rw [hfirst] at hok
              cases hok
      | ok first =>
          obtain ⟨hnew, hline⟩ := validateLine_iff.mp hfirst
          cases hrest : validateLines (line.productId :: seen) (index + 1) rest with
          | error e =>
              refine ⟨fun h => (by cases h), ?_⟩
              rintro ⟨hnodup, hseen, hnormalized⟩
              cases valid with
              | nil => cases hnormalized
              | cons v valid =>
                  obtain ⟨hnot, hnodup⟩ := List.nodup_cons.mp hnodup
                  have hlater : ∀ other ∈ rest, other.productId ∉ line.productId :: seen := by
                    intro other hother
                    rw [List.mem_cons, not_or]
                    exact ⟨fun heq => hnot (heq ▸ List.mem_map_of_mem hother),
                      hseen other (List.mem_cons_of_mem _ hother)⟩
                  have hok : validateLines (line.productId :: seen) (index + 1) rest = .ok valid :=
                    ih.mpr ⟨hnodup, hlater, (List.cons.inj hnormalized).2⟩
                  rw [hrest] at hok
                  cases hok
          | ok others =>
              obtain ⟨hnodup, hseen, hothers⟩ := ih.mp hrest
              constructor
              · intro h
                obtain rfl : first :: others = valid := Except.ok.inj h
                refine ⟨List.nodup_cons.mpr ⟨fun hmem => ?_, hnodup⟩, ?_, ?_⟩
                · obtain ⟨other, hother, heq⟩ := List.mem_map.mp hmem
                  exact hseen other hother (heq ▸ List.mem_cons_self)
                · intro other hother
                  rcases List.mem_cons.mp hother with rfl | hother
                  · exact hnew
                  · exact fun hmem => hseen other hother (List.mem_cons_of_mem _ hmem)
                · rw [List.map_cons, hline, hothers, List.map_cons]
              · rintro ⟨-, -, hnormalized⟩
                rw [List.map_cons, hline, hothers, ← List.map_cons] at hnormalized
                exact congrArg Except.ok (List.map_injective_iff.mpr (Option.some_injective _) hnormalized)

end Lines

theorem validateLocal_iff {now : Instant} {body : SaleBody} {occurredAt : Timestamp} {lines : List SaleLine} :
    validateLocal now body = .ok (occurredAt, lines) ↔ Acceptable now body occurredAt lines := by
  unfold validateLocal
  split_ifs with hempty
  · exact ⟨nofun, fun h => absurd hempty h.nonempty⟩
  cases hlines : validateLines [] 0 body.lines with
  | error e =>
      refine ⟨nofun, fun h => ?_⟩
      have hok : validateLines [] 0 body.lines = .ok lines :=
        validateLines_iff.mpr ⟨h.products, fun _ _ => List.not_mem_nil, h.normalized⟩
      rw [hlines] at hok
      cases hok
  | ok valid =>
      obtain ⟨hnodup, -, hnormalized⟩ := validateLines_iff.mp hlines
      have hsame : ∀ {lines}, body.lines.map BodyLine.normalized = lines.map some → valid = lines := fun h =>
        List.map_injective_iff.mpr (Option.some_injective _) (hnormalized.symm.trans h)
      change (if _ then _ else _) = _ ↔ _
      split_ifs with htotal
      · refine ⟨nofun, fun h => ?_⟩
        obtain rfl := hsame h.normalized
        exact absurd h.total (Int.not_lt.mpr htotal)
      · cases htime : body.occurredAt with
        | none =>
            refine ⟨nofun, fun h => ?_⟩
            rw [h.time] at htime
            cases htime
        | some time =>
            dsimp only
            split_ifs with haware hpast
            · refine ⟨nofun, fun h => ?_⟩
              obtain rfl := Option.some.inj (h.time.symm.trans htime)
              exact absurd haware h.aware
            · refine ⟨nofun, fun h => ?_⟩
              obtain rfl := Option.some.inj (h.time.symm.trans htime)
              exact absurd h.past (Int.not_le.mpr hpast)
            · constructor
              · intro h
                obtain ⟨rfl, rfl⟩ := Prod.mk.inj (Except.ok.inj h)
                exact ⟨hempty, hnodup, hnormalized, Int.not_le.mp htotal, htime, haware, Int.not_lt.mp hpast⟩
              · intro h
                obtain rfl := Option.some.inj (h.time.symm.trans htime)
                rw [hsame h.normalized]

namespace Acceptable

variable {now : Instant} {body : SaleBody} {occurredAt : Timestamp} {lines : List SaleLine}

theorem exists_of_mem (h : Acceptable now body occurredAt lines) {valid : SaleLine} (hvalid : valid ∈ lines) :
    ∃ line ∈ body.lines, line.normalized = some valid := by
  have hmem : some valid ∈ body.lines.map BodyLine.normalized := by
    rw [h.normalized]
    exact List.mem_map_of_mem hvalid
  exact List.mem_map.mp hmem

end Acceptable

theorem BodyLine.normalized_some {line : BodyLine} {valid : SaleLine} (h : line.normalized = some valid) :
    valid.productId = line.productId ∧ line.quantity = some valid.quantity ∧
      line.unitPrice.bind Decimal.toCents = some valid.unitPrice ∧
      0 < valid.quantity ∧ valid.quantity ≤ maxQuantity ∧ valid.unitPrice < 10 ^ 10 := by
  unfold normalized at h
  split at h
  · rename_i quantity cents hquantity hcents
    split_ifs at h with hbounds
    obtain rfl := Option.some.inj h
    exact ⟨rfl, hquantity, hcents, hbounds⟩
  · cases h

theorem Decimal.toCents_pos {price : Decimal} {cents : ℤ} (h : price.toCents = some cents) : 0 < cents := by
  unfold toCents at h
  split at h
  · rename_i coefficient exponent
    split_ifs at h with hbounds
    obtain rfl := Option.some.inj h
    exact Int.mul_pos (Int.natCast_pos.mpr (Nat.pos_of_ne_zero hbounds.1)) (Int.pow_pos (by decide))
  · cases h

namespace Acceptable

variable {now : Instant} {body : SaleBody} {occurredAt : Timestamp} {lines : List SaleLine}

theorem map_eq {β : Type} {asked : BodyLine → β} {kept : SaleLine → β} (h : Acceptable now body occurredAt lines)
    (hsame : ∀ line valid, line.normalized = some valid → asked line = kept valid) :
    body.lines.map asked = lines.map kept := by
  obtain ⟨-, -, hnormalized, -⟩ := h
  generalize body.lines = requested at hnormalized
  induction requested generalizing lines with
  | nil =>
      rw [List.map_eq_nil_iff.mp hnormalized.symm]
      rfl
  | cons line requested ih =>
      cases lines with
      | nil => cases hnormalized
      | cons valid lines =>
          obtain ⟨hfirst, hrest⟩ := List.cons.inj hnormalized
          rw [List.map_cons, List.map_cons, hsame line valid hfirst, ih hrest]

theorem nodup (h : Acceptable now body occurredAt lines) : (lines.map SaleLine.productId).Nodup := by
  rw [← h.map_eq fun line valid hvalid => (BodyLine.normalized_some hvalid).1.symm]
  exact h.products

end Acceptable

end RetailSegmentation.Sales
