import Mathlib.Algebra.Order.Field.Rat
import Mathlib.Data.Rat.Defs
import Mathlib.Tactic.FieldSimp
import Mathlib.Tactic.IntervalCases
import RetailSegmentation.IsoTimes
import RetailSegmentation.JsonStrings
import RetailSegmentation.SalesUncaught

/-! The digest that a phone sale is remembered by: the text that is hashed, which sales share it, and whether
sales that share it are judged alike. -/

namespace RetailSegmentation.Sales

open Program TextCodes JsonStrings

/-! ### The text -/

/-- `format(price, ".2f")` of an amount in cents. -/
def priceText (cents : ℤ) : String := String.ofList (intText (cents / 100) ++ '.' :: padText 10 2 (cents % 100).toNat)

/-- A member of an object, before the rest of its text. -/
def member (name : String) (rest : List Char) : List Char := jsonString name ++ ':' :: rest

def lineJson (line : SaleLine) : List Char :=
  '\x7b' :: member "product_id" (intText line.productId ++ ',' :: member "quantity" (intText line.quantity ++
    ',' :: member "unit_price" (jsonString (priceText line.unitPrice) ++ ['\x7d'])))

def linesJson : List SaleLine → List Char
  | [] => []
  | line :: rest => lineJson line ++ rest.flatMap fun line => ',' :: lineJson line

/-- `json.dumps(value, sort_keys=True, separators=(",", ":"))` of the value that `_canonical` builds. -/
def canonicalJson (form : CanonicalSale) : List Char :=
  '\x7b' :: member "channel_id" (intText form.channelId ++ ',' :: member "customer_id" (jsonString form.customerId ++
    ',' :: member "lines" ('[' :: (linesJson form.lines ++ ']' :: ',' :: member "occurred_at" (
      jsonString (String.ofList (IsoTimes.isoformat form.occurredAt.toNat)) ++ ',' :: member "store_id" (
        intText form.storeId ++ ',' :: member "sub" (jsonString form.sub ++ ['\x7d'])))))))

theorem member_append (name : String) (rest s : List Char) : member name rest ++ s = member name (rest ++ s) := by
  simp [member]

theorem member_inj {name : String} {s t : List Char} (h : member name s = member name t) : s = t :=
  (List.cons.inj (List.append_cancel_left h)).2

theorem priceText_injective {a b : ℤ} (h : priceText a = priceText b) : a = b := by
  have hstop : ∀ rest : List Char, ∀ c ∈ ('.' :: rest).head?, ¬ IsIntChar c := by
    intro rest c hc
    obtain rfl := Option.some.inj hc
    exact not_or.mpr ⟨by decide, by decide⟩
  obtain ⟨hunits, hrest⟩ := intText_inj (hstop _) (hstop _) (String.ofList_injective h)
  have hcents := padText_injective (by decide) (by decide) (by omega) (by omega) (List.cons.inj hrest).2
  omega

theorem number_inj {n m : ℤ} {s t : List Char} (h : intText n ++ ',' :: s = intText m ++ ',' :: t) :
    n = m ∧ s = t := by
  have hcomma : ∀ rest : List Char, ∀ c ∈ (',' :: rest).head?, ¬ IsIntChar c := by
    intro rest c hc
    obtain rfl := Option.some.inj hc
    exact not_or.mpr ⟨by decide, by decide⟩
  obtain ⟨hnumber, hrest⟩ := intText_inj (hcomma s) (hcomma t) h
  exact ⟨hnumber, (List.cons.inj hrest).2⟩

theorem string_inj {a b : String} {c : Char} {s t : List Char}
    (h : jsonString a ++ c :: s = jsonString b ++ c :: t) :
    a = b ∧ s = t := by
  obtain ⟨hstring, hrest⟩ := selfDelimiting_jsonString a b _ _ trivial trivial h
  exact ⟨hstring, (List.cons.inj hrest).2⟩

theorem selfDelimiting_lineJson : SelfDelimiting (fun _ => True) lineJson := by
  intro a b s t _ _ h
  simp only [lineJson, List.cons_append, List.append_assoc, member_append, List.nil_append] at h
  have h := member_inj (List.cons.inj h).2
  obtain ⟨hproduct, h⟩ := number_inj h
  have h := member_inj h
  obtain ⟨hquantity, h⟩ := number_inj h
  have h := member_inj h
  obtain ⟨hprice, hrest⟩ := string_inj h
  obtain ⟨p, q, u⟩ := a
  obtain ⟨p', q', u'⟩ := b
  obtain rfl : p = p' := hproduct
  obtain rfl : q = q' := hquantity
  obtain rfl : u = u' := priceText_injective hprice
  exact ⟨rfl, hrest⟩

theorem head_lineJson (line : SaleLine) (rest : List Char) : (lineJson line ++ rest).head? = some '\x7b' := rfl

theorem linesJson_inj {as bs : List SaleLine} {s t : List Char}
    (h : linesJson as ++ ']' :: s = linesJson bs ++ ']' :: t) :
    as = bs ∧ s = t := by
  have hcomma : SelfDelimiting (fun _ => True) fun line : SaleLine => ',' :: lineJson line := fun a b s t _ _ h =>
    selfDelimiting_lineJson a b s t trivial trivial (List.cons.inj h).2
  have hopen : ∀ (line : SaleLine) (rest rest' : List Char), lineJson line ++ rest ≠ ']' :: rest' := by
    intro line rest rest' h
    have hhead := head_lineJson line rest
    rw [h] at hhead
    exact absurd hhead (by simp)
  cases as with
  | nil =>
      cases bs with
      | nil => exact ⟨rfl, (List.cons.inj h).2⟩
      | cons b bs =>
          rw [linesJson, linesJson, List.append_assoc] at h
          exact absurd h.symm (hopen _ _ _)
  | cons a as =>
      cases bs with
      | nil =>
          rw [linesJson, linesJson, List.append_assoc] at h
          exact absurd h (hopen _ _ _)
      | cons b bs =>
          rw [linesJson, linesJson, List.append_assoc, List.append_assoc] at h
          obtain ⟨rfl, hrest⟩ := selfDelimiting_lineJson a b _ _ trivial trivial h
          have hmore : ∀ (line : SaleLine) (s t : List Char), True → t.head? = some ']' →
            ',' :: lineJson line ++ s ≠ t := by
            rintro line s t - ht rfl
            exact absurd (Option.some.inj ht) (by decide)
          obtain ⟨rfl, hend⟩ := hcomma.flatMap (fun t => t.head? = some ']') hmore (fun _ _ => trivial)
            (fun _ _ => trivial) rfl rfl hrest
          exact ⟨rfl, (List.cons.inj hend).2⟩

theorem canonicalJson_injective {form form' : CanonicalSale}
    (hyears : 0 ≤ form.occurredAt ∧ form.occurredAt < maxInstant)
    (hyears' : 0 ≤ form'.occurredAt ∧ form'.occurredAt < maxInstant) (h : canonicalJson form = canonicalJson form') :
    form = form' := by
  obtain ⟨sub, customer, store, channel, (instant : ℤ), lines⟩ := form
  obtain ⟨sub', customer', store', channel', (instant' : ℤ), lines'⟩ := form'
  unfold canonicalJson at h
  have h := member_inj (List.cons.inj h).2
  obtain ⟨hchannel, h⟩ := number_inj h
  have h := member_inj h
  obtain ⟨hcustomer, h⟩ := string_inj h
  have h := member_inj h
  obtain ⟨hlines, h⟩ := linesJson_inj (List.cons.inj h).2
  have h := member_inj (List.cons.inj h).2
  obtain ⟨htime, h⟩ := string_inj h
  have h := member_inj h
  obtain ⟨hstore, h⟩ := number_inj h
  have h := member_inj h
  obtain ⟨hsub, -⟩ := string_inj h
  obtain ⟨hlow, hhigh⟩ : 0 ≤ instant ∧ instant < 3652059 * 86400000000 := hyears
  obtain ⟨hlow', hhigh'⟩ : 0 ≤ instant' ∧ instant' < 3652059 * 86400000000 := hyears'
  have hinstant : instant.toNat = instant'.toNat := by
    refine IsoTimes.isoformat_injective ?_ ?_ (String.ofList_injective htime) <;> unfold IsoTimes.daysOfYears <;> omega
  obtain rfl : instant = instant' := by omega
  dsimp only at hchannel hcustomer hlines hstore hsub
  rw [hchannel, hcustomer, hlines, hstore, hsub]

/-! ### UUIDs -/

def hexDigits : List Char := "0123456789abcdefABCDEF".toList

def hexValue (c : Char) : ℕ := hexDigits.idxOf c - if 'A' ≤ c ∧ c ≤ 'F' then 6 else 0

def uuidDigits (text : String) : List ℕ := (text.toList.filter (· ≠ '-')).map hexValue

theorem mem_hexDigits {c : Char} (h : isHexDigit c = true) : c ∈ hexDigits := by
  have hrange : c.toNat ∈ List.range' 48 10 ++ List.range' 97 6 ++ List.range' 65 6 := by
    unfold isHexDigit at h
    simp only [Bool.or_eq_true, Bool.and_eq_true, decide_eq_true_eq, Char.le_def, UInt32.le_iff_toNat_le] at h
    simp only [List.mem_append, List.mem_range'_1]
    have hvalue : c.val.toNat = c.toNat := rfl
    have hzero : '0'.val.toNat = 48 := rfl
    have hnine : '9'.val.toNat = 57 := rfl
    have ha : 'a'.val.toNat = 97 := rfl
    have hf : 'f'.val.toNat = 102 := rfl
    have hA : 'A'.val.toNat = 65 := rfl
    have hF : 'F'.val.toNat = 70 := rfl
    omega
  have hchar : Char.ofNat c.toNat ∈ hexDigits :=
    (by decide : ∀ n ∈ List.range' 48 10 ++ List.range' 97 6 ++ List.range' 65 6,
      Char.ofNat n ∈ hexDigits) _ hrange
  rwa [Char.ofNat_toNat] at hchar

theorem toLower_eq_iff {c d : Char} (hc : isHexDigit c = true) (hd : isHexDigit d = true) :
    c.toLower = d.toLower ↔ hexValue c = hexValue d := by
  have hall : (hexDigits.all fun c => hexDigits.all fun d =>
      decide (c.toLower = d.toLower ↔ hexValue c = hexValue d)) = true := by decide
  have hrow := List.all_eq_true.mp hall c (mem_hexDigits hc)
  exact of_decide_eq_true (List.all_eq_true.mp hrow d (mem_hexDigits hd))

theorem IsUuidText.toLower_eq_iff {a b : String} (ha : IsUuidText a) (hb : IsUuidText b) :
    String.ofList (a.toList.map Char.toLower) = String.ofList (b.toList.map Char.toLower) ↔
      uuidDigits a = uuidDigits b := by
  rw [String.ofList_inj]
  unfold IsUuidText at ha hb
  unfold uuidDigits
  generalize uuidShape = shape at ha hb
  generalize a.toList = chars at ha
  generalize b.toList = chars' at hb
  induction ha generalizing chars' with
  | nil =>
      cases hb
      exact iff_of_true rfl rfl
  | @cons hex c shape chars hfirst _ ih =>
      cases hb with
      | @cons _ d _ chars' hfirst' hrest =>
          have hmore := ih chars' hrest
          cases hex with
          | true =>
              have hchar : c ≠ '-' := fun h => absurd (h ▸ hfirst) (by decide)
              have hchar' : d ≠ '-' := fun h => absurd (h ▸ hfirst') (by decide)
              rw [List.filter_cons_of_pos (by simpa using hchar), List.filter_cons_of_pos (by simpa using hchar')]
              simp only [List.map_cons, List.cons.injEq, hmore, Sales.toLower_eq_iff hfirst hfirst']
          | false =>
              obtain rfl : c = '-' := hfirst
              obtain rfl : d = '-' := hfirst'
              rw [List.filter_cons_of_neg (by decide), List.filter_cons_of_neg (by decide), ← hmore]
              simp only [List.map_cons, List.cons.injEq, true_and]

/-! ### Lines -/

/-- The number that a `Decimal` is. -/
def Decimal.value : Decimal → Option ℚ
  | .finite negative coefficient exponent => some ((if negative then -1 else 1) * coefficient * 10 ^ exponent)
  | _ => none

/-- Product, quantity and price of a line, however they are written. -/
def BodyLine.sold (line : BodyLine) : ℤ × Option ℤ × Option ℚ :=
  (line.productId, line.quantity, line.unitPrice.bind Decimal.value)

def SaleLine.sold (line : SaleLine) : ℤ × Option ℤ × Option ℚ :=
  (line.productId, some line.quantity, some (line.unitPrice / 100))

theorem SaleLine.sold_injective : Function.Injective SaleLine.sold := by
  rintro ⟨p, q, u⟩ ⟨p', q', u'⟩ h
  simp only [sold, Prod.mk.injEq, Option.some.injEq] at h
  obtain ⟨rfl, rfl, hprice⟩ := h
  have hcents : (u : ℚ) = u' := (div_left_inj' (by norm_num)).mp hprice
  rw [Int.cast_injective hcents]

theorem Decimal.value_of_toCents {price : Decimal} {cents : ℤ} (h : price.toCents = some cents) :
    price.value = some (cents / 100 : ℚ) := by
  unfold toCents at h
  split at h
  · rename_i coefficient exponent
    split_ifs at h with hbounds
    obtain rfl := Option.some.inj h
    obtain ⟨n, hn⟩ := Int.eq_ofNat_of_zero_le (show 0 ≤ exponent + 2 by omega)
    obtain rfl : exponent = n - 2 := by omega
    have hpower : ((10 : ℚ) ^ ((n : ℤ) - 2)) = 10 ^ n / 100 := by
      rw [zpow_sub₀ (by norm_num), zpow_natCast]
      norm_num
    simp only [value, Bool.false_eq_true, if_false, hpower, Int.sub_add_cancel, Int.toNat_natCast]
    push_cast
    rw [one_mul, mul_div_assoc]
  · cases h

theorem BodyLine.sold_of_normalized {line : BodyLine} {valid : SaleLine} (h : line.normalized = some valid) :
    line.sold = valid.sold := by
  obtain ⟨hproduct, hquantity, hprice, -⟩ := normalized_some h
  obtain ⟨price, hsome, hcents⟩ := Option.bind_eq_some_iff.mp hprice
  unfold sold SaleLine.sold
  rw [hproduct, hquantity, hsome, Option.bind_some, Decimal.value_of_toCents hcents]

theorem productOrder_eq_iff {as bs : List SaleLine} (has : (as.map SaleLine.productId).Nodup)
    (hbs : (bs.map SaleLine.productId).Nodup) : productOrder as = productOrder bs ↔ ∀ line, line ∈ as ↔
      line ∈ bs := by
  have hperm : ∀ lines, (productOrder lines).Perm lines := fun lines => List.perm_insertionSort _ _
  constructor
  · intro h line
    rw [← (hperm as).mem_iff, h, (hperm bs).mem_iff]
  · intro h
    have hsame : as.Perm bs := (List.perm_ext_iff_of_nodup (List.Nodup.of_map _ has) (List.Nodup.of_map _ hbs)).mpr h
    refine List.Perm.eq_of_pairwise (fun a b ha hb hab hba => ?_) (List.pairwise_insertionSort _ as)
      (List.pairwise_insertionSort _ bs) ((hperm as).trans (hsame.trans (hperm bs).symm))
    have ha' : a ∈ bs := (h a).mp ((hperm as).mem_iff.mp ha)
    exact List.inj_on_of_nodup_map hbs ha' ((hperm bs).mem_iff.mp hb) (Int.le_antisymm hab hba)

/-! ### Digests -/

/-- A request whose body conforms and has passed `_validate_local`, at some time, with these values. -/
structure PassedSale where
  sub : String
  body : SaleBody
  occurredAt : Timestamp
  lines : List SaleLine
  customer : IsUuidText body.customerId
  passed : ∃ now, validateLocal now body = .ok (occurredAt, lines)

def RegisteredOn (pg : Postgres) (cat : Catalog) (customerId : String) (day : ℤ) : Prop :=
  ∃ customer, pg.uuidIn customerId = some customer ∧ cat.registeredOn customer = some day ∧ pg.givesDate day = true

/-- One caller, customer, store, channel and instant, and one set of lines. -/
structure Identical (a b : PassedSale) : Prop where
  caller : a.sub = b.sub
  customer : uuidDigits a.body.customerId = uuidDigits b.body.customerId
  store : a.body.storeId = b.body.storeId
  channel : a.body.channelId = b.body.channelId
  instant : a.occurredAt.instant = b.occurredAt.instant
  lines : ∀ sold, sold ∈ a.body.lines.map BodyLine.sold ↔ sold ∈ b.body.lines.map BodyLine.sold

namespace PassedSale

variable {H : Type} (hash : List Char → H) (a b : PassedSale)

/-- `_canonical`; `none` where `astimezone` overflows. -/
def canonicalDigest : Option H := (canonical a.body a.occurredAt a.lines a.sub).map (hash ∘ canonicalJson)

def SameDigest : Prop := ∃ digest, a.canonicalDigest hash = some digest ∧ b.canonicalDigest hash = some digest

/-- The time is one that a `datetime` in UTC can be. -/
def InYears : Prop := 0 ≤ a.occurredAt.instant ∧ a.occurredAt.instant < maxInstant

/-- What the transaction is given. -/
def sale (source : String) (digest : Digest) : ValidSale := ⟨source, a.body, a.occurredAt, a.lines, digest, a.sub⟩

/-- Neither `_validate_local` nor `_validate_references` refuses it. -/
def Passes (pg : Postgres) (cat : Catalog) (clock now : Instant) (ledger : Ledger) (source : String)
    (digest : Digest) :
    Prop :=
  validateLocal now a.body = .ok (a.occurredAt, a.lines) ∧
    ((validateReferences (a.sale source digest)).run (Session.handle pg cat clock) (Session.idle ledger)).1 = .ok ()

/-- Where it comes to the day of registration, the two local days lie on one side of it. -/
def RegisteredAlike (pg : Postgres) (cat : Catalog) (now : Instant) : Prop :=
  a.occurredAt.instant ≤ now → (∀ line ∈ a.lines, cat.productIsActive line.productId = some true) →
    ∀ day, RegisteredOn pg cat a.body.customerId day → (a.occurredAt.date < day ↔ b.occurredAt.date < day)

end PassedSale

theorem digest_of_prepare {hash : List Char → Digest} {request : SaleRequest} {sale : ValidSale}
    (hprepare : prepare (hash ∘ canonicalJson) request = .ok sale) (hcustomer : IsUuidText request.body.customerId) :
    ∃ a : PassedSale, sale = a.sale sale.source sale.digest ∧ a.body = request.body ∧ a.sub = request.sub ∧
      a.canonicalDigest hash = some sale.digest := by
  unfold prepare at hprepare
  cases hkey : request.key with
  | none =>
      rw [hkey] at hprepare
      cases hprepare
  | some key =>
      rw [hkey] at hprepare
      dsimp only at hprepare
      cases hlocal : validateLocal request.now request.body with
      | error e =>
          rw [hlocal] at hprepare
          cases hprepare
      | ok values =>
          obtain ⟨occurredAt, lines⟩ := values
          rw [hlocal] at hprepare
          dsimp only at hprepare
          cases hform : canonical request.body occurredAt lines request.sub with
          | none =>
              rw [hform] at hprepare
              cases hprepare
          | some form =>
              rw [hform] at hprepare
              obtain rfl := Except.ok.inj hprepare
              refine ⟨⟨request.sub, request.body, occurredAt, lines, hcustomer, request.now, hlocal⟩, rfl,
                rfl, rfl, ?_⟩
              unfold PassedSale.canonicalDigest
              dsimp only
              rw [hform]
              rfl

section Digests

variable {H : Type} {hash : List Char → H} {a b : PassedSale}

theorem identical_iff : Identical a b ↔
    a.sub = b.sub ∧ String.ofList (a.body.customerId.toList.map Char.toLower) =
        String.ofList (b.body.customerId.toList.map Char.toLower) ∧
      a.body.storeId = b.body.storeId ∧ a.body.channelId = b.body.channelId ∧
      a.occurredAt.instant = b.occurredAt.instant ∧ productOrder a.lines = productOrder b.lines := by
  obtain ⟨now, hpassed⟩ := a.passed
  obtain ⟨now', hpassed'⟩ := b.passed
  have haccepted := validateLocal_iff.mp hpassed
  have haccepted' := validateLocal_iff.mp hpassed'
  have hlines : (∀ sold, sold ∈ a.body.lines.map BodyLine.sold ↔ sold ∈ b.body.lines.map BodyLine.sold) ↔
      productOrder a.lines = productOrder b.lines := by
    rw [haccepted.map_eq fun _ _ => BodyLine.sold_of_normalized,
      haccepted'.map_eq fun _ _ => BodyLine.sold_of_normalized,
      productOrder_eq_iff haccepted.nodup haccepted'.nodup]
    refine ⟨fun h line => ?_, fun h sold => ?_⟩
    · rw [← List.mem_map_of_injective SaleLine.sold_injective, h,
        List.mem_map_of_injective SaleLine.sold_injective]
    · rw [List.mem_map, List.mem_map]
      simp only [h]
  rw [a.customer.toLower_eq_iff b.customer, ← hlines]
  exact ⟨fun h => ⟨h.caller, h.customer, h.store, h.channel, h.instant, h.lines⟩,
    fun ⟨hcaller, hcustomer, hstore, hchannel, hinstant, hlines⟩ =>
      ⟨hcaller, hcustomer, hstore, hchannel, hinstant, hlines⟩⟩

theorem sameDigest_iff (hhash : Function.Injective hash) :
    a.SameDigest hash b ↔ Identical a b ∧ a.InYears := by
  rw [identical_iff]
  unfold PassedSale.SameDigest PassedSale.canonicalDigest PassedSale.InYears canonical
  constructor
  · rintro ⟨digest, ha, hb⟩
    obtain ⟨form, hform, rfl⟩ := Option.map_eq_some_iff.mp ha
    obtain ⟨form', hform', hsame⟩ := Option.map_eq_some_iff.mp hb
    split_ifs at hform with hyears
    split_ifs at hform' with hyears'
    obtain rfl := Option.some.inj hform
    obtain rfl := Option.some.inj hform'
    have hforms := canonicalJson_injective hyears' hyears (hhash hsame)
    simp only [CanonicalSale.mk.injEq] at hforms
    obtain ⟨hsub, hcustomer, hstore, hchannel, hinstant, hlines⟩ := hforms
    exact ⟨⟨hsub.symm, hcustomer.symm, hstore.symm, hchannel.symm, hinstant.symm, hlines.symm⟩, hyears⟩
  · rintro ⟨⟨hsub, hcustomer, hstore, hchannel, hinstant, hlines⟩, hyears⟩
    refine ⟨_, congrArg _ (if_pos hyears), ?_⟩
    rw [← hinstant, if_pos hyears, hsub, hcustomer, hstore, hchannel, hlines]
    rfl

variable {pg : Postgres} {cat : Catalog} {clock now : Instant} {ledger : Ledger} {source source' : String}
  {digest digest' : Digest}

theorem passes_iff : a.Passes pg cat clock now ledger source digest ↔
    a.occurredAt.instant ≤ now ∧ ReferencesInOrder pg cat (a.sale source digest) := by
  obtain ⟨earlier, hpassed⟩ := a.passed
  obtain ⟨hnonempty, hproducts, hnormalized, htotal, htime, haware, -⟩ := validateLocal_iff.mp hpassed
  unfold PassedSale.Passes
  rw [run_validateReferences, referencesVerdict_ok, validateLocal_iff]
  exact and_congr_left fun _ =>
    ⟨fun h => h.past, fun h => ⟨hnonempty, hproducts, hnormalized, htotal, htime, haware, h⟩⟩

theorem RegisteredOn.unique {customerId : String} {day day' : ℤ} (h : RegisteredOn pg cat customerId day)
    (h' : RegisteredOn pg cat customerId day') : day = day' := by
  obtain ⟨customer, hknown, hregistered, -⟩ := h
  obtain ⟨customer', hknown', hregistered', -⟩ := h'
  obtain rfl := Option.some.inj (hknown.symm.trans hknown')
  exact Option.some.inj (hregistered.symm.trans hregistered')

theorem references_iff : ReferencesInOrder pg cat (a.sale source digest) ↔
    (∃ day, RegisteredOn pg cat a.body.customerId day ∧ day ≤ a.occurredAt.date) ∧
      ∀ line ∈ a.lines, cat.productIsActive line.productId = some true := by
  unfold ReferencesInOrder PassedSale.sale saleReferences
  rw [a.customer.hasNul, if_neg Bool.false_ne_true]
  constructor
  · rintro ⟨references, hread, hday, hactive⟩
    cases hknown : pg.uuidIn a.body.customerId with
    | none =>
        rw [hknown] at hread
        cases hread
    | some customer =>
        rw [hknown] at hread
        dsimp only at hread
        cases hregistered : cat.registeredOn customer with
        | none =>
            rw [hregistered] at hread
            cases hread
        | some day =>
            rw [hregistered] at hread
            dsimp only at hread
            split_ifs at hread with hgives
            obtain rfl := Option.some.inj (Except.ok.inj hread)
            exact ⟨⟨day, ⟨customer, hknown, hregistered, hgives⟩, hday⟩, hactive⟩
  · rintro ⟨⟨day, ⟨customer, hknown, hregistered, hgives⟩, hday⟩, hactive⟩
    refine ⟨⟨day, cat.productIsActive 0⟩, ?_, hday, hactive⟩
    simp only [hknown, hregistered, hgives, if_true]

theorem mem_productOrder {lines : List SaleLine} {line : SaleLine} : line ∈ productOrder lines ↔ line ∈ lines :=
  (List.perm_insertionSort _ lines).mem_iff

/-- Identical sales get one verdict exactly when the day of registration does not part them. -/
theorem passes_alike_iff (hidentical : Identical a b)
    (huuid : pg.uuidIn a.body.customerId = pg.uuidIn b.body.customerId) :
    (a.Passes pg cat clock now ledger source digest ↔ b.Passes pg cat clock now ledger source' digest') ↔
      a.RegisteredAlike b pg cat now := by
  have hactive : (∀ line ∈ b.lines, cat.productIsActive line.productId = some true) ↔
      ∀ line ∈ a.lines, cat.productIsActive line.productId = some true := by
    obtain ⟨-, -, -, -, -, horder⟩ := identical_iff.mp hidentical
    refine forall_congr' fun line => ?_
    rw [← mem_productOrder, ← horder, mem_productOrder]
  have hregistered : ∀ day, RegisteredOn pg cat b.body.customerId day ↔
    RegisteredOn pg cat a.body.customerId day := by
    intro day
    unfold RegisteredOn
    rw [huuid]
  rw [passes_iff, passes_iff, references_iff, references_iff, ← hidentical.instant, hactive]
  simp only [hregistered]
  constructor
  · intro h hpast hactive day hday
    have hwhen : ∀ date : ℤ, (∃ day, RegisteredOn pg cat a.body.customerId day ∧ day ≤ date) ↔ day ≤ date := by
      refine fun date => ⟨?_, fun hdate => ⟨day, hday, hdate⟩⟩
      rintro ⟨other, hother, hdate⟩
      rwa [hday.unique hother]
    rw [hwhen, hwhen, and_iff_right hpast, and_iff_right hpast, and_iff_left hactive, and_iff_left hactive] at h
    rw [← Int.not_le, ← Int.not_le, h]
  · intro h
    refine and_congr_right fun hpast => and_congr_left fun hactive => exists_congr fun day =>
      and_congr_right fun hday => ?_
    rw [← Int.not_lt, ← Int.not_lt, h hpast hactive day hday]

/-- **One digest, one sale.** Two accepted requests share a digest exactly when they are one sale, and if they
do both pass or neither, exactly when the instant of one sale is within the years of a `datetime` and the day
of registration does not part its two local days. -/
theorem digest_identity_iff (hhash : Function.Injective hash)
    (huuid : ∀ text text', IsUuidText text → IsUuidText text' → uuidDigits text = uuidDigits text' →
      pg.uuidIn text = pg.uuidIn text') :
    ((a.SameDigest hash b ↔ Identical a b) ∧ (a.SameDigest hash b →
        (a.Passes pg cat clock now ledger source digest ↔ b.Passes pg cat clock now ledger source' digest'))) ↔
      (Identical a b → a.InYears ∧ a.RegisteredAlike b pg cat now) := by
  rw [sameDigest_iff hhash]
  constructor
  · rintro ⟨hsame, hverdict⟩ hidentical
    have hdigest := hsame.mpr hidentical
    exact ⟨hdigest.2, (passes_alike_iff hidentical (huuid _ _ a.customer b.customer hidentical.customer)).mp
      (hverdict hdigest)⟩
  · intro h
    refine ⟨⟨fun hdigest => hdigest.1, fun hidentical => ⟨hidentical, (h hidentical).1⟩⟩, fun hdigest => ?_⟩
    exact (passes_alike_iff hdigest.1 (huuid _ _ a.customer b.customer hdigest.1.customer)).mpr (h hdigest.1).2

end Digests

/-! ### The day of registration -/

/-- Two units at the corner shop, said to be sold half past one at night in UTC, or an hour and a half before
midnight two hours west of it. -/
def nightSale (west : Bool) : PassedSale where
  sub := cornerCustomer
  body := plainBody 1 (if west then ⟨730000 * microsecondsPerDay - 1800000000, some (-7200000000)⟩
    else ⟨730000 * microsecondsPerDay + 5400000000, some 0⟩)
  occurredAt := if west then ⟨730000 * microsecondsPerDay - 1800000000, some (-7200000000)⟩
    else ⟨730000 * microsecondsPerDay + 5400000000, some 0⟩
  lines := [⟨7, 2, 250⟩]
  customer := (by decide : IsUuidText cornerCustomer)
  passed := ⟨739000 * microsecondsPerDay, by cases west <;> rfl⟩

theorem nightSale_identical : Identical (nightSale false) (nightSale true) :=
  ⟨rfl, rfl, rfl, rfl, rfl, fun _ => Iff.rfl⟩

/-- The customer registered on the day of the first: the other is refused. -/
theorem digest_before_registration :
    Identical (nightSale false) (nightSale true) ∧ (nightSale false).SameDigest id (nightSale true) ∧
    (nightSale false).Passes plainPostgres cornerCatalog (739000 * microsecondsPerDay) (739000 * microsecondsPerDay)
      cornerLedger "first" 0 ∧
    ¬ (nightSale true).Passes plainPostgres cornerCatalog (739000 * microsecondsPerDay) (739000 * microsecondsPerDay)
      cornerLedger "second" 0 := by
  refine ⟨nightSale_identical, ?_, ⟨rfl, by decide⟩, fun h => absurd h.2 (by decide)⟩
  exact (sameDigest_iff Function.injective_id).mpr ⟨nightSale_identical, by decide, by decide⟩

theorem plainPostgres_uuidIn {text text' : String} (h : IsUuidText text) (h' : IsUuidText text')
    (hdigits : uuidDigits text = uuidDigits text') : plainPostgres.uuidIn text = plainPostgres.uuidIn text' := by
  simp only [plainPostgres, h, h', if_true]
  rw [(h.toLower_eq_iff h').mpr hdigits]

theorem digest_identity_corner :
    (((nightSale false).SameDigest id (nightSale false) ↔ Identical (nightSale false) (nightSale false)) ∧
      ((nightSale false).SameDigest id (nightSale false) →
        ((nightSale false).Passes plainPostgres cornerCatalog (739000 * microsecondsPerDay)
          (739000 * microsecondsPerDay) cornerLedger "first" 0 ↔
        (nightSale false).Passes plainPostgres cornerCatalog (739000 * microsecondsPerDay)
          (739000 * microsecondsPerDay) cornerLedger "second" 0))) ↔
      (Identical (nightSale false) (nightSale false) → (nightSale false).InYears ∧
        (nightSale false).RegisteredAlike (nightSale false) plainPostgres cornerCatalog (739000 * microsecondsPerDay)) :=
  digest_identity_iff Function.injective_id fun _ _ => plainPostgres_uuidIn

end RetailSegmentation.Sales
