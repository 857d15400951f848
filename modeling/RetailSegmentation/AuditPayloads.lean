import RetailSegmentation.KitErrors
import RetailSegmentation.RedactedTrees
import RetailSegmentation.XmlRendering

/-! The entries of the audit trail (`services/audit-trail/src/lib.rs`): rows of `audit_log`, whose payloads lose
every credential before the kit renders them. -/

namespace RetailSegmentation.AuditPayloads

open Rendering (Service Members)
open RedactedTree

/-! ### Payloads -/

inductive Scalar where
  | null
  | bool (flag : Bool)
  | number (text : String)
  | string (text : String)
  deriving DecidableEq, Repr

/-- A `serde_json::Value`, and a `jsonb`. -/
abbrev Json := RedactedTree String Scalar

/-- How PostgreSQL writes a `jsonb`, what serde_json reads and writes, and how chrono writes a time. -/
structure Crates where
  jsonb : Json → List Char
  fromStr : List Char → Option Json
  toText : Json → List Char
  timestamp : ℤ → String

def credential : String := "password_hash"

def eqIgnoreAsciiCase (a b : String) : Bool := a.toList.map Char.toLower = b.toList.map Char.toLower

def isCredential (key : String) : Bool := eqIgnoreAsciiCase key credential

/-- `strip_credentials`: the members that are kept are stripped in turn. -/
def stripCredentials (value : Json) : Json := value.strip isCredential

def unreadable : ApiError := ⟨500, "internal_error", "An audit payload could not be read.", []⟩

def cleanPayload (crates : Crates) : Option (List Char) → Except ApiError (Option (List Char))
  | none => .ok none
  | some raw => match crates.fromStr raw with
    | none => .error unreadable
    | some parsed => .ok (some (crates.toText (stripCredentials parsed)))

/-! ### Entries -/

/-- A row of `audit_log`. -/
structure Row where
  auditId : ℤ
  userId : Option String
  entity : String
  entityPk : String
  action : String
  dataBefore : Option Json
  dataAfter : Option Json
  executedAt : ℤ

structure AuditEntry where
  auditId : ℤ
  userId : Option String
  entity : String
  entityPk : String
  action : String
  dataBefore : Option (List Char)
  dataAfter : Option (List Char)
  executedAt : ℤ
  deriving DecidableEq

/-- `from_row` of the columns as the statements read them, the payloads as text. -/
def AuditEntry.fromRow (crates : Crates) (row : Row) : Except ApiError AuditEntry := do
  let dataBefore ← cleanPayload crates (row.dataBefore.map crates.jsonb)
  let dataAfter ← cleanPayload crates (row.dataAfter.map crates.jsonb)
  return ⟨row.auditId, row.userId, row.entity, row.entityPk, row.action, dataBefore, dataAfter, row.executedAt⟩

/-- The values of the kit that an entry has. -/
inductive Value where
  | null
  | int (n : ℤ)
  | text (text : String)
  | jsonText (text : List Char)
  | dateTime (moment : ℤ)

def AuditEntry.wire (entry : AuditEntry) : List (String × Value) :=
  [("audit_id", .int entry.auditId), ("user_id", entry.userId.elim .null .text), ("entity", .text entry.entity),
    ("entity_pk", .text entry.entityPk), ("action", .text entry.action),
    ("data_before", entry.dataBefore.elim .null .jsonText), ("data_after", entry.dataAfter.elim .null .jsonText),
    ("executed_at", .dateTime entry.executedAt)]

/-! ### Renderings -/

def wireValue (crates : Crates) : Value → Json
  | .null => .scalar .null
  | .int n => .scalar (.number (toString n))
  | .text text => .scalar (.string text)
  | .jsonText text => (crates.fromStr text).getD (.scalar (.string (String.ofList text)))
  | .dateTime moment => .scalar (.string (crates.timestamp moment))

def wireObject (crates : Crates) (members : List (String × Value)) : Json :=
  .object (members.map fun member => (member.1, wireValue crates member.2))

/-- A value as the kit writes it into an element. -/
def xmlValue (crates : Crates) : Value → Rendering.Value
  | .null => .null
  | .int n => .scalar (.int n)
  | .text text => .scalar (.text (Rendering.ascii text))
  | .jsonText text => .scalar (.text (text.map .char))
  | .dateTime moment => .scalar (.text (Rendering.ascii (crates.timestamp moment)))

def xmlMembers (crates : Crates) : List (String × Value) → Members
  | [] => .nil
  | (key, value) :: rest => .cons (Rendering.ascii key) (xmlValue crates value) (xmlMembers crates rest)

def root : Rendering.Name := ⟨"AuditEntry".toList, by decide⟩

/-- `render_json` of an entry's representation. -/
def AuditEntry.renderJson (crates : Crates) (entry : AuditEntry) : Json := wireObject crates entry.wire

/-- `render_xml` of an entry's representation. -/
def AuditEntry.renderXml (crates : Crates) (service : Service) (requestSize : ℤ) (entry : AuditEntry) :
    List Char :=
  Rendering.KitRs.render service requestSize (.representation root none (xmlMembers crates entry.wire))

def entryJson (crates : Crates) (row : Row) : Except ApiError Json :=
  (AuditEntry.fromRow crates row).map (·.renderJson crates)

def entryXml (crates : Crates) (service : Service) (requestSize : ℤ) (row : Row) : Except ApiError (List Char) :=
  (AuditEntry.fromRow crates row).map (·.renderXml crates service requestSize)

/-! ### What an entry may show -/

/-- The rows differ in credentials of their payloads, at most. -/
structure Row.SameElse (row row' : Row) : Prop where
  columns : { row' with dataBefore := row.dataBefore, dataAfter := row.dataAfter } = row
  before : Option.Rel (RedactedTree.SameElse isCredential) row.dataBefore row'.dataBefore
  after : Option.Rel (RedactedTree.SameElse isCredential) row.dataAfter row'.dataAfter

def Row.payloads (row : Row) : List Json := row.dataBefore.toList ++ row.dataAfter.toList

def Crates.Reads (crates : Crates) (row : Row) : Prop :=
  ∀ payload ∈ row.payloads, crates.fromStr (crates.jsonb payload) = some payload

/-- The entry with its payloads as trees without a credential, and nothing else taken out. -/
def Row.shown (crates : Crates) (row : Row) : Json :=
  .object [("audit_id", .scalar (.number (toString row.auditId))),
    ("user_id", .scalar (row.userId.elim .null .string)), ("entity", .scalar (.string row.entity)),
    ("entity_pk", .scalar (.string row.entityPk)), ("action", .scalar (.string row.action)),
    ("data_before", (row.dataBefore.map stripCredentials).getD (.scalar .null)),
    ("data_after", (row.dataAfter.map stripCredentials).getD (.scalar .null)),
    ("executed_at", .scalar (.string (crates.timestamp row.executedAt)))]

variable {crates : Crates} {row row' : Row}

theorem cleanPayload_read {payload : Option Json}
    (hreads : ∀ tree ∈ payload, crates.fromStr (crates.jsonb tree) = some tree) :
    cleanPayload crates (payload.map crates.jsonb) = .ok (payload.map fun tree => crates.toText (stripCredentials tree)) := by
  cases payload with
  | none => rfl
  | some tree =>
    have hread := hreads tree rfl
    simp [cleanPayload, hread]

theorem Crates.Reads.before (hreads : crates.Reads row) :
    ∀ tree ∈ row.dataBefore, crates.fromStr (crates.jsonb tree) = some tree :=
  fun tree htree => hreads tree (List.mem_append_left _ (Option.mem_toList.mpr htree))

theorem Crates.Reads.after (hreads : crates.Reads row) :
    ∀ tree ∈ row.dataAfter, crates.fromStr (crates.jsonb tree) = some tree :=
  fun tree htree => hreads tree (List.mem_append_right _ (Option.mem_toList.mpr htree))

def Row.entry (crates : Crates) (row : Row) : AuditEntry :=
  ⟨row.auditId, row.userId, row.entity, row.entityPk, row.action,
    row.dataBefore.map fun tree => crates.toText (stripCredentials tree),
    row.dataAfter.map fun tree => crates.toText (stripCredentials tree), row.executedAt⟩

theorem fromRow_read (hreads : crates.Reads row) : AuditEntry.fromRow crates row = .ok (row.entry crates) := by
  rw [AuditEntry.fromRow, cleanPayload_read hreads.before, cleanPayload_read hreads.after]
  rfl

theorem stripped_eq {payload payload' : Option Json}
    (hsame : Option.Rel (RedactedTree.SameElse isCredential) payload payload') :
    payload.map (fun tree => crates.toText (stripCredentials tree)) =
      payload'.map fun tree => crates.toText (stripCredentials tree) := by
  cases hsame with
  | none => rfl
  | some h => rw [Option.map_some, Option.map_some, stripCredentials, stripCredentials, h.strip_eq]

theorem Row.SameElse.entry_eq (hsame : row.SameElse row') : row.entry crates = row'.entry crates := by
  rw [Row.entry, Row.entry, stripped_eq hsame.before, stripped_eq hsame.after, ← hsame.columns]

theorem wireValue_payload {payload : Option Json}
    (hback : ∀ tree ∈ payload, crates.fromStr (crates.toText (stripCredentials tree)) = some (stripCredentials tree)) :
    wireValue crates ((payload.map fun tree => crates.toText (stripCredentials tree)).elim .null .jsonText) =
      (payload.map stripCredentials).getD (.scalar .null) := by
  cases payload with
  | none => rfl
  | some tree =>
    have hread := hback tree rfl
    simp [wireValue, hread]

theorem renderJson_entry (hback : ∀ payload ∈ row.payloads,
    crates.fromStr (crates.toText (stripCredentials payload)) = some (stripCredentials payload)) :
    (row.entry crates).renderJson crates = row.shown crates := by
  have hbefore := wireValue_payload fun tree htree =>
    hback tree (List.mem_append_left _ (Option.mem_toList.mpr htree))
  have hafter := wireValue_payload fun tree htree =>
    hback tree (List.mem_append_right _ (Option.mem_toList.mpr htree))
  have huser : wireValue crates (row.userId.elim .null .text) = .scalar (row.userId.elim .null .string) := by
    cases row.userId with
    | none => rfl
    | some id => rfl
  simp only [AuditEntry.renderJson, wireObject, AuditEntry.wire, List.map_cons, List.map_nil, Row.entry, hbefore,
    hafter, huser, Row.shown]
  rfl

/-- Neither the clean payloads nor a rendering tell the rows apart. -/
structure Indistinct (crates : Crates) (row row' : Row) : Prop where
  before : cleanPayload crates (row.dataBefore.map crates.jsonb) = cleanPayload crates (row'.dataBefore.map crates.jsonb)
  after : cleanPayload crates (row.dataAfter.map crates.jsonb) = cleanPayload crates (row'.dataAfter.map crates.jsonb)
  json : entryJson crates row = entryJson crates row'
  xml : ∀ service requestSize, entryXml crates service requestSize row = entryXml crates service requestSize row'

/-- The payloads of the row are the stripped trees: with every member, item and scalar but the credentials in its
place, and no credential at any depth. -/
structure Kept (crates : Crates) (row : Row) : Prop where
  entry : AuditEntry.fromRow crates row = .ok (row.entry crates)
  same : ∀ payload ∈ row.payloads, RedactedTree.SameElse isCredential payload (stripCredentials payload)
  clean : ∀ payload ∈ row.payloads, Open isCredential (stripCredentials payload)
  shown : (∀ payload ∈ row.payloads,
      crates.fromStr (crates.toText (stripCredentials payload)) = some (stripCredentials payload)) →
    entryJson crates row = .ok (row.shown crates)

theorem indistinct_read (hreads : crates.Reads row) (hreads' : crates.Reads row') (hsame : row.SameElse row') :
    Indistinct crates row row' := by
  have hentry : AuditEntry.fromRow crates row = AuditEntry.fromRow crates row' := by
    rw [fromRow_read hreads, fromRow_read hreads', hsame.entry_eq]
  constructor
  · rw [cleanPayload_read hreads.before, cleanPayload_read hreads'.before, stripped_eq hsame.before]
  · rw [cleanPayload_read hreads.after, cleanPayload_read hreads'.after, stripped_eq hsame.after]
  · rw [entryJson, entryJson, hentry]
  · intro service requestSize
    rw [entryXml, entryXml, hentry]

theorem kept_read (hreads : crates.Reads row) : Kept crates row := by
  constructor
  · exact fromRow_read hreads
  · exact fun payload _ => sameElse_strip payload
  · exact fun payload _ => open_strip payload
  · intro hback
    rw [entryJson, fromRow_read hreads]
    exact congrArg Except.ok (renderJson_entry hback)

/-- Rows whose payloads are read and that differ in credentials alone are shown alike, and as they stand but for
the credentials. -/
theorem credentials_stay (hreads : crates.Reads row) (hreads' : crates.Reads row') (hsame : row.SameElse row') :
    Indistinct crates row row' ∧ Kept crates row :=
  ⟨indistinct_read hreads hreads' hsame, kept_read hreads⟩

/-! ### Readers on some payloads -/

mutual

/-- A tree as JSON with the given separators, where no text has to be escaped. -/
def written (comma colon : List Char) : Json → List Char
  | .scalar .null => "null".toList
  | .scalar (.bool flag) => (if flag then "true" else "false").toList
  | .scalar (.number text) => text.toList
  | .scalar (.string text) => '"' :: (text.toList ++ ['"'])
  | .array [] => "[]".toList
  | .array (item :: rest) => '[' :: (written comma colon item ++ writtenItems comma colon rest)
  | .object [] => ['\x7b', '\x7d']
  | .object ((key, value) :: rest) =>
    '\x7b' :: '"' :: (key.toList ++ '"' :: (colon ++ written comma colon value ++ writtenMembers comma colon rest))

def writtenItems (comma colon : List Char) : List Json → List Char
  | [] => [']']
  | item :: rest => comma ++ written comma colon item ++ writtenItems comma colon rest

def writtenMembers (comma colon : List Char) : List (String × Json) → List Char
  | [] => ['\x7d']
  | (key, value) :: rest =>
    comma ++ '"' :: (key.toList ++ '"' :: (colon ++ written comma colon value ++ writtenMembers comma colon rest))

end

def Crates.on (payloads : List Json) : Crates where
  jsonb := written ", ".toList ": ".toList
  fromStr text := payloads.find? fun payload =>
    text = written ", ".toList ": ".toList payload ∨ text = written ",".toList ":".toList payload
  toText := written ",".toList ":".toList
  timestamp _ := "2026-01-01T00:00:00Z"

def nameOnly : Json := .object [("name", .scalar (.string "Ana"))]

def nameAndHash : Json := .object [("Password_Hash", .scalar (.string "x")), ("name", .scalar (.string "Ana"))]

def userRow (payload : Json) : Row := ⟨1, none, "app_user", "7", "INSERT", none, some payload, 0⟩

theorem credentials_stay_userRow :
    Indistinct (.on [nameAndHash, nameOnly]) (userRow nameAndHash) (userRow nameOnly) ∧
      Kept (.on [nameAndHash, nameOnly]) (userRow nameAndHash) := by
  refine credentials_stay ?_ ?_ ⟨rfl, .none, .some (.object (.left (by decide) _ (.kept _ (.scalar _) .nil)))⟩
  · intro payload hpayload
    rw [List.mem_singleton.mp hpayload]
    rfl
  · intro payload hpayload
    rw [List.mem_singleton.mp hpayload]
    rfl

/-- `depth` arrays in one another. -/
def nested : ℕ → Json
  | 0 => .scalar .null
  | depth + 1 => .array [nested depth]

/-- A payload that the reader refuses, as it is 128 levels deep. -/
def deepHash : Json := .object [("password_hash", nested 127)]

theorem deepHash_shows : ¬ ∀ row row' : Row, row.SameElse row' → Indistinct (.on [.object []]) row row' := by
  intro h
  have hrows := h (userRow deepHash) (userRow (.object [])) ⟨rfl, .none,
    .some (.object (.left (by decide) _ .nil))⟩
  have hrefused : cleanPayload (.on [.object []]) (some (written ", ".toList ": ".toList deepHash)) = .error unreadable := rfl
  have hread : cleanPayload (.on [.object []]) (some (written ", ".toList ": ".toList (.object []))) =
    .ok (some ['\x7b', '\x7d']) := rfl
  have hafter := hrows.after
  exact absurd (hrefused.symm.trans (hafter.trans hread)) (by simp)

end RetailSegmentation.AuditPayloads
