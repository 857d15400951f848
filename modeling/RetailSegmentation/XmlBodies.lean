import Mathlib.Algebra.Order.Field.Rat
import Mathlib.Data.List.DropRight
import RetailSegmentation.XmlReader

/-! What the two kits make of an XML body that its XSD accepts (`_element_to_value` of `mosaiq_kit.contracts`, and
`element_to_value` of `contract.rs`): the schemas they follow, the trees they read and the values they give. -/

namespace RetailSegmentation.XmlBodies

/-! ### Schemas and values -/

inductive Kind where
  | null
  | boolean
  | integer
  | number
  | string
  | array
  | object
  deriving DecidableEq, Repr

/-- The `type` of a schema. -/
inductive TypeKeyword where
  | absent
  | one (kind : Kind)
  | many (kinds : List Kind)

/-- A resolved schema, with the keywords that the reading of XML looks at. -/
inductive Schema where
  | mk (type : TypeKeyword) (properties : List (String × Schema)) (items : Option Schema) (required : List String)
    (allOf oneOf anyOf : List Schema)

namespace Schema

/-- `{}`. -/
def empty : Schema := ⟨.absent, [], none, [], [], [], []⟩

def items : Schema → Option Schema
  | ⟨_, _, items, _, _, _, _⟩ => items

end Schema

/-- A JSON value: a number is the number it is, an object a map. -/
inductive JsonValue where
  | null
  | bool (flag : Bool)
  | number (value : ℚ)
  | string (text : List Char)
  | array (items : List JsonValue)
  | object (members : String → Option JsonValue)

/-- Later members replace earlier ones; the latest are looked up first. -/
def update (members later : List (String × Schema)) : List (String × Schema) := later ++ members

/-! ### Documents -/

/-- A part of an element's own text, or of an attribute's value: characters as the document has them, a
predefined entity or a character reference, or what is no text at all (a comment, a processing instruction,
the border of a CDATA section). -/
inductive Piece where
  | characters (raw : List Char)
  | reference (c : Char)
  | markup

/-- An element by its local name, the value of its `xsi:nil`, its own text and its child elements. -/
inductive Element where
  | mk (name : String) (nil : Option (List Piece)) (text : List Piece) (children : List Element)

def Element.name : Element → String
  | ⟨name, _, _, _⟩ => name

/-! ### Numbers -/

def splitNumber (text : List Char) : List Char × Option (List Char) × List Char :=
  match text.span Char.isDigit with
  | (whole, '.' :: rest) => let (fraction, rest) := rest.span Char.isDigit; (whole, some fraction, rest)
  | (whole, rest) => (whole, none, rest)

def splitSign : List Char → Bool × List Char
  | '-' :: rest => (true, rest)
  | '+' :: rest => (false, rest)
  | text => (false, text)

def splitMinus : List Char → Bool × List Char
  | '-' :: rest => (true, rest)
  | text => (false, text)

def readExponent : List Char → Option ℤ
  | [] => some 0
  | c :: rest =>
    let (negative, digits) := splitSign rest
    if (c = 'e' ∨ c = 'E') ∧ digits ≠ [] ∧ digits.all Char.isDigit then
      some ((if negative then -1 else 1) * Nat.ofDigitChars 10 digits 0)
    else none

def numberValue (negative : Bool) (whole fraction : List Char) (exponent : ℤ) : ℚ :=
  (if negative then -1 else 1) * Nat.ofDigitChars 10 (whole ++ fraction) 0 * 10 ^ (exponent - fraction.length)

/-- The characters that `str::trim` drops. -/
def whiteSpace : List (ℕ × ℕ) :=
  [(0x9, 0xd), (0x20, 0x20), (0x85, 0x85), (0xa0, 0xa0), (0x1680, 0x1680), (0x2000, 0x200a), (0x2028, 0x2029),
    (0x202f, 0x202f), (0x205f, 0x205f), (0x3000, 0x3000)]

def isWithin (ranges : List (ℕ × ℕ)) (c : Char) : Bool :=
  ranges.any fun range => range.1 ≤ c.toNat && c.toNat ≤ range.2

def trimAll (p : Char → Bool) (text : List Char) : List Char := (text.dropWhile p).rdropWhile p

/-! ### kit-py -/

namespace KitPy

/-- The text that lxml has: line ends normalized, references replaced. -/
def text (pieces : List Piece) : List Char :=
  pieces.flatMap fun piece => match piece with
    | .characters raw => Xml.normalizeLineEnds raw
    | .reference c => [c]
    | .markup => []

/-- `element.get(_XSI_NIL) in {"true", "1"}`. -/
def isNil (nil : Option (List Piece)) : Bool :=
  nil.any fun value => decide (text value ∈ ["true".toList, "1".toList])

mutual

def schemaType : Schema → Option Kind
  | ⟨.many kinds, _, _, _, _, _, _⟩ => kinds.find? (· ≠ .null)
  | ⟨.one kind, _, _, _, _, _, _⟩ => some kind
  | ⟨.absent, _, _, _, _, oneOf, anyOf⟩ => (branchType oneOf).or (branchType anyOf)

def branchType : List Schema → Option Kind
  | [] => none
  | branch :: rest => match schemaType branch with
    | some kind => if kind ≠ .null then some kind else branchType rest
    | none => branchType rest

end

mutual

def mergedProperties : Schema → List (String × Schema)
  | ⟨_, properties, _, _, allOf, oneOf, anyOf⟩ =>
    updateBranches (updateBranches (updateBranches properties allOf) oneOf) anyOf

def updateBranches (properties : List (String × Schema)) : List Schema → List (String × Schema)
  | [] => properties
  | branch :: rest => updateBranches (update properties (mergedProperties branch)) rest

end

mutual

def nullable : Schema → Bool
  | ⟨type, _, _, _, _, oneOf, anyOf⟩ =>
    (match type with
      | .absent => false
      | .one kind => decide (kind = .null)
      | .many kinds => kinds.contains .null) ||
    anyNullable oneOf || anyNullable anyOf

def anyNullable : List Schema → Bool
  | [] => false
  | branch :: rest => nullable branch || anyNullable rest

end

mutual

/-- `_required_names`, a set. -/
def requiredNames : Schema → List String
  | ⟨_, _, _, required, allOf, _, _⟩ => unionNames required allOf

def unionNames (names : List String) : List Schema → List String
  | [] => names
  | branch :: rest => unionNames (names ∪ requiredNames branch) rest

end

def strip (text : List Char) : List Char := trimAll (isWithin ((0x1c, 0x1f) :: whiteSpace)) text

/-- `int` of a text of ASCII digits; `none` where it raises `ValueError`. -/
def int (text : List Char) : Option ℤ :=
  let (negative, digits) := splitSign (strip text)
  let groups := digits.splitOn '_'
  if groups.all (fun group => group ≠ [] && group.all Char.isDigit) ∧ groups.flatten.length ≤ 4300 then
    some ((if negative then -1 else 1) * Nat.ofDigitChars 10 groups.flatten 0)
  else none

/-- `Decimal` of a finite number in ASCII digits; `none` where it raises. -/
def decimal (text : List Char) : Option ℚ :=
  let (negative, unsigned) := splitSign ((strip text).filter (· ≠ '_'))
  let (whole, fraction, rest) := splitNumber unsigned
  if whole ≠ [] ∨ fraction.getD [] ≠ [] then
    (readExponent rest).map (numberValue negative whole (fraction.getD []))
  else none

/-- The value of an element that has neither members nor the type of an object. -/
def leaf (kind : Option Kind) (text : List Char) : JsonValue :=
  match kind with
  | some .integer => match int text with
    | some n => .number n
    | none => .string text
  | some .number => match decimal text with
    | some value => .number value
    | none => .string text
  | some .boolean =>
    if text ∈ ["true".toList, "1".toList] then .bool true
    else if text ∈ ["false".toList, "0".toList] then .bool false
    else .string text
  | _ => .string text

def propertySchema (properties : List (String × Schema)) (name : String) : Schema :=
  (properties.lookup name).getD .empty

/-- The members that the values of the children make, and those that their absence does. -/
def members (schema : Schema) (values : List (String × JsonValue)) (name : String) : Option JsonValue :=
  let member := propertySchema (mergedProperties schema) name
  match (values.filter (·.1 = name)).map Prod.snd with
  | first :: rest => if schemaType member = some .array then some (.array (first :: rest)) else some first
  | [] =>
    if name ∈ requiredNames schema then
      if nullable member then some .null
      else if schemaType member = some .array then some (.array [])
      else none
    else none

mutual

def elementToValue : Element → Schema → JsonValue
  | ⟨_, nil, pieces, children⟩, schema =>
    if isNil nil then .null
    else if schemaType schema = some .object ∨ children ≠ [] then
      .object (members schema (childValues (mergedProperties schema) [] children))
    else leaf (schemaType schema) (text pieces)

/-- The children's values under their names; of the children of one name that is no list only the first is read. -/
def childValues (properties : List (String × Schema)) (seen : List String) :
    List Element → List (String × JsonValue)
  | [] => []
  | child :: rest =>
    let childSchema := propertySchema properties child.name
    if schemaType childSchema = some .array then
      (child.name, elementToValue child (childSchema.items.getD .empty)) :: childValues properties seen rest
    else if child.name ∈ seen then childValues properties seen rest
    else (child.name, elementToValue child childSchema) :: childValues properties (child.name :: seen) rest

end

end KitPy

/-! ### kit-rs -/

namespace KitRs

/-- The text that `parse_tree` collects: characters as they are in the document. -/
def text (pieces : List Piece) : List Char :=
  pieces.flatMap fun piece => match piece with
    | .characters raw => raw
    | .reference c => [c]
    | .markup => []

/-- `is_nil`, which looks at the attribute's value as it is written. -/
def isNil (nil : Option (List Piece)) : Bool :=
  nil.any fun value => value.all (fun piece => match piece with
    | .characters _ => true
    | _ => false) && decide (text value ∈ ["true".toList, "1".toList])

mutual

def schemaType : Schema → Option Kind
  | ⟨.many kinds, _, _, _, _, _, _⟩ => kinds.find? (· ≠ .null)
  | ⟨.one kind, _, _, _, _, _, _⟩ => some kind
  | ⟨.absent, _, _, _, _, oneOf, anyOf⟩ => (branchType oneOf).or (branchType anyOf)

def branchType : List Schema → Option Kind
  | [] => none
  | branch :: rest => ((schemaType branch).filter (· ≠ .null)).or (branchType rest)

end

mutual

def mergedProperties : Schema → List (String × Schema)
  | ⟨_, properties, _, _, allOf, oneOf, anyOf⟩ =>
    extendBranches (extendBranches (extendBranches properties allOf) oneOf) anyOf

def extendBranches (properties : List (String × Schema)) : List Schema → List (String × Schema)
  | [] => properties
  | branch :: rest => extendBranches (update properties (mergedProperties branch)) rest

end

mutual

def nullable : Schema → Bool
  | ⟨.one .null, _, _, _, _, _, _⟩ => true
  | ⟨.one _, _, _, _, _, oneOf, anyOf⟩ => anyNullable oneOf || anyNullable anyOf
  | ⟨.many kinds, _, _, _, _, oneOf, anyOf⟩ =>
    if kinds.any (· = .null) then true else anyNullable oneOf || anyNullable anyOf
  | ⟨.absent, _, _, _, _, oneOf, anyOf⟩ => anyNullable oneOf || anyNullable anyOf

def anyNullable : List Schema → Bool
  | [] => false
  | branch :: rest => nullable branch || anyNullable rest

end

mutual

/-- `required_names`, which adds to the names so far. -/
def requiredNames (names : List String) : Schema → List String
  | ⟨_, _, _, required, allOf, _, _⟩ => requiredBranches (names ++ required) allOf

def requiredBranches (names : List String) : List Schema → List String
  | [] => names
  | branch :: rest => requiredBranches (requiredNames names branch) rest

end

def trim (text : List Char) : List Char := trimAll (isWithin whiteSpace) text

/-- `serde_json`'s reading of a `Number` in arbitrary precision. -/
def parseNumber (text : List Char) : Option ℚ :=
  let (negative, unsigned) := splitMinus text
  let (whole, fraction, rest) := splitNumber unsigned
  if (whole = ['0'] ∨ (whole ≠ [] ∧ whole.head? ≠ some '0')) ∧ fraction ≠ some [] then
    (readExponent rest).map (numberValue negative whole (fraction.getD []))
  else none

def exactNumber (text : List Char) (integer : Bool) : Option ℚ :=
  let (negative, digits) := splitSign (trim text)
  let sign := if negative then ['-'] else []
  if digits = [] ∨ digits.head? = some '+' ∨ digits.head? = some '-' then none
  else if integer then
    if digits.all Char.isDigit then
      let significant := digits.dropWhile (· = '0')
      parseNumber (sign ++ if significant = [] then ['0'] else significant)
    else none
  else
    let normalized := sign ++ if digits.head? = some '.' then '0' :: digits else digits
    parseNumber (if normalized.getLast? = some '.' then normalized ++ ['0'] else normalized)

def leaf (kind : Option Kind) (text : List Char) : JsonValue :=
  match kind with
  | some .integer => ((exactNumber text true).map JsonValue.number).getD (.string text)
  | some .number => ((exactNumber text false).map JsonValue.number).getD (.string text)
  | some .boolean =>
    if text = "true".toList ∨ text = "1".toList then .bool true
    else if text = "false".toList ∨ text = "0".toList then .bool false
    else .string text
  | _ => .string text

def propertySchema (properties : List (String × Schema)) (name : String) : Schema :=
  (properties.lookup name).getD .empty

def members (schema : Schema) (values : List (String × JsonValue)) (name : String) : Option JsonValue :=
  match (values.filter (·.1 = name)).map Prod.snd with
  | first :: rest =>
    if schemaType (propertySchema (mergedProperties schema) name) = some .array then some (.array (first :: rest))
    else some first
  | [] =>
    if name ∈ requiredNames [] schema then
      match (mergedProperties schema).lookup name with
      | some member =>
        if nullable member then some .null
        else if schemaType member = some .array then some (.array [])
        else none
      | none => none
    else none

mutual

def elementToValue : Element → Schema → JsonValue
  | ⟨_, nil, pieces, children⟩, schema =>
    if isNil nil then .null
    else if schemaType schema = some .object ∨ children ≠ [] then
      .object (members schema (childValues (mergedProperties schema) [] children))
    else leaf (schemaType schema) (text pieces)

def childValues (properties : List (String × Schema)) (seen : List String) :
    List Element → List (String × JsonValue)
  | [] => []
  | child :: rest =>
    let childSchema := propertySchema properties child.name
    if schemaType childSchema = some .array then
      (child.name, elementToValue child (childSchema.items.getD .empty)) :: childValues properties seen rest
    else if child.name ∈ seen then childValues properties seen rest
    else (child.name, elementToValue child childSchema) :: childValues properties (child.name :: seen) rest

end

end KitRs

end RetailSegmentation.XmlBodies
