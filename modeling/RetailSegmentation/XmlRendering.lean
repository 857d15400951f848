import Mathlib.Data.List.DropRight
import RetailSegmentation.TextCodes
import RetailSegmentation.XmlReader

/-! The XML documents that the two kits write of one reply (`mosaiq_kit.rendering` and `rendering.rs`): the
element tree that `_append` builds and `etree.tostring` writes, and the text that `XmlWriter` writes. -/

namespace RetailSegmentation.Rendering

open TextCodes

/-! ### Values -/

/-- A code point of a Python string; a Rust string has no surrogates. -/
inductive CodePoint where
  | char (c : Char)
  | surrogate (n : Fin 2048)
  deriving DecidableEq, Repr

abbrev Text := List CodePoint

def CodePoint.char? : CodePoint → Option Char
  | .char c => some c
  | .surrogate _ => none

def chars (text : Text) : List Char := text.filterMap CodePoint.char?

/-- A finite double, ± mantissa · 2 ^ exponent. -/
structure Double where
  negative : Bool
  mantissa : ℕ
  exponent : ℤ
  deriving DecidableEq, Repr

/-- A value without members; a decimal is its digits and how many of them are behind the point. -/
inductive Scalar where
  | bool (flag : Bool)
  | int (n : ℤ)
  | decimal (negative : Bool) (coefficient scale : ℕ)
  | float (double : Double)
  | text (text : Text)
  deriving DecidableEq, Repr

mutual

inductive Value where
  | null
  | scalar (scalar : Scalar)
  | list (items : Items)
  | object (members : Members)

inductive Items where
  | nil
  | cons (item : Value) (rest : Items)

inductive Members where
  | nil
  | cons (key : Text) (value : Value) (rest : Members)

end

/-- A name that the service gives to an element. -/
abbrev Name := { name : List Char // Xml.isNcName name = true }

/-- A text that an attribute holds as it is. -/
abbrev PlainText := { text : List Char // ∀ c ∈ text, Xml.isPlain c = true }

/-- What a service answers with. -/
inductive Reply where
  | representation (root : Name) (xsiType : Option PlainText) (data : Members)
  | collection (root item : Name) (items : List Members)
  | page (root item : Name) (items : List Members) (page total : ℤ) (size : Option ℤ)

def commonNamespace : List Char := "https://mosaiq.maxthecoder.online/xml/common/v1".toList

def xsiNamespace : List Char := "http://www.w3.org/2001/XMLSchema-instance".toList

/-- A service, by its own namespace. -/
structure Service where
  uri : List Char
  plain : ∀ c ∈ uri, Xml.isPlain c = true
  own : uri ≠ commonNamespace

def ascii (text : String) : Text := text.toList.map .char

/-- The items of a collection, each a child of the root. -/
def itemMembers (item : Name) : List Members → Members
  | [] => .nil
  | members :: rest => .cons (item.val.map .char) (.object members) (itemMembers item rest)

/-- The members of `PageInfo`. -/
def pageInfo (page total size : ℤ) : Members :=
  .cons (ascii "page") (.scalar (.int page)) (.cons (ascii "size") (.scalar (.int size))
    (.cons (ascii "total") (.scalar (.int total)) .nil))

/-! ### Texts -/

/-- `n / d`, to the nearest and a tie to the even one. -/
def roundHalfEven (n d : ℕ) : ℕ :=
  let quotient := n / d
  let twice := 2 * (n % d)
  if d < twice ∨ twice = d ∧ quotient % 2 = 1 then quotient + 1 else quotient

/-- A double with six digits behind the point, correctly rounded. -/
def fixed (double : Double) : List Char :=
  let scaled := double.mantissa * 10 ^ 6 * 2 ^ double.exponent.toNat
  let millionths := roundHalfEven scaled (2 ^ (-double.exponent).toNat)
  (if double.negative then ['-'] else []) ++ natText (millionths / 10 ^ 6) ++ '.' :: padText 10 6 (millionths % 10 ^ 6)

def decimalText (negative : Bool) (coefficient scale : ℕ) : List Char :=
  (if negative then ['-'] else []) ++ natText (coefficient / 10 ^ scale) ++
    if scale = 0 then [] else '.' :: padText 10 scale (coefficient % 10 ^ scale)

/-- `rstrip(c)`, and `trim_end_matches(c)`. -/
def trimEnd (c : Char) (text : List Char) : List Char := text.rdropWhile (· = c)

def element (tag content : List Char) : List Char :=
  '<' :: (tag ++ '>' :: (content ++ '<' :: '/' :: (tag ++ ['>'])))

def attributeText (name value : List Char) : List Char := ' ' :: (name ++ '=' :: '"' :: (value ++ ['"']))

/-! ### kit-py -/

namespace KitPy

/-- `_text` of a value that is not a string. -/
def text : Scalar → Text
  | .decimal negative coefficient scale => (decimalText negative coefficient scale).map .char
  | .bool flag => ascii (if flag then "true" else "false")
  | .float double => (trimEnd '.' (trimEnd '0' (fixed double))).map .char
  | .int n => (intText n).map .char
  | .text text => text

def isXmlChar : CodePoint → Bool
  | .char c => Xml.isChar c
  | .surrogate _ => false

/-- `etree.QName` of a key, which raises `ValueError` where it is no name. -/
def qname (key : Text) : Option (List Char) :=
  if key.all (CodePoint.char? · |>.isSome) ∧ Xml.isNcName (chars key) then some (chars key) else none

/-- `child.text = text`, which raises `ValueError` for a character that XML does not have. -/
def assign (text : Text) : Option (List Char) := if text.all isXmlChar then some (chars text) else none

/-- How a character of a text is written. -/
def escape (c : Char) : List Char :=
  if c = '<' then "&lt;".toList
  else if c = '>' then "&gt;".toList
  else if c = '&' then "&amp;".toList
  else if c = '\r' then "&#13;".toList
  else [c]

def prefixed (service : Service) (uri name : List Char) : List Char :=
  if uri = service.uri then name else "common".toList ++ ':' :: name

/-- An element as it is written, one with no children in one tag. -/
def parent (tag children : List Char) : List Char :=
  if children = [] then '<' :: (tag ++ ['/', '>']) else element tag children

mutual

/-- What `_append` adds to its parent, written out; `none` where it raises `ValueError`. -/
def append (service : Service) (uri : List Char) (key : Text) : Value → Option (List Char)
  | .null => some []
  | .list items => appendItems service uri key items
  | .object members => do
    let name ← qname key
    let children ← appendMembers service uri members
    return parent (prefixed service uri name) children
  | .scalar scalar => do
    let name ← qname key
    let content ← assign (text scalar)
    return element (prefixed service uri name) (content.flatMap escape)

def appendItems (service : Service) (uri : List Char) (key : Text) : Items → Option (List Char)
  | .nil => some []
  | .cons item rest => do
    let first ← append service uri key item
    let others ← appendItems service uri key rest
    return first ++ others

def appendMembers (service : Service) (uri : List Char) : Members → Option (List Char)
  | .nil => some []
  | .cons key value rest => do
    let first ← append service uri key value
    let others ← appendMembers service uri rest
    return first ++ others

end

/-- The root's tags around its children. -/
def document (service : Service) (root : Name) (xsiType : Option PlainText) (children : List Char) : List Char :=
  let opening := '<' :: (root.val ++ attributeText "xmlns:common".toList commonNamespace ++
    (xsiType.elim [] fun _ => attributeText "xmlns:xsi".toList xsiNamespace) ++ attributeText "xmlns".toList service.uri ++
    xsiType.elim [] fun type => attributeText "xsi:type".toList type.val)
  Xml.declaration ++ '\n' :: (opening ++
    if children = [] then ['/', '>'] else '>' :: (children ++ '<' :: '/' :: (root.val ++ ['>'])))

/-- The XML of `render_representation`; `none` where it raises. -/
def render (service : Service) (requestSize : ℤ) : Reply → Option (List Char)
  | .representation root xsiType data => do
    let children ← appendMembers service service.uri data
    return document service root xsiType children
  | .collection root item items => do
    let children ← appendMembers service service.uri (itemMembers item items)
    return document service root none children
  | .page root item items page total size => do
    let children ← appendMembers service service.uri (itemMembers item items)
    let pageInfo ← append service commonNamespace (ascii "PageInfo") (.object (pageInfo page total (size.getD requestSize)))
    return document service root none (children ++ pageInfo)

end KitPy

/-! ### kit-rs -/

namespace KitRs

def text : Scalar → Text
  | .bool flag => ascii (if flag then "true" else "false")
  | .int n => (intText n).map .char
  | .float double => (trimEnd '.' (trimEnd '0' (fixed double))).map .char
  | .decimal negative coefficient scale => (decimalText negative coefficient scale).map .char
  | .text text => text

/-- `xml_safe`: U+FFFD for each character that XML does not have. -/
def xmlSafe (text : Text) : List Char :=
  text.map fun point => match point with
    | .char c => if Xml.isChar c then c else Char.ofNat 0xfffd
    | .surrogate _ => Char.ofNat 0xfffd

/-- `quick_xml::escape::escape`, character by character. -/
def escape (c : Char) : List Char :=
  if c = '<' then "&lt;".toList
  else if c = '>' then "&gt;".toList
  else if c = '\'' then "&apos;".toList
  else if c = '&' then "&amp;".toList
  else if c = '"' then "&quot;".toList
  else [c]

def qualified (service : Service) (name uri : List Char) : List Char :=
  if uri = service.uri then name else "common".toList ++ ':' :: name

mutual

/-- What `XmlWriter::append` writes. -/
def append (service : Service) (uri : List Char) (key : Text) : Value → List Char
  | .null => []
  | .list items => appendItems service uri key items
  | .object members => element (qualified service (chars key) uri) (appendMembers service uri members)
  | .scalar scalar => element (qualified service (chars key) uri) ((xmlSafe (text scalar)).flatMap escape)

def appendItems (service : Service) (uri : List Char) (key : Text) : Items → List Char
  | .nil => []
  | .cons item rest => append service uri key item ++ appendItems service uri key rest

def appendMembers (service : Service) (uri : List Char) : Members → List Char
  | .nil => []
  | .cons key value rest => append service uri key value ++ appendMembers service uri rest

end

/-- `XmlWriter::open`, what is written within, and `finish`. -/
def document (service : Service) (root : Name) (xsiType : Option PlainText) (children : List Char) : List Char :=
  Xml.declaration ++ '\n' :: ('<' :: (root.val ++ attributeText "xmlns".toList (service.uri.flatMap escape) ++
    attributeText "xmlns:common".toList commonNamespace ++ (xsiType.elim [] fun type =>
      attributeText "xmlns:xsi".toList xsiNamespace ++ attributeText "xsi:type".toList (type.val.flatMap escape)) ++
    '>' :: (children ++ '<' :: '/' :: (root.val ++ ['>']))))

/-- `render_xml`. -/
def render (service : Service) (requestSize : ℤ) : Reply → List Char
  | .representation root xsiType data => document service root xsiType (appendMembers service service.uri data)
  | .collection root item items => document service root none (appendMembers service service.uri (itemMembers item items))
  | .page root item items page total size =>
    document service root none (appendMembers service service.uri (itemMembers item items) ++
      append service commonNamespace (ascii "PageInfo") (.object (pageInfo page total (size.getD requestSize))))

end KitRs

end RetailSegmentation.Rendering
