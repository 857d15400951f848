import Mathlib.Data.List.Basic
import Mathlib.Logic.Function.Iterate
import Mathlib.Data.Nat.Notation
import Mathlib.Tactic.Common

/-! Uploads of product images (`web/services/uploads.py`): the checks of `_validate`, and the walk over a
PNG's chunks. -/

namespace RetailSegmentation.Uploads

/-- What leaves a check: the refusal a caller handles, or `struct.error`. -/
inductive Raised where
  | uploadRejected (message : String)
  | structError
  deriving DecidableEq, Repr

/-! ### `struct` and `zlib` -/

/-- The unsigned big-endian integer of `>I`. -/
def bigEndian (bytes : List UInt8) : ℕ := bytes.foldl (fun n b => 256 * n + b.toNat) 0

def unpackI (bytes : List UInt8) : Except Raised ℕ :=
  if bytes.length = 4 then .ok (bigEndian bytes) else .error .structError

def unpackII (bytes : List UInt8) : Except Raised (ℕ × ℕ) :=
  if bytes.length = 8 then .ok (bigEndian (bytes.take 4), bigEndian (bytes.drop 4)) else .error .structError

def unpackI4s (bytes : List UInt8) : Except Raised (ℕ × List UInt8) :=
  if bytes.length = 8 then .ok (bigEndian (bytes.take 4), bytes.drop 4) else .error .structError

def crcBit (crc : UInt32) : UInt32 := if crc &&& 1 = 1 then (crc >>> 1) ^^^ 0xEDB88320 else crc >>> 1

def crcByte (crc : UInt32) (b : UInt8) : UInt32 := Nat.iterate crcBit 8 (crc ^^^ b.toUInt32)

/-- `zlib.crc32`. -/
def crc32 (bytes : List UInt8) : ℕ := (bytes.foldl crcByte 0xFFFFFFFF ^^^ 0xFFFFFFFF).toNat

/-- `data[start:stop]`. -/
def slice (data : List UInt8) (start stop : ℕ) : List UInt8 := (data.take stop).drop start

/-! ### `_check_png` -/

def pngSignature : List UInt8 := [0x89, 0x50, 0x4E, 0x47, 0x0D, 0x0A, 0x1A, 0x0A]

def maxImageSidePixels : ℕ := 8192

def ihdr : List UInt8 := [0x49, 0x48, 0x44, 0x52]

def iend : List UInt8 := [0x49, 0x45, 0x4E, 0x44]

example : crc32 iend = 0xAE426082 := by decide +kernel

def malformed : Raised := .uploadRejected "The PNG file is damaged or incomplete."

def oversized (width height : ℕ) : Raised :=
  .uploadRejected
    s!"The image is {width}×{height} pixels. Each side must be {maxImageSidePixels} pixels or fewer."

def trailing : Raised :=
  .uploadRejected "The PNG file has extra data after its end. Export the image again and upload that file."

/-- The check of the first chunk. -/
def checkHeader (kind body : List UInt8) (length : ℕ) : Except Raised Unit :=
  if kind ≠ ihdr ∨ length ≠ 13 then .error malformed
  else do
    let (width, height) ← unpackII (slice body 0 8)
    if ¬ (0 < width ∧ width ≤ maxImageSidePixels) ∨ ¬ (0 < height ∧ height ≤ maxImageSidePixels) then
      .error (oversized width height)
    else .ok ()

/-- The loop of `_check_png`. -/
def walk (data : List UInt8) (position : ℕ) (first : Bool) : Except Raised Unit :=
  if _ : data.length < position + 8 then .error malformed
  else do
    let (length, kind) ← unpackI4s (slice data position (position + 8))
    let bodyStart := position + 8
    let bodyEnd := bodyStart + length
    if data.length < bodyEnd + 4 then .error malformed
    else do
      let body := slice data bodyStart bodyEnd
      let crc ← unpackI (slice data bodyEnd (bodyEnd + 4))
      if crc32 (kind ++ body) ≠ crc then .error malformed
      else if first then do
        checkHeader kind body length
        walk data (bodyEnd + 4) false
      else if kind = iend then
        if bodyEnd + 4 ≠ data.length then .error trailing else .ok ()
      else walk data (bodyEnd + 4) false
termination_by data.length - position
decreasing_by all_goals omega

def checkPng (data : List UInt8) : Except Raised Unit := walk data pngSignature.length true

/-! ### `_validate` -/

def extensionByType : List (String × String) :=
  [("image/jpeg", ".jpg"), ("image/png", ".png"), ("image/webp", ".webp")]

def hasSignature (contentType : String) (header : List UInt8) : Bool :=
  if contentType = "image/jpeg" then [0xFF, 0xD8, 0xFF].isPrefixOf header
  else if contentType = "image/png" then pngSignature.isPrefixOf header
  else [0x52, 0x49, 0x46, 0x46].isPrefixOf header && slice header 8 12 = [0x57, 0x45, 0x42, 0x50]

/-- What `_validate` reads of the configuration, and how it writes the refusal of a large file. -/
structure Config where
  allowedImageTypes : List String
  maxUploadBytes : ℕ
  tooLarge : ℕ → String

def validate (config : Config) (contentType : String) (data : List UInt8) : Except Raised String :=
  match extensionByType.lookup contentType with
  | none =>
    .error (.uploadRejected (refusal contentType))
  | some extension =>
    if contentType ∉ config.allowedImageTypes then .error (.uploadRejected (refusal contentType))
    else if data.length = 0 then .error (.uploadRejected "The image file is empty.")
    else if config.maxUploadBytes < data.length then .error (.uploadRejected (config.tooLarge data.length))
    else if !hasSignature contentType (slice data 0 12) then
      .error (.uploadRejected "The file content does not match the selected image type.")
    else do
      if contentType = "image/png" then checkPng data
      return extension
where
  refusal (contentType : String) : String :=
    let shown := if contentType = "" then "unknown" else contentType
    let allowed := String.intercalate ", " (config.allowedImageTypes.mergeSort fun a b => a ≤ b)
    s!"'{shown}' is not an accepted image type. Allowed types: {allowed}."

end RetailSegmentation.Uploads
