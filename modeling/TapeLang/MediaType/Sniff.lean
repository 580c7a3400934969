import TapeLang.Json.Reader
import TapeLang.Text.Utf8

/-!
The media type that the first bytes of a body suggest. Markup is recognised after white space and in
either case, other formats by their first bytes, and JSON by reading the whole body. What is left is
text when its first bytes hold no binary control character and are text on their own.
-/
namespace TapeLang.MediaType

def html : String := "text/html; charset=utf-8"
def xml : String := "text/xml; charset=utf-8"
def json : String := "application/json"
def binary : String := "application/octet-stream"
def plainText : String := "text/plain; charset=utf-8"

/-- The number of bytes that are looked at. -/
def sniffLength : Nat := 512

/-- Bytes that open a page. -/
def pageMarkers : List (List UInt8) :=
  ["<!doctype html", "<html", "<head", "<body", "<p", "<div", "<h1"].map Text.Utf8.encodeString

def xmlMarker : List UInt8 := Text.Utf8.encodeString "<?xml"

/-- First bytes of other formats. -/
def signatures : List (List UInt8 × String) :=
  [(Text.Utf8.encodeString "%PDF-", "application/pdf"),
   ([0x89, 0x50, 0x4E, 0x47, 0x0D, 0x0A, 0x1A, 0x0A], "image/png"),
   (Text.Utf8.encodeString "GIF87a", "image/gif"),
   (Text.Utf8.encodeString "GIF89a", "image/gif"),
   ([0xFF, 0xD8, 0xFF], "image/jpeg"),
   ([0x50, 0x4B, 0x03, 0x04], "application/zip"),
   ([0x1F, 0x8B, 0x08], "application/x-gzip")]

/-- White space before markup. -/
def isLayout (b : UInt8) : Bool := b == 0x9 || b == 0xA || b == 0xC || b == 0xD || b == 0x20

/-- The lower case of an ASCII letter. -/
def lowerByte (b : UInt8) : UInt8 := if 0x41 ≤ b ∧ b ≤ 0x5A then b + 0x20 else b

/-- Control characters that no text holds. -/
def isBinaryControl (b : UInt8) : Bool := b < 0x9 || (0xD < b && b < 0x20 && b != 0x1B)

/-- Whether a body is JSON as a whole. -/
def isJson (body : List UInt8) : Bool :=
  match Text.Utf8.decode body with
  | .ok text => (Json.read text).toBool
  | .error _ => false

/-- The media type that a body suggests. -/
def sniff (body : List UInt8) : String :=
  let head := body.take sniffLength
  let stripped := head.dropWhile isLayout
  let lowered := stripped.map lowerByte
  let opensJson := stripped.head? == some 0x7B || stripped.head? == some 0x5B
  if pageMarkers.any (·.isPrefixOf lowered) then html
  else if xmlMarker.isPrefixOf lowered then xml
  else
    match signatures.find? fun signature => signature.1.isPrefixOf head with
    | some (_, type) => type
    | none =>
      if opensJson && isJson body then json
      else if head.any isBinaryControl then binary
      else
        match Text.Utf8.decode head with
        | .ok _ => plainText
        | .error _ => binary

end TapeLang.MediaType
