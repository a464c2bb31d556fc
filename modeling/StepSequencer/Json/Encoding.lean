import StepSequencer.Text.Utf8
import StepSequencer.Text.Wide

/-!
# The encoding of JSON texts

A JSON text starts with two ASCII characters, or with one if it has no more. So the zeros among its
first bytes tell how its characters are stored.
-/
namespace StepSequencer.Json

/-- How the characters of a text are stored. -/
inductive Encoding where
  | utf8
  | utf16 (order : Text.Wide.ByteOrder)
  | utf32 (order : Text.Wide.ByteOrder)
deriving DecidableEq, Repr

namespace Encoding

/-- The encoding of a text by its first bytes. -/
def ofBytes : List UInt8 → Encoding
  | first :: second :: third :: fourth :: _ =>
    if first == 0 then
      if second == 0 then utf32 .mostSignificantFirst else utf16 .mostSignificantFirst
    else if second == 0 then
      if third == 0 && fourth == 0 then utf32 .leastSignificantFirst
      else utf16 .leastSignificantFirst
    else utf8
  | [first, second] =>
    if first == 0 then utf16 .mostSignificantFirst
    else if second == 0 then utf16 .leastSignificantFirst
    else utf8
  | _ => utf8

/-- A text without the byte order mark in front of it. -/
def withoutMark : List Char → List Char
  | c :: rest => if c.toNat == 0xFEFF then rest else c :: rest
  | [] => []

/-- The characters of bytes, unless the bytes are no text in this encoding. -/
def decode? : Encoding → List UInt8 → Option (List Char)
  | utf8, bytes => (Text.Utf8.decode bytes).toOption.map withoutMark
  | utf16 order, bytes => Text.Wide.decode16? order bytes
  | utf32 order, bytes => Text.Wide.decode32? order bytes

end Encoding

/-- The characters of the bytes of a JSON text. -/
def decode? (bytes : List UInt8) : Option (List Char) := (Encoding.ofBytes bytes).decode? bytes

end StepSequencer.Json
