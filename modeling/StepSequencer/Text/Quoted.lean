import StepSequencer.Text.Digits
import StepSequencer.Text.Printable

/-!
# Quoted text

How a message shows a text that it cannot trust: between quotes, with every character that has no
visible form written as an escape.
-/
namespace StepSequencer.Text

/-- Hexadecimal digits in lower case, filled with zeros up to `width`. -/
def hexFilled (width n : Nat) : List Char :=
  let body := (digits 16 n).map lowerDigit
  List.replicate (width - body.length) '0' ++ body

/-- One character between quotes of the kind `quote`. -/
def escapeChar (quote c : Char) : List Char :=
  if c == quote || c == '\\' then ['\\', c]
  else if c == '\n' then ['\\', 'n']
  else if c == '\r' then ['\\', 'r']
  else if c == '\t' then ['\\', 't']
  else if isPrintable c then [c]
  else if c.toNat < 0x100 then '\\' :: 'x' :: hexFilled 2 c.toNat
  else if c.toNat < 0x10000 then '\\' :: 'u' :: hexFilled 4 c.toNat
  else '\\' :: 'U' :: hexFilled 8 c.toNat

/-- Single quotes, unless the text holds a single quote and no double quote. -/
def quoteFor (text : List Char) : Char :=
  if text.contains '\'' && !text.contains '"' then '"' else '\''

/-- The text between quotes. -/
def quotedChars (text : List Char) : List Char :=
  let quote := quoteFor text
  quote :: text.flatMap (escapeChar quote) ++ [quote]

/-- The text between quotes. -/
def quoted (text : String) : String := String.ofList (quotedChars text.toList)

end StepSequencer.Text
