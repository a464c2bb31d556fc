import StepSequencer.Text.Digits
import StepSequencer.Text.Numeral

/-!
# Numerals in requests

A whole number may be given as a text. The text is brought into its plain form step by step: blanks
at the edges, a plus sign, zeros in front, a fraction of zeros and underscores between digits are
taken away. What is left has to be a plain number.
-/
namespace StepSequencer.Service

/-- A text without a plus sign in front, which no minus sign may follow. -/
def withoutPlus? : List Char → Option (List Char)
  | '+' :: '-' :: _ => none
  | '+' :: rest => some rest
  | text => some text

/-- Whether a number can start here: at a minus sign or a digit. -/
def startsNumber (c : Char) : Bool := c == '-' || Text.isDecimal c

/-- The rest of a text behind a zero and further zeros and underscores, the last of which is `last`.
The number starts behind them, unless they are all there is before a point or the end. -/
def afterZeros? (last : Char) : List Char → Option (List Char)
  | [] => some [last]
  | c :: rest =>
    if c == '0' || c == '_' then afterZeros? c rest
    else if c == '.' then some (last :: c :: rest)
    else if startsNumber c then some (c :: rest)
    else none

/-- A text without zeros in front that do not matter. -/
def withoutZeros? : List Char → Option (List Char)
  | [] => none
  | '0' :: rest => afterZeros? '0' rest
  | c :: rest => if startsNumber c then some (c :: rest) else none

/-- A text without a point and nothing but zeros behind it, at least one. -/
def withoutFraction (text : List Char) : List Char :=
  let zeros := (text.dropWhile fun c => c != '.').drop 1
  if !zeros.isEmpty && zeros.all fun c => c == '0' then text.takeWhile fun c => c != '.' else text

/-- A text without underscores, if every one of them stands alone between other characters. -/
def withoutUnderscores (text : List Char) : List Char :=
  if ((String.ofList text).splitOn "_").contains "" then text else text.filter fun c => c != '_'

/-- Digits; a zero in front stands alone. -/
def readDigits? : List Char → Option Nat
  | [] => none
  | ['0'] => some 0
  | '0' :: _ => none
  | digits => if digits.all Text.isDecimal then some (Text.ofDecimal digits) else none

/-- A whole number in its plain form. -/
def readPlain? : List Char → Option Int
  | '-' :: digits => (readDigits? digits).map fun n => -(n : Int)
  | digits => (readDigits? digits).map fun n => (n : Int)

/-- The whole number of a text. -/
def readNumeral? (text : String) : Option Int := do
  let signed ← withoutPlus? (Text.trimBy Text.isNumeralBlank text.toList)
  let significant ← withoutZeros? signed
  readPlain? (withoutUnderscores (withoutFraction significant))

end StepSequencer.Service
