import StepSequencer.Json
import StepSequencer.Text.Digits
import StepSequencer.Text.Wide

/-!
# Reading JSON

A reader takes a document from the front of a text and returns the characters behind it, or tells
where the text stops being a document. A place is counted from the end, as the number of characters
from there on; `read` turns it into an offset. Lists and objects may be nested up to a depth that
the caller chooses. The recursion is bounded by twice the length of the text: of two steps in a row
at least one takes a character.
-/
namespace StepSequencer.Json

/-- Why a text is not read. -/
inductive ReadFault where
  /-- The text stops being a document. The place is a count of characters. -/
  | unexpected (place : Nat)
  /-- Lists and objects are nested too deeply. -/
  | tooDeep
deriving DecidableEq, Repr

/-- The blanks between the parts of a document. -/
def isBlank (c : Char) : Bool := c == ' ' || c == '\t' || c == '\n' || c == '\r'

/-- The text behind its leading blanks. -/
def skipBlanks (text : List Char) : List Char := text.dropWhile isBlank

/-- The number of four hexadecimal digits in front of a text. -/
def hexQuad? (text : List Char) : Option Nat :=
  let quad := text.take 4
  if quad.length == 4 && quad.all Text.isHex then some (Text.ofHex quad) else none

/-- The character of a numbered escape whose digits are in front of `text`. At least one character
has to follow the digits. -/
def readUnit (text : List Char) : Except Nat (Char × List Char) :=
  match hexQuad? text with
  | none => .error (text.length + 1)
  | some high =>
    let rest := text.drop 4
    if rest.isEmpty then .error (text.length + 1)
    else
      match rest with
      | '\\' :: 'u' :: more =>
        if Text.Wide.isHigh high && 4 < more.length then
          match hexQuad? more with
          | none => .error (more.length + 1)
          | some low =>
            if Text.Wide.isLow low then .ok (Text.Wide.charOfPair high low, more.drop 4)
            else .ok (Text.Wide.charOfUnit high, rest)
        else .ok (Text.Wide.charOfUnit high, rest)
      | _ => .ok (Text.Wide.charOfUnit high, rest)

/-- The character of an escape behind its backslash; `opening` is the number of characters left at
the opening quote. -/
def readEscape (opening : Nat) : List Char → Except Nat (Char × List Char)
  | [] => .error opening
  | 'u' :: rest => readUnit rest
  | c :: rest =>
    match c with
    | '"' | '\\' | '/' => .ok (c, rest)
    | 'b' => .ok (Char.ofNat 0x08, rest)
    | 'f' => .ok (Char.ofNat 0x0C, rest)
    | 'n' => .ok ('\n', rest)
    | 'r' => .ok ('\r', rest)
    | 't' => .ok ('\t', rest)
    | _ => .error (rest.length + 2)

/-- The characters of a string behind its opening quote. -/
def readChars (opening : Nat) : Nat → List Char → Except Nat (List Char × List Char)
  | 0, text => .error text.length
  | _ + 1, [] => .error opening
  | bound + 1, c :: rest =>
    if c == '"' then .ok ([], rest)
    else if c == '\\' then do
      let (character, rest) ← readEscape opening rest
      let (characters, rest) ← readChars opening bound rest
      return (character :: characters, rest)
    else if c.toNat < 0x20 then .error (rest.length + 1)
    else do
      let (characters, rest) ← readChars opening bound rest
      return (c :: characters, rest)

/-- A string behind its opening quote. -/
def readString (rest : List Char) : Except Nat (String × List Char) := do
  let (characters, rest) ← readChars (rest.length + 1) (rest.length + 1) rest
  return (String.ofList characters, rest)

/-- The digits of a fraction: a point with at least one digit behind it. -/
def readFraction : List Char → List Char × List Char
  | '.' :: rest =>
    if rest.head?.any Text.isDecimal then
      (rest.takeWhile Text.isDecimal, rest.dropWhile Text.isDecimal)
    else ([], '.' :: rest)
  | rest => ([], rest)

/-- An exponent with at least one digit. -/
def readExponent (text : List Char) : Option Int × List Char :=
  match text with
  | mark :: rest =>
    if mark == 'e' || mark == 'E' then
      let (negative, body) := match rest with
        | '-' :: body => (true, body)
        | '+' :: body => (false, body)
        | body => (false, body)
      let digits := body.takeWhile Text.isDecimal
      if digits.isEmpty then (none, text)
      else
        let size : Int := Text.ofDecimal digits
        (some (if negative then -size else size), body.dropWhile Text.isDecimal)
    else (none, text)
  | [] => (none, [])

/-- A number without a sign; a leading zero stands alone. -/
def readMagnitude? (negative : Bool) (text : List Char) : Option (Json × List Char) :=
  let digits := match text with
    | '0' :: _ => ['0']
    | _ => text.takeWhile Text.isDecimal
  if digits.isEmpty then none
  else
    let (fraction, afterFraction) := readFraction (text.drop digits.length)
    let (exponent, rest) := readExponent afterFraction
    let size : Int := Text.ofDecimal (digits ++ fraction)
    let mantissa := if negative then -size else size
    if fraction.isEmpty && exponent.isNone then some (.int mantissa, rest)
    else some (.decimal mantissa (exponent.getD 0 - fraction.length), rest)

/-- A number with or without a sign. -/
def readNumber? : List Char → Option (Json × List Char)
  | '-' :: rest => readMagnitude? true rest
  | text => readMagnitude? false text

/-- The words that stand for documents. -/
def words : List (String × Json) :=
  [("null", .null), ("true", .bool true), ("false", .bool false), ("NaN", .nonFinite "NaN"),
    ("Infinity", .nonFinite "Infinity"), ("-Infinity", .nonFinite "-Infinity")]

/-- A word or a number. -/
def readPlain (text : List Char) : Except Nat (Json × List Char) :=
  match words.find? fun (word, _) => word.toList.isPrefixOf text with
  | some (word, document) => .ok (document, text.drop word.length)
  | none =>
    match readNumber? text with
    | some (document, rest) => .ok (document, rest)
    | none => .error text.length

mutual
/-- A document at the front of a text, with at most `depth` levels. -/
def readValue (depth : Nat) : Nat → List Char → Except ReadFault (Json × List Char)
  | 0, text => .error (.unexpected text.length)
  | bound + 1, text =>
    match text, depth with
    | '[' :: _, 0 | '\x7b' :: _, 0 => .error .tooDeep
    | '[' :: rest, depth + 1 =>
      match skipBlanks rest with
      | ']' :: rest => .ok (.arr [], rest)
      | rest => do
        let (items, rest) ← readItems depth bound rest
        return (.arr items, rest)
    | '\x7b' :: rest, depth + 1 =>
      match skipBlanks rest with
      | '\x7d' :: rest => .ok (.obj [], rest)
      | rest => do
        let (fields, rest) ← readFields depth bound [] rest
        return (.obj fields, rest)
    | '"' :: rest, _ => do
      let (value, rest) ← (readString rest).mapError .unexpected
      return (.str value, rest)
    | _, _ => (readPlain text).mapError .unexpected

/-- The items of a list up to its closing bracket. -/
def readItems (depth : Nat) : Nat → List Char → Except ReadFault (List Json × List Char)
  | 0, text => .error (.unexpected text.length)
  | bound + 1, text => do
    let (item, rest) ← readValue depth bound text
    match skipBlanks rest with
    | ']' :: rest => return ([item], rest)
    | ',' :: rest =>
      let (items, rest) ← readItems depth bound (skipBlanks rest)
      return (item :: items, rest)
    | rest => .error (.unexpected rest.length)

/-- The fields of an object up to its closing brace, behind those read before. -/
def readFields (depth : Nat) :
    Nat → Index Json → List Char → Except ReadFault (Index Json × List Char)
  | 0, _, text => .error (.unexpected text.length)
  | bound + 1, before, text =>
    match text with
    | '"' :: rest => do
      let (name, rest) ← (readString rest).mapError .unexpected
      match skipBlanks rest with
      | ':' :: rest =>
        let (value, rest) ← readValue depth bound (skipBlanks rest)
        let fields := before.put name value
        match skipBlanks rest with
        | '\x7d' :: rest => return (fields, rest)
        | ',' :: rest => readFields depth bound fields (skipBlanks rest)
        | rest => .error (.unexpected rest.length)
      | rest => .error (.unexpected rest.length)
    | _ => .error (.unexpected text.length)
end

/-- The document of a text with at most `depth` levels of lists and objects, or the offset of the
first character that does not fit. -/
def read (depth : Nat) (text : List Char) : Except ReadFault Json :=
  let whole : Except ReadFault Json := do
    let (document, rest) ← readValue depth (2 * text.length + 1) (skipBlanks text)
    match skipBlanks rest with
    | [] => .ok document
    | rest => .error (.unexpected rest.length)
  whole.mapError fun fault =>
    match fault with
    | .unexpected left => .unexpected (text.length - left)
    | .tooDeep => .tooDeep

end StepSequencer.Json
