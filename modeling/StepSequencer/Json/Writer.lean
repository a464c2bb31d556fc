import StepSequencer.Json
import StepSequencer.Text.Quoted

/-!
# Writing JSON

Two layouts: one line, and one item on a line with two blanks for each level. Characters beyond
ASCII are written as they are; only quotes, backslashes and controls are escaped.
-/
namespace StepSequencer.Json

/-- One character of a string. -/
def escape (c : Char) : List Char :=
  if c == '"' then ['\\', '"']
  else if c == '\\' then ['\\', '\\']
  else if c == '\n' then ['\\', 'n']
  else if c == '\r' then ['\\', 'r']
  else if c == '\t' then ['\\', 't']
  else if c.toNat == 0x08 then ['\\', 'b']
  else if c.toNat == 0x0C then ['\\', 'f']
  else if c.toNat < 0x20 then '\\' :: 'u' :: Text.hexFilled 4 c.toNat
  else [c]

/-- A string between quotes. -/
def writeString (text : String) : String :=
  "\"" ++ String.ofList (text.toList.flatMap escape) ++ "\""

/-- A number written as a mantissa and an exponent. -/
def writeDecimal (mantissa exponent : Int) : String :=
  Text.decimal mantissa ++ "e" ++ Text.decimal exponent

/-- A line feed and the blanks of a level. -/
def newline (level : Nat) : String := "\n" ++ String.ofList (List.replicate (2 * level) ' ')

/-- Items between brackets, one on a line; nothing stands between the brackets of an empty list. -/
def layOut (opening closing : String) (level : Nat) (items : List String) : String :=
  if items.isEmpty then opening ++ closing
  else opening ++ newline (level + 1) ++ ("," ++ newline (level + 1)).intercalate items ++
    newline level ++ closing

mutual
/-- The text of a document that stands at a level. -/
def writeAt (level : Nat) : Json → String
  | null => "null"
  | bool true => "true"
  | bool false => "false"
  | int value => Text.decimal value
  | decimal mantissa exponent => writeDecimal mantissa exponent
  | nonFinite literal => literal
  | str value => writeString value
  | arr items => layOut "[" "]" level (writeItems (level + 1) items)
  | obj fields => layOut "\x7b" "\x7d" level (writeFields (level + 1) fields)

/-- The texts of the items of a list. -/
def writeItems (level : Nat) : List Json → List String
  | [] => []
  | item :: items => writeAt level item :: writeItems level items

/-- The texts of the fields of an object. -/
def writeFields (level : Nat) : List (String × Json) → List String
  | [] => []
  | (name, value) :: fields =>
    (writeString name ++ ": " ++ writeAt level value) :: writeFields level fields
end

/-- The text of a document with one item on a line. -/
def pretty (document : Json) : String := writeAt 0 document

mutual
/-- The text of a document on one line. -/
def compact : Json → String
  | null => "null"
  | bool true => "true"
  | bool false => "false"
  | int value => Text.decimal value
  | decimal mantissa exponent => writeDecimal mantissa exponent
  | nonFinite literal => literal
  | str value => writeString value
  | arr items => "[" ++ ",".intercalate (compactItems items) ++ "]"
  | obj fields => "\x7b" ++ ",".intercalate (compactFields fields) ++ "\x7d"

/-- The texts of the items of a list. -/
def compactItems : List Json → List String
  | [] => []
  | item :: items => compact item :: compactItems items

/-- The texts of the fields of an object. -/
def compactFields : List (String × Json) → List String
  | [] => []
  | (name, value) :: fields => (writeString name ++ ":" ++ compact value) :: compactFields fields
end

/-- Why a document is not written. -/
inductive WriteFault where
  /-- A number has no finite value, and JSON has no form for it. -/
  | notFinite
deriving DecidableEq, Repr

/-- The wording of a fault. -/
def WriteFault.message : WriteFault → String
  | notFinite => "Out of range float values are not JSON compliant"

/-- The text of a document on one line, for readers that know JSON alone. -/
def strict (document : Json) : Except WriteFault String :=
  if document.isFinite then .ok document.compact else .error .notFinite

end StepSequencer.Json
