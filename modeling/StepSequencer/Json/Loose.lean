import StepSequencer.Json
import StepSequencer.Text.Numeral
import StepSequencer.Text.Quoted
import StepSequencer.Text.Shortest

/-!
# Documents in loose places

Token lists and instruction lists from elsewhere may hold any document where a text or a number is
wanted. As a text a document is shown the way messages show values, and as a number it is rounded
towards zero or read from its digits.
-/
namespace StepSequencer

namespace Json

/-- The decimal `count * 10 ^ place`: with a point if its digits end not far from it, and with an
exponent of at least two digits otherwise. -/
def shownDecimal (count : Nat) (place : Int) : List Char :=
  let written := (Text.digits 10 count).map Text.lowerDigit
  let point := written.length + place
  let kept := match Text.trimEndBy (fun c => c == '0') written with
    | [] => ['0']
    | kept => kept
  if -4 < point && point ≤ 0 then '0' :: '.' :: List.replicate (-point).toNat '0' ++ kept
  else if 0 < point && point ≤ 16 then
    let filled := kept ++ List.replicate (point.toNat - kept.length) '0'
    let fraction := filled.drop point.toNat
    filled.take point.toNat ++ '.' :: (if fraction.isEmpty then ['0'] else fraction)
  else
    let exponent := point - 1
    let size := (Text.digits 10 exponent.natAbs).map Text.lowerDigit
    kept.take 1 ++ (if kept.length == 1 then [] else '.' :: kept.drop 1) ++
      'e' :: (if exponent < 0 then '-' else '+') :: List.replicate (2 - size.length) '0' ++ size

/-- A floating point number in its shortest form. -/
def shownFloat (x : Float) : String :=
  if x.isNaN then "nan"
  else
    let sign := if x < 0 then "-" else ""
    if x.isInf then sign ++ "inf"
    else if x == 0 then "0.0"
    else
      let (count, place) := (Text.Binary.ofFloat x).shortest
      sign ++ String.ofList (shownDecimal count place)

mutual
/-- A document as a part of a value that is shown: texts stand between quotes. -/
def shownPart : Json → String
  | null => "None"
  | bool true => "True"
  | bool false => "False"
  | int value => Text.decimal value
  | decimal mantissa exponent => shownFloat (toFloat mantissa exponent)
  | nonFinite "NaN" => "nan"
  | nonFinite "Infinity" => "inf"
  | nonFinite _ => "-inf"
  | str value => Text.quoted value
  | arr items => "[" ++ ", ".intercalate (shownItems items) ++ "]"
  | obj fields => "\x7b" ++ ", ".intercalate (shownFields fields) ++ "\x7d"

/-- The items of a list. -/
def shownItems : List Json → List String
  | [] => []
  | item :: items => shownPart item :: shownItems items

/-- The fields of an object. -/
def shownFields : List (String × Json) → List String
  | [] => []
  | (name, value) :: fields => (Text.quoted name ++ ": " ++ shownPart value) :: shownFields fields
end

/-- A document where a text is wanted. -/
def shown : Json → String
  | str value => value
  | document => shownPart document

end Json

/-- Why a document is no number. -/
inductive NumeralFault where
  /-- The text is no numeral. -/
  | malformed (text : String)
  /-- Documents of this kind are never numbers. -/
  | kind (name : String)
  | infinite
  | undefined
deriving DecidableEq, Repr

/-- The wording of a fault. No more than 200 characters of the quoted text are shown. -/
def NumeralFault.message : NumeralFault → String
  | malformed text =>
    "invalid literal for int() with base 10: " ++
      String.ofList ((Text.quotedChars text.toList).take 200)
  | kind name =>
    "int() argument must be a string, a bytes-like object or a real number, not " ++
      Text.quoted name
  | infinite => "cannot convert float infinity to integer"
  | undefined => "cannot convert float NaN to integer"

/-- The number of a text. -/
def readNumber (text : String) : Except NumeralFault Int :=
  match Text.readInteger? text with
  | some n => .ok n
  | none => .error (.malformed text)

/-- A document where a number is wanted. -/
def Json.asNumber : Json → Except NumeralFault Int
  | int value => .ok value
  | bool value => .ok (if value then 1 else 0)
  | decimal mantissa exponent =>
    let x := toFloat mantissa exponent
    if x.isFinite then .ok (wholePart x) else .error .infinite
  | nonFinite "NaN" => .error .undefined
  | nonFinite _ => .error .infinite
  | str value => readNumber value
  | null => .error (.kind "NoneType")
  | arr _ => .error (.kind "list")
  | obj _ => .error (.kind "dict")

end StepSequencer
