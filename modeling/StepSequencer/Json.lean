import StepSequencer.Index

/-!
# JSON documents

Documents as values. Whole numbers are apart from numbers written with a point or an exponent, and
the fields of an object keep the order in which their names were first given.
-/
namespace StepSequencer

/-- A JSON document. -/
inductive Json where
  | null
  | bool (value : Bool)
  | int (value : Int)
  /-- The number `mantissa * 10 ^ exponent`, written with a point or an exponent. -/
  | decimal (mantissa exponent : Int)
  /-- A number without a finite value, by its literal. -/
  | nonFinite (literal : String)
  | str (value : String)
  | arr (items : List Json)
  | obj (fields : List (String × Json))
deriving Repr

namespace Json

/-- The floating point number nearest to a decimal one. -/
def toFloat (mantissa exponent : Int) : Float :=
  let size := Float.ofScientific mantissa.natAbs (exponent < 0) exponent.natAbs
  if mantissa < 0 then -size else size

/-- A finite floating point number rounded towards zero. -/
def wholePart (x : Float) : Int :=
  let (significand, power) := x.abs.floor.frExp
  let bits := (significand.scaleB 53).toUInt64.toNat
  let size := if power ≤ 53 then bits >>> (53 - power).toNat else bits <<< (power - 53).toNat
  if x < 0 then -(size : Int) else size

/-- The whole number that a decimal one stands for: it is rounded to a floating point number first,
which has to be finite and without a fraction. -/
def wholeOf? (mantissa exponent : Int) : Option Int :=
  let x := toFloat mantissa exponent
  if x.isFinite && x.floor == x then some (wholePart x) else none

/-- The field of an object. -/
def field? (name : String) : Json → Option Json
  | obj fields => List.lookup name fields
  | _ => none

/-- Whether a document counts as a yes: all but null, false, zero and what is empty. -/
def isTruthy : Json → Bool
  | null => false
  | bool value => value
  | int value => value != 0
  | decimal mantissa exponent => toFloat mantissa exponent != 0
  | nonFinite _ => true
  | str value => value != ""
  | arr items => !items.isEmpty
  | obj fields => !fields.isEmpty

mutual
/-- Whether all numbers of a document have a finite value. -/
def isFinite : Json → Bool
  | decimal mantissa exponent => (toFloat mantissa exponent).isFinite
  | nonFinite _ => false
  | arr items => areFinite items
  | obj fields => haveFinite fields
  | null | bool _ | int _ | str _ => true

/-- Whether all numbers of a list of documents have a finite value. -/
def areFinite : List Json → Bool
  | [] => true
  | item :: items => item.isFinite && areFinite items

/-- Whether all numbers of the fields of an object have a finite value. -/
def haveFinite : List (String × Json) → Bool
  | [] => true
  | (_, value) :: fields => value.isFinite && haveFinite fields
end

end Json

end StepSequencer
