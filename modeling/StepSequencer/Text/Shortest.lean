import StepSequencer.Text.Digits

/-!
# Shortest decimals

The fewest decimal digits that are read back as a floating point number, and of several such
decimals the nearest one. Every real number between the two halfway points around a floating point
number is read as that number, and the halfway points themselves if its significand is even. The two
multiples of a power of ten next to the number are tried, from the coarsest power on.
-/
namespace StepSequencer.Text

/-- The positive number `significand * 2 ^ power`. -/
structure Binary where
  significand : Nat
  power : Int
  /-- Whether the next smaller number is only half as far away as the next larger one. -/
  narrow : Bool
deriving DecidableEq, Repr

namespace Binary

/-- The size of a finite floating point number. -/
def ofFloat (x : Float) : Binary :=
  let bits := x.toBits.toNat
  let field := bits / 0x10000000000000 % 0x800
  let fraction := bits % 0x10000000000000
  if field == 0 then ⟨fraction, -1074, false⟩
  else ⟨0x10000000000000 + fraction, (field : Int) - 1075, fraction == 0 && 1 < field⟩

/-- How many digits stand before the point; of a number without any, minus the number of zeros
behind the point. -/
def point (x : Binary) : Int :=
  let above := x.significand * Nat.pow 2 x.power.toNat
  let below := Nat.pow 2 (-x.power).toNat
  if below ≤ above then (digits 10 (above / below)).length
  else 1 - ((digits 10 ((below - 1) / above)).length : Int)

/-- The multiple of `10 ^ place` nearest to a number, if it is read back as the number. A number in
the middle goes to the even multiple. -/
def nearest? (x : Binary) (place : Int) : Option Nat :=
  let quarter := x.power - 2
  let step := Nat.pow 10 place.toNat * Nat.pow 2 (-quarter).toNat
  let unit := Nat.pow 2 quarter.toNat * Nat.pow 10 (-place).toNat
  let value := 4 * x.significand * unit
  let low := value - (if x.narrow then 1 else 2) * unit
  let high := value + 2 * unit
  let fits (count : Nat) : Bool :=
    let size := count * step
    if x.significand % 2 == 0 then low ≤ size && size ≤ high else low < size && size < high
  let lower := value / step
  let upper := lower + 1
  if fits lower && fits upper then
    let down := value - lower * step
    let up := upper * step - value
    some (if down < up || (down == up && lower % 2 == 0) then lower else upper)
  else if fits lower then some lower
  else if fits upper then some upper
  else none

/-- The shortest decimal of a number: a count and the place of the power of ten that it counts.
Seventeen digits are always enough. -/
def shortest (x : Binary) : Nat × Int :=
  let tries := (List.range 17).findSome? fun (extra : Nat) =>
    let place := x.point - 1 - (extra : Int)
    (x.nearest? place).map fun count => (count, place)
  tries.getD (0, 0)

end Binary

end StepSequencer.Text
