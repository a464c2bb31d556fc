/-!
# Characters of two and four bytes

UTF-16 and UTF-32 without a byte order mark. A character beyond the first 65536 is a pair of units
in UTF-16; a unit of such a pair that stands alone is read as the replacement character.
-/
namespace StepSequencer.Text.Wide

/-- Whether a unit is the first of a pair. -/
def isHigh (unit : Nat) : Bool := 0xD800 ≤ unit && unit ≤ 0xDBFF

/-- Whether a unit is the second of a pair. -/
def isLow (unit : Nat) : Bool := 0xDC00 ≤ unit && unit ≤ 0xDFFF

/-- The character of a unit that stands alone. -/
def charOfUnit (unit : Nat) : Char :=
  if isHigh unit || isLow unit then Char.ofNat 0xFFFD else Char.ofNat unit

/-- The character of a pair of units. -/
def charOfPair (high low : Nat) : Char :=
  Char.ofNat (0x10000 + (high - 0xD800) * 0x400 + (low - 0xDC00))

/-- The characters of units. -/
def charsOfUnits : List Nat → List Char
  | [] => []
  | [unit] => [charOfUnit unit]
  | high :: low :: rest =>
    if isHigh high && isLow low then charOfPair high low :: charsOfUnits rest
    else charOfUnit high :: charsOfUnits (low :: rest)

/-- Which byte of a number comes first. -/
inductive ByteOrder where
  | mostSignificantFirst
  | leastSignificantFirst
deriving DecidableEq, Repr

/-- The number of some bytes. -/
def ByteOrder.number (order : ByteOrder) (bytes : List UInt8) : Nat :=
  let join (bytes : List UInt8) : Nat := bytes.foldl (fun n byte => n * 0x100 + byte.toNat) 0
  match order with
  | mostSignificantFirst => join bytes
  | leastSignificantFirst => join bytes.reverse

/-- The numbers of pairs of bytes; no byte may be left over. -/
def pairs? (order : ByteOrder) : List UInt8 → Option (List Nat)
  | [] => some []
  | a :: b :: rest => (pairs? order rest).map fun numbers => order.number [a, b] :: numbers
  | [_] => none

/-- The numbers of groups of four bytes; no byte may be left over. -/
def quads? (order : ByteOrder) : List UInt8 → Option (List Nat)
  | [] => some []
  | a :: b :: c :: d :: rest =>
    (quads? order rest).map fun numbers => order.number [a, b, c, d] :: numbers
  | _ => none

/-- Decode UTF-16. -/
def decode16? (order : ByteOrder) (bytes : List UInt8) : Option (List Char) :=
  (pairs? order bytes).map charsOfUnits

/-- Decode UTF-32. No character lies beyond 0x10FFFF. -/
def decode32? (order : ByteOrder) (bytes : List UInt8) : Option (List Char) := do
  let numbers ← quads? order bytes
  if numbers.all fun number => number ≤ 0x10FFFF then some (numbers.map charOfUnit) else none

end StepSequencer.Text.Wide
