import StepSequencer.IntelHex
import StepSequencer.Text.Blank

/-!
# Reading Intel HEX

A file is read line by line up to its end record. Blanks around a record and between its bytes do
not matter, and neither do blank lines. The first line that is no record stops the reading.
-/
namespace StepSequencer.IntelHex

/-- Why a line is no record. -/
inductive Defect where
  | noStart
  | digits
  | length
  | checksum
  | type (code : UInt8)
deriving DecidableEq, Repr

/-- The wording of a defect. -/
def Defect.message : Defect → String
  | noStart => "record does not start with ':'"
  | digits => "invalid hex digits"
  | length => "record length mismatch"
  | checksum => "checksum mismatch"
  | type code => "unsupported record type " ++ Text.hexUpper 2 code.toNat

/-- A defect and the number of its line, counted from one. -/
structure Fault where
  line : Nat
  defect : Defect
deriving DecidableEq, Repr

/-- The wording of a fault. -/
def Fault.message (fault : Fault) : String :=
  "Line " ++ Text.decimal fault.line ++ ": " ++ fault.defect.message

/-- Data bytes and the address of the first of them. -/
structure Chunk where
  address : Nat
  data : List UInt8
deriving DecidableEq, Repr

/-- The blanks that may stand between the bytes of a record. -/
def isSpace (c : Char) : Bool := c == ' ' || (0x09 ≤ c.toNat && c.toNat ≤ 0x0D)

/-- The bytes that pairs of hexadecimal digits write, with blanks between pairs. -/
def readBytes : List Char → Option (List UInt8)
  | [] => some []
  | [c] => if isSpace c then some [] else none
  | c :: d :: rest =>
    if isSpace c then readBytes (d :: rest)
    else do
      let high ← Text.hexValue? c
      let low ← Text.hexValue? d
      return UInt8.ofNat (high * 16 + low) :: (← readBytes rest)

/-- What a line of a file says. -/
inductive Line where
  | blank
  | data (chunk : Chunk)
  | stop
deriving DecidableEq, Repr

/-- Whether the last of some bytes is the checksum of those before it. -/
def hasChecksum (payload : List UInt8) : Bool :=
  checksum (payload.dropLast.map fun b => (b.toNat : Int)) == (payload.getLastD 0).toNat

/-- The bytes of a record: their number, the address, the type, the data and the checksum. -/
def readPayload (payload : List UInt8) : Except Defect Line :=
  match payload with
  | count :: high :: low :: type :: data =>
    if data.length ≠ count.toNat + 1 then .error .length
    else if !hasChecksum payload then .error .checksum
    else if type = endType then .ok .stop
    else if type ≠ dataType then .error (.type type)
    else .ok (.data ⟨high.toNat * 256 + low.toNat, data.take count.toNat⟩)
  | _ => .error .length

/-- Read a line. -/
def readLine (line : List Char) : Except Defect Line :=
  match Text.trim line with
  | [] => .ok .blank
  | ':' :: text =>
    match readBytes text with
    | none => .error .digits
    | some payload => readPayload payload
  | _ => .error .noStart

/-- Read lines, the first of them having the number `number`. -/
def readLines (number : Nat) : List (List Char) → Except Fault (List Chunk)
  | [] => .ok []
  | line :: lines =>
    match readLine line with
    | .error defect => .error ⟨number, defect⟩
    | .ok .stop => .ok []
    | .ok .blank => readLines (number + 1) lines
    | .ok (.data chunk) => do return chunk :: (← readLines (number + 1) lines)

/-- The data of a file in file order. -/
def read (text : List Char) : Except Fault (List Chunk) := readLines 1 (Text.splitLines text)

end StepSequencer.IntelHex
