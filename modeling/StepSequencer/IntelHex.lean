import StepSequencer.Memory.Map
import StepSequencer.Text.Digits

/-!
# Intel HEX records

A record is a colon and a row of bytes in hexadecimal: the number of data bytes, a 16-bit address,
a type, the data, and a checksum that makes all bytes sum to zero modulo 256. An image is written
as one data record for every block of sixteen bytes that is not all zero, and an end record.
-/
namespace StepSequencer.IntelHex

/-- The number of data bytes in a full record. -/
def blockSize : Nat := 16

/-- The type of a record that holds data. -/
def dataType : UInt8 := 0x00

/-- The type of the record that ends a file. -/
def endType : UInt8 := 0x01

/-- The value that brings a sum to zero modulo 256. -/
def checksum (fields : List Int) : Int := (-fields.foldr (fun field sum => field + sum) 0) % 256

/-- Two hexadecimal digits for each byte. -/
def byteChars (bytes : List UInt8) : List Char :=
  bytes.flatMap fun b => Text.hexUpperChars 2 b.toNat

/-- The data record of bytes at an address, which counts modulo 65536. -/
def dataRecord (address : Int) (data : List UInt8) : List Char :=
  let fields : List Int :=
    data.length :: address / 256 % 256 :: address % 256 :: data.map fun b => (b.toNat : Int)
  ':' :: Text.hexUpperChars 2 data.length ++ Text.hexUpperChars 4 (address % 65536) ++
    Text.hexUpperChars 2 dataType.toNat ++ byteChars data ++ Text.hexUpperChars 2 (checksum fields)

/-- The record that ends a file. -/
def endRecord : List Char := ":00000001FF".toList

/-- The blocks of an image in order; the last one may be shorter. -/
def blocks (image : List UInt8) : List (List UInt8) :=
  if _some : image = [] then []
  else image.take blockSize :: blocks (image.drop blockSize)
termination_by image.length
decreasing_by
  have := List.length_pos_iff.mpr _some
  simp only [List.length_drop, blockSize]
  omega

/-- The records of an image that starts at the address `base`. -/
def imageRecords (image : List UInt8) (base : Int) : List (List Char) :=
  ((blocks image).zipIdx.filterMap fun (block, place) =>
    if block.any fun b => b != 0 then some (dataRecord (base + blockSize * place) block)
    else none) ++ [endRecord]

/-- The file of an image: one record on a line. -/
def file (image : List UInt8) (base : Int) : String :=
  String.ofList ((imageRecords image base).flatMap fun record => record ++ ['\n'])

end StepSequencer.IntelHex
