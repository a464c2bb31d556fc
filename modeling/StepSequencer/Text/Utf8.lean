import StepSequencer.Text.Digits

/-!
# UTF-8

Decoding bytes as UTF-8, with the exact place and reason of the first fault. A fault covers the
bytes of a character up to the one that cannot continue it.
-/
namespace StepSequencer.Text.Utf8

/-- Why bytes are not UTF-8. -/
inductive Reason where
  /-- No character starts with this byte. -/
  | invalidStart
  /-- A character was begun and the next byte does not continue it. -/
  | invalidContinuation
  /-- The bytes end inside a character. -/
  | truncated
deriving DecidableEq, Repr

/-- The bytes from `offset` on, `length` of them, are no character; `first` is the first of them. -/
structure Fault where
  offset : Nat
  length : Nat
  first : UInt8
  reason : Reason
deriving DecidableEq, Repr

/-- The wording of a reason. -/
def Reason.message : Reason → String
  | .invalidStart => "invalid start byte"
  | .invalidContinuation => "invalid continuation byte"
  | .truncated => "unexpected end of data"

/-- One byte is named by its value, a longer run by its first and last offset. -/
def Fault.message (fault : Fault) : String :=
  let place :=
    if fault.length == 1 then
      "byte 0x" ++ String.ofList ((digits 16 fault.first.toNat).map lowerDigit) ++
        " in position " ++ decimal fault.offset
    else
      "bytes in position " ++ decimal fault.offset ++ "-" ++
        decimal ((fault.offset : Int) + fault.length - 1)
  "'utf-8' codec can't decode " ++ place ++ ": " ++ fault.reason.message

/-- What a first byte announces: the bits that it carries and the range of each byte behind it. -/
def lead? (b : UInt8) : Option (Nat × List (UInt8 × UInt8)) :=
  let tail : UInt8 × UInt8 := (0x80, 0xBF)
  if b < 0x80 then some (b.toNat, [])
  else if b < 0xC2 then none
  else if b < 0xE0 then some (b.toNat - 0xC0, [tail])
  else if b == 0xE0 then some (0, [(0xA0, 0xBF), tail])
  else if b == 0xED then some (0xD, [(0x80, 0x9F), tail])
  else if b < 0xF0 then some (b.toNat - 0xE0, [tail, tail])
  else if b == 0xF0 then some (0, [(0x90, 0xBF), tail, tail])
  else if b < 0xF4 then some (b.toNat - 0xF0, [tail, tail, tail])
  else if b == 0xF4 then some (4, [(0x80, 0x8F), tail, tail])
  else none

/-- Read the announced bytes behind `seen` bytes that carry `bits`, and return the code point with
the bytes after it. -/
def continueChar (seen bits : Nat) :
    List (UInt8 × UInt8) → List UInt8 → Except (Nat × Reason) (Nat × List UInt8)
  | [], bytes => .ok (bits, bytes)
  | _ :: _, [] => .error (seen, .truncated)
  | (low, high) :: ranges, b :: bytes =>
    if low ≤ b ∧ b ≤ high then continueChar (seen + 1) (bits * 64 + (b.toNat - 0x80)) ranges bytes
    else .error (seen, .invalidContinuation)

/-- The bytes after a character are among the bytes behind its first. -/
theorem continueChar_length {seen bits : Nat} {ranges : List (UInt8 × UInt8)}
    {bytes rest : List UInt8} {code : Nat}
    (read : continueChar seen bits ranges bytes = .ok (code, rest)) :
    rest.length ≤ bytes.length := by
  induction ranges generalizing seen bits bytes with
  | nil =>
    simp only [continueChar, Except.ok.injEq, Prod.mk.injEq] at read
    simp [← read.2]
  | cons range ranges ih =>
    cases bytes with
    | nil => simp [continueChar] at read
    | cons b bytes =>
      simp only [continueChar] at read
      split at read
      · have := ih read
        simp only [List.length_cons]
        omega
      · simp at read

/-- The character at the front of `b :: bytes` and the bytes after it. -/
def readChar (b : UInt8) (bytes : List UInt8) : Except (Nat × Reason) (Nat × List UInt8) :=
  match lead? b with
  | none => .error (1, .invalidStart)
  | some (bits, ranges) => continueChar 1 bits ranges bytes

/-- Reading a character takes at least its first byte. -/
theorem readChar_length {b : UInt8} {bytes rest : List UInt8} {code : Nat}
    (read : readChar b bytes = .ok (code, rest)) : rest.length ≤ bytes.length := by
  simp only [readChar] at read
  split at read
  · simp at read
  · exact continueChar_length read

/-- Decode bytes that start at `offset` of a file. -/
def decodeFrom (offset : Nat) : List UInt8 → Except Fault (List Char)
  | [] => .ok []
  | b :: bytes =>
    match _read : readChar b bytes with
    | .error (length, reason) => .error ⟨offset, length, b, reason⟩
    | .ok (code, rest) => do
      let c := Char.ofNat code
      let text ← decodeFrom (offset + c.utf8Size) rest
      .ok (c :: text)
termination_by bytes => bytes.length
decreasing_by
  have := readChar_length _read
  simp only [List.length_cons]
  omega

/-- Decode a whole file. -/
def decode (bytes : List UInt8) : Except Fault (List Char) := decodeFrom 0 bytes

/-- Decode bytes with the replacement character in the place of each fault. -/
def decodeReplacing : List UInt8 → List Char
  | [] => []
  | b :: bytes =>
    match _read : readChar b bytes with
    | .error (length, _) => Char.ofNat 0xFFFD :: decodeReplacing (bytes.drop (length - 1))
    | .ok (code, rest) => Char.ofNat code :: decodeReplacing rest
termination_by bytes => bytes.length
decreasing_by
  · simp only [List.length_drop, List.length_cons]
    omega
  · have := readChar_length _read
    simp only [List.length_cons]
    omega

end StepSequencer.Text.Utf8
