import StepSequencer.Instruction
import StepSequencer.Token

/-!
# Instruction records

Instructions as they are exchanged: an operation code and documents as arguments. A record from
elsewhere may lack arguments or hold texts where numbers belong, so its operands are read with care
and only when they are needed.
-/
namespace StepSequencer

/-- All operations, those that no program gives rise to included. -/
inductive Opcode where
  | nop
  | write
  | tempo
  | swing
  | play
  | stop
  | loop
  | endLoop
  | wait
  | copy
  | comment
deriving DecidableEq, Repr

namespace Opcode

/-- All operations. -/
def all : List Opcode :=
  [nop, write, tempo, swing, play, stop, loop, endLoop, wait, copy, comment]

/-- The name of an operation. -/
def name : Opcode → String
  | nop => "NOP"
  | write => "WRITE"
  | tempo => "TEMPO"
  | swing => "SWING"
  | play => "PLAY"
  | stop => "STOP"
  | loop => "LOOP"
  | endLoop => "ENDLOOP"
  | wait => "WAIT"
  | copy => "COPY"
  | comment => "COMMENT"

/-- The byte of an operation. -/
def byte : Opcode → Nat
  | nop => 0x00
  | write => 0x01
  | tempo => 0x02
  | swing => 0x03
  | play => 0x04
  | stop => 0x05
  | loop => 0x06
  | endLoop => 0x07
  | wait => 0x08
  | copy => 0x09
  | comment => 0xFF

/-- The operation of a name. -/
def ofName? (name : String) : Option Opcode := all.find? fun code => code.name == name

end Opcode

/-- An operation and its arguments. -/
structure Record where
  code : Opcode
  args : List Json
deriving Repr

/-- Why an operand cannot be read. -/
inductive OperandFault where
  /-- The record has too few arguments. -/
  | missing
  /-- The argument is no number. -/
  | numeral (fault : NumeralFault)
deriving DecidableEq, Repr

/-- The wording of a fault. -/
def OperandFault.message : OperandFault → String
  | missing => "tuple index out of range"
  | numeral fault => fault.message

/-- The record of an instruction. -/
def Instruction.record : Instruction → Record
  | write address value => ⟨.write, [.int address, .int value]⟩
  | tempo bpm => ⟨.tempo, [.int bpm]⟩
  | swing percent => ⟨.swing, [.int percent]⟩
  | play => ⟨.play, []⟩
  | stop => ⟨.stop, []⟩
  | loop count => ⟨.loop, [.int count]⟩
  | wait steps => ⟨.wait, [.int steps]⟩
  | comment text => ⟨.comment, [.str text]⟩

namespace Record

/-- The argument at a place. -/
def arg (record : Record) (place : Nat) : Except OperandFault Json :=
  match record.args[place]? with
  | some value => .ok value
  | none => .error .missing

/-- The number at a place. -/
def number (record : Record) (place : Nat) : Except OperandFault Int := do
  match (← record.arg place).asNumber with
  | .ok value => .ok value
  | .error fault => .error (.numeral fault)

/-- The address of a write. -/
def address (record : Record) : Except OperandFault Int := record.number 0

/-- The value of a write. -/
def value (record : Record) : Except OperandFault Int := record.number 1

/-- The store of a write; the address is read first. -/
def store (record : Record) : Except OperandFault Store := do
  let address ← record.address
  let value ← record.value
  return (address, value)

/-- The writes of a list of records, in order. -/
def writes (records : List Record) : List Record :=
  records.filter fun record => record.code == .write

/-- The stores of a list of records, in order. -/
def stores (records : List Record) : Except OperandFault (List Store) :=
  (writes records).mapM store

/-- The line of a record in a listing. -/
def line (record : Record) : Except OperandFault String :=
  match record.code with
  | .write => record.store.map Instruction.writeLine
  | .comment => .ok ("; " ++ (record.args.head?.map Json.shown).getD "")
  | code =>
    .ok (if record.args.isEmpty then code.name
      else code.name ++ " " ++ ", ".intercalate (record.args.map Json.shown))

/-- One line for each record. -/
def listing (records : List Record) : Except OperandFault String := do
  return "\n".intercalate (← records.mapM line)

end Record

end StepSequencer
