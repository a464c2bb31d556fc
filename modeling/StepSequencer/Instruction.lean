import StepSequencer.Text.Digits

/-!
# Instructions

What a program asks of memory, independent of any target. Only a write has an effect; the other
instructions carry labels and marks.
-/
namespace StepSequencer

/-- The instructions that programs give rise to. -/
inductive Instruction where
  | write (address value : Int)
  | tempo (bpm : Int)
  | swing (percent : Int)
  | play
  | stop
  | loop (count : Int)
  | wait (steps : Int)
  | comment (text : String)
deriving DecidableEq, Repr

/-- A byte store: an address and the value that goes there. -/
abbrev Store := Int × Int

namespace Instruction

/-- The store of a write. -/
def store? : Instruction → Option Store
  | write address value => some (address, value)
  | _ => none

/-- The stores of a list of instructions, in order. -/
def stores (instructions : List Instruction) : List Store := instructions.filterMap store?

/-- The line of a write in a listing. -/
def writeLine (store : Store) : String :=
  "WRITE $" ++ Text.hexUpper 4 store.1 ++ ", " ++ Text.decimal store.2

/-- The line of an instruction in a listing. -/
def line : Instruction → String
  | write address value => writeLine (address, value)
  | tempo bpm => "TEMPO " ++ Text.decimal bpm
  | swing percent => "SWING " ++ Text.decimal percent
  | play => "PLAY"
  | stop => "STOP"
  | loop count => "LOOP " ++ Text.decimal count
  | wait steps => "WAIT " ++ Text.decimal steps
  | comment text => "; " ++ text

/-- One line for each instruction. -/
def listing (instructions : List Instruction) : String :=
  "\n".intercalate (instructions.map line)

end Instruction

end StepSequencer
