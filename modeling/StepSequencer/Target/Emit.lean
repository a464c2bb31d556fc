import StepSequencer.IntelHex
import StepSequencer.Memory.Image
import StepSequencer.Target
import StepSequencer.Target.Assembly
import StepSequencer.Target.EmbeddedC
import StepSequencer.Target.EmbeddedRust
import StepSequencer.Target.WebAssembly

/-!
# Delivery

The text of a program for each target. A target needs no more of a program than its settings and
its stores, so typed instructions and records from elsewhere share one way to the text.
-/
namespace StepSequencer

/-- The labels in the head of a delivered text. -/
structure Labels where
  title : String
  tempo : String
deriving DecidableEq, Repr

namespace Record

/-- The stores into the audio region. The value of a write elsewhere is not looked at. -/
def regionStores (records : List Record) : Except OperandFault (List Store) := do
  let found ← (writes records).mapM fun record => do
    let address ← record.address
    if inRegion address then return some (address, ← record.value) else return none
  return found.filterMap id

end Record

namespace Target

/-- Every line with its line feed. -/
def joinLines (lines : List String) : String := String.join (lines.map fun line => line ++ "\n")

/-- The text of settings and stores for a target. -/
def render (target : Target) (labels : Labels) (settings : List Assembly.Setting)
    (stores : List Store) : String :=
  match target with
  | assembly => joinLines (Assembly.lines labels.title labels.tempo settings stores)
  | webAssembly => joinLines (WebAssembly.lines labels.title stores)
  | c => joinLines (EmbeddedC.lines labels.title stores)
  | rust => joinLines (EmbeddedRust.lines labels.title stores)
  | intelHex => IntelHex.file (Image.ofStores stores).toList regionStart

/-- The text of instructions for a target. -/
def emit (target : Target) (labels : Labels) (instructions : List Instruction) : String :=
  target.render labels (instructions.filterMap Assembly.setting?)
    (Instruction.stores instructions)

/-- The text of records for a target. Only what the target needs is read, settings first. -/
def emitRecords (target : Target) (labels : Labels) (records : List Record) :
    Except OperandFault String :=
  match target with
  | assembly => do
    let settings ← records.mapM Assembly.recordSetting?
    let stores ← Record.regionStores records
    return target.render labels (settings.filterMap id) stores
  | intelHex => do return target.render labels [] (← Record.regionStores records)
  | webAssembly | c | rust => do return target.render labels [] (← Record.stores records)

end Target

end StepSequencer
