import StepSequencer.Instruction.Record
import StepSequencer.Memory.Map

/-!
# Assembly

A fixed frame around two lists of byte stores: the settings of tempo and swing, and the writes
into the audio region, each with the name of what it hits.
-/
namespace StepSequencer.Assembly

/-- A range of addresses that belongs to a voice: first address, address behind the last, label. -/
def voiceRanges : List (Int × Int × String) :=
  [(0x1000, 0x1020, "KICK"), (0x1020, 0x1050, "SNARE"), (0x1100, 0x1120, "LEAD"),
    (0x1200, 0x1230, "BASS"), (0x1300, 0x1330, "NOISE")]

/-- The name of an address: a place in the range of a voice or a register of the sequencer. Other
addresses have no name. -/
def registerName (address : Int) : String :=
  match voiceRanges.find? fun (first, behind, _) => first ≤ address && address < behind with
  | some (first, _, label) => label ++ "[" ++ Text.decimal (address - first) ++ "]"
  | none =>
    if address = Register.control then "SEQ_CTRL"
    else if address = Register.tempo then "SEQ_TEMPO"
    else if address = Register.swing then "SEQ_SWING"
    else ""

/-- A setting of the sequencer with the value as it is written. -/
inductive Setting where
  | tempo (shown : String)
  | swing (shown : String)
deriving DecidableEq, Repr

/-- The setting of an instruction. -/
def setting? : Instruction → Option Setting
  | .tempo bpm => some (.tempo (Text.decimal bpm))
  | .swing percent => some (.swing (Text.decimal percent))
  | _ => none

/-- The setting of a record; any argument is written as it is shown. -/
def recordSetting? (record : Record) : Except OperandFault (Option Setting) :=
  match record.code with
  | .tempo => do return some (.tempo (← record.arg 0).shown)
  | .swing => do return some (.swing (← record.arg 0).shown)
  | _ => .ok none

/-- The lines of a setting. -/
def settingLines : Setting → List String
  | .tempo shown => ["  li t0 " ++ shown, "  sb t0 $1501          ; SEQ_TEMPO"]
  | .swing shown => ["  li t0 " ++ shown, "  sb t0 $1503          ; SEQ_SWING"]

/-- The lines of a store. -/
def storeLines (store : Store) : List String :=
  ["  li t0 " ++ Text.decimal store.2,
    "  sb t0 $" ++ Text.hexUpper 0 store.1 ++ "          ; " ++ registerName store.1]

/-- The lines up to the settings. -/
def header (title tempo : String) : List String :=
  ["; " ++ title,
    "; Generated by $1010 Compiler",
    "; Target: MTMC-16",
    "; Tempo: " ++ tempo,
    "",
    ".data",
    "  ; Pattern data will be embedded inline",
    "",
    ".text",
    "main:",
    "  jal audio_init",
    "  jal load_patterns",
    "  jal seq_start",
    "",
    "main_loop:",
    "  sys joystick",
    "  mov t0 rv",
    "  andi t0 1",
    "  jz main_loop",
    "  jal seq_stop",
    "  sys exit",
    "",
    "audio_init:"]

/-- The lines between the settings and the stores. -/
def middle : List String := ["  ret", "", "load_patterns:"]

/-- The lines behind the stores. -/
def footer : List String :=
  ["  ret",
    "",
    "seq_start:",
    "  li t0 3              ; loop=1, play=1",
    "  sb t0 $1500          ; SEQ_CTRL",
    "  ret",
    "",
    "seq_stop:",
    "  li t0 0",
    "  sb t0 $1500",
    "  ret"]

/-- All lines. Stores outside the audio region are left out. -/
def lines (title tempo : String) (settings : List Setting) (stores : List Store) : List String :=
  header title tempo ++ settings.flatMap settingLines ++ middle ++
    (stores.filter fun store => inRegion store.1).flatMap storeLines ++ footer

end StepSequencer.Assembly
