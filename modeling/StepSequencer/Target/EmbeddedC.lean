import StepSequencer.Instruction
import StepSequencer.Target.Braces

/-!
# Embedded C

A source file with the registers as constants, an initial function of one volatile store for each
write, and fixed functions for transport.
-/
namespace StepSequencer.EmbeddedC

open Target (opened closed enclosed)

/-- A register and its offset from the base of the audio region. -/
def registers : List (String × String) :=
  [("KICK_GATE    ", "0x000"), ("KICK_PITCH   ", "0x010"), ("SNARE_GATE   ", "0x020"),
    ("SNARE_TONE   ", "0x030"), ("SNARE_SNAP   ", "0x040"), ("LEAD_GATE    ", "0x100"),
    ("LEAD_ARP     ", "0x110"), ("BASS_GATE    ", "0x200"), ("BASS_FM      ", "0x210"),
    ("BASS_FILT    ", "0x220"), ("NOISE_GATE   ", "0x300"), ("NOISE_DECAY  ", "0x310"),
    ("NOISE_TYPE   ", "0x320"), ("SEQ_CTRL     ", "0x500"), ("SEQ_TEMPO    ", "0x501"),
    ("SEQ_STEP     ", "0x502"), ("SEQ_SWING    ", "0x503")]

/-- The line that defines a register. -/
def registerLine (register : String × String) : String :=
  "#define " ++ register.1 ++ "((volatile uint8_t*)(AUDIO_BASE + " ++ register.2 ++ "))"

/-- The lines before the initial function. -/
def preamble (title : String) : List String :=
  ["/**",
    " * " ++ title,
    " * Generated by $1010 Compiler",
    " * Target: C (embedded)",
    " */",
    "",
    "#include <stdint.h>",
    "",
    "// Audio MMIO base address (adjust for your platform)",
    "#define AUDIO_BASE 0x1000",
    "",
    "// Memory-mapped registers"] ++
  registers.map registerLine ++
  [""]

/-- The lines up to the stores. -/
def header (title : String) : List String := preamble title ++ [opened "void audio_init(void)"]

/-- The line of a store. -/
def storeLine (store : Store) : String :=
  "    *((volatile uint8_t*)0x" ++ Text.hexLower store.1 ++ ") = " ++ Text.decimal store.2 ++ ";"

/-- The lines behind the stores. -/
def footer : List String :=
  [closed "",
    ""] ++
  enclosed "void seq_start(void)"
    ["    *SEQ_CTRL = 0x03;  // loop + play"] ++
  [""] ++
  enclosed "void seq_stop(void)"
    ["    *SEQ_CTRL = 0x00;"] ++
  ["",
    "// Call this from your main loop or timer ISR"] ++
  enclosed "void seq_tick(void)"
    ["    uint8_t step = *SEQ_STEP;",
      "",
      "    // Trigger voices based on gate values",
      "    // (Implement your synthesis here)",
      "",
      "    // Advance step",
      "    *SEQ_STEP = (step + 1) & 0x0F;"]

/-- All lines. -/
def lines (title : String) (stores : List Store) : List String :=
  header title ++ stores.map storeLine ++ footer

end StepSequencer.EmbeddedC
