import StepSequencer.Instruction
import StepSequencer.Target.Braces

/-!
# Embedded Rust

A source file with the registers as constants, an initial function of one volatile store for each
write, and fixed functions for transport.
-/
namespace StepSequencer.EmbeddedRust

open Target (opened closed enclosed braced)

/-- The lines before the initial function. -/
def preamble (title : String) : List String :=
  ["//! " ++ title,
    "//! Generated by $1010 Compiler",
    "//! Target: Rust (embedded, no_std)",
    "",
    "#![no_std]",
    "",
    "/// Audio MMIO base address",
    "const AUDIO_BASE: usize = 0x1000;",
    "",
    "/// Voice gate addresses",
    "const KICK_GATE: usize = AUDIO_BASE + 0x000;",
    "const SNARE_GATE: usize = AUDIO_BASE + 0x020;",
    "const LEAD_GATE: usize = AUDIO_BASE + 0x100;",
    "const BASS_GATE: usize = AUDIO_BASE + 0x200;",
    "const NOISE_GATE: usize = AUDIO_BASE + 0x300;",
    "",
    "/// Sequencer control registers",
    "const SEQ_CTRL: usize = AUDIO_BASE + 0x500;",
    "const SEQ_TEMPO: usize = AUDIO_BASE + 0x501;",
    "const SEQ_STEP: usize = AUDIO_BASE + 0x502;",
    "",
    "/// Write to MMIO",
    "#[inline(always)]"] ++
  enclosed "unsafe fn mmio_write(addr: usize, val: u8)"
    ["    core::ptr::write_volatile(addr as *mut u8, val);"] ++
  ["",
    "/// Read from MMIO",
    "#[inline(always)]"] ++
  enclosed "unsafe fn mmio_read(addr: usize) -> u8"
    ["    core::ptr::read_volatile(addr as *const u8)"] ++
  ["",
    "/// Initialize audio patterns"]

/-- The lines up to the stores. -/
def header (title : String) : List String :=
  preamble title ++ [opened "pub fn audio_init()", opened "    unsafe"]

/-- The line of a store. -/
def storeLine (store : Store) : String :=
  "        mmio_write(0x" ++ Text.hexLower store.1 ++ ", " ++ Text.decimal store.2 ++ ");"

/-- The lines behind the stores. -/
def footer : List String :=
  [closed "    ",
    closed "",
    "",
    "/// Start sequencer (loop mode)"] ++
  enclosed "pub fn seq_start()"
    ["    unsafe " ++ braced "mmio_write(SEQ_CTRL, 0x03);"] ++
  ["",
    "/// Stop sequencer"] ++
  enclosed "pub fn seq_stop()"
    ["    unsafe " ++ braced "mmio_write(SEQ_CTRL, 0x00);"] ++
  ["",
    "/// Advance sequencer (call from timer ISR)"] ++
  enclosed "pub fn seq_tick()"
    [opened "    unsafe",
      "        let step = mmio_read(SEQ_STEP);",
      "        // Trigger voices based on gate values here",
      "        mmio_write(SEQ_STEP, (step + 1) & 0x0F);",
      closed "    "]

/-- All lines. -/
def lines (title : String) (stores : List Store) : List String :=
  header title ++ stores.map storeLine ++ footer

end StepSequencer.EmbeddedRust
