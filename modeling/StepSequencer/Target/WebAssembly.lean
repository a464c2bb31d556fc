import StepSequencer.Instruction

/-!
# WebAssembly text

A module with one page of memory, an initial function of one byte store for each write, and fixed
functions to reach the memory.
-/
namespace StepSequencer.WebAssembly

/-- The lines up to the stores. -/
def header (title : String) : List String :=
  [";; " ++ title,
    ";; Generated by $1010 Compiler",
    ";; Target: WebAssembly",
    "",
    "(module",
    "  ;; Memory: 64KB (1 page)",
    "  (memory (export \"memory\") 1)",
    "",
    "  ;; Audio MMIO region: 0x1000-0x15FF",
    "",
    "  ;; Initialize audio memory",
    "  (func (export \"init\")"]

/-- The line of a store. -/
def storeLine (store : Store) : String :=
  "    (i32.store8 (i32.const " ++ Text.decimal store.1 ++ ") (i32.const " ++
    Text.decimal store.2 ++ "))"

/-- The lines behind the stores. -/
def footer : List String :=
  ["  )",
    "",
    "  ;; Read byte from audio memory",
    "  (func (export \"read\") (param $addr i32) (result i32)",
    "    (i32.load8_u (local.get $addr))",
    "  )",
    "",
    "  ;; Write byte to audio memory",
    "  (func (export \"write\") (param $addr i32) (param $val i32)",
    "    (i32.store8 (local.get $addr) (local.get $val))",
    "  )",
    "",
    "  ;; Get sequencer control",
    "  (func (export \"get_ctrl\") (result i32)",
    "    (i32.load8_u (i32.const 0x1500))",
    "  )",
    "",
    "  ;; Get tempo",
    "  (func (export \"get_tempo\") (result i32)",
    "    (i32.load8_u (i32.const 0x1501))",
    "  )",
    "",
    "  ;; Get current step",
    "  (func (export \"get_step\") (result i32)",
    "    (i32.load8_u (i32.const 0x1502))",
    "  )",
    "",
    "  ;; Set current step",
    "  (func (export \"set_step\") (param $step i32)",
    "    (i32.store8 (i32.const 0x1502) (local.get $step))",
    "  )",
    "",
    "  ;; Get gate value for voice at step",
    "  (func (export \"get_gate\") (param $voice i32) (param $step i32) (result i32)",
    "    (i32.load8_u",
    "      (i32.add",
    "        (i32.add",
    "          (i32.const 0x1000)",
    "          (i32.mul (local.get $voice) (i32.const 0x100))",
    "        )",
    "        (local.get $step)",
    "      )",
    "    )",
    "  )",
    ")"]

/-- All lines. -/
def lines (title : String) (stores : List Store) : List String :=
  header title ++ stores.map storeLine ++ footer

end StepSequencer.WebAssembly
