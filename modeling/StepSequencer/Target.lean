/-!
# Targets

The five forms in which a program can be delivered, with the names by which they are asked for.
-/
namespace StepSequencer

/-- The forms of delivery. -/
inductive Target where
  | assembly
  | webAssembly
  | c
  | rust
  | intelHex
deriving DecidableEq, Repr

namespace Target

/-- The targets in the order in which they are listed. -/
def all : List Target := [assembly, webAssembly, c, rust, intelHex]

/-- The name by which a target is asked for and reported. -/
def key : Target → String
  | assembly => "mtmc16"
  | webAssembly => "wasm"
  | c => "c"
  | rust => "rust"
  | intelHex => "hex"

/-- The other names by which a target may be asked for. -/
def aliases : Target → List String
  | assembly => ["asm"]
  | webAssembly => ["wat"]
  | rust => ["rs"]
  | c | intelHex => []

/-- The name for people. -/
def name : Target → String
  | assembly => "MTMC-16 Assembly"
  | webAssembly => "WebAssembly Text"
  | c => "C (embedded)"
  | rust => "Rust (embedded, no_std)"
  | intelHex => "Intel HEX"

/-- The suffix of files. -/
def suffix : Target → String
  | assembly => ".asm"
  | webAssembly => ".wat"
  | c => ".c"
  | rust => ".rs"
  | intelHex => ".hex"

/-- The media type for delivery over a network. -/
def mediaType : Target → String
  | c => "text/x-c"
  | rust => "text/x-rust"
  | assembly | webAssembly | intelHex => "text/plain"

/-- The target of a key. -/
def ofKey? (key : String) : Option Target := all.find? fun target => target.key == key

/-- The target of a key or of another name. -/
def ofName? (name : String) : Option Target :=
  all.find? fun target => target.key == name || target.aliases.contains name

/-- The other names of the target of a key. -/
def aliasesOf (key : String) : List String := ((ofKey? key).map aliases).getD []

end Target

end StepSequencer
