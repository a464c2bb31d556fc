import StepSequencer.Report

/-!
# The schema of reports

Which JSON documents are reports. A number with a point counts as an integer if it has no
fraction, and truth values are no numbers.
-/
namespace StepSequencer.Report

/-- A whole number. -/
def whole? : Json → Option Int
  | .int value => some value
  | .decimal mantissa exponent => Json.wholeOf? mantissa exponent
  | _ => none

/-- A line or a column: null or a number from zero on. -/
def isPlace : Json → Bool
  | .null => true
  | document => (whole? document).any fun value => 0 ≤ value

/-- A text. -/
def isText : Json → Bool
  | .str _ => true
  | _ => false

/-- One of a list of texts. -/
def isOneOf (texts : List String) : Json → Bool
  | .str text => texts.contains text
  | _ => false

/-- A list whose items all pass a check. -/
def isListOf (check : Json → Bool) : Json → Bool
  | .arr items => items.all check
  | _ => false

/-- An object with exactly the fields of a list, each passing its check. -/
def isRecordOf (checks : List (String × (Json → Bool))) : Json → Bool
  | .obj fields =>
    (checks.all fun (name, check) => (List.lookup name fields).any check) &&
      fields.all fun (name, _) => checks.any fun (known, _) => known == name
  | _ => false

/-- The phases that the schema knows. -/
def phases : List String := ["lexer", "parser", "linter", "backend"]

/-- The operations that the schema knows. -/
def operations : List String :=
  ["NOP", "WRITE", "TEMPO", "SWING", "PLAY", "STOP", "LOOP", "ENDLOOP", "WAIT", "COPY", "COMMENT"]

/-- The targets that the schema knows. -/
def targets : List String := ["mtmc16", "wasm", "c", "rust", "hex"]

/-- The document of a diagnostic, with its phase. -/
def isDiagnostic : Json → Bool :=
  isRecordOf [("line", isPlace), ("col", isPlace),
    ("msg", fun document => match document with
      | .str text => text != ""
      | _ => false),
    ("phase", isOneOf phases)]

/-- The document of an instruction. -/
def isInstruction : Json → Bool :=
  isRecordOf [("op", isOneOf operations),
    ("args", isListOf fun document => isText document || (whole? document).isSome)]

/-- A document that is null or passes a check. -/
def isNullOr (check : Json → Bool) : Json → Bool
  | .null => true
  | document => check document

/-- The document of a compilation. -/
def isReport : Json → Bool :=
  isRecordOf [
    ("success", fun document => match document with
      | .bool _ => true
      | _ => false),
    ("target", isNullOr (isOneOf targets)),
    ("output", isNullOr isText),
    ("errors", isListOf isDiagnostic),
    ("warnings", isListOf isDiagnostic),
    ("ir", isNullOr (isListOf isInstruction)),
    ("patterns", isListOf isText),
    ("scenes", isListOf isText)]

end StepSequencer.Report
