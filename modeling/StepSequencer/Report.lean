import StepSequencer.Compilation
import StepSequencer.Json.Writer

/-!
# Reports

The outcome of a compilation as a JSON document.
-/
namespace StepSequencer.Report

/-- A value or null. -/
def orNull {α : Type} (write : α → Json) : Option α → Json
  | some value => write value
  | none => .null

/-- The document of a diagnostic. -/
def ofDiagnostic (diagnostic : Diagnostic) : Json :=
  .obj [("line", orNull .int diagnostic.line), ("col", orNull .int diagnostic.col),
    ("msg", .str diagnostic.problem.message),
    ("phase", orNull (fun phase => .str phase.name) diagnostic.phase)]

/-- The document of an instruction record. -/
def ofRecord (record : Record) : Json :=
  .obj [("op", .str record.code.name), ("args", .arr record.args)]

/-- The document of a list of names. -/
def ofNames (names : List String) : Json := .arr (names.map .str)

/-- The document of a compilation. -/
def ofCompilation (compilation : Compilation) : Json :=
  .obj [("success", .bool compilation.success),
    ("target", orNull (fun target => .str target.key) compilation.target),
    ("output", orNull .str compilation.output),
    ("errors", .arr (compilation.errors.map ofDiagnostic)),
    ("warnings", .arr (compilation.warnings.map ofDiagnostic)),
    ("ir", orNull (fun instructions =>
      .arr (instructions.map fun instruction => ofRecord instruction.record))
      compilation.instructions),
    ("patterns", ofNames ((compilation.program.map fun p => p.patterns.names).getD [])),
    ("scenes", ofNames ((compilation.program.map fun p => p.scenes.names).getD []))]

/-- The text of a report. -/
def text (compilation : Compilation) : String := (ofCompilation compilation).pretty

end StepSequencer.Report
