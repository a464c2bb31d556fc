import StepSequencer.Clause.Meaning
import StepSequencer.Program.Lint
import StepSequencer.Program.Lower
import StepSequencer.Settings
import StepSequencer.Target.Emit
import StepSequencer.Token.Scan

/-!
# Compilations

A compilation runs through four phases: tokens are scanned, a program is read from them, the
program is checked, and its instructions are delivered for a target. The first phase that finds an
error is the last to run. A compilation holds what was made up to there, all findings, and a log.
-/
namespace StepSequencer

/-- A label in the head of a delivered text: a number or a text. -/
inductive Label where
  | number (value : Int)
  | text (value : String)
deriving DecidableEq, Repr

namespace Label

/-- A label as it is printed. -/
def shown : Label → String
  | number value => Text.decimal value
  | text value => value

/-- Zero and the empty text say nothing. -/
def saysNothing : Label → Bool
  | number value => value == 0
  | text value => value == ""

end Label

/-- What is asked of a compilation. -/
structure Options where
  target : Label
  title : Label
  tempo : Label
  /-- Whether rests are written, too. -/
  clearRests : Bool
deriving DecidableEq, Repr

namespace Options

/-- The options of the settings alone. -/
def ofSettings (settings : Settings) : Options :=
  ⟨.text settings.target, .text settings.title, .number settings.tempo, settings.clearRests⟩

/-- The options of a request. A label that is absent or says nothing is the default. -/
def ofRequest (settings : Settings) (target title tempo : Option Label)
    (clearRests : Option Bool) : Options :=
  let default := ofSettings settings
  let orDefault (label : Option Label) (default : Label) : Label :=
    (label.filter fun given => !given.saysNothing).getD default
  ⟨orDefault target default.target, orDefault title default.title, orDefault tempo default.tempo,
    clearRests.getD default.clearRests⟩

/-- The labels of the delivered text. -/
def labels (options : Options) : Labels := ⟨options.title.shown, options.tempo.shown⟩

end Options

/-- The weight of a log entry. -/
inductive LogLevel where
  | debug
  | info
  | warning
deriving DecidableEq, Repr

/-- The name of a weight. -/
def LogLevel.name : LogLevel → String
  | debug => "DEBUG"
  | info => "INFO"
  | warning => "WARNING"

/-- A line of a log: its weight, the part of the program that speaks, and what it says. -/
structure LogEntry where
  level : LogLevel
  origin : String
  message : String
deriving DecidableEq, Repr

/-- The log entry with its weight and origin. -/
def LogEntry.text (entry : LogEntry) : String :=
  entry.level.name ++ " " ++ entry.origin ++ ": " ++ entry.message

/-- All that a compilation found and made. -/
structure Compilation where
  /-- The delivered text. -/
  output : Option String
  errors : List Diagnostic
  warnings : List Diagnostic
  program : Option Program
  instructions : Option (List Instruction)
  target : Option Target
  log : List LogEntry
deriving DecidableEq, Repr

namespace Compilation

/-- A compilation succeeded when it delivered a text. -/
def success (compilation : Compilation) : Bool := compilation.output.isSome

/-- An entry of the compiler's log. -/
def note (level : LogLevel) (message : String) : LogEntry :=
  ⟨level, "tenten_compiler.compiler", message⟩

/-- A count in a message. -/
def count {α : Type} (items : List α) : String := Text.decimal items.length

/-- The log of the first phase. -/
def scanNote (tokens : List (Token Int)) (errors : List Diagnostic) : LogEntry :=
  note .debug ("Lexed " ++ count tokens ++ " tokens, " ++ count errors ++ " errors")

/-- The log of the second phase. -/
def parseNote (program : Program) : LogEntry :=
  note .debug ("Parsed " ++ count program.body ++ " statements, " ++ count program.patterns ++
    " patterns, " ++ count program.scenes ++ " scenes")

/-- The log of the instructions. -/
def lowerNote (instructions : List Instruction) : LogEntry :=
  note .debug ("Generated " ++ count instructions ++ " IR instructions")

/-- The log of a delivery. -/
def emitNote (target : Target) (instructions : List Instruction) (warnings : List Diagnostic) :
    LogEntry :=
  note .info ("Compiled to " ++ target.name ++ ": " ++ count instructions ++ " instructions, " ++
    count warnings ++ " warnings")

/-- Deliver the instructions of a checked program. -/
def deliver (options : Options) (program : Program) (warnings : List Diagnostic)
    (log : List LogEntry) : Compilation :=
  let instructions := program.instructions options.clearRests
  let log := log ++ [lowerNote instructions]
  match Target.ofName? options.target.shown with
  | none =>
    { output := none
      errors := [⟨.unknownTarget options.target.shown, none, none, some .backend⟩]
      warnings
      program := some program
      instructions := some instructions
      target := none
      log }
  | some target =>
    { output := some (target.emit options.labels instructions)
      errors := []
      warnings
      program := some program
      instructions := some instructions
      target := some target
      log := log ++ [emitNote target instructions warnings] }

/-- Check a program that was read without errors, and deliver it if it passes. -/
def check (options : Options) (program : Program) (warnings : List Diagnostic)
    (log : List LogEntry) : Compilation :=
  let errors := program.lintErrors.map (Diagnostic.inPhase .linter)
  let warnings := warnings ++ program.lintWarnings.map (Diagnostic.inPhase .linter)
  if errors.isEmpty then deliver options program warnings log
  else ⟨none, errors, warnings, some program, none, none, log⟩

/-- Read a program from tokens, and check it if it was read without errors. -/
def parse (options : Options) (tokens : List (Token Int)) (log : List LogEntry) : Compilation :=
  let parse := Parse.ofTokens tokens
  let errors := parse.errors.map (Diagnostic.inPhase .parser)
  let warnings := parse.warnings.map (Diagnostic.inPhase .parser)
  let log := log ++ [parseNote parse.program]
  if errors.isEmpty then check options parse.program warnings log
  else ⟨none, errors, warnings, some parse.program, none, none, log⟩

/-- Compile a source text. -/
def ofSource (options : Options) (source : String) : Compilation :=
  let (tokens, problems) := Token.scan source
  let errors := problems.map (Diagnostic.inPhase .lexer)
  let log := [scanNote tokens errors]
  if errors.isEmpty then parse options tokens log
  else ⟨none, errors, [], none, none, none, log⟩

end Compilation

end StepSequencer
