import StepSequencer.Command.Arguments
import StepSequencer.Command.Files
import StepSequencer.Compilation
import StepSequencer.Pack.Source
import StepSequencer.Report
import StepSequencer.Text.Utf8

/-!
# The command

A run of the command: arguments are read, a source is fetched, compiled and delivered. The
delivered text goes to a file or to standard output, and everything else to standard error. The
status is 0 if all went well, 1 if not, and 2 if the arguments were refused. What the system reports
against a file or a stream is told in a message, and anything else that goes wrong there breaks the
run off.
-/
namespace StepSequencer.Command

/-- What breaks a run off, instead of being reported in a message. -/
inductive BreakOff where
  /-- A file was to be written at a path that holds a null character. -/
  | nullCharacter
  /-- The target or the pattern is looked up and has no value. -/
  | noName
  /-- A text was to be written that cannot be encoded. -/
  | unencodable (message : String)
  /-- The list of targets cannot be printed. -/
  | unprinted (code : Nat) (text : String)
deriving DecidableEq, Repr

/-- The wording of what broke a run off. -/
def BreakOff.message : BreakOff → String
  | nullCharacter => "embedded null byte"
  | noName => "unhashable type: 'list'"
  | unencodable message => message
  | unprinted code text => numbered code text

/-- How a run comes to its end, with the messages that it gives. -/
structure Outcome where
  status : Nat
  messages : List String
  brokenOff : Option BreakOff
deriving DecidableEq, Repr

namespace Outcome

/-- The text of the messages, one on a line. -/
def messageText (outcome : Outcome) : String :=
  String.join (outcome.messages.map fun message => message ++ "\n")

/-- The outcome of refused arguments. -/
def refused (fault : ArgumentFault) : Outcome :=
  ⟨2, ["tenten-compile: error: " ++ fault.message], none⟩

end Outcome

/-- A text with blanks behind it up to a width. -/
def padded (width : Nat) (text : String) : String :=
  text ++ String.ofList (List.replicate (width - text.length) ' ')

/-- The line of a target in the list of targets. -/
def targetLine (target : Target) : String :=
  let aliases :=
    if target.aliases.isEmpty then "" else "(alias: " ++ ", ".intercalate target.aliases ++ ")"
  let line := padded 8 target.key ++ " " ++ padded 20 target.name ++ " " ++
    padded 5 target.suffix ++ " " ++ aliases
  String.ofList (Text.trimEndBy Text.isBlank line.toList)

/-- The list of targets. -/
def targetList : String := Target.joinLines (Target.all.map targetLine)

/-- The line of an option in the help. -/
def switchLine (switch : Switch) : String :=
  "  " ++ ", ".intercalate switch.spellings ++ (if switch.takesValue then " VALUE" else "")

/-- The help. -/
def help : String :=
  Target.joinLines (["usage: tenten-compile [options] [source]", ""] ++ Switch.all.map switchLine)

/-- The log lines that are shown: all of them with their origin, or warnings alone without it. -/
def shownLog (verbose : Bool) (log : List LogEntry) : List String :=
  if verbose then log.map LogEntry.text
  else (log.filter fun entry => entry.level == .warning).map LogEntry.message

/-- The log of a fault of the catalogue: names that were not found are noted. -/
def packLog (fault : PackFault) : List LogEntry :=
  match fault with
  | .noPack _ | .noDemo _ _ => [⟨.warning, "tenten_compiler.packs", fault.message⟩]
  | .empty _ => []

/-- Why there is no source. -/
inductive SourceFault where
  | pack (fault : PackFault)
  | file (path : String) (fault : FileFault)
  | encoding (fault : Text.Utf8.Fault)
  | input (fault : InputFault)
  /-- The pattern of a pack has no value. -/
  | noPattern
  /-- The arguments name none. -/
  | unnamed
deriving DecidableEq, Repr

/-- The source of a demo, or of the first demo of its pack. -/
def packSource (catalog : Catalog) (key : String) (name : Option (Option String)) :
    Except SourceFault String := do
  let _ ← (catalog.pack key).mapError .pack
  match name with
  | some (some name) => (catalog.source key name).mapError .pack
  | some none => .error .noPattern
  | none =>
    let name ← (catalog.firstDemo key).mapError .pack
    (catalog.source key name).mapError .pack

variable {m : Type → Type} [Monad m]

/-- The text of a source file: UTF-8, with every line break read as a line feed. -/
def sourceText (bytes : List UInt8) : Except Text.Utf8.Fault String := do
  return String.ofList (Text.unifyNewlines (← Text.Utf8.decode bytes))

/-- Fetch the source: a demo of a pack, the standard input, or a file. -/
def fetch (world : Surroundings m) (catalog : Catalog) (arguments : Arguments) :
    m (Except SourceFault String) := do
  match arguments.pack.filter fun key => key != "" with
  | some key => return packSource catalog key arguments.pattern
  | none =>
    match arguments.source with
    | none => return .error .unnamed
    | some "-" => return (← world.readInput).mapError .input
    | some path =>
      match ← world.readFile path with
      | .error fault => return .error (.file path fault)
      | .ok bytes => return (sourceText bytes).mapError .encoding

/-- The outcome of a run without a source. -/
def withoutSource (verbose : Bool) : SourceFault → Outcome
  | .pack fault => ⟨1, shownLog verbose (packLog fault) ++ ["Error: " ++ fault.message], none⟩
  | .file path fault => ⟨1, ["Error: " ++ fault.message path], none⟩
  | .encoding fault => ⟨1, ["Error: " ++ fault.message], none⟩
  | .input fault => ⟨1, ["Error: " ++ fault.message], none⟩
  | .noPattern => ⟨1, [], some .noName⟩
  | .unnamed => .refused .noSource

/-- How a label without a value is printed. -/
def noLabel : String := "[]"

/-- The options that the arguments ask for. -/
def compileOptions (arguments : Arguments) : Options :=
  ⟨.text (arguments.target.getD noLabel), .text (arguments.title.getD noLabel),
    (arguments.tempo.map .number).getD (.text noLabel), arguments.clearRests⟩

/-- The lines of findings: warnings first. -/
def findingLines (compilation : Compilation) : List String :=
  compilation.warnings.map (fun warning => "warning: " ++ warning.text) ++
    compilation.errors.map fun error => "error: " ++ error.text

/-- A file that was asked for under a name that is not empty. -/
def asked (path : Option String) : Option String := path.filter fun name => name != ""

/-- How a file that cannot be written breaks a run off: if no file can have its path, or its text
cannot be encoded. Any other fault is reported. -/
def FileFault.breakOff? : FileFault → Option BreakOff
  | nullCharacter => some .nullCharacter
  | unencodable message => some (.unencodable message)
  | _ => none

/-- How an output that cannot be written breaks a run off. -/
def OutputFault.breakOff? : OutputFault → Option BreakOff
  | unencodable message => some (.unencodable message)
  | system _ _ => none

/-- The outcome of a run that ends with a fault, behind messages already given: it is broken off, or
the fault is reported. -/
def failed (messages : List String) (message : String) : Option BreakOff → Outcome
  | some reason => ⟨1, messages, some reason⟩
  | none => ⟨1, messages ++ ["Error: " ++ message], none⟩

/-- The outcome of a run that could not write a file, behind messages already given. -/
def withoutFile (messages : List String) (path : String) (fault : FileFault) : Outcome :=
  failed messages (fault.message path) fault.breakOff?

/-- The outcome of a run that could not print its text, behind messages already given. -/
def withoutOutput (messages : List String) (fault : OutputFault) : Outcome :=
  failed messages fault.message fault.breakOff?

/-- Deliver a finished compilation, behind messages already given. -/
def deliver (world : Surroundings m) (arguments : Arguments) (compilation : Compilation)
    (messages : List String) : m Outcome := do
  match compilation.output with
  | none =>
    return ⟨1, messages ++
      ["Compilation failed (" ++ Text.decimal compilation.errors.length ++ " error(s))"], none⟩
  | some output =>
    match asked arguments.output with
    | none =>
      match ← world.writeOutput output with
      | .ok () => return ⟨0, messages, none⟩
      | .error fault => return withoutOutput messages fault
    | some path =>
      match ← world.writeFile path output with
      | .ok () => return ⟨0, messages ++ ["Saved: " ++ path], none⟩
      | .error fault => return withoutFile messages path fault

/-- Compile a source, report on it if asked to, and deliver it. -/
def compile (world : Surroundings m) (arguments : Arguments) (source : String) : m Outcome := do
  let compilation := Compilation.ofSource (compileOptions arguments) source
  let log := shownLog arguments.verbose compilation.log
  if arguments.target.isNone && compilation.instructions.isSome then
    return ⟨1, log, some .noName⟩
  else
    let messages := log ++ findingLines compilation
    match asked arguments.report with
    | none => deliver world arguments compilation messages
    | some path =>
      match ← world.writeFile path (Report.text compilation ++ "\n") with
      | .ok () => deliver world arguments compilation (messages ++ ["Report: " ++ path])
      | .error fault => return withoutFile messages path fault

/-- Print the list of targets. Nothing is reported if that fails. -/
def listTargets (world : Surroundings m) : m Outcome := do
  match ← world.writeOutput targetList with
  | .ok () => return ⟨0, [], none⟩
  | .error (.unencodable message) => return ⟨1, [], some (.unencodable message)⟩
  | .error (.system code text) => return ⟨1, [], some (.unprinted code text)⟩

/-- Do what accepted arguments ask for. -/
def perform (world : Surroundings m) (catalog : Catalog) (arguments : Arguments) : m Outcome := do
  if arguments.listTargets then listTargets world
  else
    match ← fetch world catalog arguments with
    | .error fault => return withoutSource arguments.verbose fault
    | .ok source => compile world arguments source

/-- Run the command. Help is printed as far as that is possible. -/
def run (world : Surroundings m) (settings : Settings) (catalog : Catalog)
    (arguments : List String) : m Outcome := do
  match readArguments settings arguments with
  | .error fault => return .refused fault
  | .ok none =>
    let _ ← world.writeOutput help
    return ⟨0, [], none⟩
  | .ok (some arguments) => perform world catalog arguments

end StepSequencer.Command
