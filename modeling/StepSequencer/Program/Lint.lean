import StepSequencer.Diagnostic
import StepSequencer.Program

/-!
# Checks on programs

What a statement means has to fit the rest of the program and the hardware: patterns have to be
defined and bytes have to fit a byte. An unknown voice, an odd pattern length and an address
outside the audio region are doubtful, not wrong.
-/
namespace StepSequencer

namespace Assignment

/-- An assignment has to name a defined pattern, if it names one. -/
def errors (defined : List String) (line : Int) (assignment : Assignment) : List Diagnostic :=
  match assignment.pattern with
  | none => []
  | some name =>
    if name = "" ∨ name ∈ defined then [] else [.atLine (.undefinedPattern name) line]

end Assignment

namespace Statement

/-- A voice has to be one of the five, if it is named. -/
def voiceWarnings (line : Int) (voice : String) : List Diagnostic :=
  if voice = "" ∨ (Voice.ofName? voice).isSome then [] else [.atLine (.unknownVoice voice) line]

/-- What is wrong with a statement in a program that defines certain patterns. -/
def errors (defined : List String) : Statement → List Diagnostic
  | scene definition =>
    definition.assignments.flatMap fun assignment => assignment.errors defined definition.line
  | assign line assignment => assignment.errors defined line
  | tempo line bpm =>
    if tempoMin ≤ bpm ∧ bpm ≤ tempoMax then [] else [.atLine (.tempoOutOfRange bpm) line]
  | poke line _ value =>
    if 0 ≤ value ∧ value ≤ 255 then [] else [.atLine (.valueOutOfRange value) line]
  | _ => []

/-- What is doubtful about a statement. -/
def warnings : Statement → List Diagnostic
  | assign line assignment => voiceWarnings line assignment.voice
  | param line voice _ _ => voiceWarnings line (voice.getD "")
  | pattern definition =>
    if definition.text.length = stepCount then []
    else [.atLine (.patternLength definition.name definition.text.length) definition.line]
  | poke line address _ =>
    if inRegion address then [] else [.atLine (.addressOutsideRegion address) line]
  | _ => []

end Statement

namespace Program

/-- All that is wrong with a program. -/
def lintErrors (program : Program) : List Diagnostic :=
  program.body.flatMap (Statement.errors program.patterns.names)

/-- All that is doubtful about a program. -/
def lintWarnings (program : Program) : List Diagnostic :=
  program.body.flatMap Statement.warnings

end Program

end StepSequencer
