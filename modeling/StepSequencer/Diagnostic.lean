import StepSequencer.Memory.Map
import StepSequencer.Text.Digits
import StepSequencer.Text.Position

/-!
# Diagnostics

What can be wrong with a program, where it was found and by which phase. Problems are causes; the
wording of each is given once, by `Problem.message`.
-/
namespace StepSequencer

/-- The phase of a compilation that made a finding. -/
inductive Phase where
  | lexer
  | parser
  | linter
  | backend
deriving DecidableEq, Repr

namespace Phase

/-- The phases in the order in which they run. -/
def all : List Phase := [lexer, parser, linter, backend]

/-- The name of a phase in reports. -/
def name : Phase → String
  | lexer => "lexer"
  | parser => "parser"
  | linter => "linter"
  | backend => "backend"

/-- The phase of a name. -/
def ofName? (name : String) : Option Phase := all.find? fun phase => phase.name == name

end Phase

/-- The operands that a directive may lack. -/
inductive Operand where
  | titleText
  | tempo
  | swing
  | patternName
  | patternText
  | sceneName
  | paramTarget
  | paramValue
  | address
  | value
  | loopCount
  | stepCount
deriving DecidableEq, Repr

/-- The phrase for an operand in a message. -/
def Operand.phrase : Operand → String
  | titleText => "string after @title"
  | tempo => "number after @tempo"
  | swing => "number after @swing"
  | patternName => "pattern name"
  | patternText => "pattern string"
  | sceneName => "scene name"
  | paramTarget => "param target"
  | paramValue => "param value"
  | address => "address"
  | value => "value"
  | loopCount => "loop count"
  | stepCount => "step count"

/-- What is wrong. -/
inductive Problem where
  /-- A line or the text ended inside a string. -/
  | unterminatedString
  /-- An operand is not where it has to be. -/
  | expected (operand : Operand)
  /-- No directive has this name. -/
  | unknownDirective (name : String)
  | tempoOutOfRange (value : Int)
  | swingOutOfRange (value : Int)
  /-- A pattern text does not have one character for each step. -/
  | patternLength (name : String) (length : Nat)
  | undefinedPattern (name : String)
  | unknownVoice (name : String)
  | addressOutsideRegion (address : Int)
  | valueOutOfRange (value : Int)
  | unknownTarget (name : String)
  /-- A problem in the words of whoever reports it. -/
  | stated (text : String)
deriving DecidableEq, Repr

/-- The wording of a problem. -/
def Problem.message : Problem → String
  | unterminatedString => "Unterminated string"
  | expected operand => "Expected " ++ operand.phrase
  | unknownDirective name => "Unknown directive: @" ++ name
  | tempoOutOfRange value =>
    "Tempo " ++ Text.decimal value ++ " out of range (" ++ Text.decimal tempoMin ++ "-" ++
      Text.decimal tempoMax ++ ")"
  | swingOutOfRange value =>
    "Swing " ++ Text.decimal value ++ " out of range (" ++ Text.decimal swingMin ++ "-" ++
      Text.decimal swingMax ++ ")"
  | patternLength name length =>
    "Pattern \"" ++ name ++ "\" has " ++ Text.decimal length ++ " chars (expected " ++
      Text.decimal StepSequencer.stepCount ++ ")"
  | undefinedPattern name => "Undefined pattern: " ++ name
  | unknownVoice name => "Unknown voice: " ++ name
  | addressOutsideRegion address =>
    "Address $" ++ Text.hexLower address ++ " outside audio region ($" ++
      Text.hexUpper 0 regionStart ++ "-$" ++ Text.hexUpper 0 (regionEnd - 1) ++ ")"
  | valueOutOfRange value => "Value " ++ Text.decimal value ++ " out of byte range (0-255)"
  | unknownTarget name => "Unknown target: " ++ name
  | stated text => text

/-- A problem with its place and phase, as far as they are known. -/
structure Diagnostic where
  problem : Problem
  line : Option Int
  col : Option Int
  phase : Option Phase
deriving DecidableEq, Repr

namespace Diagnostic

/-- A finding at a line and a column. -/
def atPosition (problem : Problem) (place : Position) : Diagnostic :=
  ⟨problem, some place.line, some place.col, none⟩

/-- A finding that concerns a whole line. -/
def atLine (problem : Problem) (line : Int) : Diagnostic := ⟨problem, some line, none, none⟩

/-- The same finding, ascribed to a phase. -/
def inPhase (phase : Phase) (diagnostic : Diagnostic) : Diagnostic :=
  { diagnostic with phase := some phase }

/-- The place in a message: nothing without a line, and a column only behind a line. -/
def place (diagnostic : Diagnostic) : String :=
  match diagnostic.line, diagnostic.col with
  | none, _ => ""
  | some line, none => Text.decimal line ++ ":"
  | some line, some col => Text.decimal line ++ ":" ++ Text.decimal col ++ ":"

/-- Phase, place and problem in one line; an unknown phase is a question mark. -/
def text (diagnostic : Diagnostic) : String :=
  (match diagnostic.phase with
    | some phase => phase.name
    | none => "?") ++ ":" ++ diagnostic.place ++ " " ++ diagnostic.problem.message

end Diagnostic

end StepSequencer
