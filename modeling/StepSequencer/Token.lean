import StepSequencer.Json.Loose
import StepSequencer.Text.Position

/-!
# Tokens

A lexeme is what the reader of a program sees: a name, a string, a number, a comment or a mark. A
token is a lexeme at a position. The type of numbers is a parameter, because how tokens group into
statements does not depend on what numbers they hold.
-/
namespace StepSequencer

/-- The classes of lexemes with what each holds. -/
inductive Lexeme (ν : Type) where
  /-- A name behind `@`, in lower case. -/
  | directive (name : String)
  /-- A name, in lower case. -/
  | identifier (name : String)
  /-- The text between quotes. -/
  | string (text : String)
  | number (value : ν)
  /-- The text of a comment without its mark and without blanks at its edges. -/
  | comment (text : String)
  | newline
  | colon
  | endOfInput
deriving DecidableEq, Repr

/-- A lexeme and the position of its first character. -/
structure Token (ν : Type) where
  lexeme : Lexeme ν
  place : Position
deriving DecidableEq, Repr

/-- The name of a lexeme's class in token lists. -/
def Lexeme.kind {ν : Type} : Lexeme ν → String
  | directive _ => "DIRECTIVE"
  | identifier _ => "IDENTIFIER"
  | string _ => "STRING"
  | number _ => "NUMBER"
  | comment _ => "COMMENT"
  | newline => "NEWLINE"
  | colon => "COLON"
  | endOfInput => "EOF"

/-- The lexeme of a class name and a document. Names and texts take any document as it is shown, and
a number keeps its document until somebody reads it. -/
def Lexeme.ofKind? (kind : String) (value : Json) : Option (Lexeme Json) :=
  match kind with
  | "DIRECTIVE" => some (.directive value.shown)
  | "IDENTIFIER" => some (.identifier value.shown)
  | "STRING" => some (.string value.shown)
  | "NUMBER" => some (.number value)
  | "COMMENT" => some (.comment value.shown)
  | "NEWLINE" => some .newline
  | "COLON" => some .colon
  | "EOF" => some .endOfInput
  | _ => none

end StepSequencer
