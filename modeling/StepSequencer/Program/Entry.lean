import StepSequencer.Program.Lint
import StepSequencer.Program.Lower
import StepSequencer.Text.Quoted

/-!
# Programs put together by hand

A program that was not read from text may hold entries that are no statements. Checks pass over
them; instructions cannot be made from them.
-/
namespace StepSequencer

/-- A statement, or something else with the text that stands for it. -/
inductive Entry where
  | statement (statement : Statement)
  | foreign (text : String)
deriving DecidableEq, Repr

/-- An entry that stands where a statement is needed. -/
structure ForeignEntry where
  text : String
deriving DecidableEq, Repr

/-- The wording of the fault. -/
def ForeignEntry.message (entry : ForeignEntry) : String :=
  "Unhandled AST node: " ++ Text.quoted entry.text

namespace Entry

/-- The statement of an entry. -/
def statement? : Entry → Option Statement
  | statement content => some content
  | foreign _ => none

/-- The text of an entry that is no statement. -/
def foreign? : Entry → Option String
  | statement _ => none
  | foreign text => some text

/-- The program of the statements among a list of entries. -/
def program (entries : List Entry) : Program := .ofStatements (entries.filterMap statement?)

/-- The instructions of a list of entries, unless one of them is no statement. -/
def instructions (entries : List Entry) (clearRests : Bool) :
    Except ForeignEntry (List Instruction) :=
  match entries.findSome? foreign? with
  | some text => .error ⟨text⟩
  | none => .ok ((program entries).instructions clearRests)

end Entry

end StepSequencer
