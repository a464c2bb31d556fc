import StepSequencer.Index

/-!
# Programs

A program is a list of statements. Patterns and scenes are known by name; the last definition of
a name counts, wherever it stands.
-/
namespace StepSequencer

/-- A named row of steps. -/
structure Pattern where
  name : String
  /-- The steps as written. -/
  text : String
  steps : List Int
  line : Int
deriving DecidableEq, Repr

/-- A voice and the name of the pattern that it plays. -/
structure Assignment where
  voice : String
  pattern : Option String
deriving DecidableEq, Repr

/-- A named group of assignments. -/
structure Scene where
  name : String
  assignments : List Assignment
  line : Int
deriving DecidableEq, Repr

/-- The statements of the language, each with the line on which it starts. -/
inductive Statement where
  | comment (line : Int) (text : String)
  | title (line : Int) (text : String)
  | tempo (line : Int) (bpm : Int)
  | swing (line : Int) (percent : Int)
  | pattern (definition : Pattern)
  | scene (definition : Scene)
  | assign (line : Int) (assignment : Assignment)
  | play (line : Int) (scene : Option String) (loop : Bool)
  | stop (line : Int)
  | param (line : Int) (voice : Option String) (parameter : Option String) (value : Int)
  | poke (line : Int) (address value : Int)
  | loop (line : Int) (count : Int)
  | wait (line : Int) (steps : Int)
deriving DecidableEq, Repr

namespace Statement

/-- The pattern that a statement defines. -/
def pattern? : Statement → Option Pattern
  | pattern definition => some definition
  | _ => none

/-- The scene that a statement defines. -/
def scene? : Statement → Option Scene
  | scene definition => some definition
  | _ => none

end Statement

/-- Statements in source order. -/
structure Program where
  body : List Statement
deriving DecidableEq, Repr

namespace Program

/-- Add a statement at the end. -/
def append (program : Program) (statement : Statement) : Program :=
  ⟨program.body ++ [statement]⟩

/-- The program of statements added one by one. -/
def ofStatements (statements : List Statement) : Program := statements.foldl append ⟨[]⟩

/-- Statements stand in the order in which they were added. -/
@[simp] theorem body_ofStatements (statements : List Statement) :
    (ofStatements statements).body = statements := by
  suffices general : ∀ program : Program,
      (statements.foldl append program).body = program.body ++ statements from general ⟨[]⟩
  induction statements with
  | nil => exact fun program => (List.append_nil program.body).symm
  | cons statement statements ih =>
    intro program
    rw [List.foldl_cons, ih, append, List.append_assoc, List.singleton_append]

/-- The patterns of a program by name. -/
def patterns (program : Program) : Index Pattern :=
  .ofList ((program.body.filterMap Statement.pattern?).map fun pattern => (pattern.name, pattern))

/-- The scenes of a program by name. -/
def scenes (program : Program) : Index Scene :=
  .ofList ((program.body.filterMap Statement.scene?).map fun scene => (scene.name, scene))

end Program

end StepSequencer
