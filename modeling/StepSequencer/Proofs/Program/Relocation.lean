import StepSequencer.Program.Lint
import StepSequencer.Program.Lower
import StepSequencer.Proofs.Clause.Relocation
import StepSequencer.Proofs.Index

/-!
# Programs do not depend on lines

A statement keeps the line on which it starts only for those who report about it. A moved program
has the same instructions, and the same errors and warnings at their new places.
-/
namespace StepSequencer

variable (move : Relocation)

/-- A pattern on its new line. -/
def Pattern.relocate (pattern : Pattern) : Pattern :=
  { pattern with line := move.line pattern.line }

/-- A scene on its new line. -/
def Scene.relocate (scene : Scene) : Scene := { scene with line := move.line scene.line }

/-- A statement on its new line. -/
def Statement.relocate : Statement → Statement
  | comment line text => comment (move.line line) text
  | title line text => title (move.line line) text
  | tempo line bpm => tempo (move.line line) bpm
  | swing line percent => swing (move.line line) percent
  | pattern definition => pattern (definition.relocate move)
  | scene definition => scene (definition.relocate move)
  | assign line assignment => assign (move.line line) assignment
  | play line name looped => play (move.line line) name looped
  | stop line => stop (move.line line)
  | param line voice parameter value => param (move.line line) voice parameter value
  | poke line address value => poke (move.line line) address value
  | loop line count => loop (move.line line) count
  | wait line steps => wait (move.line line) steps

/-- A program on its new lines. -/
def Program.relocate (program : Program) : Program :=
  ⟨program.body.map (Statement.relocate move)⟩

/-- The statement of a moved clause is the moved statement. -/
theorem Clause.statement?_relocate (clause : Clause Int) :
    (clause.relocate move).statement? = clause.statement?.map (Statement.relocate move) := by
  cases clause <;>
    simp only [relocate, statement?, Slot.getD_relocate, Slot.get?_relocate, Option.map_some,
      Option.map_none, Statement.relocate, Pattern.relocate, Scene.relocate, List.filterMap_map,
      Function.comp_def, Member.assignment?_relocate]

namespace Program

variable (program : Program)

/-- The patterns of a program move with it. -/
theorem patterns_relocate :
    (program.relocate move).patterns = program.patterns.mapValues (Pattern.relocate move) := by
  have moved (statement : Statement) : (statement.relocate move).pattern? =
      statement.pattern?.map (Pattern.relocate move) := by
    cases statement <;> rfl
  rw [patterns, relocate, patterns, ← Index.ofList_map, List.filterMap_map, List.map_filterMap,
    List.map_filterMap, List.map_filterMap]
  simp only [Function.comp_def, moved, Option.map_map]
  rfl

/-- The scenes of a program move with it. -/
theorem scenes_relocate :
    (program.relocate move).scenes = program.scenes.mapValues (Scene.relocate move) := by
  have moved (statement : Statement) : (statement.relocate move).scene? =
      statement.scene?.map (Scene.relocate move) := by
    cases statement <;> rfl
  rw [scenes, relocate, scenes, ← Index.ofList_map, List.filterMap_map, List.map_filterMap,
    List.map_filterMap, List.map_filterMap]
  simp only [Function.comp_def, moved, Option.map_map]
  rfl

/-- An assignment writes the same for patterns that moved. -/
theorem assignmentWrites_relocate (patterns : Index Pattern) (clearRests : Bool)
    (assignment : Assignment) :
    assignmentWrites (patterns.mapValues (Pattern.relocate move)) clearRests assignment =
      assignmentWrites patterns clearRests assignment := by
  unfold assignmentWrites
  cases given? assignment.pattern with
  | none => rfl
  | some name =>
    simp only [Option.bind_some, Index.get?_mapValues]
    cases patterns.get? name with
    | none => rfl
    | some pattern => cases Voice.ofName? assignment.voice <;> rfl

/-- A scene that moved writes the same. -/
theorem sceneInstructions_relocate (patterns : Index Pattern) (clearRests : Bool) (scene : Scene) :
    sceneInstructions (patterns.mapValues (Pattern.relocate move)) clearRests
      (scene.relocate move) = sceneInstructions patterns clearRests scene := by
  have writes : assignmentWrites (patterns.mapValues (Pattern.relocate move)) clearRests =
      assignmentWrites patterns clearRests :=
    funext (assignmentWrites_relocate move patterns clearRests)
  rw [sceneInstructions, writes, sceneInstructions]
  rfl

/-- A statement that moved gives the same instructions. -/
theorem statementInstructions_relocate (patterns : Index Pattern) (scenes : Index Scene)
    (clearRests : Bool) (statement : Statement) :
    statementInstructions (patterns.mapValues (Pattern.relocate move))
        (scenes.mapValues (Scene.relocate move)) clearRests (statement.relocate move) =
      statementInstructions patterns scenes clearRests statement := by
  cases statement with
  | scene definition => exact sceneInstructions_relocate move patterns clearRests definition
  | assign line assignment => exact assignmentWrites_relocate move patterns clearRests assignment
  | play line name looped =>
    simp only [Statement.relocate, statementInstructions]
    cases given? name with
    | none => rfl
    | some name =>
      simp only [Option.bind_some, Index.get?_mapValues]
      cases scenes.get? name with
      | none => rfl
      | some scene => simp only [Option.map_some, sceneInstructions_relocate]
  | _ => rfl

/-- A moved program has the same instructions. -/
theorem instructions_relocate (clearRests : Bool) :
    (program.relocate move).instructions clearRests = program.instructions clearRests := by
  rw [instructions, patterns_relocate, scenes_relocate, relocate, List.flatMap_map]
  simp only [statementInstructions_relocate]
  rfl

/-- The errors of an assignment move with its line. -/
theorem assignment_errors_relocate (defined : List String) (line : Int) (assignment : Assignment) :
    assignment.errors defined (move.line line) =
      (assignment.errors defined line).map (Diagnostic.relocate move) := by
  unfold Assignment.errors
  split
  · rfl
  · split <;> rfl

/-- The errors of a statement move with it. -/
theorem statement_errors_relocate (defined : List String) (statement : Statement) :
    (statement.relocate move).errors defined =
      (statement.errors defined).map (Diagnostic.relocate move) := by
  cases statement with
  | scene definition =>
    simp only [Statement.relocate, Statement.errors, Scene.relocate, assignment_errors_relocate,
      List.map_flatMap]
  | assign line assignment => exact assignment_errors_relocate move defined line assignment
  | tempo line bpm =>
    simp only [Statement.relocate, Statement.errors]
    split <;> rfl
  | poke line address value =>
    simp only [Statement.relocate, Statement.errors]
    split <;> rfl
  | _ => rfl

/-- A moved program has the same errors at their new places. -/
theorem lintErrors_relocate :
    (program.relocate move).lintErrors =
      program.lintErrors.map (Diagnostic.relocate move) := by
  rw [lintErrors, patterns_relocate, Index.names_mapValues, relocate, List.flatMap_map, lintErrors,
    List.map_flatMap]
  simp only [statement_errors_relocate]

/-- The warnings of a statement move with it. -/
theorem statement_warnings_relocate (statement : Statement) :
    (statement.relocate move).warnings = statement.warnings.map (Diagnostic.relocate move) := by
  have voice (line : Int) (name : String) : Statement.voiceWarnings (move.line line) name =
      (Statement.voiceWarnings line name).map (Diagnostic.relocate move) := by
    unfold Statement.voiceWarnings
    split <;> rfl
  cases statement with
  | assign line assignment => exact voice line assignment.voice
  | param line name parameter value => exact voice line (name.getD "")
  | pattern definition =>
    simp only [Statement.relocate, Statement.warnings, Pattern.relocate]
    split <;> rfl
  | poke line address value =>
    simp only [Statement.relocate, Statement.warnings]
    split <;> rfl
  | _ => rfl

/-- A moved program has the same warnings at their new places. -/
theorem lintWarnings_relocate :
    (program.relocate move).lintWarnings =
      program.lintWarnings.map (Diagnostic.relocate move) := by
  rw [lintWarnings, relocate, List.flatMap_map, lintWarnings, List.map_flatMap]
  simp only [statement_warnings_relocate]

end Program

/-- A reading at its new places. -/
def Parse.relocate (parse : Parse) : Parse :=
  ⟨parse.program.relocate move, parse.errors.map (Diagnostic.relocate move),
    parse.warnings.map (Diagnostic.relocate move)⟩

/-- The reading of moved clauses is the moved reading. -/
theorem Parse.ofClauses_relocate (clauses : List (Clause Int)) :
    ofClauses (clauses.map (Clause.relocate move)) = (ofClauses clauses).relocate move := by
  simp only [ofClauses, relocate, List.filterMap_map, Function.comp_def,
    Clause.statement?_relocate, List.flatMap_map, Clause.errors_relocate, Clause.warnings_relocate,
    Program.relocate, List.map_filterMap, List.map_flatMap]

/-- The reading of a moved token list is the moved reading. -/
theorem Parse.ofTokens_relocate {tokens : List (Token Int)}
    (ends : ∃ token ∈ tokens, token.lexeme.isEnd = true) :
    Parse.ofTokens (tokens.map (Token.relocate move)) =
      ⟨(Parse.ofTokens tokens).program.relocate move,
        (Parse.ofTokens tokens).errors.map (Diagnostic.relocate move),
        (Parse.ofTokens tokens).warnings.map (Diagnostic.relocate move)⟩ := by
  rw [Parse.ofTokens, Clause.ofTokens_relocate move ends, Parse.ofClauses_relocate]
  rfl

/-- Token lists whose clauses are made of the same lexemes have one reading, places aside. -/
theorem Parse.ofTokens_forget {tokens others : List (Token Int)}
    (same : (Clause.content tokens).map Token.lexeme = (Clause.content others).map Token.lexeme) :
    (Parse.ofTokens tokens).relocate .forget = (Parse.ofTokens others).relocate .forget := by
  have forgotten (tokens : List (Token Int)) : tokens.map (Token.relocate .forget) =
      (tokens.map Token.lexeme).map fun lexeme => ⟨lexeme, .start⟩ := by
    rw [List.map_map]
    rfl
  have clauses (tokens : List (Token Int)) :
      (Clause.ofTokens tokens).map (Clause.relocate .forget) =
        Clause.group .start ((Clause.content tokens).map (Token.relocate .forget)) :=
    (Clause.group_relocate .forget (Clause.endPlace tokens) (Clause.content tokens)).symm
  rw [Parse.ofTokens, ← ofClauses_relocate, clauses, forgotten, same, ← forgotten, ← clauses,
    ofClauses_relocate]
  rfl

end StepSequencer
