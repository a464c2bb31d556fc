import StepSequencer.Program.Lint
import StepSequencer.Program.Lower
import StepSequencer.Proofs.Index

/-!
# Where definitions stand

Statements are added to a program one by one. The patterns and the scenes of a program are listed
in the order in which their names were first defined, each with its last definition, also for what
stands before that definition.

A pattern and a parameter give no instruction where they stand. So a program may have its patterns
moved, defined again and shadowed: as long as the last definition of every name keeps its steps, the
instructions stay the same, and so do the findings on patterns that are missing.
-/
namespace StepSequencer

/-- Whether a statement does nothing where it stands. -/
def Statement.isSilent : Statement → Bool
  | pattern _ | param _ _ _ _ => true
  | _ => false

namespace Program

section Names

variable (program : Program)

/-- The last definition of a pattern. -/
def lastPattern? : String → Option Pattern :=
  lastNamed? Pattern.name (program.body.filterMap Statement.pattern?)

/-- The last definition of a scene. -/
def lastScene? : String → Option Scene :=
  lastNamed? Scene.name (program.body.filterMap Statement.scene?)

/-- The patterns of a program are those that its statements define. -/
theorem lists_patterns :
    Index.Lists Pattern.name program.patterns (program.body.filterMap Statement.pattern?) :=
  Index.lists_named Pattern.name _

/-- The scenes of a program are those that its statements define. -/
theorem lists_scenes :
    Index.Lists Scene.name program.scenes (program.body.filterMap Statement.scene?) :=
  Index.lists_named Scene.name _

end Names

/-- The steps that every name of a pattern stands for are the same in two programs. -/
def SameSteps (first second : Program) : Prop :=
  ∀ name, (first.lastPattern? name).map Pattern.steps = (second.lastPattern? name).map Pattern.steps

/-! ### Instructions -/

/-- Of the patterns only the steps are written. -/
theorem assignmentWrites_congr {first second : Index Pattern}
    (same : ∀ name, (first.get? name).map Pattern.steps = (second.get? name).map Pattern.steps)
    (clearRests : Bool) (assignment : Assignment) :
    assignmentWrites first clearRests assignment =
      assignmentWrites second clearRests assignment := by
  unfold assignmentWrites
  cases given? assignment.pattern with
  | none => rfl
  | some name =>
    have steps := same name
    rw [Option.bind_some, Option.bind_some]
    cases found : first.get? name with
    | none =>
      rw [found, Option.map_none, eq_comm, Option.map_eq_none_iff] at steps
      rw [steps]
    | some pattern =>
      rw [found, Option.map_some, eq_comm, Option.map_eq_some_iff] at steps
      obtain ⟨other, known, alike⟩ := steps
      rw [known]
      cases Voice.ofName? assignment.voice with
      | none => rfl
      | some voice => exact congrArg (voice.writes clearRests) alike.symm

/-- A scene depends on patterns by the steps that their names stand for. -/
theorem sceneInstructions_congr {first second : Index Pattern}
    (same : ∀ name, (first.get? name).map Pattern.steps = (second.get? name).map Pattern.steps)
    (clearRests : Bool) (scene : Scene) :
    sceneInstructions first clearRests scene = sceneInstructions second clearRests scene := by
  rw [sceneInstructions, sceneInstructions, funext (assignmentWrites_congr same clearRests)]

/-- A statement depends on patterns by the steps that their names stand for. -/
theorem statementInstructions_congr {first second : Index Pattern}
    (same : ∀ name, (first.get? name).map Pattern.steps = (second.get? name).map Pattern.steps)
    (scenes : Index Scene) (clearRests : Bool) (statement : Statement) :
    statementInstructions first scenes clearRests statement =
      statementInstructions second scenes clearRests statement := by
  cases statement with
  | scene definition => exact sceneInstructions_congr same clearRests definition
  | assign line assignment => exact assignmentWrites_congr same clearRests assignment
  | play line name looped =>
    rw [statementInstructions, statementInstructions,
      funext (sceneInstructions_congr same clearRests)]
  | _ => rfl

/-- Silent statements can be left out of whatever they add nothing to. -/
theorem flatMap_filter_isSilent {α : Type} {part : Statement → List α}
    (silent : ∀ statement : Statement, statement.isSilent = true → part statement = [])
    (statements : List Statement) :
    (statements.filter fun statement => !statement.isSilent).flatMap part =
      statements.flatMap part := by
  induction statements with
  | nil => rfl
  | cons statement statements ih =>
    rw [List.filter_cons, List.flatMap_cons]
    cases still : statement.isSilent with
    | true =>
      rw [Bool.not_true, if_neg Bool.false_ne_true, ih, silent statement still, List.nil_append]
    | false => rw [Bool.not_false, if_pos rfl, List.flatMap_cons, ih]

/-- No silent statement defines a scene. -/
theorem scenes_filter_isSilent (statements : List Statement) :
    (statements.filter fun statement => !statement.isSilent).filterMap Statement.scene? =
      statements.filterMap Statement.scene? := by
  rw [List.filterMap_filter]
  congr 1
  funext statement
  cases statement <;> rfl

variable {first second : Program}

/-- Two programs with the same statements but for silent ones have the same scenes. -/
theorem scenes_eq_of_filter
    (alike : (first.body.filter fun statement => !statement.isSilent) =
      second.body.filter fun statement => !statement.isSilent) : first.scenes = second.scenes := by
  unfold scenes
  rw [← scenes_filter_isSilent first.body, alike, scenes_filter_isSilent]

/-- Programs with the same steps find the same steps by every name. -/
theorem SameSteps.get?_patterns (same : SameSteps first second) (name : String) :
    (first.patterns.get? name).map Pattern.steps =
      (second.patterns.get? name).map Pattern.steps := by
  rw [first.lists_patterns.get?_eq, second.lists_patterns.get?_eq]
  exact same name

/-- Silent statements count for the instructions only by the steps of last definitions. -/
theorem instructions_eq_of_filter
    (alike : (first.body.filter fun statement => !statement.isSilent) =
      second.body.filter fun statement => !statement.isSilent)
    (same : SameSteps first second) (clearRests : Bool) :
    first.instructions clearRests = second.instructions clearRests := by
  have silent (program : Program) (statement : Statement) (still : statement.isSilent = true) :
      statementInstructions program.patterns program.scenes clearRests statement = [] := by
    cases statement with
    | pattern definition => rfl
    | param line voice parameter value => rfl
    | _ => contradiction
  calc first.instructions clearRests
      _ = (first.body.filter fun statement => !statement.isSilent).flatMap
            (statementInstructions first.patterns first.scenes clearRests) :=
          (flatMap_filter_isSilent (silent first) first.body).symm
      _ = (second.body.filter fun statement => !statement.isSilent).flatMap
            (statementInstructions second.patterns second.scenes clearRests) := by
          rw [alike, scenes_eq_of_filter alike,
            funext (statementInstructions_congr same.get?_patterns second.scenes clearRests)]
      _ = second.instructions clearRests := flatMap_filter_isSilent (silent second) second.body

/-! ### Findings -/

/-- Whether a pattern is missing is all that the findings on a statement ask of the others. -/
theorem errors_congr {first second : List String} (same : ∀ name, name ∈ first ↔ name ∈ second)
    (statement : Statement) : statement.errors first = statement.errors second := by
  have assignments : Assignment.errors first = Assignment.errors second := by
    funext line assignment
    unfold Assignment.errors
    cases assignment.pattern with
    | none => rfl
    | some name => simp only [same name]
  cases statement with
  | scene definition => rw [Statement.errors, Statement.errors, assignments]
  | assign line assignment => rw [Statement.errors, Statement.errors, assignments]
  | _ => rfl

/-- Programs with the same steps know the same names of patterns. -/
theorem SameSteps.mem_names (same : SameSteps first second) (name : String) :
    name ∈ first.patterns.names ↔ name ∈ second.patterns.names := by
  rw [Index.mem_names_iff, Index.mem_names_iff, ← Option.isSome_map, same.get?_patterns,
    Option.isSome_map]

/-- Silent statements count for the errors only by the names that they define. -/
theorem lintErrors_eq_of_filter
    (alike : (first.body.filter fun statement => !statement.isSilent) =
      second.body.filter fun statement => !statement.isSilent)
    (same : SameSteps first second) : first.lintErrors = second.lintErrors := by
  have silent (defined : List String) (statement : Statement) (still : statement.isSilent = true) :
      statement.errors defined = [] := by
    cases statement with
    | pattern definition => rfl
    | param line voice parameter value => rfl
    | _ => contradiction
  rw [lintErrors, ← flatMap_filter_isSilent (silent first.patterns.names), alike,
    funext (errors_congr same.mem_names), flatMap_filter_isSilent (silent second.patterns.names)]
  rfl

/-! ### Definitions in any order -/

/-- The patterns and the scenes of statements that were added one by one are listed in the order in
which their names were first defined, each name once and with its last definition. Statements that
differ in silent ones only, and in which every name of a pattern last stands for the same steps,
have the same instructions and the same errors, those on missing patterns included. -/
theorem definitions_by_name :
    (∀ statements : List Statement,
      Index.Lists Pattern.name (ofStatements statements).patterns
        (statements.filterMap Statement.pattern?) ∧
      Index.Lists Scene.name (ofStatements statements).scenes
        (statements.filterMap Statement.scene?)) ∧
    ∀ first second : List Statement,
      (first.filter fun statement => !statement.isSilent) =
        (second.filter fun statement => !statement.isSilent) →
      SameSteps (ofStatements first) (ofStatements second) →
      (∀ clearRests : Bool, (ofStatements first).instructions clearRests =
        (ofStatements second).instructions clearRests) ∧
      (ofStatements first).lintErrors = (ofStatements second).lintErrors := by
  constructor
  · intro statements
    have patterns := (ofStatements statements).lists_patterns
    have scenes := (ofStatements statements).lists_scenes
    rw [body_ofStatements] at patterns scenes
    exact ⟨patterns, scenes⟩
  · intro first second alike same
    rw [← body_ofStatements first, ← body_ofStatements second] at alike
    exact ⟨instructions_eq_of_filter alike same, lintErrors_eq_of_filter alike same⟩

/-- A scene that is played before it is defined, between definitions of its patterns. -/
def scattered : List Statement :=
  [.pattern ⟨"b", "X", [127], 1⟩, .play 2 (some "s") false,
    .scene ⟨"s", [⟨"kick", some "a"⟩, ⟨"snare", some "b"⟩, ⟨"lead", some "lost"⟩], 3⟩,
    .pattern ⟨"a", "x", [1], 4⟩, .param 5 (some "kick") (some "pitch") 60,
    .pattern ⟨"b", "..x", [0, 0, 1], 6⟩]

/-- The same scene in front of the definitions that count. -/
def gathered : List Statement :=
  [.play 2 (some "s") false,
    .scene ⟨"s", [⟨"kick", some "a"⟩, ⟨"snare", some "b"⟩, ⟨"lead", some "lost"⟩], 3⟩,
    .pattern ⟨"b", "001", [0, 0, 1], 7⟩, .pattern ⟨"a", "1", [1], 8⟩]

/-- The scattered definitions are listed with `b` in front, although `b` is last defined behind `a`,
and give what the gathered ones give. -/
theorem definitions_by_name_scattered :
    (ofStatements scattered).patterns.names = ["b", "a"] ∧
      (ofStatements scattered).patterns.get? "b" = some ⟨"b", "..x", [0, 0, 1], 6⟩ ∧
      SameSteps (ofStatements scattered) (ofStatements gathered) ∧
      (∀ clearRests : Bool, (ofStatements scattered).instructions clearRests =
        (ofStatements gathered).instructions clearRests) ∧
      (ofStatements gathered).lintErrors = (ofStatements scattered).lintErrors ∧
      (ofStatements gathered).lintErrors = [.atLine (.undefinedPattern "lost") 3] := by
  have same : SameSteps (ofStatements scattered) (ofStatements gathered) := by
    intro name
    have before : scattered.filterMap Statement.pattern? =
        [⟨"b", "X", [127], 1⟩, ⟨"a", "x", [1], 4⟩, ⟨"b", "..x", [0, 0, 1], 6⟩] := rfl
    have behind : gathered.filterMap Statement.pattern? =
        [⟨"b", "001", [0, 0, 1], 7⟩, ⟨"a", "1", [1], 8⟩] := rfl
    rw [lastPattern?, lastPattern?, body_ofStatements, body_ofStatements, before, behind]
    by_cases first : name = "a"
    · subst first
      rfl
    · by_cases second : name = "b"
      · subst second
        rfl
      · simp [lastNamed?, Ne.symm first, Ne.symm second]
  obtain ⟨patterns, scenes⟩ := definitions_by_name.1 scattered
  obtain ⟨instructions, errors⟩ := definitions_by_name.2 scattered gathered rfl same
  refine ⟨patterns.names_eq, patterns.get?_eq "b", same, instructions, errors.symm, by decide⟩

end Program

end StepSequencer
