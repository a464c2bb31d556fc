import StepSequencer.Instruction
import StepSequencer.Memory.Map
import StepSequencer.Program

/-!
# From programs to instructions

Every statement gives rise to instructions on its own, in order. A pattern gives none where it is
defined; it is written where a voice plays it: in an assignment, in a scene, and again where the
scene is played.
-/
namespace StepSequencer

/-- The writes of a pattern's steps at a voice. Rests are written only on request, and steps that a
short pattern lacks are rests. -/
def Voice.writes (voice : Voice) (clearRests : Bool) (steps : List Int) : List Instruction :=
  (List.range stepCount).filterMap fun (step : Nat) =>
    let value := steps.getD step 0
    if value ≠ 0 ∨ clearRests = true then some (.write (voice.base + step) value) else none

namespace Program

/-- A name that was given and is not empty. -/
def given? (name : Option String) : Option String := name.filter fun text => text != ""

/-- The writes of an assignment. An unknown voice or pattern gives none. -/
def assignmentWrites (patterns : Index Pattern) (clearRests : Bool) (assignment : Assignment) :
    List Instruction :=
  match (given? assignment.pattern).bind patterns.get?, Voice.ofName? assignment.voice with
  | some pattern, some voice => voice.writes clearRests pattern.steps
  | _, _ => []

/-- The instructions of a scene: its name and the writes of its assignments. -/
def sceneInstructions (patterns : Index Pattern) (clearRests : Bool) (scene : Scene) :
    List Instruction :=
  .comment ("SCENE: " ++ scene.name) ::
    scene.assignments.flatMap (assignmentWrites patterns clearRests)

/-- The instructions of a statement. -/
def statementInstructions (patterns : Index Pattern) (scenes : Index Scene) (clearRests : Bool) :
    Statement → List Instruction
  | .comment _ text => [.comment text]
  | .title _ text => [.comment ("TITLE: " ++ text)]
  | .tempo _ bpm => [.tempo bpm, .write Register.tempo bpm]
  | .swing _ percent => [.swing percent, .write Register.swing percent]
  | .scene definition => sceneInstructions patterns clearRests definition
  | .assign _ assignment => assignmentWrites patterns clearRests assignment
  | .play _ name looped =>
    (match (given? name).bind scenes.get? with
      | some scene => sceneInstructions patterns clearRests scene
      | none => []) ++
    [.write Register.control (if looped then 3 else 1), .play]
  | .stop _ => [.write Register.control 0, .stop]
  | .poke _ address value => [.write address value]
  | .wait _ steps => [.wait steps]
  | .loop _ count => [.loop count]
  | .pattern _ | .param _ _ _ _ => []

/-- The instructions of a program. -/
def instructions (program : Program) (clearRests : Bool) : List Instruction :=
  program.body.flatMap (statementInstructions program.patterns program.scenes clearRests)

end Program

end StepSequencer
