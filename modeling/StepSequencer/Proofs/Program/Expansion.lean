import Mathlib.Data.List.Basic
import StepSequencer.Program.Entry

/-!
# Expansion without gaps

Where instructions are made, an assignment without a known pattern gives nothing, a step that a
pattern lacks is a rest, and only an entry that is no statement is a fault. Here all three are
faults: the careful way of making instructions stops wherever the usual one would pass over
something. It succeeds exactly when nothing is passed over, and then it gives the instructions that
the usual way gives.
-/
namespace StepSequencer

/-- What is passed over when instructions are made. -/
inductive Gap where
  /-- An assignment asks for a pattern that is not known, or for none. -/
  | pattern (name : Option String)
  /-- A pattern lacks a step. -/
  | step (pattern : String) (step : Nat)
  /-- An entry is no statement. -/
  | entry (text : String)
deriving DecidableEq, Repr

/-- The assignments that stand in a statement. -/
def Statement.assignments : Statement → List Assignment
  | scene definition => definition.assignments
  | assign _ assignment => [assignment]
  | _ => []

section Gather

variable {α β ε : Type}

/-- An action that consists of two succeeds when both succeed, one after the other. -/
theorem bind_eq_ok_iff {first : Except ε α} {next : α → Except ε β} {given : β} :
    (first >>= next) = .ok given ↔ ∃ value, first = .ok value ∧ next value = .ok given := by
  cases first with
  | error fault =>
    constructor
    · intro same
      contradiction
    · rintro ⟨value, same, _⟩
      contradiction
  | ok value =>
    constructor
    · intro same
      exact ⟨value, rfl, same⟩
    · rintro ⟨other, same, found⟩
      obtain rfl := Except.ok.inj same
      exact found

/-- What all items give in a row, up to the first that fails. -/
def gather (act : α → Except ε (List β)) : List α → Except ε (List β)
  | [] => .ok []
  | item :: items => do
    let first ← act item
    let others ← gather act items
    return first ++ others

/-- Items that were changed are gathered as what they were changed into. -/
theorem gather_map {γ : Type} (act : β → Except ε (List γ)) (change : α → β) (items : List α) :
    gather act (items.map change) = gather (fun item => act (change item)) items := by
  induction items with
  | nil => rfl
  | cons item items ih => rw [List.map_cons, gather, gather, ih]

/-- An action succeeds exactly on the items that are ready, with a result that is known. -/
def Yields (act : α → Except ε (List β)) (ready : α → Prop) (result : α → List β) : Prop :=
  ∀ item given, act item = .ok given ↔ ready item ∧ given = result item

/-- Items are gathered when all of them are ready. -/
theorem gather_eq_ok_iff {act : α → Except ε (List β)} {ready : α → Prop} {result : α → List β}
    (yields : Yields act ready result) (items : List α) (given : List β) :
    gather act items = .ok given ↔
      (∀ item ∈ items, ready item) ∧ given = items.flatMap result := by
  induction items generalizing given with
  | nil =>
    constructor
    · intro same
      exact ⟨List.forall_mem_nil _, (Except.ok.inj same).symm⟩
    · rintro ⟨_, rfl⟩
      rfl
  | cons item items ih =>
    rw [gather, bind_eq_ok_iff, List.forall_mem_cons, List.flatMap_cons]
    constructor
    · rintro ⟨first, here, rest⟩
      obtain ⟨others, later, same⟩ := bind_eq_ok_iff.mp rest
      obtain ⟨ready, rfl⟩ := (yields item first).mp here
      obtain ⟨all, rfl⟩ := (ih others).mp later
      exact ⟨⟨ready, all⟩, (Except.ok.inj same).symm⟩
    · rintro ⟨⟨here, later⟩, rfl⟩
      refine ⟨result item, (yields item _).mpr ⟨here, rfl⟩, bind_eq_ok_iff.mpr ?_⟩
      exact ⟨items.flatMap result, (ih _).mpr ⟨later, rfl⟩, rfl⟩

end Gather

namespace Voice

/-- The write of a step that the pattern has. -/
def carefulWrite (voice : Voice) (clearRests : Bool) (pattern : Pattern) (step : Nat) :
    Except Gap (List Instruction) :=
  match pattern.steps[step]? with
  | none => .error (.step pattern.name step)
  | some value =>
    .ok (if value ≠ 0 ∨ clearRests = true then [.write (voice.base + step) value] else [])

/-- All steps that a pattern has are written as they are without care. -/
theorem yields_carefulWrite (voice : Voice) (clearRests : Bool) (pattern : Pattern) :
    Yields (voice.carefulWrite clearRests pattern) (fun step => step < pattern.steps.length)
      (fun step => (if pattern.steps.getD step 0 ≠ 0 ∨ clearRests = true then
        some (.write (voice.base + step) (pattern.steps.getD step 0)) else none).toList) := by
  intro step given
  simp only [carefulWrite, List.getD_eq_getElem?_getD]
  by_cases inside : step < pattern.steps.length
  · rw [List.getElem?_eq_getElem inside, Option.getD_some]
    dsimp only
    constructor
    · intro same
      refine ⟨inside, (Except.ok.inj same).symm.trans ?_⟩
      split <;> rfl
    · rintro ⟨_, rfl⟩
      split <;> rfl
  · rw [List.getElem?_eq_none (Nat.le_of_not_lt inside)]
    constructor
    · intro same
      contradiction
    · rintro ⟨bound, _⟩
      exact absurd bound inside

/-- The steps of a bar are all written just if the pattern has them. -/
theorem gather_carefulWrite (voice : Voice) (clearRests : Bool) (pattern : Pattern)
    (given : List Instruction) :
    gather (voice.carefulWrite clearRests pattern) (List.range stepCount) = .ok given ↔
      stepCount ≤ pattern.steps.length ∧ given = voice.writes clearRests pattern.steps := by
  rw [gather_eq_ok_iff (voice.yields_carefulWrite clearRests pattern), writes,
    List.filterMap_eq_flatMap_toList]
  refine and_congr_left fun _ => ?_
  simp only [List.mem_range]
  constructor
  · intro all
    by_cases long : stepCount ≤ pattern.steps.length
    · exact long
    · exact absurd (all pattern.steps.length (by omega)) (Nat.lt_irrefl _)
  · intro long step bound
    omega

end Voice

namespace Program

variable (patterns : Index Pattern) (scenes : Index Scene) (clearRests : Bool)

/-- The writes of an assignment whose pattern is known. An unknown voice still gives none. -/
def carefulAssignment (assignment : Assignment) : Except Gap (List Instruction) :=
  match (given? assignment.pattern).bind patterns.get? with
  | none => .error (.pattern assignment.pattern)
  | some pattern =>
    match Voice.ofName? assignment.voice with
    | none => .ok []
    | some voice => gather (voice.carefulWrite clearRests pattern) (List.range stepCount)

/-- The instructions of a scene whose patterns are known. -/
def carefulScene (scene : Scene) : Except Gap (List Instruction) := do
  let writes ← gather (carefulAssignment patterns clearRests) scene.assignments
  return .comment ("SCENE: " ++ scene.name) :: writes

/-- The instructions of a statement that asks for known patterns only. -/
def carefulStatement : Statement → Except Gap (List Instruction)
  | .scene definition => carefulScene patterns clearRests definition
  | .assign _ assignment => carefulAssignment patterns clearRests assignment
  | .play _ name looped =>
    match (given? name).bind scenes.get? with
    | some scene => do
      let played ← carefulScene patterns clearRests scene
      return played ++ [.write Register.control (if looped then 3 else 1), .play]
    | none => .ok [.write Register.control (if looped then 3 else 1), .play]
  | statement => .ok (statementInstructions patterns scenes clearRests statement)

/-- The assignments that are expanded for a statement: its own, or those of the scene that it
plays. -/
def expanded : Statement → List Assignment
  | .play _ name _ => (((given? name).bind scenes.get?).map Scene.assignments).getD []
  | statement => statement.assignments

end Program

/-- An assignment that is expanded without a gap: its pattern is known, and if its voice is, too,
the pattern has all steps. -/
def Assignment.Complete (patterns : Index Pattern) (assignment : Assignment) : Prop :=
  ∃ pattern, (Program.given? assignment.pattern).bind patterns.get? = some pattern ∧
    (Voice.ofName? assignment.voice = none ∨ stepCount ≤ pattern.steps.length)

namespace Program

variable {patterns : Index Pattern} {scenes : Index Scene} {clearRests : Bool}

/-- An assignment is expanded with care just if it is complete. -/
theorem yields_carefulAssignment :
    Yields (carefulAssignment patterns clearRests) (Assignment.Complete patterns)
      (assignmentWrites patterns clearRests) := by
  intro assignment given
  rw [carefulAssignment, Assignment.Complete, assignmentWrites]
  cases (given? assignment.pattern).bind patterns.get? with
  | none => simp
  | some pattern =>
    cases Voice.ofName? assignment.voice with
    | none => simp [eq_comm]
    | some voice =>
      dsimp only
      rw [voice.gather_carefulWrite]
      simp

/-- A scene is expanded with care just if all of its assignments are complete. -/
theorem yields_carefulScene :
    Yields (carefulScene patterns clearRests)
      (fun scene => ∀ assignment ∈ scene.assignments, assignment.Complete patterns)
      (sceneInstructions patterns clearRests) := by
  intro scene given
  rw [carefulScene, bind_eq_ok_iff, sceneInstructions]
  constructor
  · rintro ⟨writes, made, same⟩
    obtain ⟨complete, rfl⟩ := (gather_eq_ok_iff yields_carefulAssignment _ _).mp made
    exact ⟨complete, (Except.ok.inj same).symm⟩
  · rintro ⟨complete, rfl⟩
    exact ⟨_, (gather_eq_ok_iff yields_carefulAssignment _ _).mpr ⟨complete, rfl⟩, rfl⟩

/-- A statement is expanded carefully when all its assignments are, also those that it plays. -/
theorem yields_carefulStatement :
    Yields (carefulStatement patterns scenes clearRests)
      (fun statement => ∀ assignment ∈ expanded scenes statement, assignment.Complete patterns)
      (statementInstructions patterns scenes clearRests) := by
  intro statement given
  have plain {instructions : List Instruction} :
      (.ok instructions : Except Gap (List Instruction)) = .ok given ↔
        (∀ assignment ∈ ([] : List Assignment), assignment.Complete patterns) ∧
          given = instructions := by
    simp [eq_comm]
  cases statement with
  | scene definition => exact yields_carefulScene definition given
  | assign line assignment =>
    have single : (∀ other ∈ [assignment], other.Complete patterns) ↔
        assignment.Complete patterns := List.forall_mem_singleton
    exact (yields_carefulAssignment assignment given).trans (and_congr_left' single.symm)
  | play line name looped =>
    simp only [carefulStatement, expanded, statementInstructions]
    cases (given? name).bind scenes.get? with
    | none => exact plain
    | some scene =>
      refine bind_eq_ok_iff.trans ?_
      constructor
      · rintro ⟨played, made, same⟩
        obtain ⟨complete, rfl⟩ := (yields_carefulScene scene played).mp made
        exact ⟨complete, (Except.ok.inj same).symm⟩
      · rintro ⟨complete, rfl⟩
        exact ⟨_, (yields_carefulScene scene _).mpr ⟨complete, rfl⟩, rfl⟩
  | _ => exact plain

end Program

namespace Entry

/-- A program is put together again from its statements. -/
theorem program_statements (whole : Program) : program (whole.body.map statement) = whole := by
  have body : (whole.body.map statement).filterMap statement? = whole.body := by
    rw [List.filterMap_map]
    exact List.filterMap_some
  have same : (Program.ofStatements whole.body).body = whole.body := Program.body_ofStatements _
  rw [program, body]
  exact congrArg Program.mk same

/-- A list of statements holds nothing else. -/
theorem instructions_statements (whole : Program) (clearRests : Bool) :
    instructions (whole.body.map statement) clearRests =
      .ok (whole.instructions clearRests) := by
  have known : (whole.body.map statement).findSome? foreign? = none := by
    rw [List.findSome?_eq_none_iff]
    intro entry member
    obtain ⟨statement, _, rfl⟩ := List.mem_map.mp member
    rfl
  rw [instructions, known, program_statements]

/-- The instructions of an entry that is a statement, in a program. -/
def carefulEntry (whole : Program) (clearRests : Bool) : Entry → Except Gap (List Instruction)
  | statement content =>
    Program.carefulStatement whole.patterns whole.scenes clearRests content
  | foreign text => .error (.entry text)

/-- The instructions of a list of entries, made with care. -/
def carefulInstructions (entries : List Entry) (clearRests : Bool) :
    Except Gap (List Instruction) :=
  gather (carefulEntry (program entries) clearRests) entries

/-- The statements of a program are turned into instructions without a gap exactly when all
assignments that are expanded are complete, and the instructions are the usual ones. -/
theorem carefulInstructions_eq_ok_iff (whole : Program) (clearRests : Bool)
    (given : List Instruction) :
    carefulInstructions (whole.body.map statement) clearRests = .ok given ↔
      (∀ statement ∈ whole.body, ∀ assignment ∈ Program.expanded whole.scenes statement,
        assignment.Complete whole.patterns) ∧ given = whole.instructions clearRests := by
  rw [carefulInstructions, program_statements, gather_map]
  exact gather_eq_ok_iff Program.yields_carefulStatement whole.body given

end Entry

end StepSequencer
