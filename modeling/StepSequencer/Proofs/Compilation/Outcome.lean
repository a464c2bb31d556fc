import Mathlib.Logic.ExistsUnique
import StepSequencer.Proofs.Compilation.Attempt
import StepSequencer.Proofs.Report.Valid

/-!
# How compilations end

Every compilation comes to an end, and the end shows: the phase of its errors tells in which phase
it was stopped, and that phase fixes which of its parts are there. Whatever the end is, it can be
reported.
-/
namespace StepSequencer.Compilation

/-- A compilation that a phase stopped: it found errors, nobody else did, and nothing was
delivered. -/
structure StoppedBy (compilation : Compilation) (phase : Phase) : Prop where
  found : compilation.errors ≠ []
  phased : ∀ error ∈ compilation.errors, error.phase = some phase
  output : compilation.output = none
  target : compilation.target = none

/-- The look of a compilation under certain options, for each way to end. -/
def EndsIn (options : Options) (compilation : Compilation) : Ending → Prop
  | .scanning =>
    compilation.StoppedBy .lexer ∧ compilation.program = none ∧
      compilation.instructions = none ∧ compilation.warnings = []
  | .reading =>
    compilation.StoppedBy .parser ∧ compilation.program.isSome = true ∧
      compilation.instructions = none
  | .checking =>
    compilation.StoppedBy .linter ∧ compilation.program.isSome = true ∧
      compilation.instructions = none
  | .delivery =>
    compilation.StoppedBy .backend ∧ compilation.errors.length = 1 ∧
      compilation.program.isSome = true ∧ compilation.instructions.isSome = true
  | .success =>
    compilation.errors = [] ∧ compilation.program.isSome = true ∧
      compilation.instructions.isSome = true ∧ compilation.output.isSome = true ∧
      compilation.target.isSome = true ∧
      compilation.target = Target.ofName? options.target.shown

/-- The phase whose errors end a compilation. -/
def Ending.phase : Ending → Option Phase
  | scanning => some .lexer
  | reading => some .parser
  | checking => some .linter
  | delivery => some .backend
  | success => none

/-- The ending that a phase brings about. -/
def Ending.ofPhase : Option Phase → Ending
  | some .lexer => scanning
  | some .parser => reading
  | some .linter => checking
  | some .backend => delivery
  | none => success

/-- An ending is brought about by its own phase. -/
theorem Ending.ofPhase_phase (ending : Ending) : ofPhase ending.phase = ending := by
  cases ending <;> rfl

variable {options : Options} {source : String} {compilation : Compilation} {ending : Ending}

/-- The first error of a compilation names the phase that stopped it. -/
theorem StoppedBy.first_phase {phase : Phase} (stopped : compilation.StoppedBy phase) :
    compilation.errors.head?.bind Diagnostic.phase = some phase := by
  cases errors : compilation.errors with
  | nil => exact absurd errors stopped.found
  | cons error more =>
    have member : error ∈ compilation.errors := by
      rw [errors]
      exact List.mem_cons_self
    exact stopped.phased error member

/-- The first error of a compilation tells how it ended. -/
theorem EndsIn.phase (ends : compilation.EndsIn options ending) :
    ending.phase = compilation.errors.head?.bind Diagnostic.phase := by
  cases ending with
  | success =>
    rw [ends.1]
    rfl
  | _ => exact ends.1.first_phase.symm

/-- Only one ending has the look of a compilation. -/
theorem EndsIn.unique {other : Ending} (ends : compilation.EndsIn options ending)
    (alike : compilation.EndsIn options other) : other = ending := by
  have same : other.phase = ending.phase := alike.phase.trans ends.phase.symm
  rw [← other.ofPhase_phase, same, ending.ofPhase_phase]

/-- A phase that puts its name on all its errors, of which there are some, stops a compilation. -/
theorem stoppedBy_inPhase {findings : List Diagnostic} (found : findings ≠ []) (phase : Phase)
    (warnings : List Diagnostic) (program : Option Program)
    (instructions : Option (List Instruction)) (log : List LogEntry) :
    StoppedBy ⟨none, findings.map (Diagnostic.inPhase phase), warnings, program, instructions, none,
      log⟩ phase where
  found := fun none => found (List.map_eq_nil_iff.mp none)
  phased := by
    intro error member
    obtain ⟨bare, _, rfl⟩ := List.mem_map.mp member
    rfl
  output := rfl
  target := rfl

/-- What a compilation can be has the look of how it ends. -/
theorem Outcome.endsIn (outcome : Outcome options source ending compilation) :
    compilation.EndsIn options ending := by
  cases outcome with
  | scanning log found => exact ⟨stoppedBy_inPhase found .lexer _ _ _ log, rfl, rfl, rfl⟩
  | reading log scanned found => exact ⟨stoppedBy_inPhase found .parser _ _ _ log, rfl, rfl⟩
  | checking log scanned parsed found =>
    exact ⟨stoppedBy_inPhase found .linter _ _ _ log, rfl, rfl⟩
  | delivery log clean unknown =>
    refine ⟨⟨List.cons_ne_nil _ _, ?_, rfl, rfl⟩, rfl, rfl, rfl⟩
    intro error member
    rw [List.mem_singleton.mp member]
  | success log clean known => exact ⟨rfl, rfl, rfl, rfl, rfl, known.symm⟩

/-- It is in the delivery that a compilation ends if nothing was found wrong before and the target
is not known. -/
theorem Outcome.ends_in_delivery_iff (outcome : Outcome options source ending compilation) :
    ending = .delivery ↔ Clean source ∧ Target.ofName? options.target.shown = none := by
  cases outcome with
  | scanning log found => simpa using fun clean : Clean source => absurd clean.scanned found
  | reading log scanned found => simpa using fun clean : Clean source => absurd clean.parsed found
  | checking log scanned parsed found =>
    simpa using fun clean : Clean source => absurd clean.checked found
  | delivery log clean unknown => simp [clean, unknown]
  | success log clean known => simp [known]

/-- Nothing keeps a compilation from coming to an end, whatever the source and the options are. It
looks like exactly one of the five ways to end, like an unknown target just if nothing was wrong up
to there and the target is unknown, and its report keeps to the schema. -/
theorem ofSource_ends_once (options : Options) (source : String) :
    attempt options source = .ok (ofSource options source) ∧
      (∃! ending, (ofSource options source).EndsIn options ending) ∧
      ((ofSource options source).EndsIn options .delivery ↔
        Clean source ∧ Target.ofName? options.target.shown = none) ∧
      Report.isReport (Report.ofCompilation (ofSource options source)) = true := by
  obtain ⟨ending, outcome⟩ := ofSource_outcome options source
  have delivery : (ofSource options source).EndsIn options .delivery ↔ ending = .delivery := by
    constructor
    · intro ends
      exact (outcome.endsIn.unique ends).symm
    · intro last
      rw [← last]
      exact outcome.endsIn
  refine ⟨attempt_eq_ok options source, ?_, ?_, ?_⟩
  · exact ⟨ending, outcome.endsIn, fun other ends => outcome.endsIn.unique ends⟩
  · rw [delivery]
    exact outcome.ends_in_delivery_iff
  · rw [Report.isReport_ofCompilation]
    exact ofSource_presentable source options

end StepSequencer.Compilation
