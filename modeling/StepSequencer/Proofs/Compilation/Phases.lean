import StepSequencer.Compilation

/-!
# Which phases a compilation reaches

A source is clean when scanning, reading and checking it find no error. Options do not matter up to
there: a clean source is delivered under any options, and any other source gives neither
instructions nor a text. `Outcome` lists what a compilation can be, and what holds in the cases of
this list holds of all compilations.
-/
namespace StepSequencer.Compilation

/-- The program read from a source, with what is wrong or doubtful about it. -/
def reading (source : String) : Parse := Parse.ofTokens (Token.scan source).1

/-- The program of a source. -/
def programOf (source : String) : Program := (reading source).program

/-- The warnings of a source up to its delivery: those of the reading, then those of the checks. -/
def warningsOf (source : String) : List Diagnostic :=
  (reading source).warnings.map (Diagnostic.inPhase .parser) ++
    (programOf source).lintWarnings.map (Diagnostic.inPhase .linter)

/-- A source in which no phase before the delivery finds an error. -/
structure Clean (source : String) : Prop where
  scanned : (Token.scan source).2 = []
  parsed : (reading source).errors = []
  checked : (programOf source).lintErrors = []

/-- Whether a source is clean can be computed. -/
instance (source : String) : Decidable (Clean source) :=
  decidable_of_iff ((Token.scan source).2 = [] ∧ (reading source).errors = [] ∧
      (programOf source).lintErrors = [])
    ⟨fun found => ⟨found.1, found.2.1, found.2.2⟩,
      fun clean => ⟨clean.scanned, clean.parsed, clean.checked⟩⟩

variable {source : String}

/-- A clean source is delivered, whatever the options are. -/
theorem ofSource_of_clean (clean : Clean source) :
    ∃ log, ∀ options, ofSource options source =
      deliver options (programOf source) (warningsOf source) log := by
  refine ⟨[scanNote (Token.scan source).1 [], parseNote (programOf source)], fun options => ?_⟩
  have scanned : ofSource options source =
      parse options (Token.scan source).1 [scanNote (Token.scan source).1 []] := by
    simp only [ofSource, clean.scanned, List.map_nil, List.isEmpty_nil, if_true]
  have parsed (log : List LogEntry) : parse options (Token.scan source).1 log =
      check options (programOf source) ((reading source).warnings.map (Diagnostic.inPhase .parser))
        (log ++ [parseNote (programOf source)]) := by
    have none := clean.parsed
    rw [reading] at none
    simp only [parse, none, List.map_nil, List.isEmpty_nil, if_true]
    rfl
  rw [scanned, parsed]
  simp only [check, clean.checked, List.map_nil, List.isEmpty_nil, if_true]
  rfl

/-- How a compilation ends: stopped in one of its phases, or with a text. -/
inductive Ending where
  | scanning
  | reading
  | checking
  | delivery
  | success
deriving DecidableEq, Repr

/-- What a compilation of a source can be, by how it ends. -/
inductive Outcome (options : Options) (source : String) : Ending → Compilation → Prop where
  | scanning (log : List LogEntry) (found : (Token.scan source).2 ≠ []) :
      Outcome options source .scanning
        ⟨none, (Token.scan source).2.map (Diagnostic.inPhase .lexer), [], none, none, none, log⟩
  | reading (log : List LogEntry) (scanned : (Token.scan source).2 = [])
      (found : (reading source).errors ≠ []) :
      Outcome options source .reading
        ⟨none, (reading source).errors.map (Diagnostic.inPhase .parser),
          (reading source).warnings.map (Diagnostic.inPhase .parser), some (programOf source), none,
          none, log⟩
  | checking (log : List LogEntry) (scanned : (Token.scan source).2 = [])
      (parsed : (reading source).errors = []) (found : (programOf source).lintErrors ≠ []) :
      Outcome options source .checking
        ⟨none, (programOf source).lintErrors.map (Diagnostic.inPhase .linter), warningsOf source,
          some (programOf source), none, none, log⟩
  | delivery (log : List LogEntry) (clean : Clean source)
      (unknown : Target.ofName? options.target.shown = none) :
      Outcome options source .delivery
        ⟨none, [⟨.unknownTarget options.target.shown, none, none, some .backend⟩],
          warningsOf source, some (programOf source),
          some ((programOf source).instructions options.clearRests), none, log⟩
  | success (log : List LogEntry) (clean : Clean source) {target : Target}
      (known : Target.ofName? options.target.shown = some target) :
      Outcome options source .success
        ⟨some (target.emit options.labels ((programOf source).instructions options.clearRests)), [],
          warningsOf source, some (programOf source),
          some ((programOf source).instructions options.clearRests), some target, log⟩

/-- The first phase that finds an error ends a compilation. -/
theorem ofSource_outcome (options : Options) (source : String) :
    ∃ ending, Outcome options source ending (ofSource options source) := by
  by_cases scanned : (Token.scan source).2 = []
  · by_cases parsed : (reading source).errors = []
    · by_cases checked : (programOf source).lintErrors = []
      · have clean : Clean source := ⟨scanned, parsed, checked⟩
        obtain ⟨log, delivered⟩ := ofSource_of_clean clean
        rw [delivered, deliver]
        split
        · next unknown => exact ⟨.delivery, .delivery _ clean unknown⟩
        · next target known => exact ⟨.success, .success _ clean known⟩
      · have stopped := @Outcome.checking options source
          [scanNote (Token.scan source).1 [], parseNote (programOf source)] scanned parsed checked
        rw [reading] at parsed
        rw [programOf, reading] at checked
        refine ⟨.checking, ?_⟩
        simpa [ofSource, parse, check, scanned, parsed, checked, warningsOf, programOf, reading]
          using stopped
    · have stopped := @Outcome.reading options source
        [scanNote (Token.scan source).1 [], parseNote (programOf source)] scanned parsed
      rw [reading] at parsed
      refine ⟨.reading, ?_⟩
      simpa [ofSource, parse, scanned, parsed, programOf, reading] using stopped
  · have stopped := @Outcome.scanning options source
      [scanNote (Token.scan source).1 ((Token.scan source).2.map (Diagnostic.inPhase .lexer))]
      scanned
    refine ⟨.scanning, ?_⟩
    simpa [ofSource, scanned] using stopped

/-- A source with an error gets neither instructions nor a text. -/
theorem ofSource_of_not_clean (faulty : ¬Clean source) (options : Options) :
    (ofSource options source).instructions = none ∧ (ofSource options source).output = none := by
  obtain ⟨ending, outcome⟩ := ofSource_outcome options source
  generalize ofSource options source = compilation at outcome
  cases outcome with
  | delivery log clean unknown => exact absurd clean faulty
  | success log clean known => exact absurd clean faulty
  | _ => exact ⟨rfl, rfl⟩

/-- Only a clean source compiles. -/
theorem clean_of_success {options : Options} (success : (ofSource options source).success = true) :
    Clean source := by
  by_cases clean : Clean source
  · exact clean
  · rw [Compilation.success, (ofSource_of_not_clean clean options).2] at success
    contradiction

/-- Only in a clean source is nothing found wrong. -/
theorem clean_of_errors {options : Options} (none : (ofSource options source).errors = []) :
    Clean source := by
  obtain ⟨ending, outcome⟩ := ofSource_outcome options source
  generalize ofSource options source = compilation at outcome none
  cases outcome with
  | delivery log clean unknown => exact clean
  | success log clean known => exact clean
  | _ => exact absurd (List.map_eq_nil_iff.mp none) ‹_›

/-- Only a clean source has instructions. -/
theorem clean_of_instructions {options : Options} {instructions : List Instruction}
    (made : (ofSource options source).instructions = some instructions) : Clean source := by
  by_cases clean : Clean source
  · exact clean
  · rw [(ofSource_of_not_clean clean options).1] at made
    contradiction

/-- The instructions of a clean source. -/
theorem instructions_of_clean (clean : Clean source) (options : Options) :
    (ofSource options source).instructions =
      some ((programOf source).instructions options.clearRests) := by
  obtain ⟨log, delivered⟩ := ofSource_of_clean clean
  rw [delivered, deliver]
  split <;> rfl

/-- A clean source keeps the warnings of its reading and of its checks. -/
theorem warnings_of_clean (clean : Clean source) (options : Options) :
    (ofSource options source).warnings = warningsOf source := by
  obtain ⟨log, delivered⟩ := ofSource_of_clean clean
  rw [delivered, deliver]
  split <;> rfl

/-- Nothing is wrong with a clean source for a target that is known. -/
theorem errors_of_clean (clean : Clean source) {options : Options} {target : Target}
    (known : Target.ofName? options.target.shown = some target) :
    (ofSource options source).errors = [] := by
  obtain ⟨log, delivered⟩ := ofSource_of_clean clean
  simp only [delivered, deliver, known]

/-- The text of a clean source for a target. -/
theorem output_of_clean (clean : Clean source) {options : Options} {target : Target}
    (known : Target.ofName? options.target.shown = some target) :
    (ofSource options source).output =
      some (target.emit options.labels ((programOf source).instructions options.clearRests)) := by
  obtain ⟨log, delivered⟩ := ofSource_of_clean clean
  simp only [delivered, deliver, known]

/-- A clean source compiles for every target that is known. -/
theorem success_of_clean (clean : Clean source) {options : Options} {target : Target}
    (known : Target.ofName? options.target.shown = some target) :
    (ofSource options source).success = true := by
  rw [success, output_of_clean clean known]
  rfl

end StepSequencer.Compilation
