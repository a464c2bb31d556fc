import StepSequencer.Command.Run
import StepSequencer.Proofs.Compilation.Phases
import StepSequencer.Proofs.Program.Expansion

/-!
# How a run of the command ends

A run obtains a source, compiles it, writes a report if one is asked for, and delivers the text.
`Obtains` says which text is the source of a run, `Writes` that a file was written if it was asked
for, and `Delivers` that a text was written to the file that was asked for, or else printed. `Ends`
lists the endings of a run, each with what was done up to there, in a state of the surroundings that
every step may change.
-/
namespace StepSequencer.Command

variable {σ : Type}

/-- The compilation that arguments ask for. -/
def compiled (arguments : Arguments) (source : String) : Compilation :=
  Compilation.ofSource (compileOptions arguments) source

/-- The text of a report file. -/
def reportText (compilation : Compilation) : String := Report.text compilation ++ "\n"

/-- Of two actions in a row the second goes on from the state that the first leaves. -/
theorem run_bind {α β : Type} (first : StateM σ α) (next : α → StateM σ β) (state : σ) :
    (first >>= next).run state = (next (first.run state).1).run (first.run state).2 := rfl

/-! ### Sources -/

/-- A text is the source of a run: that of a demo, the standard input, or a file that can be read as
text. Obtaining it may change the state of the surroundings. -/
inductive Obtains (world : Surroundings (StateM σ)) (catalog : Catalog) (arguments : Arguments) :
    σ → String → σ → Prop where
  | demo {state : σ} {key name source : String} (packed : asked arguments.pack = some key)
      (chosen : arguments.pattern = some (some name))
      (found : catalog.source key name = .ok source) :
      Obtains world catalog arguments state source state
  | firstDemo {state : σ} {key name source : String} (packed : asked arguments.pack = some key)
      (unchosen : arguments.pattern = none) (first : catalog.firstDemo key = .ok name)
      (found : catalog.source key name = .ok source) :
      Obtains world catalog arguments state source state
  | input {before after : σ} {source : String} (unpacked : asked arguments.pack = none)
      (dashed : arguments.source = some "-")
      (read : world.readInput.run before = (.ok source, after)) :
      Obtains world catalog arguments before source after
  | file {before after : σ} {path source : String} {bytes : List UInt8}
      (unpacked : asked arguments.pack = none) (named : arguments.source = some path)
      (plain : path ≠ "-") (read : (world.readFile path).run before = (.ok bytes, after))
      (text : sourceText bytes = .ok source) : Obtains world catalog arguments before source after

variable {world : Surroundings (StateM σ)} {catalog : Catalog} {arguments : Arguments}

/-- Rewording a fault does not change a success. -/
theorem mapError_eq_ok_iff {ε ε' α : Type} {change : ε → ε'} {result : Except ε α} {value : α} :
    result.mapError change = .ok value ↔ result = .ok value := by
  cases result <;> simp [Except.mapError]

/-- A fault that was reworded comes from one that was not. -/
theorem mapError_eq_error_iff {ε ε' α : Type} {change : ε → ε'} {result : Except ε α} {fault : ε'} :
    result.mapError change = .error fault ↔
      ∃ cause, result = .error cause ∧ change cause = fault := by
  cases result <;> simp [Except.mapError]

/-- A pack that has a source is in the catalogue. -/
theorem pack_of_source {key name source : String} (found : catalog.source key name = .ok source) :
    ∃ pack, catalog.pack key = .ok pack := by
  cases known : catalog.pack key with
  | ok pack => exact ⟨pack, rfl⟩
  | error fault =>
    rw [Catalog.source, known] at found
    contradiction

/-- The source of a demo that was chosen, or of the first one if none was. -/
theorem packSource_eq_ok_iff {key source : String} {name : Option (Option String)} :
    packSource catalog key name = .ok source ↔
      (∃ chosen, name = some (some chosen) ∧ catalog.source key chosen = .ok source) ∨
        name = none ∧
          ∃ first, catalog.firstDemo key = .ok first ∧ catalog.source key first = .ok source := by
  unfold packSource
  rw [bind_eq_ok_iff]
  constructor
  · rintro ⟨_, _, found⟩
    rcases name with _ | _ | chosen
    · obtain ⟨first, named, found⟩ := bind_eq_ok_iff.mp found
      exact Or.inr ⟨rfl, first, mapError_eq_ok_iff.mp named, mapError_eq_ok_iff.mp found⟩
    · contradiction
    · exact Or.inl ⟨chosen, rfl, mapError_eq_ok_iff.mp found⟩
  · rintro (⟨chosen, rfl, found⟩ | ⟨rfl, first, named, found⟩)
    all_goals
      obtain ⟨pack, known⟩ := pack_of_source found
      refine ⟨pack, mapError_eq_ok_iff.mpr known, ?_⟩
    · exact mapError_eq_ok_iff.mpr found
    · exact bind_eq_ok_iff.mpr ⟨first, mapError_eq_ok_iff.mpr named, mapError_eq_ok_iff.mpr found⟩

/-- A demo has no source because of the catalogue, or because its name has no value. -/
theorem packSource_eq_error {key : String} {name : Option (Option String)} {fault : SourceFault}
    (failed : packSource catalog key name = .error fault) :
    (∃ cause, fault = .pack cause) ∨
      fault = .noPattern ∧ (∃ pack, catalog.pack key = .ok pack) ∧ name = some none := by
  have unsourced {name : String}
      (failed : (catalog.source key name).mapError .pack = .error fault) :
      ∃ cause, fault = .pack cause := by
    obtain ⟨cause, _, same⟩ := mapError_eq_error_iff.mp failed
    exact ⟨cause, same.symm⟩
  unfold packSource at failed
  cases known : catalog.pack key with
  | error cause =>
    rw [known] at failed
    exact Or.inl ⟨cause, (Except.error.inj failed).symm⟩
  | ok pack =>
    rw [known] at failed
    rcases name with _ | _ | chosen
    · cases named : catalog.firstDemo key with
      | error cause =>
        rw [named] at failed
        exact Or.inl ⟨cause, (Except.error.inj failed).symm⟩
      | ok first =>
        rw [named] at failed
        exact Or.inl (unsourced failed)
    · exact Or.inr ⟨(Except.error.inj failed).symm, ⟨pack, rfl⟩, rfl⟩
    · exact Or.inl (unsourced failed)

/-- A name without a value is looked up in a pack that there is. -/
theorem packSource_noPattern {key : String} {pack : Pack} (known : catalog.pack key = .ok pack) :
    packSource catalog key (some none) = .error .noPattern := by
  unfold packSource
  rw [known]
  rfl

/-- If a pack is asked for, the source is that of a demo, and the surroundings are left alone. -/
theorem run_fetch_pack {key : String} (packed : asked arguments.pack = some key) (before : σ) :
    (fetch world catalog arguments).run before =
      (packSource catalog key arguments.pattern, before) := by
  unfold fetch
  rw [show (arguments.pack.filter fun key => key != "") = some key from packed]
  rfl

/-- Without a pack, a dash stands for the standard input. -/
theorem run_fetch_input (unpacked : asked arguments.pack = none)
    (dashed : arguments.source = some "-") (before : σ) :
    (fetch world catalog arguments).run before =
      ((world.readInput.run before).1.mapError .input, (world.readInput.run before).2) := by
  unfold fetch
  rw [show (arguments.pack.filter fun key => key != "") = none from unpacked, dashed]
  rfl

/-- Without a pack, any other name is the path of a file, whose bytes have to be a text. -/
theorem run_fetch_file {path : String} (unpacked : asked arguments.pack = none)
    (named : arguments.source = some path) (plain : path ≠ "-") (before : σ) :
    (fetch world catalog arguments).run before =
      (((world.readFile path).run before).1.mapError (.file path) >>= fun bytes =>
        (sourceText bytes).mapError .encoding, ((world.readFile path).run before).2) := by
  unfold fetch
  rw [show (arguments.pack.filter fun key => key != "") = none from unpacked, named]
  dsimp only
  split
  · contradiction
  · next dashed => exact absurd (Option.some.inj dashed) plain
  · next other _ same =>
    obtain rfl := Option.some.inj same
    rw [run_bind]
    cases ((world.readFile path).run before).1 <;> rfl

/-- Without a pack and a name there is no source. -/
theorem run_fetch_unnamed (unpacked : asked arguments.pack = none)
    (unnamed : arguments.source = none) (before : σ) :
    (fetch world catalog arguments).run before = (.error .unnamed, before) := by
  unfold fetch
  rw [show (arguments.pack.filter fun key => key != "") = none from unpacked, unnamed]
  rfl

/-- What is fetched is the source of the run. -/
theorem obtains_iff {before after : σ} {source : String} :
    Obtains world catalog arguments before source after ↔
      (fetch world catalog arguments).run before = (.ok source, after) := by
  constructor
  · intro obtained
    cases obtained with
    | demo packed chosen found =>
      rw [run_fetch_pack packed, packSource_eq_ok_iff.mpr (Or.inl ⟨_, chosen, found⟩)]
    | firstDemo packed unchosen first found =>
      rw [run_fetch_pack packed, packSource_eq_ok_iff.mpr (Or.inr ⟨unchosen, _, first, found⟩)]
    | input unpacked dashed read =>
      rw [run_fetch_input unpacked dashed, read]
      rfl
    | file unpacked named plain read text =>
      rw [run_fetch_file unpacked named plain, read]
      exact congrArg (Prod.mk · after) (mapError_eq_ok_iff.mpr text)
  · intro fetched
    cases packed : asked arguments.pack with
    | some key =>
      rw [run_fetch_pack packed] at fetched
      obtain ⟨found, rfl⟩ := Prod.mk.inj fetched
      rcases packSource_eq_ok_iff.mp found with
        ⟨name, chosen, found⟩ | ⟨unchosen, name, first, found⟩
      · exact .demo packed chosen found
      · exact .firstDemo packed unchosen first found
    | none =>
      cases named : arguments.source with
      | none =>
        rw [run_fetch_unnamed packed named] at fetched
        have failed := (Prod.mk.inj fetched).1
        contradiction
      | some path =>
        by_cases plain : path = "-"
        · subst plain
          rw [run_fetch_input packed named] at fetched
          obtain ⟨found, rfl⟩ := Prod.mk.inj fetched
          exact .input packed named (Prod.ext (mapError_eq_ok_iff.mp found) rfl)
        · rw [run_fetch_file packed named plain] at fetched
          obtain ⟨found, rfl⟩ := Prod.mk.inj fetched
          obtain ⟨bytes, read, text⟩ := bind_eq_ok_iff.mp found
          exact .file packed named plain (Prod.ext (mapError_eq_ok_iff.mp read) rfl)
            (mapError_eq_ok_iff.mp text)

/-- A run has one source. -/
theorem Obtains.unique {before after other : σ} {source text : String}
    (obtained : Obtains world catalog arguments before source after)
    (again : Obtains world catalog arguments before text other) :
    text = source ∧ other = after := by
  have same := (obtains_iff.mp again).symm.trans (obtains_iff.mp obtained)
  exact ⟨Except.ok.inj (Prod.mk.inj same).1, (Prod.mk.inj same).2⟩

/-- A pattern of a pack that there is was asked for by a name that has no value. -/
def Blank (catalog : Catalog) (arguments : Arguments) : Prop :=
  arguments.pattern = some none ∧
    ∃ key pack, asked arguments.pack = some key ∧ catalog.pack key = .ok pack

/-- A run with a source has no blank pattern. -/
theorem Obtains.not_blank {before after : σ} {source : String}
    (obtained : Obtains world catalog arguments before source after) :
    ¬Blank catalog arguments := by
  rintro ⟨blank, key, pack, packed, known⟩
  have fetched := obtains_iff.mp obtained
  rw [run_fetch_pack packed, blank, packSource_noPattern known] at fetched
  have failed := (Prod.mk.inj fetched).1
  contradiction

/-- If arguments name a source that cannot be obtained, they are not refused for naming none, and
the pattern is at fault just if it is blank. -/
theorem fault_of_fetch {before after : σ} {fault : SourceFault}
    (named : asked arguments.pack ≠ none ∨ arguments.source ≠ none)
    (fetched : (fetch world catalog arguments).run before = (.error fault, after)) :
    fault ≠ .unnamed ∧ (fault = .noPattern ↔ Blank catalog arguments) := by
  cases packed : asked arguments.pack with
  | some key =>
    rw [run_fetch_pack packed] at fetched
    have failed := (Prod.mk.inj fetched).1
    rcases packSource_eq_error failed with ⟨cause, rfl⟩ | ⟨rfl, ⟨pack, known⟩, blank⟩
    · refine ⟨by simp, iff_of_false (by simp) ?_⟩
      rintro ⟨blank, other, pack, same, known⟩
      obtain rfl := Option.some.inj (packed.symm.trans same)
      rw [blank, packSource_noPattern known] at failed
      have unlike := Except.error.inj failed
      contradiction
    · exact ⟨by simp, iff_of_true rfl ⟨blank, key, pack, packed, known⟩⟩
  | none =>
    have filled : ¬Blank catalog arguments := by
      rintro ⟨_, key, pack, same, _⟩
      rw [packed] at same
      contradiction
    obtain ⟨path, given⟩ := Option.ne_none_iff_exists'.mp (named.resolve_left (absurd packed))
    by_cases plain : path = "-"
    · subst plain
      rw [run_fetch_input packed given] at fetched
      obtain ⟨cause, _, rfl⟩ := mapError_eq_error_iff.mp (Prod.mk.inj fetched).1
      exact ⟨by simp, iff_of_false (by simp) filled⟩
    · rw [run_fetch_file packed given plain] at fetched
      have failed := (Prod.mk.inj fetched).1
      cases read : ((world.readFile path).run before).1 with
      | error cause =>
        rw [read] at failed
        obtain rfl := Except.error.inj failed
        exact ⟨by simp, iff_of_false (by simp) filled⟩
      | ok bytes =>
        rw [read] at failed
        obtain ⟨cause, _, rfl⟩ := mapError_eq_error_iff.mp failed
        exact ⟨by simp, iff_of_false (by simp) filled⟩

/-! ### Endings -/

/-- The file that is asked for, if one is, was written. -/
inductive Writes (world : Surroundings (StateM σ)) (path : Option String) (text : String) :
    σ → σ → Prop where
  | unasked {state : σ} (unasked : asked path = none) : Writes world path text state state
  | written {before after : σ} {name : String} (asks : asked path = some name)
      (done : (world.writeFile name text).run before = (.ok (), after)) :
      Writes world path text before after

/-- The text was written to the file that is asked for, or printed if none is. -/
inductive Delivers (world : Surroundings (StateM σ)) (path : Option String) (text : String) :
    σ → σ → Prop where
  | printed {before after : σ} (unasked : asked path = none)
      (done : (world.writeOutput text).run before = (.ok (), after)) :
      Delivers world path text before after
  | saved {before after : σ} {name : String} (asks : asked path = some name)
      (done : (world.writeFile name text).run before = (.ok (), after)) :
      Delivers world path text before after

/-- A source was obtained, and its compilation does not look up a target that has no value. -/
structure Starts (world : Surroundings (StateM σ)) (catalog : Catalog) (arguments : Arguments)
    (before : σ) (source : String) (after : σ) : Prop where
  obtained : Obtains world catalog arguments before source after
  targeted : (compiled arguments source).instructions.isSome = true → arguments.target ≠ none

/-- How a run ends, and in which state of the surroundings, if it starts in a given one. -/
inductive Ends (world : Surroundings (StateM σ)) (catalog : Catalog) (arguments : Arguments)
    (before : σ) : Outcome → σ → Prop where
  /-- There is no source. -/
  | unsourced {fault : SourceFault} {after : σ}
      (failed : (fetch world catalog arguments).run before = (.error fault, after)) :
      Ends world catalog arguments before (withoutSource arguments.verbose fault) after
  /-- The target is looked up and has no value. -/
  | untargeted {source : String} {after : σ} {messages : List String}
      (obtained : Obtains world catalog arguments before source after)
      (blank : arguments.target = none)
      (made : (compiled arguments source).instructions.isSome = true) :
      Ends world catalog arguments before ⟨1, messages, some .noName⟩ after
  /-- The report cannot be written. -/
  | unreported {source path : String} {between after : σ} {messages : List String}
      {fault : FileFault} (starts : Starts world catalog arguments before source between)
      (asks : asked arguments.report = some path)
      (failed : (world.writeFile path (reportText (compiled arguments source))).run between =
        (.error fault, after)) :
      Ends world catalog arguments before (withoutFile messages path fault) after
  /-- The source does not compile. -/
  | uncompiled {source : String} {between after : σ} {messages : List String}
      (starts : Starts world catalog arguments before source between)
      (reported : Writes world arguments.report (reportText (compiled arguments source))
        between after)
      (failed : (compiled arguments source).output = none) :
      Ends world catalog arguments before ⟨1, messages, none⟩ after
  /-- The delivered text cannot be printed. -/
  | unprinted {source artifact : String} {between reported after : σ} {messages : List String}
      {fault : OutputFault} (starts : Starts world catalog arguments before source between)
      (report : Writes world arguments.report (reportText (compiled arguments source))
        between reported)
      (made : (compiled arguments source).output = some artifact)
      (unasked : asked arguments.output = none)
      (failed : (world.writeOutput artifact).run reported = (.error fault, after)) :
      Ends world catalog arguments before (withoutOutput messages fault) after
  /-- The delivered text cannot be written to its file. -/
  | unsaved {source artifact path : String} {between reported after : σ} {messages : List String}
      {fault : FileFault} (starts : Starts world catalog arguments before source between)
      (report : Writes world arguments.report (reportText (compiled arguments source))
        between reported)
      (made : (compiled arguments source).output = some artifact)
      (asks : asked arguments.output = some path)
      (failed : (world.writeFile path artifact).run reported = (.error fault, after)) :
      Ends world catalog arguments before (withoutFile messages path fault) after
  | delivered {source artifact : String} {between reported after : σ} {messages : List String}
      (starts : Starts world catalog arguments before source between)
      (report : Writes world arguments.report (reportText (compiled arguments source))
        between reported)
      (made : (compiled arguments source).output = some artifact)
      (done : Delivers world arguments.output artifact reported after) :
      Ends world catalog arguments before ⟨0, messages, none⟩ after

/-- A compilation behind its report is delivered, or fails. -/
theorem ends_deliver {before between reported : σ} {source : String}
    (starts : Starts world catalog arguments before source between)
    (report : Writes world arguments.report (reportText (compiled arguments source))
      between reported) (messages : List String) :
    let finished := (deliver world arguments (compiled arguments source) messages).run reported
    Ends world catalog arguments before finished.1 finished.2 := by
  unfold deliver
  cases made : (compiled arguments source).output with
  | none => exact .uncompiled starts report made
  | some artifact =>
    cases asks : asked arguments.output with
    | none =>
      dsimp only
      rw [run_bind]
      cases done : (world.writeOutput artifact).run reported with
      | mk result after =>
        cases result with
        | ok _ => exact .delivered starts report made (.printed asks done)
        | error fault => exact .unprinted starts report made asks done
    | some path =>
      dsimp only
      rw [run_bind]
      cases done : (world.writeFile path artifact).run reported with
      | mk result after =>
        cases result with
        | ok _ => exact .delivered starts report made (.saved asks done)
        | error fault => exact .unsaved starts report made asks done

/-- A source is compiled, reported on and delivered. -/
theorem ends_compile {before between : σ} {source : String}
    (obtained : Obtains world catalog arguments before source between) :
    let finished := (compile world arguments source).run between
    Ends world catalog arguments before finished.1 finished.2 := by
  unfold compile
  rw [← compiled]
  dsimp only
  split
  · next blank =>
    obtain ⟨target, made⟩ := Bool.and_eq_true_iff.mp blank
    exact .untargeted obtained (Option.isNone_iff_eq_none.mp target) made
  · next targeted =>
    have starts : Starts world catalog arguments before source between :=
      ⟨obtained, fun made blank => targeted (by rw [made, blank, Option.isNone_none]; rfl)⟩
    cases asks : asked arguments.report with
    | none => exact ends_deliver starts (.unasked asks) _
    | some path =>
      dsimp only
      rw [run_bind]
      cases done : (world.writeFile path (reportText (compiled arguments source))).run between with
      | mk result after =>
        rw [reportText] at done
        rw [done]
        cases result with
        | ok _ => exact ends_deliver starts (.written asks done) _
        | error fault => exact .unreported starts asks done

/-- A run that does not list the targets ends in one of these ways. -/
theorem ends_perform (unlisted : arguments.listTargets = false) (before : σ) :
    let finished := (perform world catalog arguments).run before
    Ends world catalog arguments before finished.1 finished.2 := by
  unfold perform
  rw [unlisted, if_neg Bool.false_ne_true, run_bind]
  cases fetched : (fetch world catalog arguments).run before with
  | mk result between =>
    cases result with
    | error fault => exact .unsourced fetched
    | ok source => exact ends_compile (obtains_iff.mpr fetched)

end StepSequencer.Command
