import StepSequencer.Proofs.Command.Endings
import StepSequencer.Proofs.Command.Storage

/-!
# What the steps of a run do

A step that fails ends a run with status 1, and breaks it off if the system is not at fault: if the
path of a file has a null character, or the text cannot be encoded where it is to be written.
`Storage.Admits` says that neither is the case. A step changes what can be seen by what it writes
and by nothing else.
-/
namespace StepSequencer.Command

variable {σ : Type} {world : Surroundings (StateM σ)} {catalog : Catalog} {arguments : Arguments}
  {before after : σ}

/-- A write is not met with anything that breaks a run off: the path has no null character, and the
text can be encoded if it comes to that. -/
structure Storage.Admits (storage : Storage world) (state : σ) (path text : String) : Prop where
  nullFree : Char.ofNat 0 ∉ path.toList
  encoded : storage.opens state path → storage.encodes path text

/-! ### Outcomes of runs that fail -/

/-- A run without a source has status 1, unless none was named. -/
theorem withoutSource_status (verbose : Bool) {fault : SourceFault} (named : fault ≠ .unnamed) :
    (withoutSource verbose fault).status = 1 := by
  cases fault <;> first | rfl | contradiction

/-- A source that is missing breaks a run off just if the pattern has no value. -/
theorem withoutSource_brokenOff (verbose : Bool) (fault : SourceFault) :
    (withoutSource verbose fault).brokenOff = none ↔ fault ≠ .noPattern := by
  cases fault <;> simp [withoutSource, Outcome.refused]

/-- A run that ends with a fault has status 1, whether or not the fault breaks it off. -/
theorem failed_status (messages : List String) (message : String) (reason : Option BreakOff) :
    (failed messages message reason).status = 1 := by
  cases reason <;> rfl

/-- A run that ends with a fault is broken off by what the fault says. -/
theorem failed_brokenOff (messages : List String) (message : String) (reason : Option BreakOff) :
    (failed messages message reason).brokenOff = reason := by
  cases reason <;> rfl

/-- A run that cannot write a file has status 1. -/
theorem withoutFile_status (messages : List String) (path : String) (fault : FileFault) :
    (withoutFile messages path fault).status = 1 :=
  failed_status _ _ _

/-- A run that cannot print its text has status 1. -/
theorem withoutOutput_status (messages : List String) (fault : OutputFault) :
    (withoutOutput messages fault).status = 1 :=
  failed_status _ _ _

/-- A file breaks a run off just if no file can have its path, or its text cannot be encoded. -/
theorem FileFault.breakOff?_eq_none_iff {fault : FileFault} :
    fault.breakOff? = none ↔ fault ≠ .nullCharacter ∧ ∀ message, fault ≠ .unencodable message := by
  cases fault <;> simp [breakOff?]

/-- The output breaks a run off just if the text cannot be encoded. -/
theorem OutputFault.breakOff?_eq_none_iff {fault : OutputFault} :
    fault.breakOff? = none ↔ ∀ message, fault ≠ .unencodable message := by
  cases fault <;> simp [breakOff?]

/-- A write is admitted just if it is met with nothing that breaks a run off. -/
theorem Storage.admits_iff (storage : Storage world) (state : σ) (path text : String) :
    storage.Admits state path text ↔
      ∀ fault, ((world.writeFile path text).run state).1 = .error fault →
        fault.breakOff? = none := by
  have null := storage.nullCharacter_iff state path text
  have unencodable := storage.unencodable_iff state path text
  constructor
  · intro admits fault failed
    refine FileFault.breakOff?_eq_none_iff.mpr ⟨?_, ?_⟩
    · rintro rfl
      exact admits.nullFree (null.mp failed)
    · rintro message rfl
      obtain ⟨opened, unfit⟩ := unencodable.mp ⟨message, failed⟩
      exact unfit (admits.encoded opened)
  · intro reported
    refine ⟨fun found => ?_, fun opened => by_contra fun unfit => ?_⟩
    · exact (FileFault.breakOff?_eq_none_iff.mp (reported _ (null.mpr found))).1 rfl
    · obtain ⟨message, failed⟩ := unencodable.mpr ⟨opened, unfit⟩
      exact (FileFault.breakOff?_eq_none_iff.mp (reported _ failed)).2 message rfl

/-- A file that could be written was admitted. -/
theorem Storage.Admits.of_done {path text : String} (storage : Storage world)
    (done : (world.writeFile path text).run before = (.ok (), after)) :
    storage.Admits before path text := by
  refine (storage.admits_iff before path text).mpr fun fault failed => ?_
  rw [done] at failed
  contradiction

/-- A file that cannot be written breaks a run off just if it is not admitted. -/
theorem withoutFile_returned_iff {path text : String} {fault : FileFault} (storage : Storage world)
    (failed : (world.writeFile path text).run before = (.error fault, after))
    (messages : List String) :
    (withoutFile messages path fault).brokenOff = none ↔ storage.Admits before path text := by
  rw [withoutFile, failed_brokenOff, storage.admits_iff, failed]
  constructor
  · rintro reported _ ⟨⟩
    exact reported
  · exact fun reported => reported fault rfl

/-- A text that cannot be printed breaks a run off just if it cannot be encoded. -/
theorem withoutOutput_returned_iff {text : String} {fault : OutputFault} (storage : Storage world)
    (failed : (world.writeOutput text).run before = (.error fault, after))
    (messages : List String) :
    (withoutOutput messages fault).brokenOff = none ↔ storage.prints text := by
  have unprintable := storage.unprintable_iff before text
  rw [failed] at unprintable
  rw [withoutOutput, failed_brokenOff, OutputFault.breakOff?_eq_none_iff, ← not_iff_not,
    ← unprintable]
  simp

/-- A text that was printed could be encoded. -/
theorem Storage.prints_of_done {text : String} (storage : Storage world)
    (done : (world.writeOutput text).run before = (.ok (), after)) : storage.prints text := by
  by_contra unprintable
  obtain ⟨message, failed⟩ := (storage.unprintable_iff before text).mpr unprintable
  rw [done] at failed
  contradiction

/-- Nothing is delivered for a target that has no value. -/
theorem output_untargeted (blank : arguments.target = none) (source : String) :
    (compiled arguments source).output = none := by
  have shown : (compileOptions arguments).target.shown = "[]" := by
    rw [compileOptions, blank]
    rfl
  obtain ⟨ending, delivered⟩ := Compilation.ofSource_outcome (compileOptions arguments) source
  unfold compiled
  generalize Compilation.ofSource (compileOptions arguments) source = compilation at delivered
  cases delivered with
  | success log clean known =>
    rw [shown] at known
    have unknown : Target.ofName? "[]" = none := by decide
    rw [unknown] at known
    contradiction
  | _ => rfl

/-- A file that is asked for was written, if it was written if asked for. -/
theorem Writes.done {path : Option String} {text name : String}
    (written : Writes world path text before after) (asks : asked path = some name) :
    (world.writeFile name text).run before = (.ok (), after) := by
  cases written with
  | unasked unasked =>
    rw [unasked] at asks
    contradiction
  | written asked done =>
    obtain rfl := Option.some.inj (asks.symm.trans asked)
    exact done

/-- A file is written in one way. -/
theorem Writes.unique {path : Option String} {text : String} {other : σ}
    (first : Writes world path text before after) (again : Writes world path text before other) :
    other = after := by
  cases first with
  | unasked unasked =>
    cases again with
    | unasked => rfl
    | written asks done =>
      rw [unasked] at asks
      contradiction
  | written asks done => exact (Prod.mk.inj ((again.done asks).symm.trans done)).2

/-- A file that was written was not refused. -/
theorem Writes.not_refused {path : Option String} {text name : String} {fault : FileFault}
    {other : σ} (written : Writes world path text before after) (asks : asked path = some name)
    (refused : (world.writeFile name text).run before = (.error fault, other)) : False := by
  have same := (Prod.mk.inj (refused.symm.trans (written.done asks))).1
  contradiction

namespace Delivers

variable {path : Option String} {text name : String} {other : σ}

/-- A text that was delivered without a file was printed. -/
theorem done_of_unasked (delivered : Delivers world path text before after)
    (unasked : asked path = none) : (world.writeOutput text).run before = (.ok (), after) := by
  cases delivered with
  | printed _ done => exact done
  | saved asks =>
    rw [unasked] at asks
    contradiction

/-- A text that was delivered with a file was written to it. -/
theorem done_of_asked (delivered : Delivers world path text before after)
    (asks : asked path = some name) :
    (world.writeFile name text).run before = (.ok (), after) := by
  cases delivered with
  | printed unasked =>
    rw [unasked] at asks
    contradiction
  | saved asked done =>
    obtain rfl := Option.some.inj (asks.symm.trans asked)
    exact done

/-- A text that was delivered was not refused by the output. -/
theorem not_unprinted {fault : OutputFault} (delivered : Delivers world path text before after)
    (unasked : asked path = none)
    (refused : (world.writeOutput text).run before = (.error fault, other)) : False := by
  have same := (Prod.mk.inj (refused.symm.trans (delivered.done_of_unasked unasked))).1
  contradiction

/-- A text that was delivered was not refused by its file. -/
theorem not_unsaved {fault : FileFault} (delivered : Delivers world path text before after)
    (asks : asked path = some name)
    (refused : (world.writeFile name text).run before = (.error fault, other)) : False := by
  have same := (Prod.mk.inj (refused.symm.trans (delivered.done_of_asked asks))).1
  contradiction

end Delivers

/-- A source that was obtained was not refused. -/
theorem Obtains.not_failed {source : String} {between : σ} {fault : SourceFault}
    (obtained : Obtains world catalog arguments before source between)
    (failed : (fetch world catalog arguments).run before = (.error fault, after)) : False := by
  have same := (Prod.mk.inj ((obtains_iff.mp obtained).symm.trans failed)).1
  contradiction

/-! ### What is left in the files and in the output -/

/-- Fetching a source changes nothing that can be seen. -/
theorem view_fetch (storage : Storage world) (catalog : Catalog) (arguments : Arguments)
    (before : σ) :
    storage.view ((fetch world catalog arguments).run before).2 = storage.view before := by
  cases packed : asked arguments.pack with
  | some key => rw [run_fetch_pack packed]
  | none =>
    cases named : arguments.source with
    | none => rw [run_fetch_unnamed packed named]
    | some path =>
      by_cases plain : path = "-"
      · subst plain
        rw [run_fetch_input packed named]
        exact storage.view_readInput before
      · rw [run_fetch_file packed named plain]
        exact storage.view_readFile before path

/-- Obtaining a source changes nothing that can be seen. -/
theorem Obtains.view_eq {source : String} (storage : Storage world)
    (obtained : Obtains world catalog arguments before source after) :
    storage.view after = storage.view before := by
  have kept := view_fetch storage catalog arguments before
  rwa [obtains_iff.mp obtained] at kept

/-- A source that cannot be obtained changes nothing that can be seen. -/
theorem view_of_unsourced {fault : SourceFault} (storage : Storage world)
    (failed : (fetch world catalog arguments).run before = (.error fault, after)) :
    storage.view after = storage.view before := by
  have kept := view_fetch storage catalog arguments before
  rwa [failed] at kept

namespace Writes

variable {path : Option String} {text : String}

/-- Paths lead where they led before. -/
theorem place?_eq (storage : Storage world) (written : Writes world path text before after) :
    (storage.view after).place? = (storage.view before).place? := by
  cases written with
  | unasked => rfl
  | @written _ name _ done =>
    have kept := storage.place?_writeFile before name text
    rwa [done] at kept

/-- A file that was asked for holds the text that was to be written. -/
theorem held {name : String} (storage : Storage world)
    (written : Writes world path text before after) (asks : asked path = some name) :
    ∃ place, (storage.view before).place? name = some place ∧
      (storage.view after).content? place = some text.toUTF8.toList := by
  have done := written.done asks
  have whole := storage.content?_writeFile before name text (congrArg Prod.fst done)
  rwa [done] at whole

/-- Only the file that was asked for is touched. -/
theorem content?_eq (storage : Storage world) (written : Writes world path text before after)
    {place : storage.Place}
    (apart : ∀ name, asked path = some name → (storage.view before).place? name ≠ some place) :
    (storage.view after).content? place = (storage.view before).content? place := by
  cases written with
  | unasked => rfl
  | @written _ name asks done =>
    have kept := storage.content?_elsewhere before name text place (apart name asks)
    rwa [done] at kept

/-- A file that was written was admitted. -/
theorem admits {name : String} (storage : Storage world)
    (written : Writes world path text before after) (asks : asked path = some name) :
    storage.Admits before name text :=
  .of_done storage (written.done asks)

/-- A file is written without anything being printed. -/
theorem printed_eq (storage : Storage world) (written : Writes world path text before after) :
    (storage.view after).printed = (storage.view before).printed := by
  cases written with
  | unasked => rfl
  | @written _ name _ done =>
    have kept := storage.printed_writeFile before name text
    rwa [done] at kept

end Writes

/-- A path leads behind the report where it led at the start. -/
theorem Obtains.place?_reported {source text : String} {path : Option String} {between reported : σ}
    (storage : Storage world) (obtained : Obtains world catalog arguments before source between)
    (report : Writes world path text between reported) :
    (storage.view reported).place? = (storage.view before).place? := by
  rw [report.place?_eq storage, obtained.view_eq storage]

/-- Nothing was printed up to the report. -/
theorem Obtains.printed_reported {source text : String} {path : Option String}
    {between reported : σ} (storage : Storage world)
    (obtained : Obtains world catalog arguments before source between)
    (report : Writes world path text between reported) :
    (storage.view reported).printed = (storage.view before).printed := by
  rw [report.printed_eq storage, obtained.view_eq storage]

/-- The output refuses a text without a change that can be seen. -/
theorem view_of_unprinted {text : String} {fault : OutputFault} (storage : Storage world)
    (failed : (world.writeOutput text).run before = (.error fault, after)) :
    storage.view after = storage.view before := by
  have kept := storage.view_writeOutput_error before text
  rw [failed] at kept
  exact kept (by simp)

end StepSequencer.Command
