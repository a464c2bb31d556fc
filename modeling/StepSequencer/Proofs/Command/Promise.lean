import StepSequencer.Pack.Catalog
import StepSequencer.Proofs.Command.Steps

/-!
# What a run of the command promises

A run reports success by its status alone. The status is 0 if the source could be obtained and
compiled and everything that was asked for could be written, and 1 otherwise. The delivered text is
printed only if the run succeeded and no file was asked for. A report is written whether or not the
source compiles, and apart from it no file is touched unless it does. `Kept` is this promise.

A run keeps it unless it is broken off: by a target or a pattern that is looked up and has no value,
by a file that is to be written at a path with a null character, or by a text that cannot be encoded
where it is to be written.

The messages of a run are part of its outcome. Whether they can be told is up to whoever tells them.
-/
namespace StepSequencer.Command

variable {σ : Type} {world : Surroundings (StateM σ)} {catalog : Catalog} {arguments : Arguments}
  {before after : σ} {outcome : Outcome}

/-- A run has all that it needs: a source that can be obtained and that compiles, a report that can
be written if it is asked for, and a text that can be delivered. -/
inductive Succeeds (world : Surroundings (StateM σ)) (catalog : Catalog) (arguments : Arguments)
    (before : σ) : Prop where
  | intro {source artifact : String} {between reported after : σ}
      (obtained : Obtains world catalog arguments before source between)
      (made : (compiled arguments source).output = some artifact)
      (report : Writes world arguments.report (reportText (compiled arguments source))
        between reported)
      (done : Delivers world arguments.output artifact reported after)

/-- The report and the delivered text are to be written to different files. -/
def Apart (storage : Storage world) (arguments : Arguments) (before : σ) : Prop :=
  ∀ report output place, asked arguments.report = some report →
    asked arguments.output = some output →
    (storage.view before).place? report = some place →
    (storage.view before).place? output ≠ some place

/-- What is promised of a run from one state to another. -/
structure Kept (storage : Storage world) (catalog : Catalog) (arguments : Arguments) (before : σ)
    (outcome : Outcome) (after : σ) : Prop where
  /-- The run was not broken off. -/
  returned : outcome.brokenOff = none
  status_zero_iff : outcome.status = 0 ↔ Succeeds world catalog arguments before
  status_one : outcome.status ≠ 0 → outcome.status = 1
  printed_artifact : ∀ source artifact between,
    Obtains world catalog arguments before source between →
    (compiled arguments source).output = some artifact →
    outcome.status = 0 → asked arguments.output = none →
    (storage.view after).printed = (storage.view before).printed ++ artifact
  printed_nothing : outcome.status ≠ 0 ∨ asked arguments.output ≠ none →
    (storage.view after).printed = (storage.view before).printed
  /-- A report that can be written is written, whether or not the source compiles. -/
  report_held : ∀ source between path,
    Obtains world catalog arguments before source between →
    asked arguments.report = some path →
    ((world.writeFile path (reportText (compiled arguments source))).run between).1 = .ok () →
    ∃ place, (storage.view before).place? path = some place ∧
      (storage.view after).content? place =
        some (reportText (compiled arguments source)).toUTF8.toList
  artifact_held : ∀ source artifact between path,
    Obtains world catalog arguments before source between →
    (compiled arguments source).output = some artifact →
    outcome.status = 0 → asked arguments.output = some path →
    ∃ place, (storage.view before).place? path = some place ∧
      (storage.view after).content? place = some artifact.toUTF8.toList
  /-- Without a text to deliver, or without the report on it, no file but the report is touched. -/
  others_kept :
    (∀ source between, Obtains world catalog arguments before source between →
      (compiled arguments source).output = none ∨ ∃ path, asked arguments.report = some path ∧
        ((world.writeFile path (reportText (compiled arguments source))).run between).1 ≠ .ok ()) →
    ∀ place, (∀ path, asked arguments.report = some path →
        (storage.view before).place? path ≠ some place) →
      (storage.view after).content? place = (storage.view before).content? place

/-- Nothing breaks a run off: no pattern or target that is looked up lacks a value, and whatever is
to be written has a path without a null character, if any, and a text that can be encoded. -/
structure Unbroken (storage : Storage world) (catalog : Catalog) (arguments : Arguments)
    (before : σ) : Prop where
  filled : ¬Blank catalog arguments
  targeted : ∀ source between, Obtains world catalog arguments before source between →
    (compiled arguments source).instructions.isSome = true → arguments.target ≠ none
  report : ∀ source between path, Obtains world catalog arguments before source between →
    asked arguments.report = some path →
    storage.Admits between path (reportText (compiled arguments source))
  output : ∀ source artifact between reported path,
    Obtains world catalog arguments before source between →
    (compiled arguments source).output = some artifact →
    Writes world arguments.report (reportText (compiled arguments source)) between reported →
    asked arguments.output = some path → storage.Admits reported path artifact
  printed : ∀ source artifact between reported,
    Obtains world catalog arguments before source between →
    (compiled arguments source).output = some artifact →
    Writes world arguments.report (reportText (compiled arguments source)) between reported →
    asked arguments.output = none → storage.prints artifact

/-! ### Whether a run succeeds -/

/-- A run that is not broken off before the report stays unbroken if its writes are admitted. -/
theorem Starts.unbroken {source : String} {between : σ} (storage : Storage world)
    (starts : Starts world catalog arguments before source between)
    (report : ∀ path, asked arguments.report = some path →
      storage.Admits between path (reportText (compiled arguments source)))
    (deliver : ∀ artifact reported, (compiled arguments source).output = some artifact →
      Writes world arguments.report (reportText (compiled arguments source)) between reported →
      (∀ path, asked arguments.output = some path → storage.Admits reported path artifact) ∧
        (asked arguments.output = none → storage.prints artifact)) :
    Unbroken storage catalog arguments before where
  filled := starts.obtained.not_blank
  targeted _ _ obtained := by
    obtain ⟨rfl, rfl⟩ := starts.obtained.unique obtained
    exact starts.targeted
  report _ _ path obtained asks := by
    obtain ⟨rfl, rfl⟩ := starts.obtained.unique obtained
    exact report path asks
  output _ artifact _ reported path obtained made written asks := by
    obtain ⟨rfl, rfl⟩ := starts.obtained.unique obtained
    exact (deliver artifact reported made written).1 path asks
  printed _ artifact _ reported obtained made written unasked := by
    obtain ⟨rfl, rfl⟩ := starts.obtained.unique obtained
    exact (deliver artifact reported made written).2 unasked

/-- A run that comes to deliver its text stays unbroken if the text can be encoded where it goes. -/
theorem Starts.unbroken_of_report {source artifact : String} {between reported : σ}
    (storage : Storage world) (starts : Starts world catalog arguments before source between)
    (report : Writes world arguments.report (reportText (compiled arguments source))
      between reported)
    (made : (compiled arguments source).output = some artifact)
    (output : ∀ path, asked arguments.output = some path → storage.Admits reported path artifact)
    (printed : asked arguments.output = none → storage.prints artifact) :
    Unbroken storage catalog arguments before := by
  refine starts.unbroken storage (fun _ => report.admits storage) ?_
  intro again other made' report'
  obtain rfl := Option.some.inj (made.symm.trans made')
  obtain rfl := report.unique report'
  exact ⟨output, printed⟩

/-- What a run has that succeeds, by the source that it has. -/
theorem Succeeds.of_obtains {source : String} {between : σ}
    (succeeds : Succeeds world catalog arguments before)
    (obtained : Obtains world catalog arguments before source between) :
    ∃ artifact reported after, (compiled arguments source).output = some artifact ∧
      Writes world arguments.report (reportText (compiled arguments source)) between reported ∧
      Delivers world arguments.output artifact reported after := by
  obtain ⟨again, made, report, done⟩ := succeeds
  obtain ⟨rfl, rfl⟩ := obtained.unique again
  exact ⟨_, _, _, made, report, done⟩

namespace Ends

/-- A run returns just if nothing breaks it off. -/
theorem returned_iff (storage : Storage world)
    (named : asked arguments.pack ≠ none ∨ arguments.source ≠ none)
    (ends : Ends world catalog arguments before outcome after) :
    outcome.brokenOff = none ↔ Unbroken storage catalog arguments before := by
  cases ends with
  | unsourced failed =>
    rw [withoutSource_brokenOff, ne_eq, (fault_of_fetch named failed).2]
    refine ⟨fun filled => ⟨filled, ?_, ?_, ?_, ?_⟩, fun unbroken => unbroken.filled⟩
    · exact fun _ _ obtained => (obtained.not_failed failed).elim
    · exact fun _ _ _ obtained => (obtained.not_failed failed).elim
    · exact fun _ _ _ _ _ obtained => (obtained.not_failed failed).elim
    · exact fun _ _ _ _ obtained => (obtained.not_failed failed).elim
  | untargeted obtained blank made =>
    exact iff_of_false (by simp) fun unbroken => unbroken.targeted _ _ obtained made blank
  | unreported starts asks failed =>
    rw [withoutFile_returned_iff storage failed]
    constructor
    · intro admits
      refine starts.unbroken storage ?_ ?_
      · intro other asked
        obtain rfl := Option.some.inj (asks.symm.trans asked)
        exact admits
      · exact fun _ _ _ report => (report.not_refused asks failed).elim
    · exact fun unbroken => unbroken.report _ _ _ starts.obtained asks
  | uncompiled starts report failed =>
    refine iff_of_true rfl (starts.unbroken storage (fun _ => report.admits storage) ?_)
    intro _ _ made
    rw [failed] at made
    contradiction
  | unprinted starts report made unasked failed =>
    rw [withoutOutput_returned_iff storage failed]
    constructor
    · intro prints
      refine starts.unbroken_of_report storage report made ?_ fun _ => prints
      intro _ asks
      rw [unasked] at asks
      contradiction
    · exact fun unbroken => unbroken.printed _ _ _ _ starts.obtained made report unasked
  | unsaved starts report made asks failed =>
    rw [withoutFile_returned_iff storage failed]
    constructor
    · intro admits
      refine starts.unbroken_of_report storage report made ?_ ?_
      · intro other asked
        obtain rfl := Option.some.inj (asks.symm.trans asked)
        exact admits
      · intro unasked
        rw [unasked] at asks
        contradiction
    · exact fun unbroken => unbroken.output _ _ _ _ _ starts.obtained made report asks
  | delivered starts report made done =>
    refine iff_of_true rfl (starts.unbroken_of_report storage report made ?_ ?_)
    · exact fun _ asks => .of_done storage (done.done_of_asked asks)
    · exact fun unasked => storage.prints_of_done (done.done_of_unasked unasked)

/-- The status of a run is 0 just if it has all that it needs. -/
theorem status_zero_iff (named : asked arguments.pack ≠ none ∨ arguments.source ≠ none)
    (ends : Ends world catalog arguments before outcome after) :
    outcome.status = 0 ↔ Succeeds world catalog arguments before := by
  cases ends with
  | unsourced failed =>
    rw [withoutSource_status _ (fault_of_fetch named failed).1]
    refine iff_of_false Nat.one_ne_zero fun succeeds => ?_
    obtain ⟨obtained, _⟩ := succeeds
    exact obtained.not_failed failed
  | untargeted obtained blank made =>
    refine iff_of_false Nat.one_ne_zero fun succeeds => ?_
    obtain ⟨artifact, _, _, delivered, _⟩ := succeeds.of_obtains obtained
    rw [output_untargeted blank] at delivered
    contradiction
  | unreported starts asks failed =>
    rw [withoutFile_status]
    refine iff_of_false Nat.one_ne_zero fun succeeds => ?_
    obtain ⟨_, _, _, _, report, _⟩ := succeeds.of_obtains starts.obtained
    exact report.not_refused asks failed
  | uncompiled starts report failed =>
    refine iff_of_false Nat.one_ne_zero fun succeeds => ?_
    obtain ⟨_, _, _, made, _⟩ := succeeds.of_obtains starts.obtained
    rw [failed] at made
    contradiction
  | unprinted starts report made unasked failed =>
    rw [withoutOutput_status]
    refine iff_of_false Nat.one_ne_zero fun succeeds => ?_
    obtain ⟨_, _, _, delivered, again, done⟩ := succeeds.of_obtains starts.obtained
    obtain rfl := Option.some.inj (made.symm.trans delivered)
    obtain rfl := report.unique again
    exact done.not_unprinted unasked failed
  | unsaved starts report made asks failed =>
    rw [withoutFile_status]
    refine iff_of_false Nat.one_ne_zero fun succeeds => ?_
    obtain ⟨_, _, _, delivered, again, done⟩ := succeeds.of_obtains starts.obtained
    obtain rfl := Option.some.inj (made.symm.trans delivered)
    obtain rfl := report.unique again
    exact done.not_unsaved asks failed
  | delivered starts report made done =>
    exact iff_of_true rfl ⟨starts.obtained, made, report, done⟩

/-- The status of a run is 0 or 1. -/
theorem status_one (named : asked arguments.pack ≠ none ∨ arguments.source ≠ none)
    (ends : Ends world catalog arguments before outcome after) (failed : outcome.status ≠ 0) :
    outcome.status = 1 := by
  cases ends with
  | unsourced unsourced => exact withoutSource_status _ (fault_of_fetch named unsourced).1
  | unreported => exact withoutFile_status _ _ _
  | unprinted => exact withoutOutput_status _ _
  | unsaved => exact withoutFile_status _ _ _
  | untargeted => rfl
  | uncompiled => rfl
  | delivered => contradiction

/-- A run with status 0 has delivered its text. -/
theorem delivers {source artifact : String} {between : σ}
    (ends : Ends world catalog arguments before outcome after)
    (obtained : Obtains world catalog arguments before source between)
    (made : (compiled arguments source).output = some artifact) (succeeded : outcome.status = 0) :
    ∃ reported,
      Writes world arguments.report (reportText (compiled arguments source)) between reported ∧
        Delivers world arguments.output artifact reported after := by
  cases ends with
  | unsourced failed => exact (obtained.not_failed failed).elim
  | untargeted => contradiction
  | unreported =>
    rw [withoutFile_status] at succeeded
    contradiction
  | uncompiled => contradiction
  | unprinted =>
    rw [withoutOutput_status] at succeeded
    contradiction
  | unsaved =>
    rw [withoutFile_status] at succeeded
    contradiction
  | delivered starts report made' done =>
    obtain ⟨rfl, rfl⟩ := starts.obtained.unique obtained
    obtain rfl := Option.some.inj (made.symm.trans made')
    exact ⟨_, report, done⟩

/-! ### What a run prints -/

/-- A run with status 0 prints the text that it makes if no file is asked for. -/
theorem printed_artifact {source artifact : String} {between : σ} (storage : Storage world)
    (ends : Ends world catalog arguments before outcome after)
    (obtained : Obtains world catalog arguments before source between)
    (made : (compiled arguments source).output = some artifact) (succeeded : outcome.status = 0)
    (unasked : asked arguments.output = none) :
    (storage.view after).printed = (storage.view before).printed ++ artifact := by
  obtain ⟨reported, report, delivers⟩ := ends.delivers obtained made succeeded
  have done := delivers.done_of_unasked unasked
  have printed := storage.view_writeOutput_ok reported artifact (congrArg Prod.fst done)
  rw [done] at printed
  rw [printed, obtained.printed_reported storage report]

/-- A run prints nothing if it fails or a file is asked for. -/
theorem printed_nothing (storage : Storage world)
    (ends : Ends world catalog arguments before outcome after)
    (elsewhere : outcome.status ≠ 0 ∨ asked arguments.output ≠ none) :
    (storage.view after).printed = (storage.view before).printed := by
  cases ends with
  | unsourced failed => rw [view_of_unsourced storage failed]
  | untargeted obtained => rw [obtained.view_eq storage]
  | @unreported source path between _ _ _ starts asks failed =>
    have kept := storage.printed_writeFile between path (reportText (compiled arguments source))
    rwa [failed, starts.obtained.view_eq storage] at kept
  | uncompiled starts report => exact starts.obtained.printed_reported storage report
  | unprinted starts report _ _ failed =>
    rw [view_of_unprinted storage failed, starts.obtained.printed_reported storage report]
  | @unsaved _ artifact path _ reported _ _ _ starts report _ _ failed =>
    have kept := storage.printed_writeFile reported path artifact
    rwa [failed, starts.obtained.printed_reported storage report] at kept
  | @delivered _ artifact _ reported _ _ starts report _ done =>
    cases done with
    | printed unasked => rcases elsewhere with failed | asks <;> contradiction
    | @saved path _ done =>
      have kept := storage.printed_writeFile reported path artifact
      rwa [done, starts.obtained.printed_reported storage report] at kept

/-! ### What a run leaves in the files -/

/-- A run that returns leaves the report that it was asked for, if it could be written. -/
theorem report_held {source path : String} {between : σ} (storage : Storage world)
    (apart : Apart storage arguments before)
    (ends : Ends world catalog arguments before outcome after) (returned : outcome.brokenOff = none)
    (obtained : Obtains world catalog arguments before source between)
    (asks : asked arguments.report = some path)
    (done : ((world.writeFile path (reportText (compiled arguments source))).run between).1 =
      .ok ()) :
    ∃ place, (storage.view before).place? path = some place ∧
      (storage.view after).content? place =
        some (reportText (compiled arguments source)).toUTF8.toList := by
  -- The report is there when it was written, and a file that is written later is another one.
  have held {reported : σ}
      (report : Writes world arguments.report (reportText (compiled arguments source))
        between reported) :
      ∃ place, (storage.view before).place? path = some place ∧
        (storage.view reported).content? place =
          some (reportText (compiled arguments source)).toUTF8.toList := by
    rw [← obtained.view_eq storage]
    exact report.held storage asks
  have behind {reported : σ} (artifact : String) {output : String}
      (report : Writes world arguments.report (reportText (compiled arguments source))
        between reported) (save : asked arguments.output = some output) :
      ∃ place, (storage.view before).place? path = some place ∧
        (storage.view ((world.writeFile output artifact).run reported).2).content? place =
          some (reportText (compiled arguments source)).toUTF8.toList := by
    obtain ⟨place, leads, content⟩ := held report
    refine ⟨place, leads, ?_⟩
    rw [storage.content?_elsewhere, content]
    rw [obtained.place?_reported storage report]
    exact apart path output place asks save leads
  cases ends with
  | unsourced failed => exact (obtained.not_failed failed).elim
  | untargeted => contradiction
  | unreported starts asks' failed =>
    obtain ⟨rfl, rfl⟩ := starts.obtained.unique obtained
    obtain rfl := Option.some.inj (asks.symm.trans asks')
    rw [failed] at done
    contradiction
  | uncompiled starts report =>
    obtain ⟨rfl, rfl⟩ := starts.obtained.unique obtained
    exact held report
  | unprinted starts report _ _ failed =>
    obtain ⟨rfl, rfl⟩ := starts.obtained.unique obtained
    rw [view_of_unprinted storage failed]
    exact held report
  | @unsaved _ artifact _ _ _ _ _ _ starts report _ save failed =>
    obtain ⟨rfl, rfl⟩ := starts.obtained.unique obtained
    have kept := behind artifact report save
    rwa [failed] at kept
  | @delivered _ artifact _ reported _ _ starts report _ delivers =>
    obtain ⟨rfl, rfl⟩ := starts.obtained.unique obtained
    cases delivers with
    | printed _ written =>
      have printed := storage.view_writeOutput_ok reported artifact (congrArg Prod.fst written)
      rw [written] at printed
      rw [printed]
      exact held report
    | saved save written =>
      have kept := behind artifact report save
      rwa [written] at kept

/-- A run with status 0 leaves the text that it makes in the file that is asked for. -/
theorem artifact_held {source artifact path : String} {between : σ} (storage : Storage world)
    (ends : Ends world catalog arguments before outcome after)
    (obtained : Obtains world catalog arguments before source between)
    (made : (compiled arguments source).output = some artifact) (succeeded : outcome.status = 0)
    (asks : asked arguments.output = some path) :
    ∃ place, (storage.view before).place? path = some place ∧
      (storage.view after).content? place = some artifact.toUTF8.toList := by
  obtain ⟨reported, report, delivers⟩ := ends.delivers obtained made succeeded
  rw [← obtained.place?_reported storage report]
  exact (Writes.written asks (delivers.done_of_asked asks)).held storage asks

/-- A run that makes no text, or cannot write the report on it, touches no file but the report. -/
theorem others_kept (storage : Storage world)
    (ends : Ends world catalog arguments before outcome after)
    (failed : ∀ source between, Obtains world catalog arguments before source between →
      (compiled arguments source).output = none ∨ ∃ path, asked arguments.report = some path ∧
        ((world.writeFile path (reportText (compiled arguments source))).run between).1 ≠ .ok ())
    {place : storage.Place} (other : ∀ path, asked arguments.report = some path →
      (storage.view before).place? path ≠ some place) :
    (storage.view after).content? place = (storage.view before).content? place := by
  -- A text that is delivered is one that was made and reported on.
  have undelivered {source artifact : String} {between reported : σ}
      (obtained : Obtains world catalog arguments before source between)
      (made : (compiled arguments source).output = some artifact)
      (report : Writes world arguments.report (reportText (compiled arguments source))
        between reported) : False := by
    rcases failed source between obtained with unmade | ⟨path, asks, refused⟩
    · rw [unmade] at made
      contradiction
    · exact refused (congrArg Prod.fst (report.done asks))
  cases ends with
  | unsourced unsourced => rw [view_of_unsourced storage unsourced]
  | untargeted obtained => rw [obtained.view_eq storage]
  | @unreported source path between _ _ _ starts asks refused =>
    have kept := storage.content?_elsewhere between path (reportText (compiled arguments source))
      place
    rw [refused, starts.obtained.view_eq storage] at kept
    exact kept (other path asks)
  | uncompiled starts report =>
    rw [← starts.obtained.view_eq storage] at other ⊢
    exact report.content?_eq storage other
  | unprinted starts report made => exact (undelivered starts.obtained made report).elim
  | unsaved starts report made => exact (undelivered starts.obtained made report).elim
  | delivered starts report made => exact (undelivered starts.obtained made report).elim

end Ends

/-- A run keeps its promise just if nothing breaks it off. -/
theorem kept_iff (storage : Storage world)
    (named : asked arguments.pack ≠ none ∨ arguments.source ≠ none)
    (apart : Apart storage arguments before)
    (ends : Ends world catalog arguments before outcome after) :
    Kept storage catalog arguments before outcome after ↔
      Unbroken storage catalog arguments before := by
  rw [← ends.returned_iff storage named]
  refine ⟨Kept.returned, fun returned => ?_⟩
  exact {
    returned
    status_zero_iff := ends.status_zero_iff named
    status_one := ends.status_one named
    printed_artifact := fun _ _ _ => ends.printed_artifact storage
    printed_nothing := ends.printed_nothing storage
    report_held := fun _ _ _ => ends.report_held storage apart returned
    artifact_held := fun _ _ _ _ => ends.artifact_held storage
    others_kept := fun failed _ => ends.others_kept storage failed }

/-- A run of the command whose arguments are accepted and name a source keeps its promise just if
nothing breaks it off. -/
theorem run_kept_iff (storage : Storage world) {settings : Settings} {line : List String}
    (accepted : readArguments settings line = .ok (some arguments))
    (unlisted : arguments.listTargets = false)
    (named : asked arguments.pack ≠ none ∨ arguments.source ≠ none)
    (apart : Apart storage arguments before) :
    Kept storage catalog arguments before ((run world settings catalog line).run before).1
        ((run world settings catalog line).run before).2 ↔
      Unbroken storage catalog arguments before := by
  have performed : run world settings catalog line = perform world catalog arguments := by
    unfold run
    rw [accepted]
  rw [performed]
  exact kept_iff storage named apart (ends_perform unlisted before)

/-- A machine without files. -/
def Machine.bare : Machine := ⟨⟨[], [], []⟩, ""⟩

/-- A run on that machine that reads a program without patterns from its input. -/
def bareRun (limits : Machine.Limits) (line : List String) : Outcome × Machine :=
  (run (Machine.surroundings "@stop" limits) .standard .builtIn line).run .bare

/-- A command line that asks for a report and for a text in Intel HEX, both in files. -/
def twoFilesLine : List String := ["-", "-t", "hex", "--report", "r.json", "-oo.hex"]

/-- What that line is read as. -/
def twoFiles : Arguments :=
  { Arguments.ofSettings .standard with
    source := some "-", target := some "hex", report := some "r.json", output := some "o.hex" }

/-- With both files on a machine that takes all texts nothing breaks the run off. -/
theorem run_kept_iff_twoFiles :
    readArguments .standard twoFilesLine = .ok (some twoFiles) ∧
      Apart (Machine.storage "@stop" .free) twoFiles .bare ∧
      Kept (Machine.storage "@stop" .free) .builtIn twoFiles .bare
        (bareRun .free twoFilesLine).1 (bareRun .free twoFilesLine).2 := by
  have accepted : readArguments .standard twoFilesLine = .ok (some twoFiles) := by decide +kernel
  have named : twoFiles.source ≠ none := by decide
  have apart : Apart (Machine.storage "@stop" .free) twoFiles .bare := by
    rintro report output place reports saves leads same
    obtain rfl : "r.json" = report := Option.some.inj reports
    obtain rfl : "o.hex" = output := Option.some.inj saves
    have unlike : (Machine.bare.disk.locate "r.json").toOption ≠
        (Machine.bare.disk.locate "o.hex").toOption := by
      decide +kernel
    exact unlike (leads.trans same.symm)
  have unbroken : Unbroken (Machine.storage "@stop" .free) .builtIn twoFiles .bare := by
    constructor
    · rintro ⟨blank, _⟩
      have unchosen : twoFiles.pattern ≠ some none := by decide
      exact unchosen blank
    · intro _ _ _ _
      decide
    · intro _ _ path _ asks
      obtain rfl : "r.json" = path := Option.some.inj asks
      exact ⟨by decide +kernel, fun _ => rfl⟩
    · intro _ _ _ _ path _ _ _ asks
      obtain rfl : "o.hex" = path := Option.some.inj asks
      exact ⟨by decide +kernel, fun _ => rfl⟩
    · intro _ _ _ _ _ _ _ unasked
      have asks : asked twoFiles.output ≠ none := by decide +kernel
      exact absurd unasked asks
  exact ⟨accepted, apart,
    (run_kept_iff (Machine.storage "@stop" .free) accepted rfl (Or.inr named) apart).mpr unbroken⟩

/-- What an encoding has against characters that are not in ASCII. -/
def notAscii : String := "ordinal not in range(128)"

/-- A machine that encodes files and the output in ASCII. -/
def Machine.Limits.ascii : Limits where
  file text := if isAscii text then none else some notAscii
  output text := if isAscii text then none else some (.unencodable notAscii)
where
  isAscii (text : String) : Bool := text.toByteArray.data.toList.all (· < 128)

/-- A command line that asks for a report at a path with a null character. -/
def nullReportLine : List String := ["-", "--report", "a\x00b"]

/-- What that line is read as. -/
def nullReport : Arguments :=
  { Arguments.ofSettings .standard with source := some "-", report := some "a\x00b" }

/-- A command line that asks for a report and gives a target no value. -/
def noTargetLine : List String := ["-", "--target=--", "--report", "r.json"]

/-- What that line is read as. -/
def noTarget : Arguments :=
  { Arguments.ofSettings .standard with
    source := some "-", target := none, report := some "r.json" }

/-- A command line that asks for a title with an accent. -/
def accentedLine : List String := ["-", "--title", "\u00e9"]

/-- What that line is read as. -/
def accented : Arguments :=
  { Arguments.ofSettings .standard with source := some "-", title := some "\u00e9" }

/-- A command line that asks for a title with an accent in a file. -/
def accentedFileLine : List String := accentedLine ++ ["-oo.asm"]

/-- What that line is read as. -/
def accentedFile : Arguments := { accented with output := some "o.asm" }

/-- Runs that are broken off: by a path with a null character; by a target without a value, which
leaves no report behind; and by a text that cannot be encoded, in the output or in a file, which is
left empty. -/
theorem run_not_kept :
    (readArguments .standard nullReportLine = .ok (some nullReport) ∧
      Apart (Machine.storage "@stop" .free) nullReport .bare ∧
      ¬Kept (Machine.storage "@stop" .free) .builtIn nullReport .bare
        (bareRun .free nullReportLine).1 (bareRun .free nullReportLine).2) ∧
    (readArguments .standard noTargetLine = .ok (some noTarget) ∧
      Apart (Machine.storage "@stop" .free) noTarget .bare ∧
      (bareRun .free noTargetLine).2 = .bare ∧
      ¬Kept (Machine.storage "@stop" .free) .builtIn noTarget .bare
        (bareRun .free noTargetLine).1 (bareRun .free noTargetLine).2) ∧
    (readArguments .standard accentedLine = .ok (some accented) ∧
      Apart (Machine.storage "@stop" .ascii) accented .bare ∧
      ¬Kept (Machine.storage "@stop" .ascii) .builtIn accented .bare
        (bareRun .ascii accentedLine).1 (bareRun .ascii accentedLine).2) ∧
    readArguments .standard accentedFileLine = .ok (some accentedFile) ∧
      Apart (Machine.storage "@stop" .ascii) accentedFile .bare ∧
      (bareRun .ascii accentedFileLine).2.disk.files = [(["o.asm"], [])] ∧
      ¬Kept (Machine.storage "@stop" .ascii) .builtIn accentedFile .bare
        (bareRun .ascii accentedFileLine).1 (bareRun .ascii accentedFileLine).2 := by
  have apart {limits : Machine.Limits} {arguments : Arguments}
      (unasked : asked arguments.report = none ∨ asked arguments.output = none) :
      Apart (Machine.storage "@stop" limits) arguments .bare := by
    intro _ _ _ reports saves
    rcases unasked with unasked | unasked
    · rw [unasked] at reports
      contradiction
    · rw [unasked] at saves
      contradiction
  have null : (bareRun .free nullReportLine).1.brokenOff = some .nullCharacter := by
    decide +kernel
  have blank : (bareRun .free noTargetLine).1.brokenOff = some .noName := by decide +kernel
  have unprinted : (bareRun .ascii accentedLine).1.brokenOff = some (.unencodable notAscii) := by
    decide +kernel
  have unsaved : (bareRun .ascii accentedFileLine).1.brokenOff =
      some (.unencodable notAscii) := by
    decide +kernel
  refine ⟨⟨by decide +kernel, apart (Or.inr rfl), fun kept => ?_⟩,
    ⟨by decide +kernel, apart (Or.inr rfl), by decide +kernel, fun kept => ?_⟩,
    ⟨by decide +kernel, apart (Or.inr rfl), fun kept => ?_⟩,
    by decide +kernel, apart (Or.inl rfl), by decide +kernel, fun kept => ?_⟩
  · exact Option.some_ne_none _ (null.symm.trans kept.returned)
  · exact Option.some_ne_none _ (blank.symm.trans kept.returned)
  · exact Option.some_ne_none _ (unprinted.symm.trans kept.returned)
  · exact Option.some_ne_none _ (unsaved.symm.trans kept.returned)

end StepSequencer.Command
