import StepSequencer.Pack.Source
import StepSequencer.Proofs.Memory.Stores
import StepSequencer.Proofs.Program.Passages
import StepSequencer.Proofs.Steps

/-!
# The program of a demo

The text of a demo is a list of passages. It compiles without an error, and the stores of its
instructions are known in order: the tempo, the settings of the pack, the notes of the voices that
no pattern can spell, the steps of the other voices twice, and the start of the transport.
-/
namespace StepSequencer

namespace Text

/-- A hexadecimal digit is below sixteen. -/
theorem hexValue?_lt {c : Char} {d : Nat} (digit : hexValue? c = some d) : d < 16 := by
  unfold hexValue? at digit
  split at digit
  · next range =>
    have bounds : 48 ≤ c.toNat ∧ c.toNat ≤ 57 := range
    have value := Option.some.inj digit
    omega
  · split at digit
    · next range =>
      have bounds : 97 ≤ c.toNat ∧ c.toNat ≤ 102 := range
      have value := Option.some.inj digit
      omega
    · split at digit
      · next range =>
        have bounds : 65 ≤ c.toNat ∧ c.toNat ≤ 70 := range
        have value := Option.some.inj digit
        omega
      · contradiction

end Text

namespace Demo

/-- The values of a step text are bytes. -/
theorem values_bytes (text : List Char) (room : Nat) :
    ∀ value ∈ values text room, 0 ≤ value ∧ value ≤ 255 := by
  have trigger : (0 : Int) ≤ Steps.trigger ∧ Steps.trigger ≤ 255 := by decide
  have accent : (0 : Int) ≤ Steps.accent ∧ Steps.accent ≤ 255 := by decide
  have rest : (0 : Int) ≤ Steps.rest ∧ Steps.rest ≤ 255 := by decide
  fun_induction values text room with
  | case1 => simp
  | case2 => simp
  | case3 => simpa using trigger
  | case4 => simpa using accent
  | case5 => simpa using rest
  | case6 => simp
  | case7 c d cs room _ ih => exact List.forall_mem_cons.mpr ⟨trigger, ih⟩
  | case8 c d cs room _ _ ih => exact List.forall_mem_cons.mpr ⟨accent, ih⟩
  | case9 c d cs room _ _ _ ih => exact List.forall_mem_cons.mpr ⟨rest, ih⟩
  | case10 c d cs room _ _ _ high low first second ih =>
    have upper := Text.hexValue?_lt first
    have lower := Text.hexValue?_lt second
    exact List.forall_mem_cons.mpr ⟨by omega, ih⟩
  | case11 c d cs room _ _ _ digit second first ih =>
    have upper := Text.hexValue?_lt first
    exact List.forall_mem_cons.mpr ⟨by omega, ih⟩
  | case12 c d cs room _ _ _ first ih => exact ih

/-- The step values of a demo are bytes. -/
theorem decode_bytes (text : List Char) : ∀ value ∈ decode text, 0 ≤ value ∧ value ≤ 255 := by
  intro value member
  rcases List.mem_append.mp (List.mem_of_mem_take member) with given | filled
  · exact values_bytes text stepCount value given
  · rw [List.eq_of_mem_replicate filled]
    decide

end Demo

namespace Catalog

/-- The stores of a voice without its rests. -/
def struck (voice : Voice) (text : String) : List Store :=
  (Demo.voiceStores voice (Demo.decode text.toList)).filter fun store => store.2 != 0

/-- Whether a pattern can spell the steps of a text. -/
def spelled (text : String) : Bool := (spelling? (Demo.decode text.toList)).isSome

/-- The passages of a voice. -/
def voicePassages (voice : Voice) (text : String) : List Passage :=
  match spelling? (Demo.decode text.toList) with
  | some steps => [.blank, .pattern (lineName voice) (String.ofList steps)]
  | none =>
    .blank :: .comment (voice.name ++ " notes") ::
      (struck voice text).map fun store => .poke store.1 store.2

/-- The assignments of the scene of a demo. -/
def assignments (demo : Demo) : List (String × String) :=
  ((played demo).filter fun entry => spelled entry.2).map fun entry =>
    (entry.1.name, lineName entry.1)

/-- The passages of a demo. -/
def passages (key name : String) (pack : Pack) (demo : Demo) : List Passage :=
  [Passage.comment (pack.name ++ " (" ++ Text.decimal pack.year ++ ") - " ++ pack.description),
    Passage.title (key ++ " / " ++ name)] ++
  demo.tempo?.toList.map Passage.tempo ++
  [Passage.blank, Passage.comment (key ++ " init")] ++
  (pack.init.map fun store => Passage.poke store.1 store.2) ++
  ((played demo).flatMap fun entry => voicePassages entry.1 entry.2) ++
  [Passage.blank, Passage.scene "main" (assignments demo), Passage.play "main" true]

/-- The lines of pokes are those of the stores. -/
theorem flatMap_lines_pokes (stores : List Store) :
    (stores.map fun store => Passage.poke store.1 store.2).flatMap Passage.lines =
      stores.map pokeLine := by
  rw [List.flatMap_map, List.map_eq_flatMap]
  rfl

/-- The lines of a voice are those of its passages. -/
theorem voiceLines_fst (voice : Voice) (text : String) :
    (voiceLines voice text).1 = (voicePassages voice text).flatMap Passage.lines := by
  simp only [voiceLines, voicePassages]
  cases spelling? (Demo.decode text.toList) with
  | some steps => rfl
  | none =>
    simp only [List.flatMap_cons, flatMap_lines_pokes]
    exact congrArg (fun line => "" :: line :: _) String.append_assoc

/-- A voice is played in the scene just if its steps can be spelled. -/
theorem voiceLines_snd (voice : Voice) (text : String) :
    (voiceLines voice text).2 = spelled text := by
  simp only [voiceLines, spelled]
  cases spelling? (Demo.decode text.toList) <;> rfl

/-- The lines of all voices are those of their passages. -/
theorem flatMap_lines_voices (demo : Demo) :
    ((played demo).flatMap fun entry => (voiceLines entry.1 entry.2).1) =
      ((played demo).flatMap fun entry => voicePassages entry.1 entry.2).flatMap
        Passage.lines := by
  rw [List.flatMap_assoc]
  simp only [voiceLines_fst]

/-- The lines of the scene are its assignments. -/
theorem map_lines_assignments (demo : Demo) :
    (((played demo).filter fun entry => (voiceLines entry.1 entry.2).2).map fun entry =>
      entry.1.name ++ ": " ++ lineName entry.1) =
        (assignments demo).map fun assignment => assignment.1 ++ ": " ++ assignment.2 := by
  rw [assignments, List.map_map]
  simp only [Function.comp_def, voiceLines_snd]

/-- The lines of a demo are those of its passages. -/
theorem sourceLines_eq_passages (key name : String) (pack : Pack) (demo : Demo) :
    sourceLines key name pack demo = (passages key name pack demo).flatMap Passage.lines := by
  have tempo : (demo.tempo?.toList.map fun bpm => "@tempo " ++ Text.decimal bpm) =
      (demo.tempo?.toList.map Passage.tempo).flatMap Passage.lines := by
    cases demo.tempo? <;> rfl
  have title : "@title \"" ++ key ++ " / " ++ name ++ "\"" =
      "@title \"" ++ (key ++ " / " ++ name) ++ "\"" := by
    simp only [String.append_assoc]
  have head : "# " ++ pack.name ++ " (" ++ Text.decimal pack.year ++ ") - " ++ pack.description =
      "# " ++ (pack.name ++ " (" ++ Text.decimal pack.year ++ ") - " ++ pack.description) := by
    simp only [String.append_assoc]
  have init : "# " ++ key ++ " init" = "# " ++ (key ++ " init") := String.append_assoc
  rw [sourceLines, List.flatMap_map, List.filter_map, List.map_map]
  calc
    _ = ["# " ++ (pack.name ++ " (" ++ Text.decimal pack.year ++ ") - " ++ pack.description),
          "@title \"" ++ (key ++ " / " ++ name) ++ "\""] ++
        (demo.tempo?.toList.map Passage.tempo).flatMap Passage.lines ++
        ["", "# " ++ (key ++ " init")] ++ pack.init.map pokeLine ++
        ((played demo).flatMap fun entry => (voiceLines entry.1 entry.2).1) ++
        ["", "@scene main"] ++
        (((played demo).filter fun entry => (voiceLines entry.1 entry.2).2).map fun entry =>
          entry.1.name ++ ": " ++ lineName entry.1) ++ ["@play main loop"] := by
      rw [← head, ← title, ← tempo, ← init]
      rfl
    _ = (passages key name pack demo).flatMap Passage.lines := by
      rw [flatMap_lines_voices, map_lines_assignments, ← flatMap_lines_pokes, passages]
      simp only [List.flatMap_append, List.flatMap_cons, List.flatMap_nil, Passage.lines,
        List.append_assoc, List.cons_append, List.nil_append, List.append_nil, if_true]
      rfl

/-- A demo that can be written down: no text in it breaks a line or a string, its tempo is in range,
and the settings of its pack are bytes in the audio region. -/
structure Writable (key name : String) (pack : Pack) (demo : Demo) : Prop where
  key_plain : '"' ∉ key.toList ∧ '\n' ∉ key.toList
  name_plain : '"' ∉ name.toList ∧ '\n' ∉ name.toList
  label_plain : '\n' ∉ pack.name.toList
  description_plain : '\n' ∉ pack.description.toList
  init_bytes : ∀ store ∈ pack.init, inRegion store.1 = true ∧ 0 ≤ store.2 ∧ store.2 ≤ 255
  bpm_range : ∀ bpm, demo.tempo? = some bpm → tempoMin ≤ bpm ∧ bpm ≤ tempoMax

/-- A spelling is decoded as the steps. -/
theorem decode_of_spelling? {steps : List Int} {text : List Char}
    (found : spelling? steps = some text) : Steps.decode text = steps := by
  rw [spelling?, Option.filter_eq_some_iff] at found
  exact beq_iff_eq.mp found.2

/-- A spelling has only marks, one for each step. -/
theorem marks_of_spelling? {steps : List Int} {text : List Char}
    (found : spelling? steps = some text) :
    (∀ c ∈ text, c ∈ Steps.marks) ∧ text.map Steps.plainValue = steps := by
  rw [spelling?, Option.filter_eq_some_iff] at found
  exact Steps.encodeTriggers?_eq_some_iff.mp found.1

/-- The names that the text of a demo uses are read as they are written. -/
theorem isName_voice (voice : Voice) :
    Token.IsName voice.name ∧ Token.IsName (lineName voice) := by
  cases voice <;> decide

/-- The addresses of a voice are its sixteen, and the values are those of its steps. -/
theorem mem_struck {voice : Voice} {text : String} {store : Store}
    (member : store ∈ struck voice text) :
    voice.base ≤ store.1 ∧ store.1 < voice.base + stepCount ∧ 0 ≤ store.2 ∧ store.2 ≤ 255 := by
  have stored := (List.mem_filter.mp member).1
  obtain ⟨⟨value, step⟩, known, rfl⟩ := List.mem_map.mp stored
  have bounds := List.snd_lt_of_mem_zipIdx known
  rw [Demo.length_decode, Nat.add_zero] at bounds
  have bytes := Demo.decode_bytes text.toList value (List.fst_mem_of_mem_zipIdx known)
  refine ⟨?_, ?_, bytes⟩ <;> dsimp only <;> omega

/-- Pokes of values that are not negative are read as they are written. -/
theorem readable_pokes {stores : List Store} (bytes : ∀ store ∈ stores, 0 ≤ store.1 ∧ 0 ≤ store.2) :
    ∀ passage ∈ stores.map fun store => Passage.poke store.1 store.2, passage.Readable := by
  intro passage member
  obtain ⟨store, known, rfl⟩ := List.mem_map.mp member
  exact bytes store known

/-- The passages of a voice are readable, whatever its text is. -/
theorem readable_voicePassages (voice : Voice) (text : String) :
    ∀ passage ∈ voicePassages voice text, passage.Readable := by
  unfold voicePassages
  cases found : spelling? (Demo.decode text.toList) with
  | some steps =>
    have missing {c : Char} (other : c ∉ Steps.marks) : c ∉ (String.ofList steps).toList := by
      rw [String.toList_ofList]
      exact fun member => other ((marks_of_spelling? found).1 c member)
    simp only [List.forall_mem_cons]
    exact ⟨trivial, ⟨(isName_voice voice).2, missing (by decide), missing (by decide)⟩,
      List.forall_mem_nil _⟩
  | none =>
    have name : '\n' ∉ voice.name.toList := by cases voice <;> decide
    have base : 0 ≤ voice.base := by cases voice <;> decide
    simp only [List.forall_mem_cons]
    refine ⟨trivial, Text.not_mem_append name (by decide), readable_pokes fun store member => ?_⟩
    have bounds := mem_struck member
    omega

/-- Every passage of a writable demo is readable. -/
theorem readable_passages {key name : String} {pack : Pack} {demo : Demo}
    (writable : Writable key name pack demo) :
    ∀ passage ∈ passages key name pack demo, passage.Readable := by
  have head : '\n' ∉ (pack.name ++ " (" ++ Text.decimal pack.year ++ ") - " ++
      pack.description).toList :=
    Text.not_mem_append (Text.not_mem_append (Text.not_mem_append (Text.not_mem_append
      writable.label_plain (by decide)) (Text.newline_not_mem_decimal pack.year)) (by decide))
      writable.description_plain
  have title {c : Char} (middle : c ∉ " / ".toList) (first : c ∉ key.toList)
      (second : c ∉ name.toList) : c ∉ (key ++ " / " ++ name).toList :=
    Text.not_mem_append (Text.not_mem_append first middle) second
  have tempo : ∀ passage ∈ demo.tempo?.toList.map Passage.tempo, passage.Readable := by
    intro passage member
    obtain ⟨bpm, given, rfl⟩ := List.mem_map.mp member
    have range := writable.bpm_range bpm (Option.mem_toList.mp given)
    have least : tempoMin = 20 := rfl
    exact show 0 ≤ bpm by omega
  have init : ∀ passage ∈ pack.init.map fun store => Passage.poke store.1 store.2,
      passage.Readable := by
    refine readable_pokes fun store member => ?_
    have bytes := writable.init_bytes store member
    have range := inRegion_iff.mp bytes.1
    omega
  have scene : ∀ assignment ∈ assignments demo,
      Token.IsName assignment.1 ∧ Token.IsName assignment.2 := by
    intro assignment member
    obtain ⟨entry, _, rfl⟩ := List.mem_map.mp member
    exact isName_voice entry.1
  have voices : ∀ passage ∈ (played demo).flatMap fun entry => voicePassages entry.1 entry.2,
      passage.Readable := by
    intro passage member
    obtain ⟨entry, _, inside⟩ := List.mem_flatMap.mp member
    exact readable_voicePassages entry.1 entry.2 passage inside
  simp only [passages, List.forall_mem_append, List.forall_mem_cons]
  exact ⟨⟨⟨⟨⟨⟨head, ⟨title (by decide) writable.key_plain.1 writable.name_plain.1,
    title (by decide) writable.key_plain.2 writable.name_plain.2⟩, List.forall_mem_nil _⟩, tempo⟩,
    trivial, Text.not_mem_append writable.key_plain.2 (by decide), List.forall_mem_nil _⟩, init⟩,
    voices⟩, trivial, ⟨by decide, scene⟩, show Token.IsName "main" by decide, List.forall_mem_nil _⟩

/-- The stores of the voices whose steps no pattern can spell. -/
def noteStores (demo : Demo) : List Store :=
  ((played demo).filter fun entry => !spelled entry.2).flatMap fun entry => struck entry.1 entry.2

/-- The stores of the voices that play a pattern. -/
def sceneStores (demo : Demo) : List Store :=
  ((played demo).filter fun entry => spelled entry.2).flatMap fun entry => struck entry.1 entry.2

/-- The scene of a demo. -/
def mainScene (demo : Demo) : Scene where
  name := "main"
  assignments := (assignments demo).map fun assignment => ⟨assignment.1, some assignment.2⟩
  line := Position.start.line

/-- The statements that make stores one by one. -/
def pokes (stores : List Store) : List Statement :=
  stores.map fun store => .poke Position.start.line store.1 store.2

/-- The pattern of a voice, if its steps can be spelled. -/
def patternOf? (voice : Voice) (text : String) : Option Pattern :=
  (spelling? (Demo.decode text.toList)).map fun steps =>
    ⟨lineName voice, String.ofList steps, Steps.decode steps, Position.start.line⟩

/-- The statements of a voice. -/
def voiceStatements (voice : Voice) (text : String) : List Statement :=
  match patternOf? voice text with
  | some pattern => [.pattern pattern]
  | none =>
    .comment Position.start.line
      (String.ofList (Text.trim (' ' :: (voice.name ++ " notes").toList))) ::
      pokes (struck voice text)

/-- The program of a demo, without its lines. -/
def program (key name : String) (pack : Pack) (demo : Demo) : Program :=
  ⟨(passages key name pack demo).filterMap Passage.statement?⟩

/-- Pokes mean the statements that make the stores. -/
theorem filterMap_statement?_pokes (stores : List Store) :
    (stores.map fun store => Passage.poke store.1 store.2).filterMap Passage.statement? =
      pokes stores := by
  rw [List.filterMap_map]
  exact congrFun List.filterMap_eq_map stores

/-- The passages of a voice mean its statements. -/
theorem filterMap_statement?_voice (voice : Voice) (text : String) :
    (voicePassages voice text).filterMap Passage.statement? = voiceStatements voice text := by
  unfold voicePassages voiceStatements patternOf?
  cases spelling? (Demo.decode text.toList) with
  | some steps =>
    have decoded : Steps.decode (String.ofList steps).toList = Steps.decode steps := by
      rw [String.toList_ofList]
    exact congrArg (fun values => [Statement.pattern
      ⟨lineName voice, String.ofList steps, values, Position.start.line⟩]) decoded
  | none =>
    rw [List.filterMap_cons, List.filterMap_cons, filterMap_statement?_pokes]
    rfl

/-- The statements of a demo. -/
theorem body_program {key name : String} {pack : Pack} {demo : Demo}
    (writable : Writable key name pack demo) :
    (program key name pack demo).body =
      [Statement.comment Position.start.line (String.ofList (Text.trim (' ' ::
          (pack.name ++ " (" ++ Text.decimal pack.year ++ ") - " ++ pack.description).toList))),
        Statement.title Position.start.line (key ++ " / " ++ name)] ++
      demo.tempo?.toList.map (Statement.tempo Position.start.line) ++
      [Statement.comment Position.start.line
        (String.ofList (Text.trim (' ' :: (key ++ " init").toList)))] ++
      pokes pack.init ++
      ((played demo).flatMap fun entry => voiceStatements entry.1 entry.2) ++
      [Statement.scene (mainScene demo),
        Statement.play Position.start.line (some "main") true] := by
  have tempo : (demo.tempo?.toList.map Passage.tempo).filterMap Passage.statement? =
      demo.tempo?.toList.map (.tempo Position.start.line) := by
    cases given : demo.tempo? with
    | none => rfl
    | some bpm =>
      have range := writable.bpm_range bpm given
      have inside : clamp tempoMin tempoMax bpm = bpm := by
        unfold clamp
        omega
      exact congrArg (fun value => [Statement.tempo Position.start.line value]) inside
  have scene : (Passage.scene "main" (assignments demo)).statement? =
      some (.scene (mainScene demo)) := by
    have members : ((assignments demo).map fun assignment =>
        Member.assign assignment.1 (.found assignment.2)).filterMap Member.assignment? =
          (assignments demo).map fun assignment => ⟨assignment.1, some assignment.2⟩ := by
      rw [List.filterMap_map]
      exact congrFun List.filterMap_eq_map (assignments demo)
    simp only [Passage.statement?, Passage.clause?, Option.bind_some, Clause.statement?, members]
    rfl
  simp only [program, passages, List.filterMap_append, tempo, filterMap_statement?_pokes,
    filterMap_statement?_voice, List.filterMap_flatMap, List.filterMap_cons, scene]
  rfl

end Catalog

end StepSequencer
