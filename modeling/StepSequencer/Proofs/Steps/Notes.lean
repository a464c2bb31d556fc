import StepSequencer.Proofs.Host.Gates
import StepSequencer.Proofs.Steps.Cut
import StepSequencer.Proofs.Text.Digits

/-!
# The notes of a pattern text

A pattern text is divided into words from left to right: a note with everything that can belong to
it, or a single character. Each word is one step. The number of a note is looked up by its name, in
a table of the twelve keys of an octave with the usual names of the black ones. So a sharp or a flat
moves a note by a semitone only if it comes to a key that has this name, and the notes of octave
nine go on above the highest number that a step should have.
-/
namespace StepSequencer.Steps

/-- The letters that name notes. -/
inductive Letter where
  | c | d | e | f | g | a | b
deriving DecidableEq, Repr

namespace Letter

/-- The letters from C on. -/
def all : List Letter := [c, d, e, f, g, a, b]

/-- The character of a letter in upper or lower case. -/
def char : Letter → Bool → Char
  | c, small => if small then 'c' else 'C'
  | d, small => if small then 'd' else 'D'
  | e, small => if small then 'e' else 'E'
  | f, small => if small then 'f' else 'F'
  | g, small => if small then 'g' else 'G'
  | a, small => if small then 'a' else 'A'
  | b, small => if small then 'b' else 'B'

/-- The semitones from C up to a letter. -/
def semitones : Letter → Int
  | c => 0
  | d => 2
  | e => 4
  | f => 5
  | g => 7
  | a => 9
  | b => 11

end Letter

/-- What may stand behind the letter of a note. -/
inductive Accidental where
  | natural | sharp | flat
deriving DecidableEq, Repr

namespace Accidental

/-- How an accidental is written. -/
def text : Accidental → List Char
  | natural => []
  | sharp => ['#']
  | flat => ['b']

/-- The semitones by which a note is moved. -/
def shift : Accidental → Int
  | natural => 0
  | sharp => 1
  | flat => -1

end Accidental

/-- The sharps and flats without a key of their own: E and B have no black key above them, and C and
F have none below. -/
def keyless : List (Letter × Accidental) :=
  [(.e, .sharp), (.b, .sharp), (.c, .flat), (.f, .flat)]

/-- A note as it is written. -/
structure Note where
  letter : Letter
  /-- Whether the letter is in lower case. -/
  small : Bool
  accidental : Accidental
  octave : Fin 10
deriving DecidableEq, Repr

namespace Note

/-- The characters of the name, without the octave. -/
def name (note : Note) : List Char := note.letter.char note.small :: note.accidental.text

/-- The characters behind the letter. -/
def tail (note : Note) : List Char := note.accidental.text ++ [Text.lowerDigit note.octave]

/-- The characters of a note. -/
def text (note : Note) : List Char := note.letter.char note.small :: note.tail

/-- The number that is looked up for a note. -/
def number (note : Note) : Int := noteNumber note.name (note.octave : Nat)

/-- The number that the letter, the accidental and the octave add up to. -/
def pitch (note : Note) : Int :=
  ((note.octave : Nat) + 1) * 12 + note.letter.semitones + note.accidental.shift

/-- A sharp or a flat without a key of its own. -/
def Keyless (note : Note) : Prop := (note.letter, note.accidental) ∈ keyless

/-- Whether a note has no key can be computed. -/
instance (note : Note) : Decidable note.Keyless :=
  inferInstanceAs (Decidable (_ ∈ keyless))

/-- The notes of octave nine from the key above its G on. -/
def High (note : Note) : Prop :=
  note.octave = 9 ∧ (note.letter, note.accidental) ∈
    [(Letter.g, Accidental.sharp), (.a, .flat), (.a, .natural), (.a, .sharp), (.b, .flat),
      (.b, .natural)]

/-- A note stands at the front of a text and takes all accidentals and digits there. -/
def Opens (note : Note) (text : List Char) : Prop :=
  ∃ rest, text = note.text ++ rest ∧ Text.Stops isNoteTail rest

end Note

/-- The words of a pattern text: notes, and characters that stand for themselves. -/
inductive Word where
  | note (note : Note)
  | single (c : Char)
deriving DecidableEq, Repr

/-- The value of the step of a word. -/
def Word.value : Word → Int
  | .note written => written.number
  | .single c => plainValue c

/-- The words at the next `positions` characters of a text. A word counts if it starts there, and a
note that is opened is never left for its letter alone. -/
inductive Divides : Nat → List Char → List Word → Prop
  | full (text : List Char) : Divides 0 text []
  | past (positions : Nat) : Divides positions [] []
  | note {positions : Nat} (note : Note) {rest : List Char} {words : List Word}
      (stops : Text.Stops isNoteTail rest)
      (behind : Divides (positions + 1 - note.text.length) rest words) :
      Divides (positions + 1) (note.text ++ rest) (.note note :: words)
  | single {positions : Nat} {c : Char} {cs : List Char} {words : List Word}
      (unopened : ∀ note : Note, ¬note.Opens (c :: cs)) (behind : Divides positions cs words) :
      Divides (positions + 1) (c :: cs) (.single c :: words)

/-- A note is one of the words of a text. -/
def Note.StandsIn (note : Note) (text : List Char) : Prop :=
  ∃ words, Divides stepCount text words ∧ .note note ∈ words

/-! ### Notes that are recognised -/

/-- A decimal digit is the one that is written for its value. -/
theorem eq_lowerDigit_of_decimalValue? {c : Char} {d : Nat}
    (digit : Text.decimalValue? c = some d) : c = Text.lowerDigit d := by
  have small : d < 10 := Nat.lt_succ_of_le (decimalValue?_le digit)
  unfold Text.decimalValue? at digit
  split at digit
  · next range =>
    have bounds : 48 ≤ c.toNat ∧ c.toNat ≤ 57 := range
    have value := Option.some.inj digit
    have code : 0x30 + d = c.toNat := by omega
    rw [Text.lowerDigit, if_pos small, code, Char.ofNat_toNat]
  · contradiction

/-- What is read as an octave is one of the ten digits. -/
theorem exists_octave {c : Char} {name : List Char} {value : Int}
    (digit : Option.map (fun d => noteNumber name d) (Text.decimalValue? c) = some value) :
    ∃ octave : Fin 10, c = Text.lowerDigit octave := by
  cases known : Text.decimalValue? c with
  | none =>
    rw [known] at digit
    contradiction
  | some octave =>
    exact ⟨⟨octave, Nat.lt_succ_of_le (decimalValue?_le known)⟩,
      eq_lowerDigit_of_decimalValue? known⟩

/-- A letter of a note is read as one, in either case. -/
theorem isNoteLetter_char (letter : Letter) (small : Bool) :
    isNoteLetter (letter.char small) = true := by
  cases letter <;> cases small <;> decide

/-- The letters of notes are seven in each case. -/
theorem exists_letter {c : Char} (named : isNoteLetter c = true) :
    ∃ (letter : Letter) (small : Bool), letter.char small = c := by
  have listed : (List.range 104).all (fun code => !isNoteLetter (Char.ofNat code) ||
      Letter.all.any fun letter => letter.char false == Char.ofNat code ||
        letter.char true == Char.ofNat code) = true := by decide +kernel
  have range : ('A' ≤ c ∧ c ≤ 'G') ∨ ('a' ≤ c ∧ c ≤ 'g') := decide_eq_true_iff.mp named
  have codes : (65 ≤ c.toNat ∧ c.toNat ≤ 71) ∨ (97 ≤ c.toNat ∧ c.toNat ≤ 103) := range
  have here := List.all_eq_true.mp listed c.toNat (List.mem_range.mpr (by omega))
  rw [Char.ofNat_toNat, named, Bool.not_true, Bool.false_or] at here
  obtain ⟨letter, _, either⟩ := List.any_eq_true.mp here
  rcases Bool.or_eq_true_iff.mp either with large | small
  · exact ⟨letter, false, beq_iff_eq.mp large⟩
  · exact ⟨letter, true, beq_iff_eq.mp small⟩

/-- The characters of a note are read as the note. -/
theorem noteOf?_text (note : Note) : noteOf? note.text = some note.number := by
  have digit : Text.decimalValue? (Text.lowerDigit note.octave) = some (note.octave : Nat) :=
    Text.decimalValue?_lowerDigit note.octave.isLt
  rw [Note.text, noteOf?, if_pos (isNoteLetter_char note.letter note.small), Note.tail,
    Note.number, Note.name]
  cases note.accidental <;> simp [note?, Accidental.text, digit]

/-- A word is read as a note exactly when it consists of the characters of one. -/
theorem noteOf?_eq_some_iff {word : List Char} {value : Int} :
    noteOf? word = some value ↔ ∃ note : Note, note.text = word ∧ note.number = value := by
  constructor
  · intro spelled
    have found (note : Note) (same : note.text = word) :
        ∃ note : Note, note.text = word ∧ note.number = value :=
      ⟨note, same, Option.some.inj (by rw [← spelled, ← same, noteOf?_text])⟩
    cases word with
    | nil => contradiction
    | cons c tail =>
      rw [noteOf?] at spelled
      split at spelled
      · next named =>
        obtain ⟨letter, small, rfl⟩ := exists_letter named
        unfold note? at spelled
        split at spelled
        · obtain ⟨octave, rfl⟩ := exists_octave spelled
          exact found ⟨letter, small, .natural, octave⟩ rfl
        · split at spelled
          · next accidental _ mark =>
            obtain ⟨octave, rfl⟩ := exists_octave spelled
            have either : accidental = '#' ∨ accidental = 'b' := by simpa using mark
            rcases either with rfl | rfl
            · exact found ⟨letter, small, .sharp, octave⟩ rfl
            · exact found ⟨letter, small, .flat, octave⟩ rfl
          · contradiction
        · contradiction
      · contradiction
  · rintro ⟨note, rfl, rfl⟩
    exact noteOf?_text note

/-- Behind the letter of a note there are accidentals and digits only. -/
theorem isNoteTail_tail (note : Note) : ∀ d ∈ note.tail, isNoteTail d = true := by
  have spelled : noteOf? (note.letter.char note.small :: note.tail) ≠ none := by
    rw [← Note.text, noteOf?_text]
    exact Option.some_ne_none note.number
  exact isNoteTail_of_noteOf? spelled

/-- The note at the front of a text is its first character with the run behind it. -/
theorem opens_iff {note : Note} {c : Char} {cs : List Char} :
    note.Opens (c :: cs) ↔ note.text = c :: cs.takeWhile isNoteTail := by
  constructor
  · rintro ⟨rest, split, stops⟩
    rw [Note.text, List.cons_append] at split
    obtain ⟨rfl, rfl⟩ := List.cons.inj split
    rw [Text.takeWhile_run (isNoteTail_tail note) stops, Note.text]
  · intro whole
    refine ⟨cs.dropWhile isNoteTail, ?_, Text.stops_dropWhile isNoteTail cs⟩
    rw [whole, List.cons_append, List.takeWhile_append_dropWhile]

/-- No note stands at the front of a text just if none is spelled there. -/
theorem unopened_iff {c : Char} {cs : List Char} :
    (∀ note : Note, ¬note.Opens (c :: cs)) ↔ noteOf? (c :: cs.takeWhile isNoteTail) = none := by
  constructor
  · intro unopened
    cases spelled : noteOf? (c :: cs.takeWhile isNoteTail) with
    | none => rfl
    | some value =>
      obtain ⟨note, whole, _⟩ := noteOf?_eq_some_iff.mp spelled
      exact absurd (opens_iff.mpr whole) (unopened note)
  · intro none note opens
    rw [← opens_iff.mp opens, noteOf?_text] at none
    contradiction

/-! ### The words of a text -/

/-- Behind the end of a text there are rests. -/
theorem values_nil (positions : Nat) : values positions [] = List.replicate positions rest := by
  induction positions with
  | zero => rw [values, List.replicate_zero]
  | succ positions ih => rw [values, ih, List.replicate_succ]

/-- A note at the front of a text is the first value, and the others are those of the rest. -/
theorem values_text_append (positions : Nat) (note : Note) {rest : List Char}
    (stops : Text.Stops isNoteTail rest) :
    values (positions + 1) (note.text ++ rest) =
      note.number :: values (positions + 1 - note.text.length) rest := by
  have run : (note.tail ++ rest).takeWhile isNoteTail = note.tail :=
    Text.takeWhile_run (isNoteTail_tail note) stops
  have spelled : noteOf? (note.letter.char note.small :: note.tail) = some note.number :=
    noteOf?_text note
  rw [Note.text, List.cons_append, values_note (by rw [run]; exact spelled), run, List.drop_left,
    List.length_cons, Nat.add_sub_add_right]

/-- Every text is divided into words. -/
theorem exists_divides (positions : Nat) (text : List Char) :
    ∃ words, Divides positions text words := by
  -- Each case of the scan is one way to divide a text.
  induction positions, text using values.induct with
  | case1 text => exact ⟨[], .full text⟩
  | case2 positions ih => exact ⟨[], .past (positions + 1)⟩
  | case3 positions c cs tail value found ih =>
    obtain ⟨words, behind⟩ := ih
    have spelled : noteOf? (c :: cs.takeWhile isNoteTail) = some value := found
    obtain ⟨note, whole, _⟩ := noteOf?_eq_some_iff.mp spelled
    obtain ⟨rest, split, stops⟩ := opens_iff.mpr whole
    have run : note.tail = tail := (List.cons.inj whole).2
    have left : cs.drop tail.length = rest := by
      rw [(List.cons.inj split).2, ← run]
      exact List.drop_left
    have length : positions + 1 - note.text.length = positions - tail.length := by
      rw [Note.text, List.length_cons, run, Nat.add_sub_add_right]
    rw [left, ← length] at behind
    rw [split]
    exact ⟨.note note :: words, .note note stops behind⟩
  | case4 positions c cs tail found ih =>
    obtain ⟨words, behind⟩ := ih
    exact ⟨.single c :: words, .single (unopened_iff.mpr found) behind⟩

/-- The values of a text are those of its words, and rests behind its end. -/
theorem values_of_divides {positions : Nat} {text : List Char} {words : List Word}
    (divided : Divides positions text words) :
    ∃ silent, values positions text = words.map Word.value ++ List.replicate silent rest := by
  induction divided with
  | full text => exact ⟨0, by rw [values]; rfl⟩
  | past positions => exact ⟨positions, values_nil positions⟩
  | @note positions note _ _ stops _ ih =>
    obtain ⟨silent, later⟩ := ih
    exact ⟨silent, by rw [values_text_append positions note stops, later]; rfl⟩
  | single unopened _ ih =>
    obtain ⟨silent, later⟩ := ih
    exact ⟨silent, by rw [values_plain (unopened_iff.mp unopened), later]; rfl⟩

/-- The step of a word has its value. -/
theorem decode_of_divides {text : List Char} {words : List Word}
    (divided : Divides stepCount text words) {place : Nat} {word : Word}
    (here : words[place]? = some word) : (decode text)[place]? = some word.value := by
  obtain ⟨silent, values⟩ := values_of_divides divided
  -- No word is cut off, because there are at most sixteen values.
  have bound := length_values_le stepCount text
  have inside := (List.getElem?_eq_some_iff.mp here).1
  rw [values, List.length_append, List.length_map] at bound
  rw [decode, fit, List.getElem?_take_of_lt (by omega), values, List.append_assoc,
    List.getElem?_append_left (by rw [List.length_map]; exact inside), List.getElem?_map, here,
    Option.map_some]

/-- A step has the value of a word or is a rest. -/
theorem mem_decode_of_divides {text : List Char} {words : List Word}
    (divided : Divides stepCount text words) {value : Int} (member : value ∈ decode text) :
    (∃ word ∈ words, word.value = value) ∨ value = rest := by
  obtain ⟨silent, values⟩ := values_of_divides divided
  rcases mem_fit member with given | silence
  · rw [values, List.mem_append, List.mem_map] at given
    exact given.imp_right List.eq_of_mem_replicate
  · exact .inr silence

/-! ### The numbers of notes -/

/-- The table has the names of all keys. A name without a key is taken for C. -/
theorem semitone?_name (letter : Letter) (small : Bool) (accidental : Accidental) :
    (semitone? ((letter.char small :: accidental.text).map Char.toUpper)).getD 0 =
      if (letter, accidental) ∈ keyless then 0 else letter.semitones + accidental.shift := by
  cases letter <;> cases small <;> cases accidental <;> rfl

/-- The number of a note is its pitch exactly when it has a key of its own. -/
theorem number_eq_pitch_iff (note : Note) : note.number = note.pitch ↔ ¬note.Keyless := by
  have table := semitone?_name note.letter note.small note.accidental
  rw [Note.number, noteNumber, Note.name, table, Note.pitch, Note.Keyless]
  split
  · next without =>
    -- The note would have to be the C of its octave.
    have moved : note.letter.semitones + note.accidental.shift ≠ 0 := by
      generalize note.letter = letter, note.accidental = accidental at without ⊢
      revert without
      cases letter <;> cases accidental <;> decide
    refine iff_of_false ?_ (not_not_intro without)
    omega
  · next key => exact iff_of_true (by omega) key

/-- The notes above the highest number of a step are six of octave nine. -/
theorem number_le_iff (note : Note) : note.number ≤ 127 ↔ ¬note.High := by
  have table := semitone?_name note.letter note.small note.accidental
  have octave := note.octave.isLt
  have nine : note.octave = 9 ↔ (note.octave : Nat) = 9 := by omega
  rw [Note.number, noteNumber, Note.name, table, Note.High, nine]
  generalize note.letter = letter, note.accidental = accidental
  cases letter <;> cases accidental <;> simp [keyless, Letter.semitones, Accidental.shift] <;> omega

/-- In every text, the step of a note has the number that the letter, the accidental and the octave
add up to exactly when the note has a key of its own. -/
theorem decode_note_iff (text : List Char) :
    (∃ words, Divides stepCount text words) ∧
      ∀ words, Divides stepCount text words →
        ∀ (place : Nat) (note : Note), words[place]? = some (.note note) →
          ((decode text)[place]? = some note.pitch ↔ ¬note.Keyless) := by
  refine ⟨exists_divides stepCount text, ?_⟩
  intro words divided place note here
  rw [decode_of_divides divided here, Option.some_inj]
  exact number_eq_pitch_iff note

/-- Notes of both cases that follow one another, and one of them without a key. -/
theorem decode_note_iff_neighbours :
    let text := ['c', '#', '4', 'B', 'b', '3', 'x', 'e', '#', '2']
    let words : List Word := [.note ⟨.c, true, .sharp, 4⟩, .note ⟨.b, false, .flat, 3⟩, .single 'x',
      .note ⟨.e, true, .sharp, 2⟩]
    Divides stepCount text words ∧ (decode text)[1]? = some 58 ∧ (decode text)[3]? ≠ some 41 := by
  intro text words
  have divided : Divides stepCount text words :=
    .note ⟨.c, true, .sharp, 4⟩ (Text.stops_cons _ (by decide))
      (.note ⟨.b, false, .flat, 3⟩ (Text.stops_cons _ (by decide))
        (.single (unopened_iff.mpr (by decide))
          (.note ⟨.e, true, .sharp, 2⟩ (Text.stops_nil isNoteTail) (.past 6))))
  have each := (decode_note_iff text).2 words divided
  refine ⟨divided, (each 1 _ rfl).mpr (by decide), ?_⟩
  intro same
  exact (each 3 _ rfl).mp same (by decide)

/-- Each of the four names without a key is read as C. -/
theorem decode_ne_pitches :
    let notes : List Note := [⟨.e, false, .sharp, 4⟩, ⟨.b, false, .sharp, 4⟩, ⟨.c, false, .flat, 4⟩,
      ⟨.f, false, .flat, 4⟩]
    notes.flatMap Note.text = "E#4B#4Cb4Fb4".toList ∧
      notes.map Note.pitch = [65, 72, 59, 64] ∧
      (decode (notes.flatMap Note.text)).take 4 = [60, 60, 60, 60] := by
  decide +kernel

/-- The steps of a text are in the range of steps exactly when none of its notes is too high. -/
theorem decode_le_iff (text : List Char) :
    (∀ value ∈ decode text, 0 ≤ value ∧ value ≤ 127) ↔
      ∀ note : Note, note.StandsIn text → ¬note.High := by
  constructor
  · rintro range note ⟨words, divided, member⟩
    obtain ⟨place, here⟩ := List.mem_iff_getElem?.mp member
    have step := List.mem_of_getElem? (decode_of_divides divided here)
    exact (number_le_iff note).mp (range note.number step).2
  · intro low value member
    refine ⟨(decode_range text value member).1, ?_⟩
    obtain ⟨words, divided⟩ := exists_divides stepCount text
    rcases mem_decode_of_divides divided member with ⟨word, inside, rfl⟩ | rfl
    · cases word with
      | note note => exact (number_le_iff note).mpr (low note ⟨words, divided, inside⟩)
      | single c => exact (plainValue_range c).2
    · decide

/-- The steps of every text, and those of the patterns of every source, are in the range of steps
exactly when no note of the text is above the G of octave nine. -/
theorem pattern_steps_le_iff (text : List Char) (source : String) :
    ((∀ value ∈ decode text, 0 ≤ value ∧ value ≤ 127) ↔
      ∀ note : Note, note.StandsIn text → ¬note.High) ∧
    ∀ pattern : Pattern, .pattern pattern ∈ (Parse.ofTokens (Token.scan source).1).program.body →
      ((∀ value ∈ pattern.steps, 0 ≤ value ∧ value ≤ 127) ↔
        ∀ note : Note, note.StandsIn pattern.text.toList → ¬note.High) := by
  refine ⟨decode_le_iff text, ?_⟩
  intro pattern member
  have defined : pattern ∈
      (Parse.ofTokens (Token.scan source).1).program.body.filterMap Statement.pattern? :=
    List.mem_filterMap.mpr ⟨.pattern pattern, member, rfl⟩
  rw [Parse.steps_eq_decode _ pattern defined]
  exact decode_le_iff pattern.text.toList

/-- The G of octave nine is the highest note of a pattern with steps in the range. -/
theorem pattern_steps_le_iff_top :
    let source := "@pattern top \"G9..gb9.x\""
    let pattern : Pattern := ⟨"top", "G9..gb9.x", decode "G9..gb9.x".toList, 1⟩
    .pattern pattern ∈ (Parse.ofTokens (Token.scan source).1).program.body ∧
      ∀ note : Note, note.StandsIn "G9..gb9.x".toList → ¬note.High := by
  intro source pattern
  have member : .pattern pattern ∈ (Parse.ofTokens (Token.scan source).1).program.body := by
    decide +kernel
  exact ⟨member, ((pattern_steps_le_iff [] source).2 pattern member).mp (by decide +kernel)⟩

/-- The highest note of all has a number beyond the range. -/
theorem pattern_steps_beyond :
    ∃ pattern, .pattern pattern ∈
        (Parse.ofTokens (Token.scan "@pattern p \"B9\"").1).program.body ∧
      ¬∀ value ∈ pattern.steps, 0 ≤ value ∧ value ≤ 127 :=
  ⟨⟨"p", "B9", 131 :: List.replicate 15 0, 1⟩, by decide +kernel, by decide⟩

end StepSequencer.Steps
