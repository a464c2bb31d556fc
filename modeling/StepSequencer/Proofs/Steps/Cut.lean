import StepSequencer.Proofs.Steps
import StepSequencer.Proofs.Text.Lines

/-!
# Texts longer than sixteen characters

A pattern text has a value for each of its first sixteen characters, but a note letter among them is
read with all accidentals and digits behind it, also with those behind the sixteenth character. So
what is cut off can matter: it completes a note that starts before the cut, or it makes a run of
digits out of a note that ended there. In all other texts the characters from the seventeenth on
have no effect, and rests at the end of a text never have one.
-/
namespace StepSequencer.Steps

/-- The note that a word spells as a whole. -/
def noteOf? : List Char → Option Int
  | [] => none
  | letter :: tail => if isNoteLetter letter then note? letter tail else none

/-- The characters behind the first sixteen that a note before them goes on with. -/
def overhang (text : List Char) : List Char := (text.drop stepCount).takeWhile isNoteTail

/-- A text at whose end there is a note that goes without more characters, or only with them. -/
def Disturbed (front more : List Char) : Prop :=
  ∃ word, word <:+ front ∧ word ≠ [] ∧ (noteOf? word ≠ none ∨ noteOf? (word ++ more) ≠ none)

/-- A text in which a note ends at the sixteenth character without ending its run there, or starts
before it and ends behind it. -/
def Straddled (text : List Char) : Prop :=
  overhang text ≠ [] ∧ Disturbed (text.take stepCount) (overhang text)

/-! ### One position -/

variable {positions : Nat} {c : Char} {cs : List Char}

/-- A note is one value, and its characters take as many positions. -/
theorem values_note {note : Int}
    (spelled : noteOf? (c :: cs.takeWhile isNoteTail) = some note) :
    values (positions + 1) (c :: cs) =
      note :: values (positions - (cs.takeWhile isNoteTail).length)
        (cs.drop (cs.takeWhile isNoteTail).length) := by
  have read : (if isNoteLetter c then note? c (cs.takeWhile isNoteTail) else none) = some note :=
    spelled
  rw [values, read]

/-- A character that starts no note is a value of its own. -/
theorem values_plain (plain : noteOf? (c :: cs.takeWhile isNoteTail) = none) :
    values (positions + 1) (c :: cs) = plainValue c :: values positions cs := by
  have read : (if isNoteLetter c then note? c (cs.takeWhile isNoteTail) else none) = none := plain
  rw [values, read]

/-- There are no more values than positions. -/
theorem length_values_le (positions : Nat) (text : List Char) :
    (values positions text).length ≤ positions := by
  fun_induction values positions text with
  | case1 => exact Nat.le_refl 0
  | case2 positions ih => exact Nat.succ_le_succ ih
  | case3 positions c cs tail note found ih =>
    rw [List.length_cons]
    omega
  | case4 positions c cs tail found ih => exact Nat.succ_le_succ ih

/-- The value of a letter that could have been a note. -/
theorem plainValue_of_noteOf? {word : List Char} (spelled : noteOf? (c :: word) ≠ none) :
    plainValue c = rest := by
  have letter : isNoteLetter c = true := by
    by_cases letter : isNoteLetter c = true
    · exact letter
    · exact absurd (if_neg letter) spelled
  have range : ('A' ≤ c ∧ c ≤ 'G') ∨ ('a' ≤ c ∧ c ≤ 'g') := decide_eq_true_iff.mp letter
  have codes : (65 ≤ c.toNat ∧ c.toNat ≤ 71) ∨ (97 ≤ c.toNat ∧ c.toNat ≤ 103) := range
  have small : c ≠ 'x' := by
    rintro rfl
    exact absurd codes (by decide)
  have large : c ≠ 'X' := by
    rintro rfl
    exact absurd codes (by decide)
  have digit : Text.decimalValue? c = none := by
    apply if_neg
    intro decimal
    have bounds : 48 ≤ c.toNat ∧ c.toNat ≤ 57 := decimal
    omega
  simp [plainValue, small, large, digit, rest]

/-- A note that is spelled is not below the lowest. -/
theorem noteOf?_range {word : List Char} {note : Int} (spelled : noteOf? word = some note) :
    12 ≤ note := by
  cases word with
  | nil => contradiction
  | cons letter tail =>
    rw [noteOf?] at spelled
    split at spelled
    · exact (note?_range spelled).1
    · contradiction

/-- Behind the letter of a note there are characters of a run only. -/
theorem isNoteTail_of_noteOf? {word : List Char} (spelled : noteOf? (c :: word) ≠ none) :
    ∀ d ∈ word, isNoteTail d = true := by
  obtain ⟨note, found⟩ := Option.ne_none_iff_exists'.mp spelled
  have octave {d : Char} {name : List Char}
      (digit : Option.map (fun d => noteNumber name d) (Text.decimalValue? d) = some note) :
      isNoteTail d = true := by
    cases value : Text.decimalValue? d with
    | none =>
      rw [value] at digit
      contradiction
    | some _ => simp [isNoteTail, Text.isDecimal, value]
  rw [noteOf?] at found
  split at found
  · unfold note? at found
    split at found
    · exact List.forall_mem_singleton.mpr (octave found)
    · split at found
      · next accidental _ mark =>
        have sharp : isNoteTail accidental = true := by
          rw [isNoteTail, mark, Bool.true_or]
        exact List.forall_mem_cons.mpr ⟨sharp, List.forall_mem_singleton.mpr (octave found)⟩
      · contradiction
    · contradiction
  · contradiction

/-- A note with more characters of a run behind it is none. -/
theorem noteOf?_append_eq_none {word more : List Char} (spelled : noteOf? word ≠ none)
    (longer : more ≠ []) : noteOf? (word ++ more) = none := by
  obtain ⟨note, found⟩ := Option.ne_none_iff_exists'.mp spelled
  cases word with
  | nil => contradiction
  | cons letter tail =>
    rw [noteOf?] at found
    split at found
    · next known =>
      rw [List.cons_append, noteOf?, if_pos known]
      unfold note? at found
      split at found
      · next octave =>
        match more, longer with
        | [next], _ =>
          -- The octave digit would have to be an accidental.
          have digit : ¬(octave == '#' || octave == 'b') = true := by
            intro mark
            have letters : octave = '#' ∨ octave = 'b' := by simpa using mark
            rcases letters with rfl | rfl <;> contradiction
          show (if _ then _ else _) = none
          rw [if_neg digit]
        | _ :: _ :: _, _ => rfl
      · match more, longer with
        | _ :: _, _ => rfl
      · contradiction
    · contradiction

/-! ### Texts with something behind them -/

/-- A run that does not go to the end of a text ends there, whatever follows the text. -/
theorem takeWhile_append_of_ne {front : List Char} (behind : List Char)
    (ends : front.takeWhile isNoteTail ≠ front) :
    (front ++ behind).takeWhile isNoteTail = front.takeWhile isNoteTail := by
  rw [List.takeWhile_append, if_neg]
  intro same
  exact ends ((List.takeWhile_prefix isNoteTail).eq_of_length same)

/-- A run up to the end of a text goes on behind it. -/
theorem takeWhile_append_of_eq {front : List Char} (behind : List Char)
    (whole : front.takeWhile isNoteTail = front) :
    (front ++ behind).takeWhile isNoteTail = front ++ behind.takeWhile isNoteTail := by
  rw [List.takeWhile_append, if_pos (by rw [whole])]

/-- No run of a text goes on behind it where no run can. -/
theorem takeWhile_append_of_nil (front : List Char) {behind : List Char}
    (stops : behind.takeWhile isNoteTail = []) :
    (front ++ behind).takeWhile isNoteTail = front.takeWhile isNoteTail := by
  by_cases whole : front.takeWhile isNoteTail = front
  · rw [takeWhile_append_of_eq behind whole, stops, List.append_nil, whole]
  · exact takeWhile_append_of_ne behind whole

/-- What follows a text does not matter for what is behind the tail of a note in it. -/
theorem drop_takeWhile_append (front behind : List Char) :
    (front ++ behind).drop (front.takeWhile isNoteTail).length =
      front.drop (front.takeWhile isNoteTail).length ++ behind :=
  List.drop_append_of_le_length (List.takeWhile_prefix isNoteTail).length_le

/-- What stands behind a text, without going on with a run of it, can be left out if it has the
values of an empty text at the positions that are left for it. -/
theorem values_append_of_stops {behind : List Char} (stops : behind.takeWhile isNoteTail = [])
    (positions : Nat) (front : List Char)
    (silent : ∀ left ≤ positions - front.length, values left behind = values left []) :
    values positions (front ++ behind) = values positions front := by
  induction positions, front using values.induct with
  | case1 front => rw [values, values]
  | case2 positions ih => exact silent (positions + 1) (Nat.le_refl _)
  | case3 positions c cs tail note found ih =>
    have run : (cs ++ behind).takeWhile isNoteTail = tail := takeWhile_append_of_nil cs stops
    have spelled : noteOf? (c :: cs.takeWhile isNoteTail) = some note := found
    have length : tail.length ≤ cs.length := (List.takeWhile_prefix isNoteTail).length_le
    have rest := ih fun left bound => by
      rw [List.length_drop] at bound
      apply silent left
      rw [List.length_cons]
      omega
    rw [List.cons_append, values_note (by rw [run]; exact spelled), values_note spelled, run,
      drop_takeWhile_append, rest]
  | case4 positions c cs tail found ih =>
    have run : (cs ++ behind).takeWhile isNoteTail = tail := takeWhile_append_of_nil cs stops
    have plain : noteOf? (c :: cs.takeWhile isNoteTail) = none := found
    have rest := ih fun left bound => silent left (by rw [List.length_cons]; omega)
    rw [List.cons_append, values_plain (by rw [run]; exact plain), values_plain plain, rest]

/-- Rests behind a text are what is read there anyway. -/
theorem values_rests (positions count : Nat) :
    values positions (List.replicate count '.') = values positions [] := by
  induction positions generalizing count with
  | zero => rw [values, values]
  | succ positions ih =>
    cases count with
    | zero => rfl
    | succ count =>
      have plain : noteOf? ('.' :: (List.replicate count '.').takeWhile isNoteTail) = none := rfl
      rw [List.replicate_succ, values_plain plain, ih, values]
      rfl

/-! ### Texts that are cut off -/

/-- What disturbs a text with one character more in front. -/
theorem disturbed_cons_iff {front more : List Char} :
    Disturbed (c :: front) more ↔
      (noteOf? (c :: front) ≠ none ∨ noteOf? (c :: (front ++ more)) ≠ none) ∨
        Disturbed front more := by
  constructor
  · rintro ⟨word, ends, some, note⟩
    rcases List.suffix_cons_iff.mp ends with rfl | inner
    · exact .inl note
    · exact .inr ⟨word, inner, some, note⟩
  · rintro (note | ⟨word, inner, some, note⟩)
    · exact ⟨c :: front, List.suffix_rfl, List.cons_ne_nil c front, note⟩
    · exact ⟨word, inner.trans (List.suffix_cons c front), some, note⟩

/-- A character whose run ends inside a text starts nothing that could disturb it. -/
theorem disturbed_cons_of_ne {front more : List Char}
    (ends : front.takeWhile isNoteTail ≠ front) :
    Disturbed (c :: front) more ↔ Disturbed front more := by
  have all : ¬∀ d ∈ front, isNoteTail d = true := by
    intro all
    have run := Text.takeWhile_run all (Text.stops_nil isNoteTail)
    rw [List.append_nil] at run
    exact ends run
  rw [disturbed_cons_iff]
  refine or_iff_right ?_
  rintro (note | note)
  · exact all (isNoteTail_of_noteOf? note)
  · exact all fun d member => isNoteTail_of_noteOf? note d (List.mem_append_left more member)

/-- Neither does a whole run that ends inside a text. -/
theorem disturbed_drop_iff {front more : List Char} (ends : front.takeWhile isNoteTail ≠ front) :
    Disturbed (front.drop (front.takeWhile isNoteTail).length) more ↔ Disturbed front more := by
  induction front with
  | nil => exact absurd rfl ends
  | cons d front ih =>
    by_cases inside : isNoteTail d = true
    · rw [List.takeWhile_cons_of_pos inside] at ends ⊢
      have later : front.takeWhile isNoteTail ≠ front := fun same => ends (congrArg _ same)
      rw [List.length_cons, List.drop_succ_cons, ih later, disturbed_cons_of_ne later]
    · rw [List.takeWhile_cons_of_neg inside]
      rfl

/-- Values with rests behind them, one by one. -/
theorem getD_cons_iff {first second : Int} {firsts seconds : List Int} :
    (∀ place, (first :: firsts).getD place rest = (second :: seconds).getD place rest) ↔
      first = second ∧ ∀ place, firsts.getD place rest = seconds.getD place rest := by
  constructor
  · intro same
    exact ⟨same 0, fun place => same (place + 1)⟩
  · rintro ⟨head, tails⟩ place
    cases place with
    | zero => exact head
    | succ place => exact tails place

/-- Characters that go on with a run at the end of a text change its values exactly when they
disturb a note there. The first position at which the two readings differ has the note in one of
them and its bare letter, which is a rest, in the other. -/
theorem values_append_iff {behind : List Char} (goesOn : behind.takeWhile isNoteTail ≠ [])
    (positions : Nat) (front : List Char) (full : front.length = positions) :
    (∀ place, (values positions (front ++ behind)).getD place rest =
        (values positions front).getD place rest) ↔
      ¬Disturbed front (behind.takeWhile isNoteTail) := by
  induction positions, front using values.induct with
  | case1 front =>
    obtain rfl := List.length_eq_zero_iff.mp full
    rw [values, values]
    refine iff_of_true (fun _ => rfl) ?_
    rintro ⟨word, ends, some, _⟩
    exact some (List.suffix_nil.mp ends)
  | case2 positions ih => contradiction
  | case3 positions c cs tail note found ih =>
    have spelled : noteOf? (c :: cs.takeWhile isNoteTail) = some note := found
    by_cases whole : cs.takeWhile isNoteTail = cs
    · rw [whole] at spelled
      have known : noteOf? (c :: cs) ≠ none := by
        rw [spelled]
        exact Option.some_ne_none note
      have lost : noteOf? (c :: (cs ++ behind.takeWhile isNoteTail)) = none :=
        noteOf?_append_eq_none known goesOn
      have positive := noteOf?_range spelled
      rw [List.cons_append, values_plain (by rw [takeWhile_append_of_eq behind whole]; exact lost),
        values_note found, plainValue_of_noteOf? known, getD_cons_iff]
      refine iff_of_false (fun same => ?_) (fun quiet => quiet ?_)
      · have zero : (0 : Int) = note := same.1
        omega
      · exact disturbed_cons_iff.mpr (.inl (.inl known))
    · have run : (cs ++ behind).takeWhile isNoteTail = tail := takeWhile_append_of_ne behind whole
      have length : tail.length ≤ cs.length := (List.takeWhile_prefix isNoteTail).length_le
      have rest := ih (by rw [List.length_drop]; rw [List.length_cons] at full; omega)
      rw [List.cons_append, values_note (by rw [run]; exact spelled), values_note spelled, run,
        drop_takeWhile_append, getD_cons_iff, rest, disturbed_cons_of_ne whole,
        disturbed_drop_iff whole]
      exact and_iff_right rfl
  | case4 positions c cs tail found ih =>
    have plain : noteOf? (c :: cs.takeWhile isNoteTail) = none := found
    have rest := ih (Nat.succ.inj full)
    by_cases whole : cs.takeWhile isNoteTail = cs
    · rw [whole] at plain
      cases made : noteOf? (c :: (cs ++ behind.takeWhile isNoteTail)) with
      | some note =>
        have known : noteOf? (c :: (cs ++ behind.takeWhile isNoteTail)) ≠ none := by
          rw [made]
          exact Option.some_ne_none note
        have positive := noteOf?_range made
        rw [List.cons_append,
          values_note (by rw [takeWhile_append_of_eq behind whole]; exact made),
          values_plain found, plainValue_of_noteOf? known, getD_cons_iff]
        refine iff_of_false (fun same => ?_) (fun quiet => quiet ?_)
        · have zero : note = (0 : Int) := same.1
          omega
        · exact disturbed_cons_iff.mpr (.inl (.inr known))
      | none =>
        rw [List.cons_append,
          values_plain (by rw [takeWhile_append_of_eq behind whole]; exact made),
          values_plain found, getD_cons_iff, rest, disturbed_cons_iff, plain, made]
        simp
    · have run : (cs ++ behind).takeWhile isNoteTail = tail := takeWhile_append_of_ne behind whole
      rw [List.cons_append, values_plain (by rw [run]; exact plain), values_plain plain,
        getD_cons_iff, rest, disturbed_cons_of_ne whole]
      exact and_iff_right rfl

/-- Lists of at most sixteen values are the same steps when they are the same with rests behind
them. -/
theorem fit_eq_iff {first second : List Int} (firstShort : first.length ≤ stepCount)
    (secondShort : second.length ≤ stepCount) :
    fit first = fit second ↔ ∀ place, first.getD place rest = second.getD place rest := by
  have value {steps : List Int} (short : steps.length ≤ stepCount) (place : Nat) :
      (fit steps).getD place rest = steps.getD place rest := by
    have whole : fit steps = steps ++ List.replicate (stepCount - steps.length) rest := by
      apply List.take_of_length_le
      rw [List.length_append, List.length_replicate]
      omega
    rw [whole, List.getD_eq_getElem?_getD, List.getD_eq_getElem?_getD]
    by_cases inside : place < steps.length
    · rw [List.getElem?_append_left inside]
    · rw [List.getElem?_append_right (by omega), List.getElem?_replicate,
        List.getElem?_eq_none (l := steps) (by omega)]
      split <;> rfl
  constructor
  · intro same place
    rw [← value firstShort, ← value secondShort, same]
  · intro same
    apply List.ext_getElem (by rw [length_fit, length_fit])
    intro place left right
    have here := same place
    rw [← value firstShort, ← value secondShort, List.getD_eq_getElem?_getD,
      List.getD_eq_getElem?_getD, List.getElem?_eq_getElem left,
      List.getElem?_eq_getElem right] at here
    exact here

/-- The characters behind the first sixteen have no effect exactly when no note goes over the cut or
is run on behind it. Rests at the end of a text have no effect at all. -/
theorem decode_take_eq_iff (text : List Char) :
    (decode (text.take stepCount) = decode text ↔ ¬Straddled text) ∧
      ∀ count, decode (text ++ List.replicate count '.') = decode text := by
  constructor
  · have cut : text.take stepCount ++ text.drop stepCount = text := List.take_append_drop ..
    by_cases goesOn : overhang text = []
    · have silent : ∀ left ≤ stepCount - (text.take stepCount).length,
          values left (text.drop stepCount) = values left [] := by
        intro left bound
        by_cases long : stepCount ≤ text.length
        · rw [List.length_take, Nat.min_eq_left long] at bound
          obtain rfl : left = 0 := by omega
          rw [values, values]
        · rw [List.drop_eq_nil_of_le (by omega)]
      have same := values_append_of_stops goesOn stepCount (text.take stepCount) silent
      rw [cut] at same
      refine iff_of_true ?_ (fun straddled => straddled.1 goesOn)
      rw [decode, decode, same]
    · have full : (text.take stepCount).length = stepCount := by
        rw [List.length_take]
        by_cases long : stepCount ≤ text.length
        · omega
        · have none : overhang text = [] := by
            rw [overhang, List.drop_eq_nil_of_le (by omega), List.takeWhile_nil]
          exact absurd none goesOn
      have differ := values_append_iff goesOn stepCount (text.take stepCount) full
      rw [cut] at differ
      rw [eq_comm, decode, decode,
        fit_eq_iff (length_values_le _ _) (length_values_le _ _), differ, Straddled]
      exact not_congr (and_iff_right goesOn).symm
  · intro count
    have stops : (List.replicate count '.').takeWhile isNoteTail = [] := by
      cases count <;> rfl
    have same := values_append_of_stops stops stepCount text fun left _ => values_rests left count
    rw [decode, decode, same]

/-- A note whose letter is the sixteenth character is lost when the text is cut there. -/
theorem decode_take_ne_note :
    decode "...............C4".toList ≠ decode ("...............C4".toList.take stepCount) := by
  decide +kernel

end StepSequencer.Steps
