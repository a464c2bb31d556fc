import StepSequencer.Memory.Map
import StepSequencer.Text.Digits

/-!
# Step values

The text of a pattern gives the values of its sixteen steps: rests, triggers, accents, digits and
notes. A note takes several characters and one step, so a text may give fewer values than it has
characters; the steps without a value are rests.
-/
namespace StepSequencer.Steps

/-- The value of a silent step. -/
def rest : Int := 0

/-- The value of a triggered step. -/
def trigger : Int := 1

/-- The value of an accented step. -/
def accent : Int := 127

/-- Exactly sixteen steps: rests fill what is missing, and what is beyond is cut off. -/
def fit (steps : List Int) : List Int :=
  (steps ++ List.replicate (stepCount - steps.length) rest).take stepCount

/-- Steps are fitted to a whole bar. -/
@[simp] theorem length_fit (steps : List Int) : (fit steps).length = stepCount := by
  rw [fit, List.length_take, List.length_append, List.length_replicate]
  omega

/-- The letters that name notes, in either case. -/
def isNoteLetter (c : Char) : Bool :=
  decide (('A' ≤ c ∧ c ≤ 'G') ∨ ('a' ≤ c ∧ c ≤ 'g'))

/-- The characters that may stand behind a note letter. -/
def isNoteTail (c : Char) : Bool := c == '#' || c == 'b' || Text.isDecimal c

/-- The semitone of a note name in upper case, counted from C. Names that no scale of twelve
uses, such as E sharp, have none. -/
def semitone? : List Char → Option Int
  | ['C'] => some 0
  | ['C', '#'] => some 1
  | ['D', 'B'] => some 1
  | ['D'] => some 2
  | ['D', '#'] => some 3
  | ['E', 'B'] => some 3
  | ['E'] => some 4
  | ['F'] => some 5
  | ['F', '#'] => some 6
  | ['G', 'B'] => some 6
  | ['G'] => some 7
  | ['G', '#'] => some 8
  | ['A', 'B'] => some 8
  | ['A'] => some 9
  | ['A', '#'] => some 10
  | ['B', 'B'] => some 10
  | ['B'] => some 11
  | _ => none

/-- The number of a note: twelve for each octave, the octave of number zero being the one below
zero. A name without a semitone counts as C. -/
def noteNumber (name : List Char) (octave : Int) : Int :=
  (octave + 1) * 12 + (semitone? (name.map Char.toUpper)).getD 0

/-- The number of the note that a letter and the characters behind it spell: an octave digit, with
or without an accidental before it. -/
def note? (letter : Char) : List Char → Option Int
  | [octave] => (Text.decimalValue? octave).map fun d => noteNumber [letter] d
  | [accidental, octave] =>
    if accidental == '#' || accidental == 'b' then
      (Text.decimalValue? octave).map fun d => noteNumber [letter, accidental] d
    else none
  | _ => none

/-- The value of a character that is not read as a note. -/
def plainValue (c : Char) : Int :=
  if c == 'x' then trigger
  else if c == 'X' then accent
  else (((Text.decimalValue? c).getD 0 : Nat) : Int)

/-- The values that a text gives to the next `positions` character positions. Positions behind the
end of the text are rests. -/
def values : Nat → List Char → List Int
  | 0, _ => []
  | positions + 1, [] => rest :: values positions []
  | positions + 1, c :: cs =>
    let tail := cs.takeWhile isNoteTail
    match if isNoteLetter c then note? c tail else none with
    | some note => note :: values (positions - tail.length) (cs.drop tail.length)
    | none => plainValue c :: values positions cs
termination_by positions => positions

/-- The sixteen step values of a pattern text. -/
def decode (text : List Char) : List Int := fit (values stepCount text)

/-- A text of any length is decoded to a whole bar. -/
@[simp] theorem length_decode (text : List Char) : (decode text).length = stepCount :=
  length_fit _

/-- The character of a rest, a trigger or an accent. -/
def triggerChar? (value : Int) : Option Char :=
  if value = rest then some '.'
  else if value = trigger then some 'x'
  else if value = accent then some 'X'
  else none

/-- The text of steps that are all rests, triggers or accents. -/
def encodeTriggers? (steps : List Int) : Option (List Char) := steps.mapM triggerChar?

end StepSequencer.Steps
