/-!
# Positions in a text

Lines and columns both count from one, and a column counts characters. They are integers because
a document from elsewhere may carry any number in their place.
-/
namespace StepSequencer

/-- A line and a column. -/
structure Position where
  line : Int
  col : Int
deriving DecidableEq, Repr

namespace Position

/-- The position of the first character of a text. -/
def start : Position := ⟨1, 1⟩

/-- The position behind one character. -/
def step (place : Position) (c : Char) : Position :=
  if c = '\n' then ⟨place.line + 1, 1⟩ else ⟨place.line, place.col + 1⟩

/-- The position behind a text that starts at `place`. -/
def after (place : Position) (text : List Char) : Position := text.foldl step place

/-- An empty text leads nowhere else. -/
@[simp] theorem after_nil (place : Position) : place.after [] = place := rfl

/-- A text leads on character by character. -/
@[simp] theorem after_cons (place : Position) (c : Char) (text : List Char) :
    place.after (c :: text) = (place.step c).after text := rfl

/-- Walking over two texts in a row is walking over the one and then over the other. -/
theorem after_append (place : Position) (first second : List Char) :
    place.after (first ++ second) = (place.after first).after second := by
  simp [after, List.foldl_append]

end Position

end StepSequencer
