import StepSequencer.Diagnostic
import StepSequencer.Token

/-!
# From text to tokens

The scanner reads one lexeme, or skips one character, at the front of a text and goes on with the
rest. `readFront_splits` says that nothing is lost on the way.
-/
namespace StepSequencer.Token

/-- The characters that start a name. -/
def isNameStart (c : Char) : Bool := c.isAlpha || c == '_'

/-- The characters that continue a name. -/
def isNameChar (c : Char) : Bool := c.isAlphanum || c == '_' || c == '-'

/-- The mark behind a zero that makes a number hexadecimal. -/
def isHexMark (c : Char) : Bool := c == 'x' || c == 'X'

/-- A name in lower case. -/
def lowerName (name : List Char) : String := String.ofList (name.map Char.toLower)

/-- What stands at the front of a text. -/
structure Front where
  /-- The lexeme, unless the front is a blank or a character without a meaning. -/
  lexeme : Option (Lexeme Int)
  /-- The characters read. -/
  taken : List Char
  /-- The characters behind them. -/
  rest : List Char
  /-- Whether a string found its closing quote. -/
  closed : Bool

/-- A lexeme of the first character alone. -/
def single (lexeme : Option (Lexeme Int)) (c : Char) (cs : List Char) : Front :=
  ⟨lexeme, [c], cs, true⟩

/-- A lexeme of the opening characters `head` and all directly following characters of a class. -/
def run (lexeme : List Char → Lexeme Int) (head : List Char) (inside : Char → Bool)
    (cs : List Char) : Front :=
  ⟨some (lexeme (cs.takeWhile inside)), head ++ cs.takeWhile inside, cs.dropWhile inside, true⟩

/-- A string opened by `quote`: it ends at the same quote, or without one before a line feed or at
the end of the text. -/
def quotedRun (quote : Char) (cs : List Char) : Front :=
  let inside := fun c => c != quote && c != '\n'
  let body := cs.takeWhile inside
  let lexeme := some (.string (String.ofList body))
  match cs.dropWhile inside with
  | [] => ⟨lexeme, quote :: body, [], false⟩
  | c :: rest =>
    if c == quote then ⟨lexeme, quote :: body ++ [c], rest, true⟩
    else ⟨lexeme, quote :: body, c :: rest, false⟩

/-- Read the front of the text `c :: cs`. -/
def readFront (c : Char) (cs : List Char) : Front :=
  if c == '\n' then single (some .newline) c cs
  else if c == '#' || c == ';' then
    run (fun body => .comment (String.ofList (Text.trim body))) [c] (fun d => d != '\n') cs
  else if c == '@' then run (fun body => .directive (lowerName body)) [c] isNameChar cs
  else if c == '"' || c == '\'' then quotedRun c cs
  else if c == '$' then run (fun body => .number (Text.ofHex body)) [c] Text.isHex cs
  else if c == '0' && cs.head?.any isHexMark then
    run (fun body => .number (Text.ofHex body)) (c :: cs.take 1) Text.isHex (cs.drop 1)
  else if c == '-' && cs.head?.any Text.isDecimal then
    run (fun body => .number (-(Text.ofDecimal body : Int))) [c] Text.isDecimal cs
  else if Text.isDecimal c then
    run (fun body => .number (Text.ofDecimal (c :: body))) [c] Text.isDecimal cs
  else if c == ':' then single (some .colon) c cs
  else if isNameStart c then
    run (fun body => .identifier (lowerName (c :: body))) [c] isNameChar cs
  else single none c cs

/-- A front that splits a text into what was read, at least one character, and what is behind. -/
structure Front.Splits (front : Front) (text : List Char) : Prop where
  whole : front.taken ++ front.rest = text
  some : front.taken ≠ []

/-- A choice between fronts splits a text if both fronts do. -/
theorem Front.Splits.ite {condition : Prop} [Decidable condition] {yes no : Front}
    {text : List Char} (split : yes.Splits text) (other : no.Splits text) :
    (if condition then yes else no).Splits text := by
  split <;> assumption

/-- A lexeme of one character splits it off a text. -/
theorem single_splits (lexeme : Option (Lexeme Int)) (c : Char) (cs : List Char) :
    (single lexeme c cs).Splits (c :: cs) :=
  ⟨rfl, List.cons_ne_nil c []⟩

/-- A run splits its characters off a text. -/
theorem run_splits (lexeme : List Char → Lexeme Int) (c : Char) (head : List Char)
    (inside : Char → Bool) (cs : List Char) :
    (run lexeme (c :: head) inside cs).Splits (c :: head ++ cs) :=
  ⟨by simp [run, List.takeWhile_append_dropWhile], by simp [run]⟩

/-- A string splits its characters off a text, with its quotes. -/
theorem quotedRun_splits (quote : Char) (cs : List Char) :
    (quotedRun quote cs).Splits (quote :: cs) := by
  have whole := List.takeWhile_append_dropWhile (p := fun c => c != quote && c != '\n') (l := cs)
  simp only [quotedRun]
  split
  · next none =>
    rw [none, List.append_nil] at whole
    exact ⟨by simp [whole], by simp⟩
  · next c rest more =>
    rw [more] at whole
    split <;> exact ⟨by simp [whole], by simp⟩

/-- The characters read and the characters behind them are the text. -/
theorem readFront_splits (c : Char) (cs : List Char) : (readFront c cs).Splits (c :: cs) := by
  have marked (lexeme : List Char → Lexeme Int) (inside : Char → Bool) :
      (run lexeme (c :: cs.take 1) inside (cs.drop 1)).Splits (c :: cs) := by
    have split := run_splits lexeme c (cs.take 1) inside (cs.drop 1)
    rwa [List.cons_append, List.take_append_drop] at split
  unfold readFront
  refine .ite (single_splits _ c cs) ?_
  refine .ite (run_splits _ c [] _ cs) ?_
  refine .ite (run_splits _ c [] _ cs) ?_
  refine .ite (quotedRun_splits c cs) ?_
  refine .ite (run_splits _ c [] _ cs) ?_
  refine .ite (marked _ _) ?_
  refine .ite (run_splits _ c [] _ cs) ?_
  refine .ite (run_splits _ c [] _ cs) ?_
  refine .ite (single_splits _ c cs) ?_
  exact .ite (run_splits _ c [] _ cs) (single_splits _ c cs)

/-- Reading shortens the text. -/
theorem readFront_rest_length (c : Char) (cs : List Char) :
    (readFront c cs).rest.length < (c :: cs).length := by
  have split := readFront_splits c cs
  have whole := congrArg List.length split.whole
  have taken := List.length_pos_iff.mpr split.some
  rw [List.length_append] at whole
  omega

/-- The tokens of a text that starts at `place`, with the end of input last, and the strings that
were left open, each at the position where reading stopped. -/
def scanFrom (place : Position) : List Char → List (Token Int) × List Diagnostic
  | [] => ([⟨.endOfInput, place⟩], [])
  | c :: cs =>
    let front := readFront c cs
    let next := place.after front.taken
    let (tokens, problems) := scanFrom next front.rest
    (front.lexeme.toList.map (fun lexeme => ⟨lexeme, place⟩) ++ tokens,
      (if front.closed then [] else [.atPosition .unterminatedString next]) ++ problems)
termination_by text => text.length
decreasing_by exact readFront_rest_length c cs

/-- The tokens and the open strings of a program text. -/
def scan (source : String) : List (Token Int) × List Diagnostic :=
  scanFrom .start source.toList

end StepSequencer.Token
