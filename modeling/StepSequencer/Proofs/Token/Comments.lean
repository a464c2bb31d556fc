import StepSequencer.Proofs.Clause.Recovery
import StepSequencer.Proofs.Token.Lines

/-!
# Texts without their comments

A comment reaches to the end of its line, so nothing that stands on a line moves when the comment is
taken out, and no word grows together with another. The tokens of a text without its comments are
those of the text, at the same places, without the comments; line feeds and the end of input are the
only ones that move.
-/
namespace StepSequencer.Token

/-- The characters of a text that belong to no comment. -/
def uncommented : List Char → List Char
  | [] => []
  | c :: cs =>
    let front := readFront c cs
    (if front.lexeme.any Lexeme.isComment then [] else front.taken) ++ uncommented front.rest
termination_by text => text.length
decreasing_by exact readFront_rest_length c cs

/-- A program text without its comments. -/
def uncomment (source : String) : String := String.ofList (uncommented source.toList)

variable {c : Char} {cs : List Char}

/-- A comment at the front of a text is removed. -/
theorem uncommented_comment (comment : (readFront c cs).lexeme.any Lexeme.isComment = true) :
    uncommented (c :: cs) = uncommented (readFront c cs).rest := by
  rw [uncommented, if_pos comment, List.nil_append]

/-- What is no comment at the front of a text stays. -/
theorem uncommented_word (word : ¬(readFront c cs).lexeme.any Lexeme.isComment = true) :
    uncommented (c :: cs) = (readFront c cs).taken ++ uncommented (readFront c cs).rest := by
  rw [uncommented, if_neg word]

/-- A line feed stays. -/
theorem uncommented_feed (rest : List Char) :
    uncommented ('\n' :: rest) = '\n' :: uncommented rest :=
  uncommented_word Bool.false_ne_true

/-- At the end of a line, there is no comment to take out. -/
theorem stops_uncommented {text : List Char} (ends : Text.Stops (fun d => d != '\n') text) :
    Text.Stops (fun d => d != '\n') (uncommented text) := by
  cases text with
  | nil => rwa [uncommented]
  | cons d rest =>
    have feed : d = '\n' := by simpa using ends d rfl
    rw [feed, uncommented_feed]
    exact Text.stops_cons _ (by decide)

/-- A text starts as before, or a comment has given way to the end of its line. -/
theorem uncommented_head? (text : List Char) :
    (uncommented text).head? = text.head? ∨
      Text.Stops isNameChar text ∧ Text.Stops (fun d => d != '\n') (uncommented text) := by
  cases text with
  | nil =>
    left
    rw [uncommented]
  | cons c cs =>
    by_cases comment : (readFront c cs).lexeme.any Lexeme.isComment = true
    · right
      have remark := readFront_comment comment
      rw [uncommented_comment comment]
      refine ⟨Text.stops_cons cs ?_, stops_uncommented remark.ends⟩
      rcases remark.opens with rfl | rfl <;> decide
    · left
      obtain ⟨body, taken, _⟩ := readFront_exchange c cs
      rw [uncommented_word comment, taken]
      rfl

/-- A word ends as before when the comments behind it are taken out. -/
theorem endsBefore_uncommented (front : Front) : front.EndsBefore (uncommented front.rest) := by
  rcases uncommented_head? front.rest with same | ⟨apart, ends⟩
  · exact .inl same
  · refine .inr ⟨apart, ?_⟩
    unfold Front.goesOn
    split
    · exact ends
    · exact stops_isNameChar_of_line ends

/-- A word is read as before when the comments behind it are taken out. -/
theorem readFront_uncommented (word : ¬(readFront c cs).lexeme.any Lexeme.isComment = true) :
    ∃ text, uncommented (c :: cs) = c :: text ∧
      readFront c text = { readFront c cs with rest := uncommented (readFront c cs).rest } := by
  obtain ⟨body, taken, _, exchange⟩ := readFront_exchange c cs
  refine ⟨body ++ uncommented (readFront c cs).rest, ?_, exchange _ (endsBefore_uncommented _)⟩
  rw [uncommented_word word, taken]
  rfl

/-- The token at the front of a text is not the end of input. -/
theorem unended_tokens (c : Char) (cs : List Char) (place : Position) :
    ∀ token ∈ (readFront c cs).tokens place, token.lexeme.isEnd = false := by
  intro token member
  obtain ⟨lexeme, found, rfl⟩ := List.mem_map.mp member
  have inner := readFront_ne_endOfInput c cs
  rw [Option.mem_toList.mp found] at inner
  cases lexeme with
  | endOfInput => exact absurd rfl inner
  | _ => rfl

/-- The words of a text at a place: its tokens but for line feeds, comments and the end of input. -/
def words (place : Position) (text : List Char) : List (Token Int) :=
  (Clause.content (scanFrom place text).1).filter fun token => !token.lexeme.isComment

/-- The word that stands at the front of a text, if one does. -/
def Front.words (front : Front) (place : Position) : List (Token Int) :=
  (Clause.content (front.tokens place)).filter fun token => !token.lexeme.isComment

/-- The words of a text are the word at its front and those behind it. -/
theorem words_cons (place : Position) (c : Char) (cs : List Char) :
    words place (c :: cs) = (readFront c cs).words place ++
      words (place.after (readFront c cs).taken) (readFront c cs).rest := by
  rw [words, scanFrom_cons, Clause.content_append (unended_tokens c cs place), List.filter_append]
  rfl

/-- A comment is no word. -/
theorem words_of_comment {front : Front} (place : Position)
    (comment : front.lexeme.any Lexeme.isComment = true) : front.words place = [] := by
  obtain ⟨lexeme, taken, rest, closed⟩ := front
  cases lexeme with
  | none => contradiction
  | some lexeme =>
    cases lexeme with
    | comment text => rfl
    | _ => contradiction

/-- What is no comment is a word, unless it is blank or a line feed. -/
theorem words_of_word {front : Front} (place : Position)
    (word : ¬front.lexeme.any Lexeme.isComment = true) :
    front.words place = Clause.content (front.tokens place) := by
  rw [Front.words, List.filter_eq_self]
  intro token member
  have known := (List.mem_filter.mp ((List.takeWhile_sublist _).subset member)).1
  obtain ⟨lexeme, found, rfl⟩ := List.mem_map.mp known
  rw [Option.mem_toList.mp found] at word
  simpa using word

/-- Places of a text with and without comments before it. They differ only behind a comment, up to
the end of its line. -/
def Meets (text : List Char) (place other : Position) : Prop :=
  other = place ∨ other.line = place.line ∧ Text.Stops (fun d => d != '\n') text

/-- Behind a comment that is removed places still differ only up to the end of its line. -/
theorem meets_behind_comment {place other : Position} (meets : Meets (c :: cs) place other)
    (remark : (readFront c cs).IsRemark c) :
    Meets (readFront c cs).rest (place.after (readFront c cs).taken) other := by
  have line : other.line = place.line := by
    rcases meets with rfl | ⟨line, _⟩
    · rfl
    · exact line
  refine .inr ⟨?_, remark.ends⟩
  rw [Position.line_after, List.count_eq_zero.mpr remark.inline, line]
  omega

/-- At a word, the places are the same, unless the word is a line feed, which evens them out. -/
theorem meets_word {place other : Position} (meets : Meets (c :: cs) place other) :
    other = place ∨ c = '\n' ∧ other.step '\n' = place.step '\n' := by
  rcases meets with same | ⟨line, ends⟩
  · exact .inl same
  · have feed : c = '\n' := by simpa using ends c rfl
    refine .inr ⟨feed, ?_⟩
    rw [Position.step, if_pos rfl, Position.step, if_pos rfl, line]

/-- Taking out the comments leaves the words at their places and the same strings open. -/
theorem scanFrom_uncommented {text : List Char} {place other : Position}
    (meets : Meets text place other) :
    Clause.content (scanFrom other (uncommented text)).1 = words place text ∧
      (scanFrom other (uncommented text)).2 = (scanFrom place text).2 := by
  induction text using uncommented.induct generalizing place other with
  | case1 =>
    rw [words, uncommented, scanFrom, scanFrom]
    exact ⟨rfl, rfl⟩
  | case2 c cs front =>
    rename_i ih
    by_cases comment : front.lexeme.any Lexeme.isComment = true
    · have remark := readFront_comment comment
      obtain ⟨left, strings⟩ := ih (meets_behind_comment meets remark)
      rw [uncommented_comment comment, words_cons, words_of_comment place comment, scanFrom_cons,
        Front.problems, if_pos remark.closed]
      exact ⟨left, strings⟩
    · obtain ⟨text, whole, read⟩ := readFront_uncommented comment
      have next : scanFrom other (uncommented (c :: cs)) =
          (front.tokens other ++ (scanFrom (other.after front.taken) (uncommented front.rest)).1,
            front.problems other ++
              (scanFrom (other.after front.taken) (uncommented front.rest)).2) := by
        rw [whole, scanFrom_cons, read]
        rfl
      rw [next, words_cons, scanFrom_cons, Clause.content_append (unended_tokens c cs other)]
      rcases meets_word meets with rfl | ⟨rfl, even⟩
      · obtain ⟨left, strings⟩ := ih (.inl rfl)
        rw [words_of_word other comment]
        exact ⟨congrArg (Clause.content (front.tokens other) ++ ·) left,
          congrArg (front.problems other ++ ·) strings⟩
      · obtain ⟨left, strings⟩ := ih (.inl even)
        exact ⟨left, strings⟩

/-- The tokens of a program text without its comments that can be part of a clause are those of the
text that are no comments, and the same strings are left open. -/
theorem scan_uncomment (source : String) :
    Clause.content (scan (uncomment source)).1 =
        (Clause.content (scan source).1).filter (fun token => !token.lexeme.isComment) ∧
      (scan (uncomment source)).2 = (scan source).2 := by
  rw [scan, uncomment, String.toList_ofList]
  exact scanFrom_uncommented (.inl rfl)

end StepSequencer.Token
