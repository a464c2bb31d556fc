import StepSequencer.Proofs.Token.Comments

/-!
# Texts with other line breaks

Some line feeds of a text are made blanks. A blank ends the same words as a line feed does: those
that are neither comments nor strings left open. So a text that has none of these has the same words
in the same order, only at other places, however its lines are broken.
-/
namespace StepSequencer

namespace Text

/-- A text with blanks for the chosen ones of its line feeds, where a choice is one of places. -/
def reflowed (chosen : Nat → Bool) (text : List Char) : List Char :=
  text.mapIdx fun place c => if c = '\n' ∧ chosen place = true then ' ' else c

/-- A program text with blanks for the chosen ones of its line feeds. -/
def reflow (chosen : Nat → Bool) (source : String) : String :=
  String.ofList (reflowed chosen source.toList)

/-- Two texts in a row are reflowed one by one, with the places of the second counted on. -/
theorem reflowed_append (chosen : Nat → Bool) (first second : List Char) :
    reflowed chosen (first ++ second) =
      reflowed chosen first ++ reflowed (fun place => chosen (place + first.length)) second :=
  List.mapIdx_append

/-- A text is reflowed character by character. -/
theorem reflowed_cons (chosen : Nat → Bool) (c : Char) (text : List Char) :
    reflowed chosen (c :: text) =
      (if c = '\n' ∧ chosen 0 = true then ' ' else c) ::
        reflowed (fun place => chosen (place + 1)) text :=
  List.mapIdx_cons

/-- Within a line nothing changes. -/
theorem reflowed_inline {line : List Char} (inline : '\n' ∉ line) (chosen : Nat → Bool) :
    reflowed chosen line = line := by
  induction line generalizing chosen with
  | nil => rfl
  | cons c line ih =>
    rw [List.mem_cons, not_or] at inline
    rw [reflowed_cons, ih inline.2, if_neg fun feed => inline.1 feed.1.symm]

/-- A text starts as before, or with a blank for a line feed. -/
theorem reflowed_head? (chosen : Nat → Bool) (text : List Char) :
    (reflowed chosen text).head? = text.head? ∨
      text.head? = some '\n' ∧ (reflowed chosen text).head? = some ' ' := by
  cases text with
  | nil => exact .inl rfl
  | cons c text =>
    rw [reflowed_cons]
    split
    · next feed => exact .inr ⟨congrArg some feed.1, rfl⟩
    · exact .inl rfl

end Text

namespace Token

variable {c : Char} {cs : List Char}

/-- A word stands on one line. -/
theorem readFront_inline (other : c ≠ '\n') (cs : List Char) : '\n' ∉ (readFront c cs).taken := by
  have apart {inside : Char → Bool} (out : inside '\n' = false) (text : List Char) :
      '\n' ∉ text.takeWhile inside := by
    intro member
    rw [List.all_eq_true.mp List.all_takeWhile _ member] at out
    contradiction
  have unnamed {inside : Char → Bool} (named : ∀ d, inside d = true → isNameChar d = true) :
      inside '\n' = false := by
    cases feed : inside '\n' with
    | false => rfl
    | true => exact absurd (named _ feed) (by decide)
  obtain ⟨reader, reads, same⟩ := readFront_readsAs c cs
  rw [same cs ⟨rfl, rfl⟩]
  cases reads with
  | mark lexeme plain inner => simpa [single] using other.symm
  | word lexeme named plain inner =>
    simpa [run, other.symm] using apart (unnamed named) cs
  | marked lexeme hex plain inner =>
    cases cs with
    | nil => contradiction
    | cons mark text =>
      have first : '\n' ≠ mark := by
        rintro rfl
        exact absurd (show isHexMark '\n' = true from hex) (by decide)
      simpa [run, other.symm, first] using apart (unnamed fun _ => isNameChar_of_isHex) text
  | comment text opens => simpa [run, other.symm] using apart (by decide) cs
  | quoted inline =>
    have body := @apart (fun d => d != c && d != '\n') (by simp) cs
    unfold quotedRun
    dsimp only
    split
    · simpa [other.symm] using body
    · split
      · next closes => simpa [other.symm, beq_iff_eq.mp closes] using body
      · simpa [other.symm] using body

/-- A word that is neither a comment nor a string left open ends as before when line feeds behind it
are made blanks. -/
theorem endsBefore_reflowed {front : Front} (word : front.endsWithLine = false)
    (chosen : Nat → Bool) : front.EndsBefore (Text.reflowed chosen front.rest) := by
  rcases Text.reflowed_head? chosen front.rest with same | ⟨feed, blank⟩
  · exact .inl same
  · refine .inr ⟨fun d head => ?_, fun d head => ?_⟩
    · rw [← Option.some.inj (feed.symm.trans head)]
      decide
    · rw [← Option.some.inj (blank.symm.trans head), Front.goesOn, word]
      decide

/-- Such a word is read as before. -/
theorem readFront_reflowed (other : c ≠ '\n') (word : (readFront c cs).endsWithLine = false)
    (chosen : Nat → Bool) :
    ∃ text later, Text.reflowed chosen (c :: cs) = c :: text ∧
      readFront c text =
        { readFront c cs with rest := Text.reflowed later (readFront c cs).rest } := by
  obtain ⟨body, taken, split, exchange⟩ := readFront_exchange c cs
  have inline := readFront_inline other cs
  refine ⟨_, fun place => chosen (place + (c :: body).length), ?_,
    exchange _ (endsBefore_reflowed word _)⟩
  have whole : c :: cs = (c :: body) ++ (readFront c cs).rest := congrArg (List.cons c) split
  rw [whole, Text.reflowed_append, ← taken, Text.reflowed_inline inline, taken]
  rfl

/-- A text in which every word ends before a blank: it has no comments and no strings left open. -/
structure Reflowable (text : List Char) (place : Position) : Prop where
  closed : (scanFrom place text).2 = []
  uncommented : ∀ token ∈ (scanFrom place text).1, token.lexeme.isComment = false

/-- What is behind the front of a reflowable text is reflowable. -/
theorem Reflowable.rest {place : Position} (reflowable : Reflowable (c :: cs) place) :
    Reflowable (readFront c cs).rest (place.after (readFront c cs).taken) := by
  obtain ⟨closed, plain⟩ := reflowable
  rw [scanFrom_cons] at closed plain
  exact ⟨(List.append_eq_nil_iff.mp closed).2, fun token member =>
    plain token (List.mem_append_right _ member)⟩

/-- A word ends before a blank just if it is closed and no comment. -/
theorem Front.endsWithLine_eq_false_iff {front : Front} : front.endsWithLine = false ↔
    front.closed = true ∧ front.lexeme.any Lexeme.isComment = false := by
  rw [endsWithLine, Bool.or_eq_false_iff, Bool.not_eq_false']

/-- The word at the front of a reflowable text ends before a blank. -/
theorem Reflowable.front {place : Position} (reflowable : Reflowable (c :: cs) place) :
    (readFront c cs).endsWithLine = false := by
  obtain ⟨closed, plain⟩ := reflowable
  rw [scanFrom_cons] at closed plain
  have shut : (readFront c cs).closed = true := by
    have none := (List.append_eq_nil_iff.mp closed).1
    rw [Front.problems] at none
    split at none
    · assumption
    · contradiction
  have word : (readFront c cs).lexeme.any Lexeme.isComment = false := by
    cases found : (readFront c cs).lexeme with
    | none => rfl
    | some lexeme =>
      refine plain ⟨lexeme, place⟩ (List.mem_append_left _ ?_)
      rw [Front.tokens, found]
      exact List.mem_singleton.mpr rfl
  exact Front.endsWithLine_eq_false_iff.mpr ⟨shut, word⟩

/-- The lexemes of a text that can be part of a clause. -/
def lexemes (place : Position) (text : List Char) : List (Lexeme Int) :=
  (Clause.content (scanFrom place text).1).map Token.lexeme

/-- The lexeme of a front, unless it is a line feed. -/
def Front.lexemes (front : Front) : List (Lexeme Int) :=
  (Clause.content (front.tokens .start)).map Token.lexeme

/-- The lexemes of a text are that at its front and those behind it. -/
theorem lexemes_cons (place : Position) (c : Char) (cs : List Char) :
    lexemes place (c :: cs) = (readFront c cs).lexemes ++
      lexemes (place.after (readFront c cs).taken) (readFront c cs).rest := by
  have anywhere : (Clause.content ((readFront c cs).tokens place)).map Token.lexeme =
      (readFront c cs).lexemes := by
    unfold Front.lexemes Front.tokens
    cases (readFront c cs).lexeme with
    | none => rfl
    | some lexeme => cases lexeme <;> rfl
  rw [lexemes, scanFrom_cons, Clause.content_append (unended_tokens c cs place), List.map_append,
    anywhere]
  rfl

/-- A blank for a line feed is neither a word nor a fault. -/
theorem scanFrom_blank (place : Position) (text : List Char) :
    lexemes place (' ' :: text) = lexemes (place.step ' ') text ∧
      (scanFrom place (' ' :: text)).2 = (scanFrom (place.step ' ') text).2 := by
  rw [lexemes_cons, scanFrom_cons]
  exact ⟨rfl, rfl⟩

/-- A line feed leads to the next line and to nothing else that counts. -/
theorem scanFrom_newline (place : Position) (text : List Char) :
    lexemes place ('\n' :: text) = lexemes (place.step '\n') text ∧
      (scanFrom place ('\n' :: text)).2 = (scanFrom (place.step '\n') text).2 := by
  rw [lexemes_cons, scanFrom_cons]
  exact ⟨rfl, rfl⟩

/-- However its lines are broken, a text has the same lexemes, and no string is left open. -/
theorem scanFrom_reflowed {text : List Char} {place : Position}
    (reflowable : Reflowable text place) (chosen : Nat → Bool) (other : Position) :
    lexemes other (Text.reflowed chosen text) = lexemes place text ∧
      (scanFrom other (Text.reflowed chosen text)).2 = [] := by
  induction text using uncommented.induct generalizing chosen place other with
  | case1 =>
    rw [lexemes, lexemes, Text.reflowed, List.mapIdx_nil, scanFrom, scanFrom]
    exact ⟨rfl, rfl⟩
  | case2 c cs front =>
    rename_i ih
    by_cases feed : c = '\n'
    · subst feed
      have onward := ih reflowable.rest (fun place => chosen (place + 1))
      rw [(scanFrom_newline place cs).1, Text.reflowed_cons]
      split
      · rw [(scanFrom_blank other _).1, (scanFrom_blank other _).2]
        exact onward _
      · rw [(scanFrom_newline other _).1, (scanFrom_newline other _).2]
        exact onward _
    · obtain ⟨rest, later, whole, read⟩ := readFront_reflowed feed reflowable.front chosen
      obtain ⟨same, closed⟩ := ih reflowable.rest later (other.after front.taken)
      have shut : front.closed = true := (Front.endsWithLine_eq_false_iff.mp reflowable.front).1
      rw [whole, lexemes_cons, scanFrom_cons, read, lexemes_cons, Front.problems, if_pos shut]
      exact ⟨congrArg (front.lexemes ++ ·) same, closed⟩

/-- However its lines are broken, a program text without comments and open strings has the same
lexemes, and no string is left open. -/
theorem scan_reflow {source : String} (closed : (scan source).2 = [])
    (uncommented : ∀ token ∈ (scan source).1, token.lexeme.isComment = false)
    (chosen : Nat → Bool) :
    (Clause.content (scan (Text.reflow chosen source)).1).map Token.lexeme =
        (Clause.content (scan source).1).map Token.lexeme ∧
      (scan (Text.reflow chosen source)).2 = [] := by
  rw [scan, Text.reflow, String.toList_ofList]
  exact scanFrom_reflowed ⟨closed, uncommented⟩ chosen .start

end Token
end StepSequencer
