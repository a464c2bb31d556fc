/-!
# Comments of the delivered languages

A reader that takes the comments out of a text goes over it character by character, with a look at
the characters ahead, and knows whether it stands in a comment. No mark of a comment has a line feed
in it, so what the reader does up to a line feed does not depend on what comes behind: the text
before a line feed and the text from there on can be read one after the other.
-/
namespace StepSequencer

/-- The comments of a language: those from a mark to the end of the line and, in some languages,
those from a slash and a star to a star and a slash. -/
structure CommentStyle where
  mark : List Char
  blocks : Bool
  mark_some : mark ≠ [] := by decide
  mark_inline : '\n' ∉ mark := by decide

/-- Where a reader stands: outside of comments, in a comment up to the end of the line, between the
two characters that open a block, in a block, or between the two characters that close it. -/
inductive CommentState where
  | outside
  | line
  | opening
  | block
  | closing
deriving DecidableEq, Repr

namespace CommentStyle

open CommentState

variable (style : CommentStyle)

/-- Where a reader stands behind the first character of a text. -/
def next (state : CommentState) (c : Char) (rest : List Char) : CommentState :=
  match state with
  | outside =>
    if style.mark.isPrefixOf (c :: rest) then line
    else if style.blocks && ['/', '*'].isPrefixOf (c :: rest) then opening
    else outside
  | line => if c = '\n' then outside else line
  | opening => block
  | block => if ['*', '/'].isPrefixOf (c :: rest) then closing else block
  | closing => outside

/-- The characters of a text that stand outside of comments. A line feed that ends a comment does,
the marks of a block do not. -/
def uncommented : CommentState → List Char → List Char
  | _, [] => []
  | state, c :: rest =>
    let next := style.next state c rest
    (if next = outside ∧ state ≠ closing then [c] else []) ++ uncommented next rest

/-- Where a reader stands behind a text. -/
def after : CommentState → List Char → CommentState
  | state, [] => state
  | state, c :: rest => after (style.next state c rest) rest

/-- A mark without line feeds is found before a line feed or not at all. -/
theorem isPrefixOf_feed {mark : List Char} (inline : '\n' ∉ mark) (text rest : List Char) :
    mark.isPrefixOf (text ++ '\n' :: rest) = mark.isPrefixOf text := by
  induction mark generalizing text with
  | nil => rw [List.isPrefixOf_nil_left, List.isPrefixOf_nil_left]
  | cons c mark ih =>
    rw [List.mem_cons, not_or] at inline
    cases text with
    | nil =>
      have differs : (c == '\n') = false := beq_eq_false_iff_ne.mpr (Ne.symm inline.1)
      rw [List.nil_append, List.isPrefixOf_cons_cons, differs, Bool.false_and,
        List.isPrefixOf_cons_nil]
    | cons d text =>
      rw [List.cons_append, List.isPrefixOf_cons_cons, List.isPrefixOf_cons_cons, ih inline.2]

/-- What a reader does before a line feed does not depend on what comes behind. -/
theorem next_feed (state : CommentState) (c : Char) (text rest : List Char) :
    style.next state c (text ++ '\n' :: rest) = style.next state c text := by
  have ahead {mark : List Char} (inline : '\n' ∉ mark) :
      mark.isPrefixOf (c :: (text ++ '\n' :: rest)) = mark.isPrefixOf (c :: text) :=
    isPrefixOf_feed inline (c :: text) rest
  cases state with
  | outside => rw [next, next, ahead style.mark_inline, ahead (by decide)]
  | block => rw [next, next, ahead (by decide)]
  | line | opening | closing => rfl

/-- Where a reader stands behind a text and then another that starts with a line feed. -/
theorem after_feed (state : CommentState) (text rest : List Char) :
    style.after state (text ++ '\n' :: rest) =
      style.after (style.after state text) ('\n' :: rest) := by
  induction text generalizing state with
  | nil => rfl
  | cons c text ih =>
    calc style.after state (c :: text ++ '\n' :: rest)
      _ = style.after (style.next state c text) (text ++ '\n' :: rest) := by
        rw [List.cons_append, after, next_feed]
      _ = style.after (style.after state (c :: text)) ('\n' :: rest) := ih _

/-- The text before a line feed and the text from there on are read one after the other. -/
theorem uncommented_feed (state : CommentState) (text rest : List Char) :
    style.uncommented state (text ++ '\n' :: rest) =
      style.uncommented state text ++
        style.uncommented (style.after state text) ('\n' :: rest) := by
  induction text generalizing state with
  | nil => rfl
  | cons c text ih =>
    rw [List.cons_append, uncommented, uncommented, after, next_feed, ih, List.append_assoc]

/-- Behind a line feed, a reader that is not in a block stands outside. -/
theorem next_newline {state : CommentState} (inline : state = outside ∨ state = line)
    (rest : List Char) : style.next state '\n' rest = outside := by
  rcases inline with rfl | rfl
  · have unmarked : style.mark.isPrefixOf ('\n' :: rest) = false := by
      have absent := isPrefixOf_feed style.mark_inline [] rest
      rw [List.nil_append] at absent
      rw [absent]
      cases mark : style.mark with
      | nil => exact absurd mark style.mark_some
      | cons c more => rfl
    rw [next, unmarked, if_neg Bool.false_ne_true, if_neg]
    simp [List.isPrefixOf]
  · rfl

/-- A line feed that is not in a block is outside of comments. -/
theorem uncommented_newline {state : CommentState} (inline : state = outside ∨ state = line)
    (rest : List Char) :
    style.uncommented state ('\n' :: rest) = '\n' :: style.uncommented outside rest := by
  have apart : state ≠ closing := by
    rcases inline with rfl | rfl <;> decide
  rw [uncommented, next_newline style inline, if_pos ⟨rfl, apart⟩]
  rfl

/-- Without blocks a reader that stands outside or in a line stays so. -/
theorem after_inline (unblocked : style.blocks = false) {state : CommentState}
    (inline : state = outside ∨ state = line) (text : List Char) :
    style.after state text = outside ∨ style.after state text = line := by
  induction text generalizing state with
  | nil => exact inline
  | cons c text ih =>
    refine ih ?_
    rcases inline with rfl | rfl
    · rw [next, unblocked, Bool.false_and, if_neg Bool.false_ne_true]
      split
      · exact .inr rfl
      · exact .inl rfl
    · rw [next]
      split
      · exact .inl rfl
      · exact .inr rfl

/-- A comment up to the end of the line leaves nothing of a text exactly when the text has no line
feed. -/
theorem uncommented_line_eq_nil_iff (text : List Char) :
    style.uncommented line text = [] ↔ '\n' ∉ text := by
  induction text with
  | nil => simp [uncommented]
  | cons c text ih =>
    by_cases feed : c = '\n'
    · subst feed
      rw [uncommented_newline style (.inr rfl)]
      simp
    · have stays : style.next line c text = line := if_neg feed
      have hidden : style.uncommented line (c :: text) = style.uncommented line text := by
        rw [uncommented, stays]
        rfl
      simpa [hidden, Ne.symm feed] using ih

end CommentStyle

end StepSequencer
