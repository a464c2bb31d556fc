import StepSequencer.Text.Blank

/-!
# Lines and runs that are read back

Lines without breaks, each ended by a line feed, are the lines of their text, and a text without
blanks is not changed by trimming. Within a line, a run of characters of a class is read whole when
the text behind it does not go on with that class.
-/
namespace StepSequencer.Text

/-- A text that does not start with a character of a class. -/
def Stops (inside : Char → Bool) (rest : List Char) : Prop :=
  ∀ c, rest.head? = some c → inside c = false

/-- A text stops a run at its first character if that is out of the class. -/
theorem stops_cons {inside : Char → Bool} {c : Char} (rest : List Char) (out : inside c = false) :
    Stops inside (c :: rest) := by
  intro d head
  obtain rfl : c = d := Option.some.inj head
  exact out

/-- The end of a text stops every run. -/
theorem stops_nil (inside : Char → Bool) : Stops inside [] := fun _ head => nomatch head

/-- A word in front stops a run when its first character does. -/
theorem stops_append {inside : Char → Bool} {word : List Char}
    (ends : (word.head?.any fun c => !inside c) = true) (rest : List Char) :
    Stops inside (word ++ rest) := by
  cases word with
  | nil => contradiction
  | cons c word => exact stops_cons (word ++ rest) (Bool.not_eq_true' _ ▸ ends)

/-- A run is taken up to where it stops. -/
theorem takeWhile_run {inside : Char → Bool} {run rest : List Char}
    (all : ∀ c ∈ run, inside c = true) (stops : Stops inside rest) :
    (run ++ rest).takeWhile inside = run := by
  rw [List.takeWhile_append_of_pos all]
  cases rest with
  | nil => rw [List.takeWhile_nil, List.append_nil]
  | cons c rest =>
    rw [List.takeWhile_cons_of_neg (by simp [stops c rfl]), List.append_nil]

/-- What is left behind a run starts where the run stops. -/
theorem dropWhile_run {inside : Char → Bool} {run rest : List Char}
    (all : ∀ c ∈ run, inside c = true) (stops : Stops inside rest) :
    (run ++ rest).dropWhile inside = rest := by
  rw [List.dropWhile_append_of_pos all]
  cases rest with
  | nil => rfl
  | cons c rest => rw [List.dropWhile_cons_of_neg (by simp [stops c rfl])]

/-- What is left behind a run stops it. -/
theorem stops_dropWhile (inside : Char → Bool) (text : List Char) :
    Stops inside (text.dropWhile inside) := by
  intro c head
  have first := List.head?_dropWhile_not inside text
  rw [head] at first
  exact first

/-- A character that is in neither of two words is not in both together. -/
theorem not_mem_append {c : Char} {word other : String} (front : c ∉ word.toList)
    (back : c ∉ other.toList) : c ∉ (word ++ other).toList := by
  rw [String.toList_append, List.mem_append]
  exact fun member => member.elim front back

/-- The characters of lines, each with its line feed. -/
theorem toList_join_lines (lines : List String) :
    (String.join (lines.map fun line => line ++ "\n")).toList =
      lines.flatMap fun line => line.toList ++ ['\n'] := by
  rw [String.toList_join, List.flatMap_map]
  simp only [String.toList_append]
  rfl

/-- The lines of a text in which only line feeds end a line. -/
def feedLines : List Char → List (List Char)
  | [] => []
  | c :: rest => if c = '\n' then [] :: feedLines rest else consFirst c (feedLines rest)

/-- A line without line feeds is the first line of a text in which a line feed follows it. -/
theorem feedLines_line {line : List Char} (unbroken : '\n' ∉ line) (rest : List Char) :
    feedLines (line ++ '\n' :: rest) = line :: feedLines rest := by
  induction line with
  | nil => rw [List.nil_append, feedLines, if_pos rfl]
  | cons c line ih =>
    have plain : c ≠ '\n' := fun same => unbroken (same ▸ List.mem_cons_self)
    have tail := ih fun member => unbroken (List.mem_cons_of_mem c member)
    rw [List.cons_append, feedLines, if_neg plain, tail, consFirst]

/-- Lines without line feeds, each ended by one, are the first lines of a text that they start. -/
theorem feedLines_lines {lines : List (List Char)} (unbroken : ∀ line ∈ lines, '\n' ∉ line)
    (rest : List Char) :
    feedLines (lines.flatMap (fun line => line ++ ['\n']) ++ rest) = lines ++ feedLines rest := by
  induction lines with
  | nil => rfl
  | cons line lines ih =>
    have first := unbroken line List.mem_cons_self
    have others := ih fun other member => unbroken other (List.mem_cons_of_mem line member)
    rw [List.flatMap_cons, List.append_assoc, List.append_assoc, List.singleton_append,
      feedLines_line first, others, List.cons_append]

/-- A line without breaks is the first line of a text in which a line feed follows it. -/
theorem splitLines_line {line : List Char} (unbroken : ∀ c ∈ line, isLineBreak c = false)
    (rest : List Char) : splitLines (line ++ '\n' :: rest) = line :: splitLines rest := by
  induction line with
  | nil =>
    rw [List.nil_append, splitLines.eq_3 _ _ (by simp), if_pos (by decide)]
  | cons c line ih =>
    have plain := unbroken c List.mem_cons_self
    have notReturn : c ≠ '\r' := by
      rintro rfl
      exact absurd plain (by decide)
    have tail := ih fun other member => unbroken other (List.mem_cons_of_mem c member)
    rw [List.cons_append, splitLines.eq_3 _ _ (fun _ same => absurd same notReturn),
      if_neg (by simp [plain]), tail, consFirst]

/-- A text without breaks is one line, unless it is empty. -/
theorem splitLines_single {c : Char} {line : List Char}
    (unbroken : ∀ d ∈ c :: line, isLineBreak d = false) : splitLines (c :: line) = [c :: line] := by
  induction line generalizing c with
  | nil => rw [splitLines.eq_3 _ _ (by simp), if_neg (by simp [unbroken c]), splitLines, consFirst]
  | cons d line ih =>
    obtain ⟨plain, others⟩ := List.forall_mem_cons.mp unbroken
    have notReturn : c ≠ '\r' := by
      rintro rfl
      exact absurd plain (by decide)
    rw [splitLines.eq_3 _ _ (fun _ same => absurd same notReturn), if_neg (by simp [plain]),
      ih others, consFirst]

/-- Lines without breaks, each ended by a line feed, are the lines of the whole. -/
theorem splitLines_lines {lines : List (List Char)}
    (unbroken : ∀ line ∈ lines, ∀ c ∈ line, isLineBreak c = false) :
    splitLines (lines.flatMap fun line => line ++ ['\n']) = lines := by
  induction lines with
  | nil => rw [List.flatMap_nil, splitLines]
  | cons line lines ih =>
    have first := unbroken line List.mem_cons_self
    have rest := ih fun other member => unbroken other (List.mem_cons_of_mem line member)
    rw [List.flatMap_cons, List.append_assoc, List.singleton_append, splitLines_line first, rest]

/-- Dropping blanks from the front of a text without blanks drops nothing. -/
theorem dropWhile_isBlank {text : List Char} (solid : ∀ c ∈ text, isBlank c = false) :
    text.dropWhile isBlank = text := by
  cases text with
  | nil => rfl
  | cons c text => rw [List.dropWhile_cons_of_neg (by simp [solid c List.mem_cons_self])]

/-- A text without blanks has none at its edges. -/
theorem trim_of_solid {text : List Char} (solid : ∀ c ∈ text, isBlank c = false) :
    trim text = text := by
  have backwards : ∀ c ∈ text.reverse, isBlank c = false := fun c member =>
    solid c (List.mem_reverse.mp member)
  rw [trim, trimBy, trimEndBy, dropWhile_isBlank solid, dropWhile_isBlank backwards,
    List.reverse_reverse]

end StepSequencer.Text
