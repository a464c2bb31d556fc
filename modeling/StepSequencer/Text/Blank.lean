/-!
# Blank characters and line breaks

Which characters are white space, which of them end a line, and the two operations that
depend on them: cutting blanks off the edges of a text and cutting a text into lines.
-/
namespace StepSequencer.Text

/-- The white space of the Unicode standard, together with the four information separators. -/
def isBlank (c : Char) : Bool :=
  let code := c.toNat
  (0x09 ≤ code && code ≤ 0x0D) || (0x1C ≤ code && code ≤ 0x20) || code == 0x85 || code == 0xA0 ||
    code == 0x1680 || (0x2000 ≤ code && code ≤ 0x200A) || code == 0x2028 || code == 0x2029 ||
    code == 0x202F || code == 0x205F || code == 0x3000

/-- The four information separators, which not every reader takes for white space. -/
def isSeparator (c : Char) : Bool := 0x1C ≤ c.toNat && c.toNat ≤ 0x1F

/-- The text without the characters of a class at its end. -/
def trimEndBy (cut : Char → Bool) (text : List Char) : List Char :=
  (text.reverse.dropWhile cut).reverse

/-- The text without the characters of a class at either edge. -/
def trimBy (cut : Char → Bool) (text : List Char) : List Char := trimEndBy cut (text.dropWhile cut)

/-- The text without blanks at either edge. -/
def trim (text : List Char) : List Char := trimBy isBlank text

/-- The characters that end a line. -/
def isLineBreak (c : Char) : Bool :=
  let code := c.toNat
  (0x0A ≤ code && code ≤ 0x0D) || (0x1C ≤ code && code ≤ 0x1E) || code == 0x85 ||
    code == 0x2028 || code == 0x2029

/-- Put a character in front of the first line. -/
def consFirst (c : Char) : List (List Char) → List (List Char)
  | [] => [[c]]
  | line :: lines => (c :: line) :: lines

/-- The lines of a text without their breaks. A carriage return and a line feed together are one
break, and a break at the end of the text opens no further line. -/
def splitLines : List Char → List (List Char)
  | [] => []
  | '\r' :: '\n' :: rest => [] :: splitLines rest
  | c :: rest => if isLineBreak c then [] :: splitLines rest else consFirst c (splitLines rest)

/-- Every carriage return, alone or before a line feed, read as one line feed. -/
def unifyNewlines : List Char → List Char
  | [] => []
  | '\r' :: '\n' :: rest => '\n' :: unifyNewlines rest
  | c :: rest => (if c == '\r' then '\n' else c) :: unifyNewlines rest

end StepSequencer.Text
